/-
# The agent, and the framing of its stream

`main` in `xAppAgent.py` reads the socket with `recv(4096)` and splits what it gets at
`msg:`; each part but the first is a message, which `msgs_proc` takes apart.  Nothing is
kept from one `recv` to the next, and TCP has no message boundaries.

`run_eq_iff` says when that works: the agent handles exactly the reports that were
written, each with the values it was written with, if and only if every chunk that
`recv` returns is made of whole lines.  A chunk of whole lines is split into these
(`split_stream`), and the parts of a chunk can only be as long as the chunk
(`Text.length_split_tail_le`), while a part that is taken for a report is not shorter
than the report's own line (`length_body_le`): nothing is left over for a line that was cut.

`float` is Python's conversion of a string to a float, of which only its values on
numerals matter, and `int` has no limit on digits, which the numerals of a line, being
those of 64-bit numbers, never come near.  The text is ASCII, so `decode` is left out; so
is what becomes of a report behind `msgs_proc`.
-/

import NearRtRic.Xapp.Report

namespace NearRtRic.Xapp

open Text

variable {F : Type}

/-- What `msgs_proc` returns. -/
structure Processed (F : Type) where
  msg_type : Chars
  msg_time : F
  msg_imsi : Int
  int_cellId : Int
  msg_info : Chars
  deriving DecidableEq, Repr

/-- `msgs_proc`, `none` being an exception. -/
def msgs_proc (float : Chars → Option F) (data_ue : Chars) : Option (Processed F) := do
  let data_str := data_ue.splitOn '.'
  let int_cellId ← data_str[0]?.bind (parseInt 0)
  let msg_imsi ← data_str[1]?.bind (parseInt 0)
  let msg_type ← data_str[2]?
  let msg_info ← data_str[3]?
  let msg_time ← (msg_info.splitOn ',')[0]?.bind float
  return { msg_type, msg_time, msg_imsi, int_cellId, msg_info }

/-- What the loop of `main` has handled, and whether it still runs. -/
structure Agent (F : Type) where
  processed : List (Processed F) := []
  running : Bool := true
  deriving DecidableEq, Repr

namespace Agent

variable (float : Chars → Option F)

/-- One message, if none before it has ended the loop: an exception of `msgs_proc` does, since
`main` catches none. -/
def handle (a : Agent F) (data_ue : Chars) : Agent F :=
  if a.running then
    match msgs_proc float data_ue with
    | some p => { a with processed := a.processed ++ [p] }
    | none => { a with running := false }
  else a

/-- One `recv`. -/
def recv (a : Agent F) (data : Chars) : Agent F :=
  (split "msg:".toList data).tail.foldl (handle float) a

/-- The loop over the chunks that `recv` returns. -/
def run (chunks : List Chars) : Agent F := chunks.foldl (recv float) {}

end Agent

/-- What is written on the socket for a sequence of reports. -/
def stream (reports : List Report) : Chars := reports.flatMap Report.text

/-- What the agent is to make of a report: `double` is the float that is nearest to a number. -/
def Report.processed (double : Nat → F) (r : Report) : Processed F where
  msg_type := r.reprot_type.text
  msg_time := double r.time
  msg_imsi := r.imsi
  int_cellId := r.int_cellId
  msg_info := r.info

/-- Each chunk is made of whole lines. -/
def WholeLines (reports : List Report) (chunks : List Chars) : Prop :=
  ∃ groups : List (List Report), groups.flatten = reports ∧ chunks = groups.map stream

/-! ### One message -/

variable {float : Chars → Option F} {double : Nat → F} {r : Report} {p : Chars}

/-- The body of a line is taken apart into what it was made of. -/
theorem msgs_proc_body (hfloat : ∀ n : Nat, float (decimal n) = some (double n)) (r : Report) :
    msgs_proc float r.body = some (r.processed double) := by
  have hcell : parseInt 0 (decimal r.int_cellId) = _ := parseInt_decimal (.inl rfl)
  have himsi : parseInt 0 (decimal r.imsi) = _ := parseInt_decimal (.inl rfl)
  have htime := hfloat r.time
  unfold msgs_proc
  rw [Report.splitOn_body]
  simp only [List.getElem?_cons_zero, List.getElem?_cons_succ, Option.bind_some, hcell, himsi,
    Report.splitOn_info, List.map_cons, htime, Option.bind_eq_bind, Option.pure_def]
  rfl

/-- **A part that is taken for a report is not shorter than the report's own line.** -/
theorem length_body_le (h : msgs_proc float p = some (r.processed double)) :
    r.body.length ≤ p.length := by
  have hjoin : ['.'].intercalate (p.splitOn '.') = p := List.intercalate_splitOn '.'
  unfold msgs_proc at h
  simp only [Option.bind_eq_bind, Option.bind_eq_some_iff, Option.pure_def] at h
  obtain ⟨cell, ⟨f₀, hf₀, hcell⟩, imsi, ⟨f₁, hf₁, himsi⟩, type, hf₂, info, hf₃, _, -, h⟩ := h
  obtain ⟨rfl, -, rfl, rfl, rfl⟩ := Processed.mk.inj (Option.some.inj h)
  have hcell := length_decimal_le hcell
  have himsi := length_decimal_le himsi
  have hfields : p.splitOn '.' =
      f₀ :: f₁ :: r.reprot_type.text :: r.info :: (p.splitOn '.').drop 4 := by
    match p.splitOn '.', hf₀, hf₁, hf₂, hf₃ with
    | _ :: _ :: _ :: _ :: _, rfl, rfl, rfl, rfl => rfl
  rw [hfields, intercalate_cons] at hjoin
  rw [← hjoin, Report.body, intercalate_cons]
  simp only [List.flatMap_cons, List.flatMap_nil, List.length_append, List.length_nil]
  omega

/-! ### The loop -/

/-- A report that is processed is added, and the loop goes on. -/
theorem handle_some {acc : List (Processed F)} {t : Processed F} (h : msgs_proc float p = some t) :
    Agent.handle float ⟨acc, true⟩ p = ⟨acc ++ [t], true⟩ := by
  unfold Agent.handle
  rw [if_pos rfl, h]

/-- One that raises ends the loop. -/
theorem handle_none {acc : List (Processed F)} (h : msgs_proc float p = none) :
    Agent.handle float ⟨acc, true⟩ p = ⟨acc, false⟩ := by
  unfold Agent.handle
  rw [if_pos rfl, h]

/-- After an exception nothing is handled. -/
theorem foldl_handle_stopped (parts : List Chars) (acc : List (Processed F)) :
    parts.foldl (Agent.handle float) ⟨acc, false⟩ = ⟨acc, false⟩ := by
  induction parts with
  | nil => rfl
  | cons p parts ih => exact ih

/-- **The loop runs on exactly if all parts are messages.** -/
theorem foldl_handle_iff {parts : List Chars} {acc out : List (Processed F)} :
    parts.foldl (Agent.handle float) ⟨acc, true⟩ = ⟨out, true⟩ ↔
      ∃ ts, out = acc ++ ts ∧ List.Forall₂ (fun p t => msgs_proc float p = some t) parts ts := by
  induction parts generalizing acc with
  | nil =>
      constructor
      · intro h
        exact ⟨[], by simpa using (Agent.mk.inj h).1.symm, .nil⟩
      · rintro ⟨ts, rfl, hts⟩
        cases hts
        simp
  | cons p parts ih =>
      rw [List.foldl_cons]
      cases hp : msgs_proc float p with
      | none =>
          rw [handle_none hp, foldl_handle_stopped]
          constructor
          · intro h
            cases (Agent.mk.inj h).2
          · rintro ⟨ts, -, hts⟩
            cases hts with
            | cons ht _ =>
                rw [hp] at ht
                cases ht
      | some t =>
          rw [handle_some hp, ih]
          constructor
          · rintro ⟨ts, rfl, hts⟩
            exact ⟨t :: ts, by simp, .cons hp hts⟩
          · rintro ⟨ts, rfl, hts⟩
            cases hts with
            | cons ht hts =>
                obtain rfl := Option.some.inj (hp.symm.trans ht)
                exact ⟨_, by simp, hts⟩

/-- The part is taken for the report. -/
def TakenFor (float : Chars → Option F) (double : Nat → F) (p : Chars) (r : Report) : Prop :=
  msgs_proc float p = some (r.processed double)

/-- The parts of the chunks that are taken for messages. -/
def parts (chunks : List Chars) : List Chars :=
  chunks.flatMap fun c => (split "msg:".toList c).tail

/-- What the agent does depends on the parts of the stream only. -/
theorem run_eq_foldl (chunks : List Chars) :
    Agent.run float chunks = (parts chunks).foldl (Agent.handle float) {} :=
  List.foldl_flatMap.symm

/-- It processes the reports exactly if each part is taken for one of them. -/
theorem run_iff_parts {reports : List Report} {chunks : List Chars} :
    Agent.run float chunks = ⟨reports.map (Report.processed double), true⟩ ↔
      List.Forall₂ (TakenFor float double) (parts chunks) reports := by
  have hmap := List.forall₂_map_right_iff (R := fun p t => msgs_proc float p = some t)
    (f := Report.processed double) (l := parts chunks) (u := reports)
  rw [run_eq_foldl, foldl_handle_iff]
  constructor
  · rintro ⟨ts, hts, h⟩
    rw [List.nil_append] at hts
    subst hts
    exact hmap.1 h
  · intro h
    exact ⟨_, rfl, hmap.2 h⟩

/-! ### Chunks and lines -/

/-- The stream is its reports, each behind a mark. -/
theorem stream_eq_intercalate (reports : List Report) :
    stream reports = "msg:".toList.intercalate ([] :: reports.map Report.body) := by
  rw [intercalate_cons, List.flatMap_map]
  rfl

/-- **Whole lines are found again.** -/
theorem split_stream (reports : List Report) :
    split "msg:".toList (stream reports) = [] :: reports.map Report.body := by
  rw [stream_eq_intercalate]
  refine split_intercalate (fun f hf => ?_) (List.cons_ne_nil _ _)
  rcases List.mem_cons.1 hf with rfl | hf
  · exact List.not_mem_nil
  · obtain ⟨r, -, rfl⟩ := List.mem_map.1 hf
    exact Report.notMem_body

/-- However the reports are grouped, the parts are their bodies. -/
theorem parts_of_groups (groups : List (List Report)) :
    parts (groups.map stream) = groups.flatten.map Report.body := by
  induction groups with
  | nil => rfl
  | cons g groups ih =>
      have hcons : parts ((g :: groups).map stream) =
          (split "msg:".toList (stream g)).tail ++ parts (groups.map stream) := rfl
      rw [hcons, split_stream, ih, List.flatten_cons, List.map_append]
      rfl

/-- The reports that a chunk's parts are taken for are not longer than the chunk. -/
theorem length_stream_le {c : Chars} {reports : List Report}
    (h : List.Forall₂ (TakenFor float double) (split "msg:".toList c).tail reports) :
    (stream reports).length ≤ c.length := by
  have hsep : "msg:".toList ≠ [] := List.cons_ne_nil _ _
  refine le_trans ?_ (length_split_tail_le hsep c)
  generalize (split "msg:".toList c).tail = ps at h
  induction h with
  | nil => exact Nat.zero_le _
  | cons hp _ ih =>
      have hbody := length_body_le hp
      rw [stream, List.flatMap_cons, List.length_append, Report.text, List.length_append,
        List.map_cons, List.sum_cons]
      rw [stream] at ih
      omega

/-- A relation to two lists in a row splits. -/
theorem forall₂_append_left {α β : Type} {R : α → β → Prop} {as as' : List α} {bs : List β}
    (h : List.Forall₂ R (as ++ as') bs) :
    ∃ cs cs', bs = cs ++ cs' ∧ List.Forall₂ R as cs ∧ List.Forall₂ R as' cs' := by
  induction as generalizing bs with
  | nil => exact ⟨[], bs, rfl, .nil, h⟩
  | cons a as ih =>
      cases h with
      | cons hab h =>
          obtain ⟨cs, cs', rfl, hcs, hcs'⟩ := ih h
          exact ⟨_ :: cs, cs', rfl, .cons hab hcs, hcs'⟩

/-- The same for the reports of several chunks. -/
theorem length_stream_le_flatten {chunks : List Chars} {reports : List Report}
    (h : List.Forall₂ (TakenFor float double) (parts chunks) reports) :
    (stream reports).length ≤ chunks.flatten.length := by
  induction chunks generalizing reports with
  | nil =>
      cases h
      exact Nat.zero_le _
  | cons c chunks ih =>
      obtain ⟨rs, rs', rfl, hrs, hrs'⟩ := forall₂_append_left h
      have hc := length_stream_le hrs
      have hrest := ih hrs'
      rw [List.flatten_cons, List.length_append, stream, List.flatMap_append, List.length_append]
      rw [stream] at hc hrest
      omega

/-- Chunks that are taken for the reports they are cut from are made of whole lines. -/
theorem wholeLines_of_parts {chunks : List Chars} {reports : List Report}
    (hstream : chunks.flatten = stream reports)
    (h : List.Forall₂ (TakenFor float double) (parts chunks) reports) :
    WholeLines reports chunks := by
  induction chunks generalizing reports with
  | nil =>
      cases h
      exact ⟨[], rfl, rfl⟩
  | cons c chunks ih =>
      obtain ⟨rs, rs', rfl, hrs, hrs'⟩ := forall₂_append_left h
      have hc := length_stream_le hrs
      have hrest := length_stream_le_flatten hrs'
      have hsplit : stream (rs ++ rs') = stream rs ++ stream rs' := List.flatMap_append
      have hlen := congrArg List.length hstream
      rw [hsplit, List.flatten_cons, List.length_append, List.length_append] at hlen
      -- no chunk has anything left over
      have heq : c.length = (stream rs).length := by omega
      rw [hsplit, List.flatten_cons] at hstream
      obtain ⟨rfl, hstream'⟩ := List.append_inj hstream heq
      obtain ⟨groups, rfl, rfl⟩ := ih hstream' hrs'
      exact ⟨rs :: groups, rfl, rfl⟩

/-- **The framing of the stream.**  The agent handles the reports that were written, all of
them and as they were written, exactly if each chunk it receives is made of whole lines. -/
theorem run_eq_iff {float : Chars → Option F} {double : Nat → F}
    (hfloat : ∀ n : Nat, float (decimal n) = some (double n))
    {reports : List Report} {chunks : List Chars} (hstream : chunks.flatten = stream reports) :
    Agent.run float chunks = ⟨reports.map (Report.processed double), true⟩ ↔
      WholeLines reports chunks := by
  rw [run_iff_parts]
  constructor
  · exact wholeLines_of_parts hstream
  · rintro ⟨groups, rfl, rfl⟩
    rw [parts_of_groups, List.forall₂_map_left_iff, List.forall₂_same]
    intro r _
    exact msgs_proc_body hfloat r

/-- A report of cell 2. -/
def sampleReport : Report := ⟨2, 1, .cuup, 1000, [1, 0]⟩

/-- Two lines in one chunk, with times that a float holds exactly. -/
theorem run_eq_iff_sample : Agent.run (parseNat 0) [stream [sampleReport, sampleReport]] =
    ⟨[sampleReport, sampleReport].map (Report.processed id), true⟩ :=
  (run_eq_iff (fun _ => parseNat_toDigits (.inl rfl)) (List.append_nil _)).2
    ⟨[[sampleReport, sampleReport]], rfl, rfl⟩

/-- A line that is cut before its last character is handled without it. -/
theorem not_framed : ¬ ∀ (reports : List Report) (chunks : List Chars),
    chunks.flatten = stream reports →
      Agent.run (parseNat 0) chunks = ⟨reports.map (Report.processed id), true⟩ := by
  intro h
  have hcut := h [sampleReport] [(stream [sampleReport]).take 20, (stream [sampleReport]).drop 20]
    (by decide +kernel)
  revert hcut
  decide +kernel

end NearRtRic.Xapp
