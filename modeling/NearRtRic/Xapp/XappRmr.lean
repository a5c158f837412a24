/-
# Sending from several threads

`XappRmr::xapp_rmr_send` of `xapp_rmr.cc` hands to RMR what the threads of the xApp have to
send.  They all write into one buffer, `_xapp_send_buff`, and no lock keeps them apart: a call
writes the header, copies the payload behind it and offers the buffer to RMR, up to
`_nattempts` times.  Between any two of these another thread may step (`XappRmr.next`), and
what RMR answers is given.

As long as a call begins only when no other is going on, RMR has taken the messages of the
calls that returned true, each of them once and in the order of the calls, whatever an earlier
call left in the buffer, and NULL is written through exactly where `rmr_alloc_msg` had no buffer
for the call (`sent_of_reached`).  Two calls at a time can send the payload of the one under
the name of the other (`crossed`).

`rmr_str2meid` is RMR's; it is known to write a name that leaves room for the NUL behind it.  A
buffer has room for `RMR_DEF_SIZE` bytes, which is more than the callers have to send.
-/

import NearRtRic.CString.Basic
import Mathlib.Logic.Function.Basic

namespace NearRtRic.Xapp

open CString

/-- The types of the messages that the xApp sends. -/
inductive SendType where
  | RIC_CONTROL_REQ
  | RIC_SUB_REQ
  deriving DecidableEq, Repr

/-- The fields of `xapp_rmr_header` that are read. -/
structure XappRmrHeader where
  message_type : SendType
  payload_length : Nat
  meid : Bytes
  deriving DecidableEq, Repr

/-- The arguments of a call; there is as much payload as the header says. -/
structure SendCall where
  hdr : XappRmrHeader
  payload : Bytes
  fits : hdr.payload_length ≤ payload.length
  deriving DecidableEq

/-- A message buffer; `none` for a field as RMR made it.  `meid` is the whole name field. -/
structure Mbuf where
  mtype : Option SendType
  len : Nat
  sub_id : Option Int
  meid : Bytes
  payload : Bytes
  deriving DecidableEq, Repr

/-- What is read of a buffer: the name up to the NUL, the payload up to its length. -/
def Mbuf.message (m : Mbuf) : Mbuf :=
  { m with meid := visible m.meid, payload := m.payload.take m.len }

/-- The message that a call is to send. -/
def SendCall.message (call : SendCall) : Mbuf where
  mtype := some call.hdr.message_type
  len := call.hdr.payload_length
  sub_id := some (-1)
  meid := visible call.hdr.meid
  payload := call.payload.take call.hdr.payload_length

/-- `RMR_MAX_MEID`, the length of the name field. -/
def RMR_MAX_MEID : Nat := 32

/-- There is room for the name of a call, and for the NUL behind it. -/
def SendCall.Named (call : SendCall) : Prop := (visible call.hdr.meid).length < RMR_MAX_MEID

instance (call : SendCall) : Decidable call.Named :=
  inferInstanceAs (Decidable ((visible call.hdr.meid).length < RMR_MAX_MEID))

/-- `rmr_str2meid`, on the name field of a buffer and a name. -/
structure Str2meid where
  write : Bytes → Bytes → Bytes
  visible_write : ∀ field name, (visible name).length < RMR_MAX_MEID →
    visible (write field name) = visible name

/-- What `rmr_send_msg` returns. -/
inductive SendState where
  /-- The message is out: a buffer in the state `RMR_OK`. -/
  | ok
  /-- The message, in another state. -/
  | again
  | null
  deriving DecidableEq, Repr

/-- How far a call is. -/
inductive SendStage where
  | header
  | payload
  | sending (rmr_attempts : Nat)
  deriving DecidableEq, Repr

/-- The sender, with the calls that are going on, and a record of what RMR took and of what the
calls returned. -/
structure XappRmr (τ : Type) where
  nattempts : Nat := 10
  rmr_is_ready : Bool := true
  xapp_send_buff : Option Mbuf := none
  calls : τ → Option (SendCall × SendStage) := fun _ => none
  accepted : List Mbuf := []
  returned : List (SendCall × Bool) := []

namespace XappRmr

variable {τ : Type} [DecidableEq τ] (S : Str2meid) (r : XappRmr τ) (t : τ)

/-- A thread begins a call, and asks for a buffer where there is none; `alloc` is what
`rmr_alloc_msg` returns then. -/
def begin (call : SendCall) (alloc : Option Mbuf) : XappRmr τ :=
  { r with
    xapp_send_buff := r.xapp_send_buff <|> alloc
    calls := Function.update r.calls t (some (call, .header)) }

/-- A call goes on. -/
def goTo (call : SendCall) (stage : SendStage) : XappRmr τ :=
  { r with calls := Function.update r.calls t (some (call, stage)) }

/-- A call returns. -/
def ret (call : SendCall) (result : Bool) : XappRmr τ :=
  { r with
    calls := Function.update r.calls t none
    returned := r.returned ++ [(call, result)] }

/-- `rmr_header`. -/
def rmr_header (hdr : XappRmrHeader) (m : Mbuf) : Mbuf :=
  { m with
    mtype := some hdr.message_type
    len := hdr.payload_length
    sub_id := some (-1)
    meid := S.write m.meid hdr.meid }

/-- The payload is copied. -/
def copyPayload (call : SendCall) (m : Mbuf) : Mbuf :=
  { m with
    payload := memcpy (call.payload.take call.hdr.payload_length) m.payload
    len := call.hdr.payload_length }

/-- One round of the loop: RMR is offered the buffer, if there is one. -/
def attempt (call : SendCall) (rmr_attempts : Nat) (answer : SendState) : XappRmr τ :=
  match r.xapp_send_buff, answer with
  | some m, .ok =>
      { r with xapp_send_buff := none, accepted := r.accepted ++ [m.message] }.ret t call true
  | some _, .again => r.goTo t call (.sending rmr_attempts)
  | _, _ => { r with xapp_send_buff := none }.goTo t call (.sending rmr_attempts)

/-- The next step of a thread that is in `xapp_rmr_send`; `none` where it is not, or writes
through NULL. -/
def next (answer : SendState) : Option (XappRmr τ) :=
  match r.calls t with
  | none => none
  | some (call, .header) =>
      r.xapp_send_buff.map fun m =>
        { r with xapp_send_buff := some (rmr_header S call.hdr m) }.goTo t call .payload
  | some (call, .payload) =>
      r.xapp_send_buff.map fun m =>
        let r := { r with xapp_send_buff := some (copyPayload call m) }
        if r.rmr_is_ready then r.goTo t call (.sending r.nattempts) else r.ret t call false
  | some (call, .sending 0) => some (r.ret t call false)
  | some (call, .sending (rmr_attempts + 1)) => some (r.attempt t call rmr_attempts answer)

/-- No call is going on. -/
def Idle : Prop := ∀ t, r.calls t = none

/-- The states that calls lead to of which none begins while another is going on. -/
inductive Reached (S : Str2meid) : XappRmr τ → Prop
  | start (nattempts : Nat) (rmr_is_ready : Bool) : Reached S { nattempts, rmr_is_ready }
  | begin {r : XappRmr τ} (t : τ) (call : SendCall) (alloc : Option Mbuf) :
      Reached S r → r.Idle → call.Named → Reached S (r.begin t call alloc)
  | next {r r' : XappRmr τ} (t : τ) (answer : SendState) :
      Reached S r → r.next S t answer = some r' → Reached S r'

/-! ### What a step does -/

variable {S} {r} {r' : XappRmr τ} {t} {call : SendCall} {stage : SendStage} {answer : SendState}

/-- A call gets to another stage, or returns. -/
theorem next_cases (h : r.next S t answer = some r') :
    ∃ call stage, r.calls t = some (call, stage) ∧
      ((∃ buff stage', r' = { r with xapp_send_buff := buff }.goTo t call stage') ∨
        (∃ buff, r' = { r with xapp_send_buff := buff }.ret t call false) ∨
        ∃ m n, stage = .sending (n + 1) ∧ r.xapp_send_buff = some m ∧
          r' = { r with
            xapp_send_buff := none, accepted := r.accepted ++ [m.message] }.ret t call true) := by
  unfold next at h
  split at h
  · cases h
  · rename_i call hcall
    obtain ⟨m, -, rfl⟩ := Option.map_eq_some_iff.1 h
    exact ⟨call, _, hcall, .inl ⟨_, _, rfl⟩⟩
  · rename_i call hcall
    obtain ⟨m, -, rfl⟩ := Option.map_eq_some_iff.1 h
    refine ⟨call, _, hcall, ?_⟩
    dsimp only
    split
    · exact .inl ⟨_, _, rfl⟩
    · exact .inr (.inl ⟨_, rfl⟩)
  · rename_i call hcall
    obtain rfl := Option.some.inj h
    exact ⟨call, _, hcall, .inr (.inl ⟨r.xapp_send_buff, rfl⟩)⟩
  · rename_i call n hcall
    obtain rfl := Option.some.inj h
    refine ⟨call, _, hcall, ?_⟩
    unfold attempt
    split
    · rename_i m hm
      exact .inr (.inr ⟨m, n, rfl, hm, rfl⟩)
    · exact .inl ⟨r.xapp_send_buff, _, rfl⟩
    · exact .inl ⟨none, _, rfl⟩

/-- The call is going on or has returned. -/
def Made (r : XappRmr τ) (call : SendCall) : Prop :=
  (∃ t stage, r.calls t = some (call, stage)) ∨ ∃ result, (call, result) ∈ r.returned

/-- No step makes up a call. -/
theorem made_of_next {made : SendCall} (h : r.next S t answer = some r') (hmade : r'.Made made) :
    r.Made made := by
  obtain ⟨call, stage, hcall, hnext⟩ := next_cases h
  -- whatever the step, a call of `r'` is that of the thread or one of `r`
  have hcalls : ∀ {o u s}, Function.update r.calls t o u = some (made, s) →
      (∀ s', o = some (made, s') → made = call) → r.Made made := by
    intro o u s hu ho
    rw [Function.update_apply] at hu
    split at hu
    · obtain rfl := ho _ hu
      exact .inl ⟨t, stage, hcall⟩
    · exact .inl ⟨u, s, hu⟩
  have hreturned : ∀ {result result'}, (made, result) ∈ r.returned ++ [(call, result')] →
      r.Made made := by
    intro result result' hmem
    rcases List.mem_append.1 hmem with hmem | hmem
    · exact .inr ⟨result, hmem⟩
    · obtain ⟨rfl, -⟩ := Prod.mk.inj (List.mem_singleton.1 hmem)
      exact .inl ⟨t, stage, hcall⟩
  rcases hnext with ⟨buff, stage', rfl⟩ | ⟨buff, rfl⟩ | ⟨m, n, -, -, rfl⟩
  · rcases hmade with ⟨u, s, hu⟩ | hmem
    · refine hcalls hu fun s' heq => ?_
      exact (Prod.mk.inj (Option.some.inj heq)).1.symm
    · exact .inr hmem
  · rcases hmade with ⟨u, s, hu⟩ | ⟨result, hmem⟩
    · exact hcalls hu nofun
    · exact hreturned hmem
  · rcases hmade with ⟨u, s, hu⟩ | ⟨result, hmem⟩
    · exact hcalls hu nofun
    · exact hreturned hmem

/-- The calls that were made, after one more begins. -/
theorem made_of_begin {made : SendCall} {alloc : Option Mbuf}
    (h : (r.begin t call alloc).Made made) : made = call ∨ r.Made made := by
  rcases h with ⟨u, stage, hu⟩ | hmem
  · have hu : Function.update r.calls t (some (call, .header)) u = some (made, stage) := hu
    rw [Function.update_apply] at hu
    split at hu
    · exact .inl (Prod.mk.inj (Option.some.inj hu)).1.symm
    · exact .inr (.inl ⟨u, stage, hu⟩)
  · exact .inr (.inr hmem)

/-! ### One call at a time -/

/-- What a call has made of the buffer. -/
def Holds (call : SendCall) (buff : Option Mbuf) : SendStage → Prop
  | .header => call.Named
  | .payload => ∃ meid payload, buff = some { call.message with meid, payload } ∧
      visible meid = visible call.hdr.meid
  | .sending _ => ∀ m, buff = some m → m.message = call.message

/-- The buffer is that of the call that is going on, and RMR has taken the messages of the
others that returned true. -/
structure Inv (r : XappRmr τ) : Prop where
  alone : ∀ {t u}, (r.calls t).isSome → (r.calls u).isSome → t = u
  holds : ∀ {t call stage}, r.calls t = some (call, stage) → Holds call r.xapp_send_buff stage
  accepted : r.accepted = (r.returned.filter (·.2)).map (·.1.message)

omit [DecidableEq τ] in
/-- It holds at the start. -/
theorem Inv.start (nattempts : Nat) (rmr_is_ready : Bool) :
    Inv ({ nattempts, rmr_is_ready } : XappRmr τ) where
  alone h := absurd h (by simp)
  holds h := absurd h (by simp)
  accepted := rfl

/-- The call that is going on gets to another stage. -/
theorem Inv.goTo (h : Inv r) (hcalls : ∀ u, u ≠ t → r.calls u = none) (buff : Option Mbuf)
    (hbuff : Holds call buff stage) :
    Inv ({ r with xapp_send_buff := buff }.goTo t call stage) := by
  have hat : ∀ {u}, (Function.update r.calls t (some (call, stage)) u).isSome → u = t := by
    intro u hu
    by_contra hne
    rw [Function.update_of_ne hne, hcalls u hne] at hu
    cases hu
  refine ⟨fun ht hu => (hat ht).trans (hat hu).symm, fun {u call' stage'} hu => ?_, h.accepted⟩
  obtain rfl := hat (Option.isSome_of_eq_some hu)
  have hself : Function.update r.calls u (some (call, stage)) u = some (call, stage) :=
    Function.update_self ..
  obtain ⟨rfl, rfl⟩ := Prod.mk.inj (Option.some.inj (hself.symm.trans hu))
  exact hbuff

/-- It returns. -/
theorem Inv.ret (hcalls : ∀ u, u ≠ t → r.calls u = none) (buff : Option Mbuf)
    {accepted : List Mbuf} {result : Bool}
    (haccepted : accepted =
      ((r.returned ++ [(call, result)]).filter (·.2)).map (·.1.message)) :
    Inv ({ r with xapp_send_buff := buff, accepted }.ret t call result) := by
  have hnone : ∀ u, Function.update r.calls t none u = none := by
    intro u
    rw [Function.update_apply]
    split
    · rfl
    · exact hcalls u ‹_›
  refine ⟨fun {u v} hu _ => ?_, fun {u call' stage'} hu => ?_, haccepted⟩
  · cases (congrArg Option.isSome (hnone u)).symm.trans hu
  · cases (hnone u).symm.trans hu

/-- A call that names a gNB and begins while none is in progress keeps the invariant. -/
theorem Inv.begin (h : Inv r) (hidle : r.Idle) (t : τ) (hnamed : call.Named)
    (alloc : Option Mbuf) : Inv (r.begin t call alloc) :=
  h.goTo (fun u _ => hidle u) (r.xapp_send_buff <|> alloc) hnamed

/-- The message that the header and the payload make. -/
theorem message_copyPayload (call : SendCall) {meid : Bytes} (payload : Bytes)
    (hmeid : visible meid = visible call.hdr.meid) :
    (copyPayload call { call.message with meid, payload }).message = call.message := by
  have hlength : (call.payload.take call.hdr.payload_length).length = call.hdr.payload_length :=
    List.length_take_of_le call.fits
  have htake : (memcpy (call.payload.take call.hdr.payload_length) payload).take
      call.hdr.payload_length = call.payload.take call.hdr.payload_length := by
    rw [memcpy, List.take_left' hlength]
  unfold copyPayload Mbuf.message
  dsimp only
  rw [htake, hmeid]
  rfl

/-- **One step of the call that is going on.** -/
theorem Inv.next (h : Inv r) (hnext : r.next S t answer = some r') : Inv r' := by
  have hcalls : ∀ {c} u, r.calls t = some c → u ≠ t → r.calls u = none := by
    intro c u ht hne
    by_contra hu
    exact hne (h.alone (Option.isSome_iff_ne_none.2 hu) (Option.isSome_of_eq_some ht))
  unfold XappRmr.next at hnext
  split at hnext
  · cases hnext
  · rename_i call hcall
    obtain ⟨m, -, rfl⟩ := Option.map_eq_some_iff.1 hnext
    have hnamed : call.Named := h.holds hcall
    exact h.goTo (fun u => hcalls u hcall) _
      ⟨S.write m.meid call.hdr.meid, m.payload, rfl, S.visible_write _ _ hnamed⟩
  · rename_i call hcall
    obtain ⟨m, hm, rfl⟩ := Option.map_eq_some_iff.1 hnext
    obtain ⟨meid, payload, hpayload, hmeid⟩ := h.holds hcall
    obtain rfl := Option.some.inj (hm.symm.trans hpayload)
    dsimp only
    split
    · refine h.goTo (fun u => hcalls u hcall) _ fun m hm => ?_
      obtain rfl := Option.some.inj hm
      exact message_copyPayload call payload hmeid
    · refine Inv.ret (fun u => hcalls u hcall) _ ?_
      rw [h.accepted, List.filter_append, List.map_append]
      simp
  · rename_i call hcall
    obtain rfl := Option.some.inj hnext
    refine Inv.ret (fun u => hcalls u hcall) r.xapp_send_buff ?_
    rw [h.accepted, List.filter_append, List.map_append]
    simp
  · rename_i call n hcall
    obtain rfl := Option.some.inj hnext
    have hbuff : ∀ m, r.xapp_send_buff = some m → m.message = call.message := h.holds hcall
    unfold attempt
    split
    · rename_i m hm
      refine Inv.ret (fun u => hcalls u hcall) none ?_
      rw [h.accepted, hbuff m hm, List.filter_append, List.map_append]
      rfl
    · exact h.goTo (fun u => hcalls u hcall) r.xapp_send_buff hbuff
    · exact h.goTo (fun u => hcalls u hcall) none nofun

/-- It holds in every run. -/
theorem Inv.reached (h : Reached S r) : Inv r := by
  induction h with
  | start nattempts rmr_is_ready => exact .start ..
  | begin t call alloc _ hidle hnamed ih => exact ih.begin hidle t hnamed alloc
  | next t answer _ hnext ih => exact ih.next hnext

/-- **RMR takes what the calls send**, where these do not overlap: the messages of those that
returned true, each once and in their order; and a call that is going on can go on, unless it is
to write its header and there was no buffer for it. -/
theorem sent_of_reached (h : Reached S r) :
    r.accepted = (r.returned.filter (·.2)).map (·.1.message) ∧
      ∀ t call stage answer, r.calls t = some (call, stage) →
        (r.next S t answer = none ↔ stage = .header ∧ r.xapp_send_buff = none) := by
  have hinv := Inv.reached h
  refine ⟨hinv.accepted, fun t call stage answer hcall => ?_⟩
  have hholds := hinv.holds hcall
  unfold XappRmr.next
  rw [hcall]
  cases stage with
  | header => simp
  | payload =>
      obtain ⟨meid, payload, hm, -⟩ := hholds
      rw [hm]
      simp
  | sending n => cases n <;> simp

/-! ### Two threads -/

/-- Steps of threads, each with what RMR answers. -/
def follow (S : Str2meid) (r : XappRmr τ) (steps : List (τ × SendState)) : Option (XappRmr τ) :=
  steps.foldlM (fun r x => r.next S x.1 x.2) r

/-- Steps of the threads lead from one reached state to another. -/
theorem Reached.follow (h : Reached S r) {steps : List (τ × SendState)}
    (hsteps : r.follow S steps = some r') : Reached S r' := by
  induction steps generalizing r with
  | nil =>
      obtain rfl := Option.some.inj hsteps
      exact h
  | cons x steps ih =>
      obtain ⟨r₁, hr₁, hrest⟩ := Option.bind_eq_some_iff.1 hsteps
      exact ih (.next x.1 x.2 h hr₁) hrest

/-- A control request for a RAN. -/
def requestFor (meid payload : Bytes) : SendCall :=
  ⟨⟨.RIC_CONTROL_REQ, payload.length, meid⟩, payload, Nat.le_refl _⟩

/-- The requests of two agents. -/
def firstRequest : SendCall := requestFor (ascii "gnb:1") [1, 2, 3]

def secondRequest : SendCall := requestFor (ascii "gnb:2") [9]

/-- A buffer as RMR made it. -/
def freshBuffer : Mbuf := ⟨none, 0, none, List.replicate RMR_MAX_MEID 0, List.replicate 8 0⟩

/-- The name and its NUL are copied, where there is room for them. -/
def str2meid : Str2meid where
  write field name :=
    if (visible name).length < RMR_MAX_MEID then memcpy (visible name ++ [0]) field else field
  visible_write field name h := by
    rw [if_pos h, memcpy, List.append_assoc, visible_append (zero_notMem_visible name),
      List.singleton_append, visible_cons, if_pos rfl, List.append_nil]

/-- The first is offered twice and taken. -/
def afterFirst : Option (XappRmr Bool) :=
  (begin { nattempts := 2 } false firstRequest (some freshBuffer)).follow str2meid
    [(false, .ok), (false, .ok), (false, .again), (false, .ok)]

/-- The second is given up. -/
def afterSecond (r : XappRmr Bool) : Option (XappRmr Bool) :=
  (r.begin true secondRequest (some freshBuffer)).follow str2meid
    [(true, .ok), (true, .ok), (true, .again), (true, .null), (true, .ok)]

/-- There is no buffer for a third. -/
def afterThird (r : XappRmr Bool) : XappRmr Bool := r.begin false firstRequest none

/-- Two calls in turn, the second of which fails, and a third that gets no buffer. -/
theorem sent_of_reached_three : ∃ r : XappRmr Bool,
    (afterFirst.bind afterSecond).map afterThird = some r ∧
      r.returned = [(firstRequest, true), (secondRequest, false)] ∧
      r.accepted = (r.returned.filter (·.2)).map (·.1.message) ∧
      ∀ t call stage answer, r.calls t = some (call, stage) →
        (r.next str2meid t answer = none ↔ stage = .header ∧ r.xapp_send_buff = none) := by
  have hrun : (afterFirst.bind afterSecond).map
      (fun r => (r.returned, r.calls false, r.calls true)) =
        some ([(firstRequest, true), (secondRequest, false)], none, none) := by
    decide +kernel
  have hidle : afterFirst.map (fun r => (r.calls false, r.calls true)) = some (none, none) := by
    decide +kernel
  have hbetween : ∀ {r : XappRmr Bool}, r.calls false = none → r.calls true = none → r.Idle := by
    intro r hfalse htrue t
    cases t with
    | false => exact hfalse
    | true => exact htrue
  obtain ⟨r, hr, hfacts⟩ := Option.map_eq_some_iff.1 hrun
  obtain ⟨hreturned, hcalls⟩ := Prod.mk.inj hfacts
  obtain ⟨hfalse, htrue⟩ := Prod.mk.inj hcalls
  obtain ⟨r₁, hr₁, hsecond⟩ := Option.bind_eq_some_iff.1 hr
  rw [hr₁] at hidle
  obtain ⟨hfalse₁, htrue₁⟩ := Prod.mk.inj (Option.some.inj hidle)
  have hfirst : Reached str2meid r₁ :=
    Reached.follow (.begin false firstRequest (some freshBuffer) (.start 2 true) (fun _ => rfl)
      (by decide)) hr₁
  have hdone := (hfirst.begin true secondRequest (some freshBuffer) (hbetween hfalse₁ htrue₁)
    (by decide)).follow hsecond
  have hthird := hdone.begin false firstRequest none (hbetween hfalse htrue) (by decide)
  exact ⟨afterThird r, by rw [hr, Option.map_some], hreturned, sent_of_reached hthird⟩

/-- **Two calls at a time**: the second writes its header before the first copies its payload,
and the payload of the first goes out under the name of the second. -/
theorem crossed :
    (((begin { nattempts := 2 } false firstRequest (some freshBuffer)).follow str2meid
        [(false, .ok)]).bind fun r =>
      (r.begin true secondRequest none).follow str2meid
        [(true, .ok), (false, .ok), (false, .ok)]).map (·.accepted) =
      some [{ firstRequest.message with meid := ascii "gnb:2" }] := by
  decide +kernel

end XappRmr

end NearRtRic.Xapp
