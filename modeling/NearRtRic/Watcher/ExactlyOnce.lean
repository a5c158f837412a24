/-
# Each row is sent once

The log files of the cells grow by whole rows, and the watcher is told of it.  It reads a
file from its beginning each time and knows a row by its time, its UE and the type of its
file.  `Inv` is what holds after any appends and events: the watcher has sent, of the rows
in the order in which it saw them, those whose key was new then (`Index.fresh`).

`exactlyOnce_iff` says what that is worth: all rows are sent once, each with the number of
its own cell, exactly if no two rows of the files of one type have the same time and UE.
The type of a file does not say its cell, so a row of one cell suppresses that of another.

The rows are well formed, and the database takes each batch.
-/

import NearRtRic.Watcher.Lock
import NearRtRic.Watcher.Rows
import NearRtRic.Xapp.LogMon

namespace NearRtRic.Watcher

open Csv Index Text Xapp

/-! ### The files -/

/-- A file that the watcher reads. -/
structure CellFile where
  kind : TraceType
  cell : Int
  valid : 1 ≤ cell ∧ cell ≤ 5 ∧ (kind = .du → 2 ≤ cell)
  deriving DecidableEq

def logPath (kind : TraceType) (cell : Int) : Chars :=
  "/home/boo/RIC_NSORAN/local_agent/logfiles/".toList ++ kind.fileName cell

/-- The last entry of the keys of the rows of a file. -/
def logType (kind : TraceType) (cell : Int) : Nat :=
  match kind with
  | .cuup => if cell = 1 then 3 else 0
  | .cucp => if cell = 1 then 4 else 1
  | .du => 2

def cells : List (TraceType × Int) :=
  [(.cuup, 1), (.cuup, 2), (.cuup, 3), (.cuup, 4), (.cuup, 5), (.cucp, 1), (.cucp, 2), (.cucp, 3),
    (.cucp, 4), (.cucp, 5), (.du, 2), (.du, 3), (.du, 4), (.du, 5)]

/-- The name of every file that is written gives its type and its cell back. -/
theorem names_cells : ∀ p ∈ cells, file_type (logPath p.1 p.2) = some (logType p.1 p.2) ∧
    file_id_number (logPath p.1 p.2) = some (decimal p.2) ∧
      ∃ pattern ∈ ["cu-up-cell-".toList, "cu-cp-cell-".toList, "du-cell-".toList],
        (baseName (logPath p.1 p.2)).map Char.toLower =
          pattern ++ decimal p.2 ++ ".txt".toList := by
  decide +kernel

namespace CellFile

def src_path (f : CellFile) : Chars := logPath f.kind f.cell

/-- Every file of a cell is among them. -/
theorem mem_cells (f : CellFile) : (f.kind, f.cell) ∈ cells := by
  obtain ⟨kind, cell, hlow, hhigh, hdu⟩ := f
  have hcell : cell = 1 ∨ cell = 2 ∨ cell = 3 ∨ cell = 4 ∨ cell = 5 := by omega
  cases kind with
  | du =>
      have hlow := hdu rfl
      rcases hcell with rfl | rfl | rfl | rfl | rfl
      · omega
      all_goals simp [cells]
  | cucp => rcases hcell with rfl | rfl | rfl | rfl | rfl <;> simp [cells]
  | cuup => rcases hcell with rfl | rfl | rfl | rfl | rfl <;> simp [cells]

/-- So the type of its file is read from its path. -/
theorem file_type_src_path (f : CellFile) : file_type f.src_path = some (logType f.kind f.cell) :=
  (names_cells _ f.mem_cells).1

/-- The number in the points of a file is that of its cell. -/
theorem file_id_number_src_path (f : CellFile) :
    file_id_number f.src_path = some (decimal f.cell) :=
  (names_cells _ f.mem_cells).2.1

/-- The handler is called for the file. -/
theorem accepted (f : CellFile) : Accepted f.src_path := by
  obtain ⟨pattern, hpattern, hname⟩ := (names_cells _ f.mem_cells).2.2
  exact ⟨pattern, hpattern, decimal f.cell, hname⟩

end CellFile

/-! ### Rows and runs -/

section

variable {F : Type} (fl : Floats F) (header : CellFile → List Chars)
  (write_points : List (InfluxPoint F) → Bool)

/-- The key of a row of a file. -/
def keyOf (x : CellFile × List Chars) : Option Key := rowKey x.1.src_path (header x.1) x.2

/-- The points that a row of a file is to be sent with, which have the number of its cell. -/
def pointsOf (x : CellFile × List Chars) : Option (List (InfluxPoint F)) := do
  let key ← keyOf header x
  let ue ← value (header x.1) x.2 "ueImsiComplete".toList
  let r ← (readColumns fl (header x.1) x.2).toOption
  let (_, influx_points) ← (send_to_influxDB fl ue (r.values ++ [.text (decimal x.1.cell)])
    (r.fields ++ ["file_id_number".toList]) key.file_type).toOption
  return influx_points

/-- A row is added to a file, or the watcher is told that a file has changed. -/
inductive Action where
  | append (f : CellFile) (row : List Chars)
  | modified (f : CellFile)

structure System (F : Type) where
  rows : CellFile → List (List Chars) := fun _ => []
  watcher : SimWatcher F := {}

/-- What is in a file: its columns, and a line for each row. -/
def content (s : System F) (f : CellFile) : Chars := render (header f :: s.rows f)

def step (s : System F) : Action → System F
  | .append f row => { s with rows := Function.update s.rows f (s.rows f ++ [row]) }
  | .modified f =>
      { s with
        watcher := handleEvent fl s.watcher
          ⟨f.src_path, some { text := content header s f }, write_points⟩ }

def runActions (actions : List Action) : System F :=
  actions.foldl (step fl header write_points) {}

/-- The rows that were added, in their order. -/
def appended (actions : List Action) : List (CellFile × List Chars) :=
  actions.filterMap fun
    | .append f row => some (f, row)
    | .modified _ => none

/-- The watcher is told of each row after it was added. -/
def Flushed : List Action → Prop
  | [] => True
  | .append f _ :: actions => .modified f ∈ actions ∧ Flushed actions
  | .modified _ :: actions => Flushed actions

/-- **Each row is sent once**: the batches that were written are, in some order, those of the
rows that were added. -/
def ExactlyOnce (actions : List Action) : Prop :=
  ((runActions fl header write_points actions).watcher.written.map some).Perm
    ((appended actions).map (pointsOf fl header))

end

/-! ### One event -/

section

variable {F : Type} {fl : Floats F} {header : CellFile → List Chars}
  {write_points : List (InfluxPoint F) → Bool} {s : System F} {f : CellFile}
  {x : CellFile × List Chars} {seen unseen log : List (CellFile × List Chars)}

/-- The files have columns and rows of numbers. -/
structure Proper (fl : Floats F) (header : CellFile → List Chars)
    (log : List (CellFile × List Chars)) : Prop where
  columns : ∀ f, PlainRow field_size_limit (header f)
  rows : ∀ x ∈ log, WellFormed fl (header x.1) x.2

/-- The rows of a file among those of all files. -/
def rowsOf (f : CellFile) (log : List (CellFile × List Chars)) : List (List Chars) :=
  (log.filter fun x => x.1 = f).map Prod.snd

/-- The rows of a file, with the file, are its part of the log. -/
theorem map_rowsOf (f : CellFile) (log : List (CellFile × List Chars)) :
    (rowsOf f log).map (fun row => (f, row)) = log.filter fun x => x.1 = f := by
  unfold rowsOf
  rw [List.map_map]
  refine (List.map_congr_left fun x hx => ?_).trans (List.map_id _)
  obtain rfl := of_decide_eq_true (List.mem_filter.1 hx).2
  rfl

/-- The rows of two stretches of the log. -/
theorem rowsOf_append (f : CellFile) (log log' : List (CellFile × List Chars)) :
    rowsOf f (log ++ log') = rowsOf f log ++ rowsOf f log' := by
  unfold rowsOf
  rw [List.filter_append, List.map_append]

/-- A file's rows are not told apart by whether they are another file's. -/
theorem rowsOf_filter_append (f f' : CellFile) (log : List (CellFile × List Chars)) :
    rowsOf f' (log.filter fun x => x.1 = f) ++ rowsOf f' (log.filter fun x => x.1 ≠ f) =
      rowsOf f' log := by
  unfold rowsOf
  rw [List.filter_filter, List.filter_filter, ← List.map_append]
  by_cases hf : f' = f
  · subst hf
    have hnone : log.filter (fun x => decide (x.1 = f') && decide (x.1 ≠ f')) = [] := by
      simp
    rw [hnone, List.append_nil]
    simp
  · have hnone : log.filter (fun x => decide (x.1 = f') && decide (x.1 = f)) = [] := by
      rw [List.filter_eq_nil_iff]
      intro x _ hx
      rw [Bool.and_eq_true, decide_eq_true_eq, decide_eq_true_eq] at hx
      exact hf (hx.1.symm.trans hx.2)
    have hall : ∀ x : CellFile × List Chars, (decide (x.1 = f') && decide (x.1 ≠ f)) =
        decide (x.1 = f') := by
      intro x
      by_cases hx : x.1 = f'
      · simp [hx, hf]
      · simp [hx]
    simp only [hnone, hall, List.nil_append]

/-- A row of a file is in the log. -/
theorem mem_of_mem_rowsOf {row : List Chars} (h : row ∈ rowsOf f log) : (f, row) ∈ log := by
  have hmem : (f, row) ∈ (rowsOf f log).map fun row => (f, row) := List.mem_map_of_mem h
  rw [map_rowsOf] at hmem
  exact (List.mem_filter.1 hmem).1

/-- The number that is found in the name of the file is that of its cell. -/
theorem rowPoints_eq (f : CellFile) (row : List Chars) :
    rowPoints fl f.src_path (header f) row = pointsOf fl header (f, row) := by
  unfold rowPoints pointsOf keyOf
  simp only [f.file_id_number_src_path, Option.bind_eq_bind, Option.bind_some]

/-- A well-formed row has a key. -/
theorem exists_keyOf {row : List Chars} (h : WellFormed fl (header f) row) :
    ∃ key, keyOf header (f, row) = some key := by
  obtain ⟨z, hz⟩ := h.timestamp
  obtain ⟨z', hz'⟩ := h.ue
  refine ⟨⟨z, z', logType f.kind f.cell⟩, ?_⟩
  unfold keyOf rowKey
  simp only [hz, hz', f.file_type_src_path, Option.bind_eq_bind, Option.bind_some,
    Option.pure_def]

/-- It has points. -/
theorem exists_pointsOf {row : List Chars} (h : WellFormed fl (header f) row) :
    ∃ points, pointsOf fl header (f, row) = some points := by
  obtain ⟨key, hkey⟩ := exists_keyOf h
  obtain ⟨points, hpoints⟩ := h.points hkey f.file_id_number_src_path
  exact ⟨points, (rowPoints_eq f row).symm.trans hpoints⟩

/-- **A file of well-formed rows goes through.** -/
theorem returned_of_proper (hdb : ∀ points, write_points points = true)
    (hproper : Proper fl header log) (hrows : ∀ row ∈ s.rows f, (f, row) ∈ log)
    (hlock : s.watcher.locked = false) (hclean : s.watcher.Clean) :
    ∃ w', handleEvent fl s.watcher
        ⟨f.src_path, some { text := content header s f }, write_points⟩ = w' ∧
      w'.locked = false ∧ Done fl f.src_path (header f) (s.rows f) s.watcher w' := by
  have hformed : ∀ row ∈ s.rows f, WellFormed fl (header f) row := fun row hrow =>
    hproper.rows (f, row) (hrows row hrow)
  have hreader : Event.reader (F := F)
      ⟨f.src_path, some { text := content header s f }, write_points⟩ =
        ⟨header f, s.rows f, false⟩ :=
    DictReader.read_render (hproper.columns f) fun row hrow => (hformed row hrow).plain
  have hgo : GoesThrough fl s.watcher.consumed_keys
      ⟨f.src_path, some { text := content header s f }, write_points⟩ := by
    refine ⟨by rw [hreader], ?_⟩
    rw [hreader]
    refine ⟨fun row hrow => exists_keyOf (hformed row hrow), fun row hrow => ?_⟩
    obtain ⟨points, hpoints⟩ := exists_pointsOf (hformed row (fresh_sublist.subset hrow))
    exact ⟨points, (rowPoints_eq f row).trans hpoints, hdb points⟩
  rcases (on_modified_cases hlock hclean : GoesThrough fl _ _ ∧ _ ∨ _) with
    ⟨-, w', hcall, hfree, hdone⟩ | ⟨hnot, -⟩
  · rw [hreader] at hdone
    refine ⟨w', ?_, hfree, hdone⟩
    unfold handleEvent
    rw [hcall]
  · exact absurd hgo hnot

/-! ### Runs -/

/-- What holds between actions: `seen` are the rows in the order in which the watcher saw them,
`unseen` those that it was not told of. -/
structure Inv (fl : Floats F) (header : CellFile → List Chars) (s : System F)
    (seen unseen : List (CellFile × List Chars)) : Prop where
  rows : ∀ f, s.rows f = rowsOf f seen ++ rowsOf f unseen
  locked : s.watcher.locked = false
  clean : s.watcher.Clean
  keys : s.watcher.consumed_keys.map some = seenAfter (keyOf header) [] seen
  written : s.watcher.written.map some = (fresh (keyOf header) [] seen).map (pointsOf fl header)

/-- At the start nothing was seen. -/
theorem inv_init : Inv fl header {} [] [] where
  rows _ := rfl
  locked := rfl
  clean _ _ := rfl
  keys := rfl
  written := rfl

/-- A row that is appended is not yet seen. -/
theorem Inv.append (h : Inv fl header s seen unseen) (f : CellFile) (row : List Chars) :
    Inv fl header (step fl header write_points s (.append f row)) seen (unseen ++ [(f, row)]) := by
  refine ⟨fun f' => ?_, h.locked, h.clean, h.keys, h.written⟩
  unfold step rowsOf
  dsimp only
  rw [List.filter_append, List.map_append]
  by_cases hf : f' = f
  · subst hf
    rw [Function.update_self, h.rows, List.append_assoc]
    simp [rowsOf]
  · rw [Function.update_of_ne hf, h.rows]
    simp [rowsOf, Ne.symm hf]

/-- A row that is added is a line at the end of the file. -/
theorem content_append (s : System F) (f : CellFile) (row : List Chars) :
    content header (step fl header write_points s (.append f row)) f =
      content header s f ++ '\n' :: line row := by
  unfold content step
  dsimp only
  rw [Function.update_self]
  exact render_concat

/-- **An event.**  The rows of the file that were not seen are seen now, and the new ones of
them are sent. -/
theorem Inv.modified (hdb : ∀ points, write_points points = true)
    (hproper : Proper fl header (seen ++ unseen)) (h : Inv fl header s seen unseen) (f : CellFile) :
    Inv fl header (step fl header write_points s (.modified f))
      (seen ++ unseen.filter fun x => x.1 = f) (unseen.filter fun x => x.1 ≠ f) := by
  have hrows : ∀ row ∈ s.rows f, (f, row) ∈ seen ++ unseen := by
    intro row hrow
    rw [h.rows] at hrow
    rcases List.mem_append.1 hrow with hrow | hrow
    · exact List.mem_append_left _ (mem_of_mem_rowsOf hrow)
    · exact List.mem_append_right _ (mem_of_mem_rowsOf hrow)
  obtain ⟨w', hw', hfree, hdone⟩ := returned_of_proper hdb hproper hrows h.locked h.clean
  -- the rows that were seen have their keys in the set, so only the others can be new
  have hseen : ∀ row ∈ rowsOf f seen,
      rowKey f.src_path (header f) row ∈ seenAfter (keyOf header) [] seen := fun row hrow =>
    (key_mem_seenAfter (mem_of_mem_rowsOf hrow) : keyOf header (f, row) ∈ _)
  have hfresh : fresh (keyOf header) (seenAfter (keyOf header) [] seen)
      (unseen.filter fun x => x.1 = f) = (fresh (rowKey f.src_path (header f))
        (seenAfter (keyOf header) [] seen) (s.rows f)).map fun row => (f, row) := by
    rw [← map_rowsOf, fresh_map, h.rows, fresh_append_of_seen hseen]
    rfl
  have hstep : step fl header write_points s (.modified f) = { s with watcher := w' } :=
    congrArg (fun w => { s with watcher := w }) hw'
  obtain ⟨hclean, hkeys, hwritten⟩ := hdone
  rw [h.keys] at hkeys hwritten
  rw [hstep]
  refine ⟨fun f' => ?_, hfree, hclean, ?_, ?_⟩
  · rw [h.rows, rowsOf_append, List.append_assoc, rowsOf_filter_append]
  · have hafter : seenAfter (keyOf header) (seenAfter (keyOf header) [] seen)
        (unseen.filter fun x => x.1 = f) = seenAfter (keyOf header) [] seen ++ _ := rfl
    rw [hkeys, seenAfter_append, hafter, hfresh, List.map_map]
    rfl
  · rw [hwritten, h.written, fresh_append, hfresh, List.map_append, List.map_map]
    refine congrArg _ (List.map_congr_left fun row _ => ?_)
    exact rowPoints_eq f row

/-- **A run.**  If the watcher is told of all rows in the end, it has seen them all. -/
theorem inv_foldl (hdb : ∀ points, write_points points = true) {actions : List Action}
    (hflushed : Flushed actions) (htold : ∀ x ∈ unseen, .modified x.1 ∈ actions)
    (hproper : Proper fl header (seen ++ unseen ++ appended actions))
    (h : Inv fl header s seen unseen) :
    ∃ log, Inv fl header (actions.foldl (step fl header write_points) s) log [] ∧
      log.Perm (seen ++ unseen ++ appended actions) := by
  induction actions generalizing s seen unseen with
  | nil =>
      obtain rfl : unseen = [] := List.eq_nil_iff_forall_not_mem.2 fun x hx => nomatch htold x hx
      exact ⟨seen, h, by simp [appended]⟩
  | cons a actions ih =>
      cases a with
      | append f row =>
          have happended : seen ++ (unseen ++ [(f, row)]) ++ appended actions =
              seen ++ unseen ++ appended (.append f row :: actions) := by
            simp [appended]
          have htold' : ∀ x ∈ unseen ++ [(f, row)], .modified x.1 ∈ actions := by
            intro x hx
            rcases List.mem_append.1 hx with hx | hx
            · exact (List.mem_cons.1 (htold x hx)).resolve_left nofun
            · obtain rfl := List.mem_singleton.1 hx
              exact hflushed.1
          rw [← happended] at hproper ⊢
          exact ih hflushed.2 htold' hproper (h.append f row)
      | modified f =>
          have hsplit : (seen ++ unseen.filter (fun x => x.1 = f) ++
              unseen.filter (fun x => x.1 ≠ f)).Perm (seen ++ unseen) := by
            rw [List.append_assoc]
            refine List.Perm.append_left seen ?_
            simpa using List.filter_append_perm (fun x => decide (x.1 = f)) unseen
          have htold' : ∀ x ∈ unseen.filter (fun x => x.1 ≠ f), .modified x.1 ∈ actions := by
            intro x hx
            obtain ⟨hx, hne⟩ := List.mem_filter.1 hx
            refine (List.mem_cons.1 (htold x hx)).resolve_left fun heq => ?_
            exact of_decide_eq_true hne (Action.modified.inj heq)
          have hproper' : Proper fl header (seen ++ unseen.filter (fun x => x.1 = f) ++
              unseen.filter (fun x => x.1 ≠ f) ++ appended actions) :=
            ⟨hproper.columns, fun x hx => hproper.rows x ((hsplit.append_right _).subset hx)⟩
          have hnow : Proper fl header (seen ++ unseen) :=
            ⟨hproper.columns, fun x hx => hproper.rows x (List.mem_append_left _ hx)⟩
          obtain ⟨log, hinv, hlog⟩ := ih hflushed htold' hproper' (h.modified hdb hnow f)
          exact ⟨log, hinv, hlog.trans (hsplit.append_right _)⟩

/-- **What the watcher sends.**  All rows of all files are sent once, each with the number of
its own cell, exactly if their keys are different. -/
theorem exactlyOnce_iff {F : Type} {fl : Floats F} {header : CellFile → List Chars}
    {write_points : List (InfluxPoint F) → Bool} (hdb : ∀ points, write_points points = true)
    {actions : List Action} (hflushed : Flushed actions)
    (hproper : Proper fl header (appended actions)) :
    ExactlyOnce fl header write_points actions ↔
      ((appended actions).map (keyOf header)).Nodup := by
  obtain ⟨log, hinv, hlog⟩ : ∃ log, Inv fl header (runActions fl header write_points actions)
      log [] ∧ log.Perm (appended actions) :=
    inv_foldl hdb hflushed (fun _ hx => absurd hx List.not_mem_nil) hproper inv_init
  rw [ExactlyOnce, hinv.written, ← (hlog.map (keyOf header)).nodup_iff,
    ← map_fresh_perm_iff (f := pointsOf fl header)]
  have hpoints : (log.map (pointsOf fl header)).Perm _ := hlog.map (pointsOf fl header)
  exact ⟨fun h => h.trans hpoints.symm, fun h => h.trans hpoints⟩

end

def sampleColumns : List Chars := ["timestamp".toList, "ueImsiComplete".toList]

def sampleRow (timestamp : Chars) : List Chars := [timestamp, "1".toList]

/-- A CU-UP file. -/
def sampleFile (cell : Int) (h : 2 ≤ cell ∧ cell ≤ 5) : CellFile :=
  ⟨.cuup, cell, by omega, h.2, nofun⟩

/-- A row of each of two cells, and an event after each. -/
def sampleActions (timestamp timestamp' : Chars) : List Action :=
  [.append (sampleFile 2 (by decide)) (sampleRow timestamp), .modified (sampleFile 2 (by decide)),
    .append (sampleFile 3 (by decide)) (sampleRow timestamp'), .modified (sampleFile 3 (by decide))]

/-- After the example's events every file was read to its end. -/
theorem flushed_sampleActions (timestamp timestamp' : Chars) :
    Flushed (sampleActions timestamp timestamp') :=
  ⟨List.mem_cons_self, List.mem_cons_self, trivial⟩

/-- A row of the example is well formed if its timestamp is a number. -/
theorem wellFormed_sampleRow {timestamp : Chars} {z : Int}
    (hplain : PlainRow field_size_limit (sampleRow timestamp))
    (hz : parseInt int_max_str_digits timestamp = some z) :
    WellFormed sampleFloats sampleColumns (sampleRow timestamp) := by
  have htime : value sampleColumns (sampleRow timestamp) "timestamp".toList = some timestamp := rfl
  have hue : value sampleColumns (sampleRow timestamp) "ueImsiComplete".toList =
      some "1".toList := rfl
  have hone : parseInt int_max_str_digits "1".toList = some 1 := by decide +kernel
  refine ⟨hplain, ⟨z, by rw [htime, Option.bind_some, hz]⟩,
    ⟨1, by rw [hue, Option.bind_some, hone]⟩, fun c hc => ?_⟩
  rcases List.mem_cons.1 hc with rfl | hc
  · exact ⟨timestamp, htime, .inr ⟨z, hz, rfl, rfl⟩⟩
  · obtain rfl := List.mem_singleton.1 hc
    exact ⟨"1".toList, hue, .inr ⟨1, hone, rfl, rfl⟩⟩

/-- Its two rows make a proper log. -/
theorem proper_sampleActions {timestamp timestamp' : Chars}
    (h : WellFormed sampleFloats sampleColumns (sampleRow timestamp))
    (h' : WellFormed sampleFloats sampleColumns (sampleRow timestamp')) :
    Proper sampleFloats (fun _ => sampleColumns)
      (appended (sampleActions timestamp timestamp')) := by
  have hcolumns : PlainRow field_size_limit sampleColumns := by decide +kernel
  refine ⟨fun _ => hcolumns, fun x hx => ?_⟩
  simp only [appended, sampleActions, List.filterMap_cons, List.filterMap_nil, List.mem_cons,
    List.not_mem_nil, or_false] at hx
  rcases hx with rfl | rfl
  · exact h
  · exact h'

/-- The timestamps of the example are numbers. -/
theorem wellFormed_thousands : WellFormed sampleFloats sampleColumns (sampleRow "1000".toList) ∧
    WellFormed sampleFloats sampleColumns (sampleRow "2000".toList) :=
  have h1000 : parseInt int_max_str_digits "1000".toList = some 1000 := by decide +kernel
  have h2000 : parseInt int_max_str_digits "2000".toList = some 2000 := by decide +kernel
  ⟨wellFormed_sampleRow (by decide +kernel) h1000, wellFormed_sampleRow (by decide +kernel) h2000⟩

/-- Rows of two cells with different times. -/
theorem exactlyOnce_sampleActions : ExactlyOnce sampleFloats (fun _ => sampleColumns)
    (fun _ => true) (sampleActions "1000".toList "2000".toList) :=
  (exactlyOnce_iff (fun _ => rfl) (flushed_sampleActions _ _)
    (proper_sampleActions wellFormed_thousands.1 wellFormed_thousands.2)).2 (by decide +kernel)

/-- The row of cell 2 suppresses that of cell 3 which has the same time and UE. -/
theorem not_exactlyOnce : ¬ ∀ actions : List Action, Flushed actions →
    Proper sampleFloats (fun _ => sampleColumns) (appended actions) →
      ExactlyOnce sampleFloats (fun _ => sampleColumns) (fun _ => true) actions := by
  intro h
  have honce := h (sampleActions "1000".toList "1000".toList) (flushed_sampleActions _ _)
    (proper_sampleActions wellFormed_thousands.1 wellFormed_thousands.1)
  have hlen : (runActions sampleFloats (fun _ => sampleColumns) (fun _ => true)
      (sampleActions "1000".toList "1000".toList)).watcher.written.length = 1 := by
    decide +kernel
  have hall := honce.length_eq
  rw [List.length_map, hlen] at hall
  revert hall
  decide +kernel

end NearRtRic.Watcher
