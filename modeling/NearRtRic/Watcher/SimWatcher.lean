/-
# The watcher of the log files

`SimWatcher` in `sim_watcher_influx.py` is told of each change of a log file, reads the
whole file and writes a batch of points to InfluxDB for each of its rows that it takes for
a new one: `consumed_keys` has the time, the UE and the type of the file of the rows it
had before.

A method is a function of the watcher that stops where an exception is raised, with what
the watcher has come to then: `kpm_map` may have values of the row that it was at.
`processRow_cases` says what a row comes to where nothing of an earlier row is left
(`Clean`), and `on_modified_blocked` that a lock which is not released is the end.

`float` and what is computed with it are parameters (`Floats`), and so is what the
database does with a batch, whether a file can be opened, and what its bytes are decoded to.
-/

import Mathlib.Data.List.Infix
import Mathlib.Logic.Function.Basic
import NearRtRic.Text.Csv

namespace NearRtRic.Watcher

open Csv Text

/-- Python's floating-point numbers, as far as they are used. -/
structure Floats (F : Type) where
  /-- `float(s)`. -/
  float : Chars → Option F
  /-- `int(x)`, which `nan` and the infinities do not have. -/
  int : F → Option Int
  /-- `x*(pow(10,6))`. -/
  mulPow6 : F → F
  /-- `x*pow(10, -1)`. -/
  mulPowNeg1 : F → F

/-- What is in the lists of `kpm_map`. -/
inductive Value (F : Type) where
  | num (x : F)
  | text (s : Chars)
  deriving DecidableEq, Repr

structure Key where
  timestamp : Int
  ue_imsi : Int
  file_type : Nat
  deriving DecidableEq, Repr

/-- A point: the measurement, the tag and the field. -/
structure InfluxPoint (F : Type) where
  measurement : Chars
  timestamp : Int
  value : Value F
  deriving DecidableEq, Repr

/-! ### The names of the files -/

/-- `re.search(name + '[lo-hi].txt', file.name)`; the dot stands for any character of a line. -/
def searchCell (name : Chars) (lo hi : Char) (fileName : Chars) : Bool :=
  fileName.tails.any fun t =>
    name.isPrefixOf t &&
      match t.drop name.length with
      | c :: d :: rest =>
          lo.toNat ≤ c.toNat && c.toNat ≤ hi.toNat && d ≠ '\n' && "txt".toList.isPrefixOf rest
      | _ => false

/-- The last entry of `key`; `none`: the variable has no value. -/
def file_type (fileName : Chars) : Option Nat :=
  let key := none
  let key := if searchCell "cu-up-cell-".toList '2' '5' fileName then some 0 else key
  let key := if searchCell "cu-cp-cell-".toList '2' '5' fileName then some 1 else key
  let key := if searchCell "du-cell-".toList '2' '5' fileName then some 2 else key
  let key := if searchCell "cu-up-cell-".toList '1' '1' fileName then some 3 else key
  let key := if searchCell "cu-cp-cell-".toList '1' '1' fileName then some 4 else key
  key

/-- `re.search(r"\w*-(\d+)\.txt", file.name).group(1)`. -/
def file_id_number : Chars → Option Chars
  | [] => none
  | c :: s =>
      let digits := s.takeWhile isDecimal
      if c = '-' ∧ digits ≠ [] ∧ ".txt".toList.isPrefixOf (s.drop digits.length) then some digits
      else file_id_number s

/-- The last part of a path. -/
def baseName (src_path : Chars) : Chars := (src_path.reverse.takeWhile fun c => c ≠ '/').reverse

/-- One of the patterns of the handler fits, without regard to the case. -/
def Accepted (src_path : Chars) : Prop :=
  ∃ pattern ∈ ["cu-up-cell-".toList, "cu-cp-cell-".toList, "du-cell-".toList], ∃ stem,
    (baseName src_path).map Char.toLower = pattern ++ stem ++ ".txt".toList

/-! ### `_send_to_influxDB` -/

/-- The variables of the loop over the fields. -/
structure Sending (F : Type) where
  values : List (Value F)
  i : Nat := 0
  cellId : Value F := .text "0".toList
  influx_points : List (InfluxPoint F) := []

section

variable {F : Type} (fl : Floats F)

/-- `sys.get_int_max_str_digits()`. -/
def int_max_str_digits : Nat := 4300

/-- `int` of an element of a list. -/
def Value.int : Value F → Option Int
  | .num x => fl.int x
  | .text s => parseInt int_max_str_digits s

def upSuffix (file_type : Nat) : Chars :=
  (if file_type = 0 ∨ file_type = 3 then "_up".toList else []) ++
    (if file_type = 1 ∨ file_type = 4 then "_cp".toList else []) ++
    (if file_type = 2 then "_du".toList else [])

/-- `stat.replace(' ','')`. -/
def removeSpaces (stat : Chars) : Chars := stat.filter fun c => c ≠ ' '

/-- The element with the time of a packet is converted. -/
def convert (field : Chars) (value : Value F) : Option (Value F) :=
  if field = "DRB.PdcpSduDelayDl.UEID (pdcpLatency)".toList then
    match value with
    | .num x => some (.num (fl.mulPowNeg1 x))
    | .text _ => none
  else some value

/-- The value is in the list again, and may be the cell that the next ones are about. -/
def Sending.note (s : Sending F) (field : Chars) (value : Value F) : Sending F :=
  { s with
    values := s.values.set s.i value
    cellId := if "L3".toList <:+: field ∧ "cellId".toList <:+: field then value else s.cellId }

/-- `stat` before the UE. -/
def cellStat (s : Sending F) (field : Chars) : Option Chars :=
  if "SINR".toList <:+: field then
    (s.cellId.int fl).map fun n => field ++ "_cell_".toList ++ decimal n
  else some field

def Sending.addPoint (s : Sending F) (influx_point : InfluxPoint F) : Sending F :=
  { s with influx_points := s.influx_points ++ [influx_point], i := s.i + 1 }

/-- The body of the loop. -/
def sendField (ue : Chars) (file_type : Nat) (timestamp : Int) (s : Sending F) (field : Chars) :
    Except (Sending F) (Sending F) :=
  if field = "file_id_number".toList then .ok s
  else
    match s.values[s.i]?.bind (convert fl field) with
    | none => .error s
    | some value =>
        let s := s.note field value
        match cellStat fl s field with
        | none => .error s
        | some stat =>
            if ¬ "UEID".toList <:+: field ∧ ¬ "L3".toList <:+: field then
              match s.values.getLast? with
              | some (.text id) =>
                  let stat := removeSpaces (field ++ "_cell_".toList ++ id)
                  .ok (s.addPoint ⟨stat, timestamp, value⟩)
              | _ => .error s
            else
              let stat := removeSpaces (stat ++ "_ue_".toList ++ ue ++ upSuffix file_type)
              .ok (s.addPoint ⟨stat, timestamp, value⟩)

/-- `_send_to_influxDB` up to `write_points`: the list, in which a value may have been
converted, and the points. -/
def send_to_influxDB (ue : Chars) (values : List (Value F)) (fields : List Chars)
    (file_type : Nat) : Except (List (Value F)) (List (Value F) × List (InfluxPoint F)) :=
  match values.head? with
  | some (.num x) =>
      match fl.int (fl.mulPow6 x) with
      | none => .error values
      | some timestamp =>
          match fields.foldlM (sendField fl ue file_type timestamp) { values } with
          | .error s => .error s.values
          | .ok s => .ok (s.values, s.influx_points)
  | _ => .error values

/-! ### `on_modified` -/

/-- A file has changed. -/
structure Event (F : Type) where
  src_path : Chars
  /-- What is in the file; `none` where `open` raises an exception. -/
  content : Option Decoded
  /-- Whether the database takes a batch. -/
  write_points : List (InfluxPoint F) → Bool

structure SimWatcher (F : Type) where
  locked : Bool := false
  kpm_map : Key → Option (List (Value F)) := fun _ => none
  consumed_keys : List Key := []
  /-- The batches that the database has taken. -/
  written : List (List (InfluxPoint F)) := []

namespace SimWatcher

def put (w : SimWatcher F) (key : Key) (values : List (Value F)) : SimWatcher F :=
  { w with kpm_map := Function.update w.kpm_map key (some values) }

end SimWatcher

/-- The variables of the loop over the columns. -/
structure Reading (F : Type) where
  values : List (Value F) := []
  fields : List Chars := []

def readColumn (fieldnames row : List Chars) (r : Reading F) (column_name : Chars) :
    Except (Reading F) (Reading F) :=
  match value fieldnames row column_name with
  | none => .error r
  | some s =>
      if s = [] then .ok r
      else
        match fl.float s with
        | none => .error r
        | some x => .ok ⟨r.values ++ [.num x], r.fields ++ [column_name]⟩

def readColumns (fieldnames row : List Chars) : Except (Reading F) (Reading F) :=
  fieldnames.foldlM (readColumn fl fieldnames row) {}

/-- `key`, where nothing is raised before it is known. -/
def rowKey (src_path : Chars) (fieldnames row : List Chars) : Option Key := do
  let timestamp ← (value fieldnames row "timestamp".toList).bind (parseInt int_max_str_digits)
  let ue_imsi ← (value fieldnames row "ueImsiComplete".toList).bind (parseInt int_max_str_digits)
  let file_type ← file_type src_path
  return ⟨timestamp, ue_imsi, file_type⟩

variable (e : Event F) (fieldnames : List Chars)

/-- What is done for a row with a new key. -/
def consume (w : SimWatcher F) (key : Key) (ue : Chars) (row : List Chars) :
    Except (SimWatcher F) (SimWatcher F) :=
  let values := (w.kpm_map key).getD []
  match readColumns fl fieldnames row with
  | .error r => .error (w.put key (values ++ r.values))
  | .ok r =>
      match file_id_number e.src_path with
      | none => .error (w.put key (values ++ r.values))
      | some id =>
          let w := { w with consumed_keys := w.consumed_keys ++ [key] }
          match send_to_influxDB fl ue (values ++ r.values ++ [.text id])
              (r.fields ++ ["file_id_number".toList]) key.file_type with
          | .error values => .error (w.put key values)
          | .ok (values, influx_points) =>
              if e.write_points influx_points then
                .ok { w.put key values with written := w.written ++ [influx_points] }
              else .error (w.put key values)

/-- The body of the loop over the rows. -/
def processRow (w : SimWatcher F) (row : List Chars) : Except (SimWatcher F) (SimWatcher F) :=
  match rowKey e.src_path fieldnames row, value fieldnames row "ueImsiComplete".toList with
  | some key, some ue =>
      if key ∈ w.consumed_keys then .ok w else consume fl e fieldnames w key ue row
  | _, _ => .error w

end

/-- How a call of `on_modified` ends; a call that waits for the lock does not. -/
inductive Outcome (F : Type) where
  | returned (w : SimWatcher F)
  | raised (w : SimWatcher F)
  | blocked

/-- `csv.field_size_limit()`. -/
def field_size_limit : Nat := 131072

section

variable {F : Type} (fl : Floats F)

def on_modified (w : SimWatcher F) (e : Event F) : Outcome F :=
  if w.locked then .blocked
  else
    match e.content with
    | none => .raised { w with locked := true }
    | some content =>
        let reader := DictReader.read field_size_limit content
        match reader.rows.foldlM (processRow fl e reader.fieldnames) { w with locked := true } with
        | .error w => .raised w
        | .ok w => if reader.raises then .raised w else .returned { w with locked := false }

/-- The watcher that a call leaves behind. -/
def handleEvent (w : SimWatcher F) (e : Event F) : SimWatcher F :=
  match on_modified fl w e with
  | .returned w => w
  | .raised w => w
  | .blocked => w

def run (events : List (Event F)) : SimWatcher F := events.foldl (handleEvent fl) {}

end

/-! ### One row -/

section

variable {F : Type} {fl : Floats F} {e : Event F} {fieldnames row : List Chars} {ue : Chars}
  {w w' : SimWatcher F} {key : Key} {points : List (InfluxPoint F)}

/-- Nothing is left of a row that may still be sent. -/
def SimWatcher.Clean (w : SimWatcher F) : Prop :=
  ∀ key, key ∉ w.consumed_keys → (w.kpm_map key).getD [] = []

/-- The points that a row comes to by itself. -/
def rowPoints (fl : Floats F) (src_path : Chars) (fieldnames row : List Chars) :
    Option (List (InfluxPoint F)) := do
  let key ← rowKey src_path fieldnames row
  let ue ← value fieldnames row "ueImsiComplete".toList
  let r ← (readColumns fl fieldnames row).toOption
  let id ← file_id_number src_path
  let (_, influx_points) ← (send_to_influxDB fl ue (r.values ++ [.text id])
    (r.fields ++ ["file_id_number".toList]) key.file_type).toOption
  return influx_points

/-- The watcher behind a row that was sent. -/
def SimWatcher.sent (w : SimWatcher F) (key : Key) (values : List (Value F))
    (points : List (InfluxPoint F)) : SimWatcher F :=
  { w.put key values with
    consumed_keys := w.consumed_keys ++ [key]
    written := w.written ++ [points] }

/-- **A new row** has points that the database takes, or it raises an exception, which does not
release the lock. -/
theorem consume_cases (hclean : (w.kpm_map key).getD [] = [])
    (hkey : rowKey e.src_path fieldnames row = some key)
    (hue : value fieldnames row "ueImsiComplete".toList = some ue) :
    (∃ values points, rowPoints fl e.src_path fieldnames row = some points ∧
      e.write_points points = true ∧
        consume fl e fieldnames w key ue row = .ok (w.sent key values points)) ∨
    ((∀ points, rowPoints fl e.src_path fieldnames row = some points →
      e.write_points points = false) ∧
        ∃ w', consume fl e fieldnames w key ue row = .error w' ∧ w'.locked = w.locked) := by
  unfold consume rowPoints
  rw [hkey, hue, hclean]
  cases readColumns fl fieldnames row with
  | error r => exact .inr ⟨nofun, _, rfl, rfl⟩
  | ok r =>
      cases file_id_number e.src_path with
      | none => exact .inr ⟨nofun, _, rfl, rfl⟩
      | some id =>
          simp only [List.nil_append, Except.toOption, Option.bind_eq_bind, Option.bind_some,
            Option.pure_def]
          cases send_to_influxDB fl ue (r.values ++ [.text id])
              (r.fields ++ ["file_id_number".toList]) key.file_type with
          | error values => exact .inr ⟨nofun, _, rfl, rfl⟩
          | ok out =>
              obtain ⟨values, points⟩ := out
              simp only [Option.bind_some]
              cases hwrite : e.write_points points with
              | true => exact .inl ⟨values, points, rfl, hwrite, rfl⟩
              | false =>
                  refine .inr ⟨?_, _, rfl, rfl⟩
                  rintro _ ⟨⟩
                  exact hwrite

/-- A row whose key is known has a UE. -/
theorem exists_ue {src_path : Chars} (hkey : rowKey src_path fieldnames row = some key) :
    ∃ ue, value fieldnames row "ueImsiComplete".toList = some ue := by
  unfold rowKey at hkey
  simp only [Option.bind_eq_bind, Option.bind_eq_some_iff] at hkey
  obtain ⟨-, -, -, ⟨ue, hue, -⟩, -⟩ := hkey
  exact ⟨ue, hue⟩

/-- **All that a row can come to**: nothing if its key is known, else its points, or an
exception. -/
theorem processRow_cases (hclean : w.Clean) :
    (∃ key, rowKey e.src_path fieldnames row = some key ∧ key ∈ w.consumed_keys ∧
      processRow fl e fieldnames w row = .ok w) ∨
    (∃ key values points, rowKey e.src_path fieldnames row = some key ∧ key ∉ w.consumed_keys ∧
      rowPoints fl e.src_path fieldnames row = some points ∧ e.write_points points = true ∧
        processRow fl e fieldnames w row = .ok (w.sent key values points)) ∨
    ((∀ key, rowKey e.src_path fieldnames row = some key → key ∉ w.consumed_keys ∧
      ∀ points, rowPoints fl e.src_path fieldnames row = some points →
        e.write_points points = false) ∧
      ∃ w', processRow fl e fieldnames w row = .error w' ∧ w'.locked = w.locked) := by
  unfold processRow
  cases hkey : rowKey e.src_path fieldnames row with
  | none => exact .inr (.inr ⟨nofun, w, rfl, rfl⟩)
  | some key =>
      obtain ⟨ue, hue⟩ := exists_ue hkey
      rw [hue]
      dsimp only
      by_cases hmem : key ∈ w.consumed_keys
      · exact .inl ⟨key, rfl, hmem, if_pos hmem⟩
      · rw [if_neg hmem]
        rcases consume_cases (hclean key hmem) hkey hue with
          ⟨values, points, hpoints, hwrite, hrow⟩ | ⟨hrefused, w', hrow, hlock⟩
        · exact .inr (.inl ⟨key, values, points, rfl, hmem, hpoints, hwrite, hrow⟩)
        · refine .inr (.inr ⟨?_, w', hrow, hlock⟩)
          rintro _ ⟨⟩
          exact ⟨hmem, hrefused⟩

/-- What is left of a row that was sent is not in the way of another. -/
theorem SimWatcher.Clean.sent (h : w.Clean) (key : Key) (values : List (Value F))
    (points : List (InfluxPoint F)) : (w.sent key values points).Clean := by
  intro k hk
  obtain ⟨hk, hne⟩ := not_or.1 (List.mem_append.not.1 hk)
  have hupdate : (w.sent key values points).kpm_map k = w.kpm_map k :=
    Function.update_of_ne (fun h => hne (List.mem_singleton.2 h)) _ _
  rw [hupdate]
  exact h k hk

end

/-! ### Runs -/

section

variable {F : Type} {fl : Floats F} {w : SimWatcher F}

/-- With the lock held an event waits. -/
theorem on_modified_blocked (h : w.locked = true) (e : Event F) :
    on_modified fl w e = .blocked := by
  unfold on_modified
  exact if_pos h

/-- **While the lock is held nothing is read or sent any more.** -/
theorem foldl_handleEvent_of_locked (h : w.locked = true) (events : List (Event F)) :
    events.foldl (handleEvent fl) w = w := by
  induction events with
  | nil => rfl
  | cons e events ih =>
      have hstep : handleEvent fl w e = w := by
        unfold handleEvent
        rw [on_modified_blocked h]
      rw [List.foldl_cons, hstep, ih]

end

end NearRtRic.Watcher
