/-
# Comma separated values

`records` is the reader of Python's `csv` module for its default dialect, character by
character, and `DictReader.read` what `csv.DictReader` makes of a file that was opened: the
names in the first record, the records behind it without the blank ones, and whether an
exception ends them.  That is a field that is too long, or what stands behind the part of
the file that can be decoded (`Decoded`).

`read_render` is the round trip: records without quotes, commas and line ends in their
fields are read back as they were written, however many there are.
-/

import NearRtRic.Text.Basic

namespace NearRtRic.Csv

open Text

/-! ### The reader -/

def quotechar : Char := Char.ofNat 34

inductive State where
  | startRecord
  | startField
  | inField
  | inQuotedField
  | quoteInQuotedField
  deriving DecidableEq, Repr

/-- What is done with a character. -/
inductive Op where
  | skip
  | addChar
  | saveField
  | endRecord
  deriving DecidableEq, Repr

def processChar (state : State) (c : Char) : State × Op :=
  if state = .inQuotedField then
    if c = quotechar then (.quoteInQuotedField, .skip) else (.inQuotedField, .addChar)
  else if c = '\n' then (.startRecord, .endRecord)
  else if c = ',' then (.startField, .saveField)
  else if c = quotechar ∧ state = .quoteInQuotedField then (.inQuotedField, .addChar)
  else if c = quotechar ∧ state ≠ .inField then (.inQuotedField, .skip)
  else (.inField, .addChar)

/-- Records, and whether an exception is raised behind them. -/
structure Records where
  rows : List (List Chars)
  raises : Bool
  deriving DecidableEq, Repr

def Records.cons (row : List Chars) (r : Records) : Records := { r with rows := row :: r.rows }

/-- The record that ends: a blank line has no fields. -/
def endOf (state : State) (field : Chars) (fields : List Chars) : List Chars :=
  if state = .startRecord then [] else (field.reverse :: fields).reverse

/-- The records of the rest of a text; the current field and its record are reversed.  Where
the text is not complete, an exception stands behind it, and a record that was begun is lost. -/
def records (field_size_limit : Nat) (complete : Bool) :
    State → Chars → List Chars → Chars → Records
  | state, field, fields, [] =>
      if complete then
        ⟨if state = .startRecord then [] else [endOf state field fields], false⟩
      else ⟨[], true⟩
  | state, field, fields, c :: s =>
      match processChar state c with
      | (state', .skip) => records field_size_limit complete state' field fields s
      | (state', .addChar) =>
          if field_size_limit ≤ field.length then ⟨[], true⟩
          else records field_size_limit complete state' (c :: field) fields s
      | (state', .saveField) =>
          records field_size_limit complete state' [] (field.reverse :: fields) s
      | (state', .endRecord) =>
          (records field_size_limit complete state' [] [] s).cons (endOf state field fields)

/-- What `open` makes of the line ends. -/
def universalNewlines : Chars → Chars
  | [] => []
  | '\r' :: '\n' :: s => '\n' :: universalNewlines s
  | '\r' :: s => '\n' :: universalNewlines s
  | c :: s => c :: universalNewlines s

/-- What an opened file is decoded to: its text, or what there is of it in front of a chunk
that raises `UnicodeDecodeError`. -/
structure Decoded where
  text : Chars
  complete : Bool := true
  deriving DecidableEq, Repr

/-- The lines of the text.  A carriage return in front of a chunk that is not decoded is held
back, since the chunk might begin with a line feed. -/
def Decoded.lines (d : Decoded) : Chars :=
  if d.complete ∨ d.text.getLast? ≠ some '\r' then universalNewlines d.text
  else universalNewlines d.text.dropLast

structure DictReader where
  fieldnames : List Chars
  rows : List (List Chars)
  raises : Bool
  deriving DecidableEq, Repr

namespace DictReader

def read (field_size_limit : Nat) (content : Decoded) : DictReader :=
  match records field_size_limit content.complete .startRecord [] [] content.lines with
  | ⟨[], raises⟩ => ⟨[], [], raises⟩
  | ⟨fieldnames :: rows, raises⟩ => ⟨fieldnames, rows.filter fun row => row ≠ [], raises⟩

end DictReader

/-- `row[column_name]`: of columns with one name the last one counts, and a column that the
record does not reach has no value, nor has one that is not there. -/
def value (fieldnames row : List Chars) (column_name : Chars) : Option Chars :=
  ((fieldnames.zip (row.map some ++ List.replicate fieldnames.length none)).reverse.find?
    fun column => column.1 = column_name).bind Prod.snd

/-! ### Writing -/

def line (row : List Chars) : Chars := [','].intercalate row

/-- One line for each record. -/
def render (rows : List (List Chars)) : Chars := ['\n'].intercalate (rows.map line)

/-- The field is written as it is. -/
structure Plain (field_size_limit : Nat) (field : Chars) : Prop where
  newline : '\n' ∉ field
  carriageReturn : '\r' ∉ field
  comma : ',' ∉ field
  quote : quotechar ∉ field
  length : field.length ≤ field_size_limit

/-- The line of the record is not blank, and its fields are written as they are. -/
structure PlainRow (field_size_limit : Nat) (row : List Chars) : Prop where
  notBlank : line row ≠ []
  plain : ∀ field ∈ row, Plain field_size_limit field

instance {field_size_limit : Nat} {field : Chars} : Decidable (Plain field_size_limit field) :=
  decidable_of_iff ('\n' ∉ field ∧ '\r' ∉ field ∧ ',' ∉ field ∧ quotechar ∉ field ∧
      field.length ≤ field_size_limit)
    ⟨fun ⟨hn, hr, hc, hq, hl⟩ => ⟨hn, hr, hc, hq, hl⟩,
      fun ⟨hn, hr, hc, hq, hl⟩ => ⟨hn, hr, hc, hq, hl⟩⟩

instance {field_size_limit : Nat} {row : List Chars} : Decidable (PlainRow field_size_limit row) :=
  decidable_of_iff (line row ≠ [] ∧ ∀ field ∈ row, Plain field_size_limit field)
    ⟨fun ⟨hline, hplain⟩ => ⟨hline, hplain⟩, fun ⟨hline, hplain⟩ => ⟨hline, hplain⟩⟩

variable {limit : Nat} {state : State} {field : Chars} {fields row : List Chars} {c : Char}
  {rows : List (List Chars)}

/-- The reader is not between quotes. -/
def State.Unquoted (state : State) : Prop := state ≠ .inQuotedField ∧ state ≠ .quoteInQuotedField

/-- No field is quoted at the start of a record. -/
theorem unquoted_startRecord : State.startRecord.Unquoted := ⟨nofun, nofun⟩

/-- Nor at the start of a field. -/
theorem unquoted_startField : State.startField.Unquoted := ⟨nofun, nofun⟩

/-- Nor in a field that began without a quote. -/
theorem unquoted_inField : State.inField.Unquoted := ⟨nofun, nofun⟩

/-- Outside quotes a plain character is added to the field. -/
theorem processChar_plain (hstate : state.Unquoted) (hnewline : c ≠ '\n') (hcomma : c ≠ ',')
    (hquote : c ≠ quotechar) : processChar state c = (.inField, .addChar) := by
  unfold processChar
  rw [if_neg hstate.1, if_neg hnewline, if_neg hcomma, if_neg fun h => hquote h.1,
    if_neg fun h => hquote h.1]

/-- Outside quotes a comma ends the field. -/
theorem processChar_comma (hstate : state.Unquoted) :
    processChar state ',' = (.startField, .saveField) := by
  unfold processChar
  rw [if_neg hstate.1, if_neg (by decide), if_pos rfl]

/-- Outside quotes a line feed ends the record. -/
theorem processChar_newline (hstate : state.Unquoted) :
    processChar state '\n' = (.startRecord, .endRecord) := by
  unfold processChar
  rw [if_neg hstate.1, if_pos rfl]

/-- The characters of a plain field are added to it. -/
theorem records_field {f : Chars} (hstate : state.Unquoted) (hf : Plain limit (field.reverse ++ f))
    (t : Chars) : records limit true state field fields (f ++ t) =
      records limit true (if f = [] then state else .inField) (f.reverse ++ field) fields t := by
  induction f generalizing state field with
  | nil => rfl
  | cons c f ih =>
      have hc : c ∈ field.reverse ++ c :: f := List.mem_append_right _ List.mem_cons_self
      have hlen := hf.length
      rw [List.length_append, List.length_reverse, List.length_cons] at hlen
      have hstep := processChar_plain hstate (fun h => hf.newline (h ▸ hc))
        (fun h => hf.comma (h ▸ hc)) (fun h => hf.quote (h ▸ hc))
      rw [List.cons_append, records, hstep]
      dsimp only
      have hf' : Plain limit ((c :: field).reverse ++ f) := by
        rwa [List.reverse_cons, List.append_assoc]
      rw [if_neg (by omega), ih unquoted_inField hf', if_neg (List.cons_ne_nil c f),
        List.reverse_cons, List.append_assoc]
      split <;> rfl

/-- A plain field from its beginning. -/
theorem records_newField {f : Chars} (hstate : state.Unquoted) (hf : Plain limit f) (t : Chars) :
    records limit true state [] fields (f ++ t) =
      records limit true (if f = [] then state else .inField) f.reverse fields t := by
  have hread : records limit true state [] fields (f ++ t) =
      records limit true (if f = [] then state else .inField) (f.reverse ++ []) fields t :=
    records_field hstate hf t
  rwa [List.append_nil] at hread

/-- Behind a plain field no quote is open. -/
theorem unquoted_of_field {f : Chars} (hstate : state.Unquoted) :
    (if f = [] then state else .inField).Unquoted := by
  split
  · exact hstate
  · exact unquoted_inField

/-- A field with another one behind it. -/
theorem records_field_comma {f : Chars} (hstate : state.Unquoted) (hf : Plain limit f)
    (t : Chars) : records limit true state [] fields (f ++ ',' :: t) =
      records limit true .startField [] (f :: fields) t := by
  rw [records_newField hstate hf, records, processChar_comma (unquoted_of_field hstate)]
  simp

/-- The last field of a row, which is not the only one or not empty. -/
theorem records_lastField {f : Chars} (hstate : state.Unquoted) (hf : Plain limit f)
    (hblank : f ≠ [] ∨ state ≠ .startRecord) :
    records limit true state [] fields f = ⟨[fields.reverse ++ [f]], false⟩ ∧ ∀ t,
      records limit true state [] fields (f ++ '\n' :: t) =
        (records limit true .startRecord [] [] t).cons (fields.reverse ++ [f]) := by
  have hend : (if f = [] then state else .inField) ≠ .startRecord := by
    split
    · rename_i hnil
      exact hblank.resolve_left fun h => h hnil
    · exact nofun
  constructor
  · have hread : records limit true state [] fields (f ++ []) = _ := records_newField hstate hf []
    rw [List.append_nil] at hread
    rw [hread, records, if_neg hend, endOf, if_neg hend]
    simp
  · intro t
    rw [records_newField hstate hf, records, processChar_newline (unquoted_of_field hstate)]
    dsimp only
    rw [endOf, if_neg hend]
    simp

/-- A line of plain fields is read as its record, at the end of the text and in front of more. -/
theorem records_row (hstate : state.Unquoted) (hrow : ∀ f ∈ row, Plain limit f) (hne : row ≠ [])
    (hblank : line row ≠ [] ∨ state ≠ .startRecord) :
    records limit true state [] fields (line row) = ⟨[fields.reverse ++ row], false⟩ ∧ ∀ t,
      records limit true state [] fields (line row ++ '\n' :: t) =
        (records limit true .startRecord [] [] t).cons (fields.reverse ++ row) := by
  induction row generalizing state fields with
  | nil => exact absurd rfl hne
  | cons f row ih =>
      have hf : Plain limit f := hrow f List.mem_cons_self
      cases row with
      | nil =>
          rw [line, List.intercalate_singleton] at hblank ⊢
          exact records_lastField hstate hf hblank
      | cons g row =>
          have hsplit : line (f :: g :: row) = f ++ ',' :: line (g :: row) := by
            rw [line, List.intercalate_cons_cons, List.append_assoc]
            rfl
          have hrest : ∀ g' ∈ g :: row, Plain limit g' := fun g' hg =>
            hrow g' (List.mem_cons_of_mem f hg)
          have htail : records limit true .startField [] (f :: fields) (line (g :: row)) = _ ∧ ∀ t,
              records limit true .startField [] (f :: fields) (line (g :: row) ++ '\n' :: t) = _ :=
            ih unquoted_startField hrest (List.cons_ne_nil _ _) (.inr nofun)
          rw [List.reverse_cons, List.append_assoc] at htail
          obtain ⟨hlast, hmore⟩ := htail
          rw [hsplit]
          constructor
          · rw [records_field_comma hstate hf, hlast]
            rfl
          · intro t
            rw [List.append_assoc, List.cons_append, records_field_comma hstate hf, hmore]
            rfl

/-- A plain row has a field. -/
theorem PlainRow.ne_nil (h : PlainRow limit row) : row ≠ [] := by
  rintro rfl
  exact h.notBlank rfl

/-- A record more is a line more. -/
theorem render_concat {fieldnames : List Chars} :
    render (fieldnames :: (rows ++ [row])) = render (fieldnames :: rows) ++ '\n' :: line row := by
  unfold render
  rw [List.map_cons, List.map_cons, List.map_append, intercalate_cons, intercalate_cons,
    List.flatMap_append, List.append_assoc]
  simp

/-- What is rendered of plain rows is read as these rows. -/
theorem records_render (h : ∀ row ∈ rows, PlainRow limit row) :
    records limit true .startRecord [] [] (render rows) = ⟨rows, false⟩ := by
  induction rows with
  | nil => rfl
  | cons row rows ih =>
      have hrow : PlainRow limit row := h row List.mem_cons_self
      have hread : records limit true .startRecord [] [] (line row) = _ ∧ ∀ t,
          records limit true .startRecord [] [] (line row ++ '\n' :: t) = _ :=
        records_row unquoted_startRecord hrow.plain hrow.ne_nil (.inl hrow.notBlank)
      cases rows with
      | nil =>
          rw [render, List.map_cons, List.map_nil, List.intercalate_singleton]
          exact hread.1
      | cons row' rows =>
          have hsplit : render (row :: row' :: rows) =
              line row ++ '\n' :: render (row' :: rows) := by
            rw [render, List.map_cons, List.map_cons, List.intercalate_cons_cons, List.append_assoc]
            rfl
          rw [hsplit, hread.2, ih fun r hr => h r (List.mem_cons_of_mem row hr)]
          rfl

/-- Without carriage returns the text stays as it is. -/
theorem universalNewlines_eq_self {s : Chars} (h : '\r' ∉ s) : universalNewlines s = s := by
  induction s with
  | nil => rfl
  | cons c s ih =>
      obtain ⟨hc, hs⟩ := not_or.1 (List.mem_cons.not.1 h)
      rw [universalNewlines, ih hs]
      · rintro s rfl
        exact absurd rfl hc
      · rintro rfl
        exact absurd rfl hc

/-- None is rendered for plain rows. -/
theorem carriageReturn_notMem_render (h : ∀ row ∈ rows, PlainRow limit row) :
    '\r' ∉ render rows := by
  intro hmem
  rcases mem_intercalate hmem with hmem | ⟨l, hl, hmem⟩
  · exact absurd hmem (by decide)
  · obtain ⟨row, hrow, rfl⟩ := List.mem_map.1 hl
    rcases mem_intercalate hmem with hmem | ⟨f, hf, hmem⟩
    · exact absurd hmem (by decide)
    · exact ((h row hrow).plain f hf).carriageReturn hmem

/-- **What was written is read back.** -/
theorem DictReader.read_render {fieldnames : List Chars} (hnames : PlainRow limit fieldnames)
    (h : ∀ row ∈ rows, PlainRow limit row) :
    read limit { text := render (fieldnames :: rows) } = ⟨fieldnames, rows, false⟩ := by
  have hall : ∀ row ∈ fieldnames :: rows, PlainRow limit row := List.forall_mem_cons.2 ⟨hnames, h⟩
  unfold read Decoded.lines
  rw [if_pos (.inl rfl), universalNewlines_eq_self (carriageReturn_notMem_render hall),
    records_render hall]
  dsimp only
  rw [List.filter_eq_self.2 fun row hrow => decide_eq_true (h row hrow).ne_nil]

end NearRtRic.Csv
