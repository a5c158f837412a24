/-
# Rows of numbers

A row is well formed if its fields can be written as they are, its time and its UE are
numerals, and each column has nothing or a finite number.  `WellFormed.points` says that
nothing is raised for such a row in a file with a cell in its name: neither when the
columns are read nor in `_send_to_influxDB`.
-/

import NearRtRic.Watcher.SimWatcher

namespace NearRtRic.Watcher

open Csv Text

variable {F : Type} {fl : Floats F} {fieldnames row : List Chars} {ue id field : Chars} {k : Nat}
  {t : Int}

/-- `int` of the number, and of the time that it may be, is not an exception. -/
structure Finite (fl : Floats F) (x : F) : Prop where
  int : (fl.int x).isSome
  nanoseconds : (fl.int (fl.mulPow6 x)).isSome

/-- A row of numbers. -/
structure WellFormed (fl : Floats F) (fieldnames row : List Chars) : Prop where
  plain : PlainRow field_size_limit row
  timestamp : ∃ z, (value fieldnames row "timestamp".toList).bind (parseInt int_max_str_digits) =
    some z
  ue : ∃ z, (value fieldnames row "ueImsiComplete".toList).bind (parseInt int_max_str_digits) =
    some z
  columns : ∀ column_name ∈ fieldnames, ∃ s, value fieldnames row column_name = some s ∧
    (s = [] ∨ ∃ x, fl.float s = some x ∧ Finite fl x)

/-! ### The columns -/

/-- What was read are finite numbers, with a name for each. -/
structure Numbers (fl : Floats F) (r : Reading F) (xs : List F) : Prop where
  values : r.values = xs.map .num
  finite : ∀ x ∈ xs, Finite fl x
  fields : r.fields.length = xs.length

/-- One more number behind the others. -/
theorem Numbers.concat {r : Reading F} {xs : List F} (hr : Numbers fl r xs) {x : F}
    (hx : Finite fl x) (c : Chars) :
    Numbers fl ⟨r.values ++ [.num x], r.fields ++ [c]⟩ (xs ++ [x]) where
  values := by
    rw [hr.values, List.map_append]
    rfl
  finite := List.forall_mem_append.2 ⟨hr.finite, List.forall_mem_singleton.2 hx⟩
  fields := by
    rw [List.length_append, List.length_append, hr.fields]
    rfl

/-- An empty field is passed over. -/
theorem readColumn_nil {c : Chars} (h : value fieldnames row c = some []) (r : Reading F) :
    readColumn fl fieldnames row r c = .ok r := by
  unfold readColumn
  rw [h]
  exact if_pos rfl

/-- A number is read with the name of its column. -/
theorem readColumn_number {c s : Chars} {x : F} (h : value fieldnames row c = some s)
    (hne : s ≠ []) (hx : fl.float s = some x) (r : Reading F) :
    readColumn fl fieldnames row r c = .ok ⟨r.values ++ [.num x], r.fields ++ [c]⟩ := by
  unfold readColumn
  rw [h]
  dsimp only
  rw [if_neg hne, hx]

/-- Columns that are empty or numbers are all read, as finite numbers. -/
theorem readColumns_numbers {columns : List Chars} {r : Reading F} {xs : List F}
    (hr : Numbers fl r xs)
    (h : ∀ column_name ∈ columns, ∃ s, value fieldnames row column_name = some s ∧
      (s = [] ∨ ∃ x, fl.float s = some x ∧ Finite fl x)) :
    ∃ r' xs', columns.foldlM (readColumn fl fieldnames row) r = .ok r' ∧ Numbers fl r' xs' ∧
      xs.length ≤ xs'.length ∧
        ((∃ c ∈ columns, value fieldnames row c ≠ some []) → xs' ≠ []) := by
  induction columns generalizing r xs with
  | nil => exact ⟨r, xs, rfl, hr, le_rfl, nofun⟩
  | cons c columns ih =>
      obtain ⟨⟨s, hs, hvalue⟩, hcolumns⟩ := List.forall_mem_cons.1 h
      rw [List.foldlM_cons]
      by_cases hnil : s = []
      · subst hnil
        obtain ⟨r', xs', hfold, hr', hlen, hne⟩ := ih hr hcolumns
        rw [readColumn_nil hs]
        refine ⟨r', xs', hfold, hr', hlen, ?_⟩
        rintro ⟨c', hc', hvalue'⟩
        rcases List.mem_cons.1 hc' with rfl | hc'
        · exact absurd hs hvalue'
        · exact hne ⟨c', hc', hvalue'⟩
      · obtain ⟨x, hx, hfinite⟩ := hvalue.resolve_left hnil
        obtain ⟨r', xs', hfold, hr', hlen, -⟩ := ih (hr.concat hfinite c) hcolumns
        rw [List.length_append, List.length_singleton] at hlen
        rw [readColumn_number hs hnil hx]
        refine ⟨r', xs', hfold, hr', by omega, fun _ => ?_⟩
        rintro rfl
        rw [List.length_nil] at hlen
        omega

/-- A column with a value is one of the names. -/
theorem mem_of_value {column_name s : Chars} (h : value fieldnames row column_name = some s) :
    column_name ∈ fieldnames := by
  unfold value at h
  obtain ⟨⟨name, v⟩, hfind, -⟩ := Option.bind_eq_some_iff.1 h
  have hname : name = column_name := by simpa using List.find?_some hfind
  have hmem := List.mem_reverse.1 (List.mem_of_find?_eq_some hfind)
  rw [← hname]
  exact (List.of_mem_zip hmem).1

/-! ### The points -/

/-- The next `k` values are finite numbers, and the last value is the cell of the file. -/
structure Ready (fl : Floats F) (id : Chars) (k : Nat) (s : Sending F) : Prop where
  id : s.values.getLast? = some (.text id)
  length : s.i + k < s.values.length
  numbers : ∀ j, s.i ≤ j → j < s.i + k → ∃ x, s.values[j]? = some (.num x) ∧ (fl.int x).isSome
  cellId : (s.cellId.int fl).isSome

/-- Who can send some fields can send fewer. -/
theorem Ready.mono {s : Sending F} {k' : Nat} (h : Ready fl id k s) (hk : k' ≤ k) :
    Ready fl id k' s where
  id := h.id
  length := by
    have hlen := h.length
    omega
  numbers j hj hj' := h.numbers j hj (by omega)
  cellId := h.cellId

/-- A value that is converted is not an identity of a cell. -/
theorem convert_num (field : Chars) (x : F) : ∃ y, convert fl field (.num x) = some (.num y) ∧
    ("cellId".toList <:+: field → y = x) := by
  unfold convert
  split
  · rename_i hfield
    refine ⟨_, rfl, fun hcell => ?_⟩
    rw [hfield] at hcell
    exact absurd hcell (by decide +kernel)
  · exact ⟨x, rfl, fun _ => rfl⟩

/-- The variables behind a value that was sent. -/
theorem Ready.next {s s' : Sending F} {y : F} (h : Ready fl id (k + 1) s)
    (hvalues : s'.values = s.values.set s.i (.num y)) (hi : s'.i = s.i + 1)
    (hcell : (s'.cellId.int fl).isSome) : Ready fl id k s' := by
  have hlen := h.length
  refine ⟨?_, ?_, ?_, hcell⟩
  · rw [hvalues, List.getLast?_eq_getElem?, List.length_set, List.getElem?_set_ne (by omega),
      ← List.getLast?_eq_getElem?]
    exact h.id
  · rw [hvalues, hi, List.length_set]
    omega
  · intro j hj hj'
    rw [hvalues, List.getElem?_set_ne (by omega)]
    exact h.numbers j (by omega) (by omega)

/-- One field is sent, and the next values are as they were. -/
theorem sendField_ready {s : Sending F} {file_type : Nat} (h : Ready fl id (k + 1) s)
    (field : Chars) : ∃ s', sendField fl ue file_type t s field = .ok s' ∧ Ready fl id k s' := by
  obtain ⟨x, hx, hint⟩ := h.numbers s.i le_rfl (by omega)
  obtain ⟨y, hconvert, hsame⟩ : ∃ y, convert fl field (.num x) = some (.num y) ∧
      ("cellId".toList <:+: field → y = x) := convert_num field x
  have hlen := h.length
  have hlast : (s.note field (.num y)).values.getLast? = some (.text id) := by
    rw [Sending.note, List.getLast?_eq_getElem?, List.length_set, List.getElem?_set_ne (by omega),
      ← List.getLast?_eq_getElem?]
    exact h.id
  have hcell : ((s.note field (.num y)).cellId.int fl).isSome := by
    unfold Sending.note
    dsimp only
    split
    · rename_i hfield
      rw [hsame hfield.2]
      exact hint
    · exact h.cellId
  obtain ⟨stat, hstat⟩ : ∃ stat, cellStat fl (s.note field (.num y)) field = some stat := by
    unfold cellStat
    split
    · exact Option.isSome_iff_exists.1 (by rwa [Option.isSome_map])
    · exact ⟨field, rfl⟩
  have hnext : ∀ point, Ready fl id k ((s.note field (.num y)).addPoint point) := fun point =>
    h.next rfl rfl hcell
  unfold sendField
  rw [hx, Option.bind_some, hconvert]
  dsimp only
  rw [hstat, hlast]
  dsimp only
  split
  · exact ⟨s, rfl, h.mono (Nat.le_succ k)⟩
  · split
    · exact ⟨_, rfl, hnext _⟩
    · exact ⟨_, rfl, hnext _⟩

/-- All fields are sent. -/
theorem foldlM_sendField {fields : List Chars} {s : Sending F} {file_type : Nat}
    (h : Ready fl id fields.length s) :
    ∃ s', fields.foldlM (sendField fl ue file_type t) s = .ok s' := by
  induction fields generalizing s with
  | nil => exact ⟨s, rfl⟩
  | cons field fields ih =>
      obtain ⟨s₁, hs₁, hready⟩ := sendField_ready h field
      rw [List.foldlM_cons, hs₁]
      exact ih hready

/-- **Numbers are sent.** -/
theorem send_to_influxDB_numbers {r : Reading F} {xs : List F} {file_type : Nat}
    (hr : Numbers fl r xs) (hne : xs ≠ []) :
    ∃ values points, send_to_influxDB fl ue (r.values ++ [.text id])
      (r.fields ++ ["file_id_number".toList]) file_type = .ok (values, points) := by
  obtain ⟨x, xs, rfl⟩ := List.exists_cons_of_ne_nil hne
  obtain ⟨t, ht⟩ := Option.isSome_iff_exists.1 (hr.finite x List.mem_cons_self).nanoseconds
  have hready : Ready fl id r.fields.length { values := r.values ++ [.text id] } := by
    refine ⟨List.getLast?_concat, ?_, ?_, rfl⟩
    · rw [hr.fields, hr.values, List.length_append, List.length_map, List.length_singleton]
      simp
    · intro j _ hj
      rw [hr.fields] at hj
      have hj' : j < (x :: xs).length := by simpa using hj
      refine ⟨(x :: xs)[j], ?_, (hr.finite _ (List.getElem_mem hj')).int⟩
      rw [hr.values, List.getElem?_append_left (by rwa [List.length_map]), List.getElem?_map,
        List.getElem?_eq_getElem hj', Option.map_some]
  obtain ⟨s, hs⟩ : ∃ s, r.fields.foldlM (sendField fl ue file_type t)
      { values := r.values ++ [.text id] } = .ok s := foldlM_sendField hready
  refine ⟨s.values, s.influx_points, ?_⟩
  have hlast : sendField fl ue file_type t s "file_id_number".toList = .ok s := if_pos rfl
  have hhead : (r.values ++ [Value.text id]).head? = some (.num x) := by rw [hr.values]; rfl
  unfold send_to_influxDB
  rw [hhead]
  dsimp only
  rw [ht]
  dsimp only
  rw [List.foldlM_append, hs]
  simp only [bind, Except.bind, List.foldlM_cons, List.foldlM_nil, hlast, pure, Except.pure]

/-! ### The row -/

/-- A row with a key has points if its columns are empty or finite numbers. -/
theorem exists_rowPoints {src_path : Chars} {key : Key}
    (hkey : rowKey src_path fieldnames row = some key) (hid : file_id_number src_path = some id)
    (h : ∀ column_name ∈ fieldnames, ∃ s, value fieldnames row column_name = some s ∧
      (s = [] ∨ ∃ x, fl.float s = some x ∧ Finite fl x)) :
    ∃ points, rowPoints fl src_path fieldnames row = some points := by
  obtain ⟨ue, hue⟩ := exists_ue hkey
  obtain ⟨s, hs, hparse⟩ : ∃ s, value fieldnames row "timestamp".toList = some s ∧
      parseInt int_max_str_digits s ≠ none := by
    unfold rowKey at hkey
    simp only [Option.bind_eq_bind, Option.bind_eq_some_iff] at hkey
    obtain ⟨z, ⟨s, hs, hz⟩, -⟩ := hkey
    exact ⟨s, hs, by simp [hz]⟩
  have hempty : Numbers fl {} [] := ⟨rfl, nofun, rfl⟩
  obtain ⟨r, xs, hread, hr, -, hne⟩ := readColumns_numbers hempty h
  -- the time is a numeral, so its column is not empty
  have hxs : xs ≠ [] := by
    refine hne ⟨_, mem_of_value hs, fun hnil => ?_⟩
    rw [hs] at hnil
    obtain rfl := Option.some.inj hnil
    exact hparse rfl
  obtain ⟨values, points, hsend⟩ : ∃ values points, send_to_influxDB fl ue
      (r.values ++ [.text id]) (r.fields ++ ["file_id_number".toList]) key.file_type =
        .ok (values, points) := send_to_influxDB_numbers hr hxs
  have hread' : readColumns fl fieldnames row = .ok r := hread
  refine ⟨points, ?_⟩
  unfold rowPoints
  simp only [hkey, hue, hread', hid, hsend, Except.toOption, Option.bind_eq_bind, Option.bind_some,
    Option.pure_def]

/-- **A well-formed row has points**, in every file with a type and a number in its name. -/
theorem WellFormed.points (h : WellFormed fl fieldnames row) {src_path : Chars} {key : Key}
    (hkey : rowKey src_path fieldnames row = some key) (hid : file_id_number src_path = some id) :
    ∃ points, rowPoints fl src_path fieldnames row = some points :=
  exists_rowPoints hkey hid h.columns

/-- The columns that are read are empty or numbers. -/
theorem columns_of_readColumns {columns : List Chars} {r r' : Reading F}
    (h : columns.foldlM (readColumn fl fieldnames row) r = .ok r') :
    ∀ column_name ∈ columns, ∃ s, value fieldnames row column_name = some s ∧
      (s = [] ∨ ∃ x, fl.float s = some x) := by
  induction columns generalizing r with
  | nil => exact nofun
  | cons c columns ih =>
      rw [List.foldlM_cons] at h
      have hcolumn : ∃ s, value fieldnames row c = some s ∧
          (s = [] ∨ ∃ x, fl.float s = some x) := by
        cases hs : value fieldnames row c with
        | none =>
            unfold readColumn at h
            rw [hs] at h
            cases h
        | some s =>
            by_cases hnil : s = []
            · exact ⟨s, rfl, .inl hnil⟩
            · cases hx : fl.float s with
              | none =>
                  unfold readColumn at h
                  rw [hs] at h
                  simp only [if_neg hnil, hx] at h
                  cases h
              | some x => exact ⟨s, rfl, .inr ⟨x, hx⟩⟩
      refine List.forall_mem_cons.2 ⟨hcolumn, ?_⟩
      cases hread : readColumn fl fieldnames row r c with
      | error r₁ =>
          rw [hread] at h
          cases h
      | ok r₁ =>
          rw [hread] at h
          exact ih h

/-- **When a row with a key has points**, if numbers are finite: its columns are empty or
numbers, and there is a number in the name of the file. -/
theorem exists_rowPoints_iff (hfinite : ∀ s x, fl.float s = some x → Finite fl x)
    {src_path : Chars} {key : Key} (hkey : rowKey src_path fieldnames row = some key) :
    (∃ points, rowPoints fl src_path fieldnames row = some points) ↔
      (∀ column_name ∈ fieldnames, ∃ s, value fieldnames row column_name = some s ∧
        (s = [] ∨ ∃ x, fl.float s = some x)) ∧ ∃ id, file_id_number src_path = some id := by
  constructor
  · rintro ⟨points, hpoints⟩
    unfold rowPoints at hpoints
    simp only [Option.bind_eq_bind, Option.bind_eq_some_iff] at hpoints
    obtain ⟨-, -, -, -, r, hread, id, hid, -⟩ := hpoints
    refine ⟨?_, id, hid⟩
    unfold readColumns at hread
    cases hfold : fieldnames.foldlM (readColumn fl fieldnames row) {} with
    | error r' =>
        rw [hfold] at hread
        cases hread
    | ok r' => exact columns_of_readColumns hfold
  · rintro ⟨hcolumns, id, hid⟩
    refine exists_rowPoints hkey hid fun c hc => ?_
    obtain ⟨s, hs, hnil | ⟨x, hx⟩⟩ := hcolumns c hc
    · exact ⟨s, hs, .inl hnil⟩
    · exact ⟨s, hs, .inr ⟨x, hx, hfinite s x hx⟩⟩

end NearRtRic.Watcher
