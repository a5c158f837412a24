/-
# When the watcher lets go of its lock

`on_modified` releases the lock in its last line only.  `on_modified_cases` says all that a
call can come to where the lock is free: either every row can be read and every new row
sent (`GoesThrough`), and then the call returns with the lock free and nothing left of a
row (`Done`), or it raises an exception and the lock stays held.

So the watcher survives a change of a file exactly if that goes through
(`survived_iff`); the first one that does not is the last that it reads
(`foldl_handleEvent_of_locked`).
-/

import NearRtRic.Index.Fresh
import NearRtRic.Watcher.SimWatcher

namespace NearRtRic.Watcher

open Csv Index Text

section

variable {F : Type} {fl : Floats F} {e : Event F} {fieldnames : List Chars}
  {rows : List (List Chars)} {w w' : SimWatcher F}

/-- Every row has a time, a UE and a type, and every new one has points that the database
takes. -/
structure RowsGoThrough (fl : Floats F) (e : Event F) (fieldnames : List Chars)
    (consumed_keys : List Key) (rows : List (List Chars)) : Prop where
  keys : ∀ row ∈ rows, ∃ key, rowKey e.src_path fieldnames row = some key
  points : ∀ row ∈ fresh (rowKey e.src_path fieldnames) (consumed_keys.map some) rows,
    ∃ points, rowPoints fl e.src_path fieldnames row = some points ∧ e.write_points points = true

/-- What rows come to that go through. -/
structure Done (fl : Floats F) (src_path : Chars) (fieldnames : List Chars)
    (rows : List (List Chars)) (w w' : SimWatcher F) : Prop where
  clean : w'.Clean
  keys : w'.consumed_keys.map some =
    seenAfter (rowKey src_path fieldnames) (w.consumed_keys.map some) rows
  written : w'.written.map some = w.written.map some ++
    (fresh (rowKey src_path fieldnames) (w.consumed_keys.map some) rows).map
      (rowPoints fl src_path fieldnames)

/-! ### The rows of a file -/

/-- A key is among the keys that are there. -/
theorem some_mem_map_iff {keys : List Key} {key : Key} : some key ∈ keys.map some ↔ key ∈ keys :=
  List.mem_map_of_injective (Option.some_injective Key)

/-- A row and the rows behind it. -/
theorem rowsGoThrough_cons {row : List Chars} {key : Key} {keys : List Key}
    (hkey : rowKey e.src_path fieldnames row = some key) :
    RowsGoThrough fl e fieldnames keys (row :: rows) ↔
      if key ∈ keys then RowsGoThrough fl e fieldnames keys rows
      else (∃ points, rowPoints fl e.src_path fieldnames row = some points ∧
        e.write_points points = true) ∧ RowsGoThrough fl e fieldnames (keys ++ [key]) rows := by
  have hfresh : fresh (rowKey e.src_path fieldnames) (keys.map some) (row :: rows) =
      if key ∈ keys then fresh (rowKey e.src_path fieldnames) (keys.map some) rows
      else row :: fresh (rowKey e.src_path fieldnames) ((keys ++ [key]).map some) rows := by
    rw [fresh, hkey, List.map_append, List.map_singleton]
    simp only [some_mem_map_iff]
  split
  · rename_i hmem
    rw [if_pos hmem] at hfresh
    constructor
    · rintro ⟨hkeys, hpoints⟩
      rw [hfresh] at hpoints
      exact ⟨fun r hr => hkeys r (List.mem_cons_of_mem row hr), hpoints⟩
    · rintro ⟨hkeys, hpoints⟩
      refine ⟨List.forall_mem_cons.2 ⟨⟨key, hkey⟩, hkeys⟩, ?_⟩
      rwa [hfresh]
  · rename_i hmem
    rw [if_neg hmem] at hfresh
    constructor
    · rintro ⟨hkeys, hpoints⟩
      rw [hfresh] at hpoints
      obtain ⟨hrow, hpoints⟩ := List.forall_mem_cons.1 hpoints
      exact ⟨hrow, fun r hr => hkeys r (List.mem_cons_of_mem row hr), hpoints⟩
    · rintro ⟨hrow, hkeys, hpoints⟩
      refine ⟨List.forall_mem_cons.2 ⟨⟨key, hkey⟩, hkeys⟩, ?_⟩
      rw [hfresh]
      exact List.forall_mem_cons.2 ⟨hrow, hpoints⟩

/-- Without rows nothing happens. -/
theorem done_nil (h : w.Clean) : Done fl e.src_path fieldnames [] w w where
  clean := h
  keys := by rw [seenAfter, fresh, List.map_nil, List.append_nil]
  written := by rw [fresh, List.map_nil, List.append_nil]

/-- A row whose key was consumed is passed over. -/
theorem done_cons_of_mem {row : List Chars} {key : Key}
    (hkey : rowKey e.src_path fieldnames row = some key) (hmem : key ∈ w.consumed_keys)
    (h : Done fl e.src_path fieldnames rows w w') :
    Done fl e.src_path fieldnames (row :: rows) w w' := by
  have hseen : rowKey e.src_path fieldnames row ∈ w.consumed_keys.map some := by
    rw [hkey]
    exact List.mem_map_of_mem hmem
  refine ⟨h.clean, ?_, ?_⟩
  · rw [seenAfter_cons_of_mem hseen]
    exact h.keys
  · rw [fresh, if_pos hseen]
    exact h.written

/-- Any other row is sent, and its key consumed. -/
theorem done_cons_of_notMem {row : List Chars} {key : Key} {values : List (Value F)}
    {points : List (InfluxPoint F)} (hkey : rowKey e.src_path fieldnames row = some key)
    (hmem : key ∉ w.consumed_keys) (hpoints : rowPoints fl e.src_path fieldnames row = some points)
    (h : Done fl e.src_path fieldnames rows (w.sent key values points) w') :
    Done fl e.src_path fieldnames (row :: rows) w w' := by
  have hnew : rowKey e.src_path fieldnames row ∉ w.consumed_keys.map some := by
    rwa [hkey, some_mem_map_iff]
  have hkeys : (w.sent key values points).consumed_keys.map some =
      w.consumed_keys.map some ++ [rowKey e.src_path fieldnames row] := by
    rw [hkey]
    exact List.map_append
  obtain ⟨hclean, hseen, hwritten⟩ := h
  rw [hkeys] at hseen hwritten
  refine ⟨hclean, ?_, ?_⟩
  · rw [seenAfter_cons_of_notMem hnew]
    exact hseen
  · have hsent : (w.sent key values points).written.map some =
        w.written.map some ++ [rowPoints fl e.src_path fieldnames row] := by
      rw [hpoints]
      exact List.map_append
    rw [fresh, if_neg hnew, List.map_cons, hwritten, hsent, List.append_assoc,
      List.singleton_append]

/-- **The rows of a file**: they go through and are done with, or an exception is raised, which
leaves the lock as it was. -/
theorem foldlM_processRow (rows : List (List Chars)) (hclean : w.Clean) :
    (RowsGoThrough fl e fieldnames w.consumed_keys rows ∧
      ∃ w', rows.foldlM (processRow fl e fieldnames) w = .ok w' ∧ w'.locked = w.locked ∧
        Done fl e.src_path fieldnames rows w w') ∨
    (¬ RowsGoThrough fl e fieldnames w.consumed_keys rows ∧
      ∃ w', rows.foldlM (processRow fl e fieldnames) w = .error w' ∧ w'.locked = w.locked) := by
  induction rows generalizing w with
  | nil => exact .inl ⟨⟨nofun, nofun⟩, w, rfl, rfl, done_nil hclean⟩
  | cons row rows ih =>
      rw [List.foldlM_cons]
      rcases processRow_cases hclean with
        ⟨key, hkey, hmem, hrow⟩ | ⟨key, values, points, hkey, hmem, hpoints, hwrite, hrow⟩ |
          ⟨hrefused, w', hrow, hlock⟩
      · rw [hrow, rowsGoThrough_cons hkey, if_pos hmem]
        rcases ih hclean with ⟨hgo, w', hw', hlock, hdone⟩ | hfail
        · exact .inl ⟨hgo, w', hw', hlock, done_cons_of_mem hkey hmem hdone⟩
        · exact .inr hfail
      · rw [hrow, rowsGoThrough_cons hkey, if_neg hmem]
        rcases ih (hclean.sent key values points) with
          ⟨hgo, w', hw', hlock, hdone⟩ | ⟨hgo, hfail⟩
        · exact .inl ⟨⟨⟨points, hpoints, hwrite⟩, hgo⟩, w', hw', hlock,
            done_cons_of_notMem hkey hmem hpoints hdone⟩
        · exact .inr ⟨fun h => hgo h.2, hfail⟩
      · rw [hrow]
        refine .inr ⟨fun hgo => ?_, w', rfl, hlock⟩
        obtain ⟨key, hkey⟩ := hgo.keys row List.mem_cons_self
        obtain ⟨hmem, hrefused⟩ := hrefused key hkey
        rw [rowsGoThrough_cons hkey, if_neg hmem] at hgo
        obtain ⟨⟨points, hpoints, hwrite⟩, -⟩ := hgo
        rw [hrefused points hpoints] at hwrite
        cases hwrite

end

/-! ### One call -/

section

variable {F : Type} {fl : Floats F} {e : Event F} {w w' : SimWatcher F} {events : List (Event F)}

/-- What the reader makes of a file; of one that cannot be opened there is the exception only. -/
def Event.reader (e : Event F) : DictReader :=
  match e.content with
  | none => ⟨[], [], true⟩
  | some content => DictReader.read field_size_limit content

/-- **A change of a file goes through**: the file can be opened, the reader comes to its end,
and so do the rows. -/
structure GoesThrough (fl : Floats F) (consumed_keys : List Key) (e : Event F) : Prop where
  reader : e.reader.raises = false
  rows : RowsGoThrough fl e e.reader.fieldnames consumed_keys e.reader.rows

/-- A call with the lock free: the exception of `open` is one behind no rows. -/
theorem on_modified_eq (hlock : w.locked = false) : on_modified fl w e =
    match e.reader.rows.foldlM (processRow fl e e.reader.fieldnames) { w with locked := true } with
    | .error w => .raised w
    | .ok w => if e.reader.raises then .raised w else .returned { w with locked := false } := by
  unfold on_modified Event.reader
  rw [hlock, if_neg Bool.false_ne_true]
  cases e.content with
  | none => rfl
  | some content => rfl

/-- An exception in a row is one of the call. -/
theorem on_modified_error (hlock : w.locked = false)
    (h : e.reader.rows.foldlM (processRow fl e e.reader.fieldnames) { w with locked := true } =
      .error w') : on_modified fl w e = .raised w' := by
  rw [on_modified_eq hlock, h]

/-- Where no row raises an exception, the end of the file is reached, or one stands there. -/
theorem on_modified_ok (hlock : w.locked = false)
    (h : e.reader.rows.foldlM (processRow fl e e.reader.fieldnames) { w with locked := true } =
      .ok w') : on_modified fl w e =
        if e.reader.raises then .raised w' else .returned { w' with locked := false } := by
  rw [on_modified_eq hlock, h]

/-- **All that a call comes to where the lock is free.** -/
theorem on_modified_cases (hlock : w.locked = false) (hclean : w.Clean) :
    (GoesThrough fl w.consumed_keys e ∧ ∃ w', on_modified fl w e = .returned w' ∧
      w'.locked = false ∧ Done fl e.src_path e.reader.fieldnames e.reader.rows w w') ∨
    (¬ GoesThrough fl w.consumed_keys e ∧ ∃ w', on_modified fl w e = .raised w' ∧
      w'.locked = true) := by
  have hclean' : SimWatcher.Clean { w with locked := true } := hclean
  rcases foldlM_processRow e.reader.rows hclean' with
    ⟨hgo, w', hw', hheld, hdone⟩ | ⟨hgo, w', hw', hheld⟩
  · have hcall := on_modified_ok hlock hw'
    cases hraises : e.reader.raises with
    | true =>
        rw [hraises, if_pos rfl] at hcall
        refine .inr ⟨fun h => ?_, w', hcall, hheld⟩
        rw [h.reader] at hraises
        cases hraises
    | false =>
        rw [hraises, if_neg Bool.false_ne_true] at hcall
        exact .inl ⟨⟨hraises, hgo⟩, _, hcall, rfl, hdone.clean, hdone.keys, hdone.written⟩
  · exact .inr ⟨fun h => hgo h.rows, w', on_modified_error hlock hw', hheld⟩

/-- The watcher is never free with values of a row that may still be sent. -/
theorem clean_run (h : (run fl events).locked = false) : (run fl events).Clean := by
  induction events using List.reverseRecOn with
  | nil => exact fun _ _ => rfl
  | append_singleton events e ih =>
      have hlast : run fl (events ++ [e]) = handleEvent fl (run fl events) e := by
        unfold run
        rw [List.foldl_append]
        rfl
      rw [hlast] at h ⊢
      unfold handleEvent at h ⊢
      cases hlock : (run fl events).locked with
      | true =>
          rw [on_modified_blocked hlock] at h
          dsimp only at h
          rw [hlock] at h
          cases h
      | false =>
          rcases on_modified_cases (e := e) hlock (ih hlock) with
            ⟨-, w', hcall, -, hdone⟩ | ⟨-, w', hcall, hheld⟩
          · rw [hcall]
            exact hdone.clean
          · rw [hcall] at h
            dsimp only at h
            rw [hheld] at h
            cases h

/-- The call ends, with the lock released and nothing left of a row that may still be sent. -/
def Outcome.Survived : Outcome F → Prop
  | .returned w => w.locked = false ∧ w.Clean
  | .raised w => w.locked = false ∧ w.Clean
  | .blocked => False

/-- **What the watcher survives.**  After any events, a call ends with the lock released and
nothing left of an unfinished row exactly if the lock was free and the change goes through. -/
theorem survived_iff {F : Type} {fl : Floats F} {events : List (Event F)} {e : Event F} :
    (on_modified fl (run fl events) e).Survived ↔
      (run fl events).locked = false ∧ GoesThrough fl (run fl events).consumed_keys e := by
  cases hlock : (run fl events).locked with
  | true =>
      rw [on_modified_blocked hlock]
      exact ⟨nofun, nofun⟩
  | false =>
      rcases on_modified_cases (e := e) hlock (clean_run hlock) with
        ⟨hgo, w', hcall, hfree, hdone⟩ | ⟨hgo, w', hcall, hheld⟩
      · rw [hcall]
        exact ⟨fun _ => ⟨rfl, hgo⟩, fun _ => ⟨hfree, hdone.clean⟩⟩
      · rw [hcall]
        constructor
        · rintro ⟨hfree, -⟩
          rw [hheld] at hfree
          cases hfree
        · rintro ⟨-, h⟩
          exact absurd h hgo

end

/-- Floats that are whole numbers. -/
def sampleFloats : Floats Int where
  float := parseInt int_max_str_digits
  int := some
  mulPow6 x := x * 10 ^ 6
  mulPowNeg1 x := x / 10

/-- The file of the LTE anchor's DU, with one row. -/
def sampleDuEvent : Event Int where
  src_path := "/home/boo/RIC_NSORAN/local_agent/logfiles/du-cell-1.txt".toList
  content := some { text := "timestamp,ueImsiComplete\n1000,1".toList }
  write_points _ := true

/-- The handler is called for that file, and raises an exception with the lock held. -/
theorem not_survives : ¬ ∀ (events : List (Event Int)) (e : Event Int), Accepted e.src_path →
    (run sampleFloats events).locked = false →
      (on_modified sampleFloats (run sampleFloats events) e).Survived := by
  intro h
  have haccepted : Accepted sampleDuEvent.src_path := by
    refine ⟨"du-cell-".toList, by simp, "1".toList, ?_⟩
    decide +kernel
  have hsurvived := h [] sampleDuEvent haccepted rfl
  have hclean : SimWatcher.Clean ({} : SimWatcher Int) := fun _ _ => rfl
  rcases (on_modified_cases rfl hclean : _ ∨ ¬ GoesThrough sampleFloats _ sampleDuEvent ∧ _) with
    ⟨hgo, -⟩ | ⟨-, w', hcall, hheld⟩
  · obtain ⟨key, hkey⟩ := hgo.rows.keys ["1000".toList, "1".toList] (by decide +kernel)
    have hnone : rowKey sampleDuEvent.src_path sampleDuEvent.reader.fieldnames
        ["1000".toList, "1".toList] = none := by decide +kernel
    rw [hnone] at hkey
    cases hkey
  · change (on_modified sampleFloats {} sampleDuEvent).Survived at hsurvived
    rw [hcall] at hsurvived
    have hfree : w'.locked = false := hsurvived.1
    rw [hheld] at hfree
    cases hfree

end NearRtRic.Watcher
