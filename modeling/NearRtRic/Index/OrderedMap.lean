/-
# Maps with their entries in order

A map as a list of entries with distinct keys, in the order in which an iterator runs
over them (`std::map`).  It is looked up by a key, or searched for a value, where the
first entry in the order of the keys is found.

Nothing here names the repository.
-/

import Mathlib.Data.List.Nodup

namespace NearRtRic.Index

/-- The entries in the order of their keys. -/
structure OrderedMap (κ ν : Type) where
  entries : List (κ × ν) := []
  nodup : (entries.map Prod.fst).Nodup := by exact List.nodup_nil

namespace OrderedMap

variable {κ ν : Type} {m : OrderedMap κ ν} {k k' : κ} {v w : ν}

instance : Inhabited (OrderedMap κ ν) := ⟨{}⟩

/-- The keys in order. -/
def keys (m : OrderedMap κ ν) : List κ := m.entries.map Prod.fst

/-- The value under a key (`find`). -/
def find [DecidableEq κ] (m : OrderedMap κ ν) (k : κ) : Option ν :=
  (m.entries.find? (·.1 = k)).map Prod.snd

/-- The first key with a value. -/
def keyOf [DecidableEq ν] (m : OrderedMap κ ν) (v : ν) : Option κ :=
  (m.entries.find? (·.2 = v)).map Prod.fst

/-- A key has one entry. -/
theorem eq_of_mem (hv : (k, v) ∈ m.entries) (hw : (k, w) ∈ m.entries) : v = w :=
  congrArg Prod.snd (List.inj_on_of_nodup_map m.nodup hv hw rfl)

variable [DecidableEq κ]

/-- A key is found with its entry. -/
theorem find_eq_some : m.find k = some v ↔ (k, v) ∈ m.entries := by
  unfold find
  constructor
  · intro h
    obtain ⟨e, he, rfl⟩ := Option.map_eq_some_iff.1 h
    have hk : e.1 = k := by simpa using List.find?_some he
    subst hk
    exact List.mem_of_find?_eq_some he
  · intro h
    obtain ⟨e, he⟩ := Option.isSome_iff_exists.1
      (List.find?_isSome (p := (·.1 = k)) |>.2 ⟨(k, v), h, by simp⟩)
    have hk : e.1 = k := by simpa using List.find?_some he
    subst hk
    rw [he, Option.map_some]
    exact congrArg some (eq_of_mem (m := m) (List.mem_of_find?_eq_some he) h)

/-- Nothing is found in the empty map. -/
@[simp]
theorem find_empty (k : κ) : ({} : OrderedMap κ ν).find k = none := rfl

/-- A value that is found has the key that is answered. -/
theorem find_of_keyOf [DecidableEq ν] (h : m.keyOf v = some k) : m.find k = some v := by
  obtain ⟨e, he, rfl⟩ := Option.map_eq_some_iff.1 h
  have hv : e.2 = v := by simpa using List.find?_some he
  subst hv
  exact find_eq_some.2 (List.mem_of_find?_eq_some he)

/-- A value that is not found is under no key. -/
theorem find_ne_of_keyOf [DecidableEq ν] (h : m.keyOf v = none) (k : κ) :
    m.find k ≠ some v := by
  intro hk
  have hnone := List.find?_eq_none.1 (Option.map_eq_none_iff.1 h) _ (find_eq_some.1 hk)
  exact hnone (by simp)

variable [LT κ] [DecidableLT κ]

/-- The entries of `insert`. -/
def insertEntries (es : List (κ × ν)) (k : κ) (v : ν) : List (κ × ν) :=
  let others := es.filter (·.1 ≠ k)
  others.filter (·.1 < k) ++ (k, v) :: others.filter (¬ ·.1 < k)

/-- The entries are those of the other keys, and the new one. -/
theorem mem_insertEntries {es : List (κ × ν)} {e : κ × ν} :
    e ∈ insertEntries es k v ↔ e = (k, v) ∨ e ∈ es ∧ e.1 ≠ k := by
  unfold insertEntries
  simp only [List.mem_append, List.mem_cons, List.mem_filter, decide_eq_true_eq]
  constructor
  · rintro (⟨h, -⟩ | rfl | ⟨h, -⟩)
    · exact .inr h
    · exact .inl rfl
    · exact .inr h
  · rintro (rfl | h)
    · exact .inr (.inl rfl)
    · by_cases hlt : e.1 < k
      · exact .inl ⟨h, hlt⟩
      · exact .inr (.inr ⟨h, hlt⟩)

/-- Their keys stay different. -/
theorem nodup_insertEntries {es : List (κ × ν)} (h : (es.map Prod.fst).Nodup) (k : κ) (v : ν) :
    ((insertEntries es k v).map Prod.fst).Nodup := by
  have hothers : ((es.filter (·.1 ≠ k)).map Prod.fst).Nodup :=
    h.sublist (List.filter_sublist.map _)
  unfold insertEntries
  rw [List.map_append, List.map_cons, List.nodup_middle]
  refine List.nodup_cons.2 ⟨?_, ?_⟩
  · rw [← List.map_append, List.mem_map]
    rintro ⟨e, he, rfl⟩
    rcases List.mem_append.1 he with he | he
    all_goals exact absurd (List.mem_of_mem_filter he) (by simp)
  · rw [← List.map_append]
    refine List.Perm.nodup_iff ((List.Perm.map Prod.fst ?_)) |>.2 hothers
    have hneg : (fun e : κ × ν => decide ¬ e.1 < k) = fun e => !decide (e.1 < k) :=
      funext fun e => decide_not
    rw [hneg]
    exact List.filter_append_perm ..

/-- `m[k] = v`. -/
def insert (m : OrderedMap κ ν) (k : κ) (v : ν) : OrderedMap κ ν where
  entries := insertEntries m.entries k v
  nodup := nodup_insertEntries m.nodup k v

/-- An inserted key is found with its new value, the others as before. -/
theorem find_insert (m : OrderedMap κ ν) (k : κ) (v : ν) (k' : κ) :
    (m.insert k v).find k' = if k' = k then some v else m.find k' := by
  refine Option.ext fun w => ?_
  rw [find_eq_some]
  change (k', w) ∈ insertEntries m.entries k v ↔ _
  rw [mem_insertEntries]
  split
  · rename_i hk
    subst hk
    simp [eq_comm]
  · rename_i hk
    simp [hk, find_eq_some]

end OrderedMap

end NearRtRic.Index
