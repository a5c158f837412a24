/-
# What is taken once for each key

A consumer that remembers the keys of what it has taken takes from a list the elements
whose key is new when they come (`fresh`).  It may read the same list again after more was
added, since what it has seen is not taken twice (`fresh_append_of_seen`), and it takes all
of a list exactly if no key occurs in it twice (`fresh_eq_self_iff`).

Nothing here names the repository.
-/

import Mathlib.Data.List.Nodup

namespace NearRtRic.Index

variable {α β κ γ : Type} [DecidableEq κ] {key : α → κ} {seen : List κ} {as bs : List α}

/-- The elements that are taken, where `seen` are the keys of those taken before. -/
def fresh (key : α → κ) : List κ → List α → List α
  | _, [] => []
  | seen, a :: as =>
      if key a ∈ seen then fresh key seen as else a :: fresh key (seen ++ [key a]) as

/-- The keys that are remembered then. -/
def seenAfter (key : α → κ) (seen : List κ) (as : List α) : List κ :=
  seen ++ (fresh key seen as).map key

/-- What is fresh is in the list, in its order. -/
theorem fresh_sublist : (fresh key seen as).Sublist as := by
  induction as generalizing seen with
  | nil => exact .slnil
  | cons a as ih =>
      unfold fresh
      split
      · exact ih.cons a
      · exact ih.cons_cons a

/-- A key that was seen adds nothing. -/
theorem seenAfter_cons_of_mem {a : α} (h : key a ∈ seen) :
    seenAfter key seen (a :: as) = seenAfter key seen as := by
  unfold seenAfter
  rw [fresh, if_pos h]

/-- One that was not is added. -/
theorem seenAfter_cons_of_notMem {a : α} (h : key a ∉ seen) :
    seenAfter key seen (a :: as) = seenAfter key (seen ++ [key a]) as := by
  unfold seenAfter
  rw [fresh, if_neg h, List.map_cons, List.append_assoc, List.singleton_append]

/-- In two parts. -/
theorem fresh_append :
    fresh key seen (as ++ bs) = fresh key seen as ++ fresh key (seenAfter key seen as) bs := by
  induction as generalizing seen with
  | nil => rw [seenAfter, fresh, List.map_nil, List.append_nil, List.nil_append, List.nil_append]
  | cons a as ih =>
      by_cases h : key a ∈ seen
      · rw [seenAfter_cons_of_mem h, List.cons_append, fresh, if_pos h, fresh, if_pos h, ih]
      · rw [seenAfter_cons_of_notMem h, List.cons_append, fresh, if_neg h, fresh, if_neg h, ih,
          List.cons_append]

/-- Two lists in a row. -/
theorem seenAfter_append :
    seenAfter key seen (as ++ bs) = seenAfter key (seenAfter key seen as) bs := by
  unfold seenAfter
  rw [fresh_append, List.map_append, List.append_assoc]
  rfl

/-- What was remembered before is remembered. -/
theorem mem_seenAfter_of_mem {k : κ} (h : k ∈ seen) : k ∈ seenAfter key seen as :=
  List.mem_append_left _ h

/-- **The keys of all that was read are remembered.** -/
theorem key_mem_seenAfter {a : α} (h : a ∈ as) : key a ∈ seenAfter key seen as := by
  induction as generalizing seen with
  | nil => cases h
  | cons b as ih =>
      by_cases hb : key b ∈ seen
      · rw [seenAfter_cons_of_mem hb]
        rcases List.mem_cons.1 h with rfl | h
        · exact mem_seenAfter_of_mem hb
        · exact ih h
      · rw [seenAfter_cons_of_notMem hb]
        rcases List.mem_cons.1 h with rfl | h
        · exact mem_seenAfter_of_mem (List.mem_append_right _ (List.mem_singleton_self _))
        · exact ih h

/-- Where all keys were seen nothing is fresh. -/
theorem fresh_eq_nil (h : ∀ a ∈ as, key a ∈ seen) : fresh key seen as = [] := by
  induction as with
  | nil => rfl
  | cons a as ih =>
      rw [fresh, if_pos (h a List.mem_cons_self)]
      exact ih fun b hb => h b (List.mem_cons_of_mem a hb)

/-- **What was seen may be read again.** -/
theorem fresh_append_of_seen (h : ∀ a ∈ as, key a ∈ seen) :
    fresh key seen (as ++ bs) = fresh key seen bs := by
  rw [fresh_append, seenAfter, fresh_eq_nil h, List.map_nil, List.append_nil, List.nil_append]

/-- What is fresh among images. -/
theorem fresh_map {f : β → α} {bs : List β} :
    fresh key seen (bs.map f) = (fresh (fun b => key (f b)) seen bs).map f := by
  induction bs generalizing seen with
  | nil => rfl
  | cons b bs ih =>
      rw [List.map_cons, fresh, fresh]
      split
      · rw [ih]
      · rw [ih, List.map_cons]

/-- No key is taken twice. -/
theorem nodup_seenAfter (h : seen.Nodup) : (seenAfter key seen as).Nodup := by
  induction as generalizing seen with
  | nil => rwa [seenAfter, fresh, List.map_nil, List.append_nil]
  | cons a as ih =>
      by_cases ha : key a ∈ seen
      · rw [seenAfter_cons_of_mem ha]
        exact ih h
      · rw [seenAfter_cons_of_notMem ha]
        have hconcat := h.concat ha
        rw [List.concat_eq_append] at hconcat
        exact ih hconcat

/-- **All is taken exactly if no key occurs twice.** -/
theorem fresh_eq_self_iff : fresh key [] as = as ↔ (as.map key).Nodup := by
  have hself : ∀ {seen : List κ}, (seen ++ as.map key).Nodup → fresh key seen as = as := by
    intro seen
    induction as generalizing seen with
    | nil => exact fun _ => rfl
    | cons a as ih =>
        intro h
        have hkey : key a ∉ seen := fun hmem =>
          (List.nodup_append.1 h).2.2 _ hmem _ List.mem_cons_self rfl
        rw [fresh, if_neg hkey, ih (by rwa [List.append_assoc])]
  constructor
  · intro h
    have hnodup : (seenAfter key [] as).Nodup := nodup_seenAfter List.nodup_nil
    rwa [seenAfter, h, List.nil_append] at hnodup
  · exact fun h => hself h

/-- The same by what is made of the elements: as many are taken as there are. -/
theorem map_fresh_perm_iff {f : α → γ} :
    ((fresh key [] as).map f).Perm (as.map f) ↔ (as.map key).Nodup := by
  rw [← fresh_eq_self_iff]
  constructor
  · intro h
    refine fresh_sublist.eq_of_length ?_
    simpa using h.length_eq
  · intro h
    rw [h]

end NearRtRic.Index
