/-
# Members that may share a name

The members of an object as a list of pairs, in which a name may occur more than once: the
first member with a name is the one that is found, a new member goes to the end, and a
member that is removed leaves its place to the last one.

What a removal leaves is, but for the order, the list without that one member
(`removeMember_perm`).  It is the list without all members of the name exactly where the
name occurred once (`removeMember_perm_filter_iff`).

Nothing here names the repository.
-/

import Mathlib.Data.List.Perm.Basic
import Mathlib.Data.List.Induction

namespace NearRtRic.Index

variable {κ ν : Type} [DecidableEq κ] {name : κ} {members : List (κ × ν)}

/-- The value of the first member with a name. -/
def findMember (name : κ) (members : List (κ × ν)) : Option ν :=
  (members.find? (·.1 = name)).map Prod.snd

/-- The first member with a name is removed, and the last one moved to its place. -/
def removeMember (name : κ) (members : List (κ × ν)) : List (κ × ν) :=
  match members.findIdx? (·.1 = name), members.getLast? with
  | some i, some last => (members.set i last).dropLast
  | _, _ => members

/-- The members with a name. -/
def named (name : κ) (members : List (κ × ν)) : List (κ × ν) := members.filter (·.1 = name)

/-- What is found is a member. -/
theorem exists_mem_of_findMember {v : ν} (h : findMember name members = some v) :
    (name, v) ∈ members := by
  obtain ⟨e, he, rfl⟩ := Option.map_eq_some_iff.1 h
  have hname : e.1 = name := by simpa using List.find?_some he
  subst hname
  exact List.mem_of_find?_eq_some he

/-- A removal takes out one member. -/
theorem removeMember_perm (name : κ) (members : List (κ × ν)) :
    (removeMember name members).Perm (members.eraseP (·.1 = name)) := by
  unfold removeMember
  rw [List.eraseP_eq_eraseIdx]
  cases hidx : members.findIdx? (·.1 = name) with
  | none => exact List.Perm.refl _
  | some i =>
      have hi : i < members.length := (List.findIdx?_eq_some_iff_getElem.1 hidx).1
      induction members using List.reverseRecOn with
      | nil => exact absurd hi (Nat.not_lt_zero i)
      | append_singleton init last _ =>
          rw [List.getLast?_append, List.getLast?_singleton, Option.some_or]
          dsimp only
          rw [List.length_append, List.length_singleton] at hi
          by_cases hlast : i < init.length
          · rw [List.set_append_left _ _ hlast, List.dropLast_concat,
              List.eraseIdx_append_of_lt_length hlast]
            exact (List.set_perm_cons_eraseIdx hlast last).trans
              (List.perm_append_singleton last _).symm
          · obtain rfl : i = init.length := by omega
            rw [List.set_append_right _ _ (Nat.le_refl _), Nat.sub_self, List.set_cons_zero,
              List.dropLast_concat, List.eraseIdx_append_of_length_le (Nat.le_refl _),
              Nat.sub_self, List.eraseIdx_cons_zero, List.append_nil]

/-- The members of a name and the others make all of them. -/
theorem length_named_add (name : κ) (members : List (κ × ν)) :
    (named name members).length + (members.filter (·.1 ≠ name)).length = members.length := by
  unfold named
  induction members with
  | nil => rfl
  | cons e members ih =>
      by_cases he : e.1 = name
      · simp only [List.filter_cons, he, decide_true, if_true, List.length_cons, not_true_eq_false,
          decide_false, Bool.false_eq_true, if_false, ne_eq] at ih ⊢
        omega
      · simp only [List.filter_cons, he, decide_true, if_true, List.length_cons, not_false_eq_true,
          decide_false, Bool.false_eq_true, if_false, ne_eq] at ih ⊢
        omega

/-- To remove a member takes one away. -/
theorem length_removeMember (h : named name members ≠ []) :
    (removeMember name members).length + 1 = members.length := by
  obtain ⟨e, he⟩ := List.exists_mem_of_ne_nil _ h
  obtain ⟨hmem, hname⟩ := List.mem_filter.1 he
  rw [(removeMember_perm name members).length_eq, List.length_eraseP_of_mem hmem hname]
  have hpos : 0 < members.length := List.length_pos_of_mem hmem
  omega

/-- A name that is there once is removed as by a filter. -/
theorem eraseP_eq_filter (h : (named name members).length = 1) :
    members.eraseP (·.1 = name) = members.filter (·.1 ≠ name) := by
  induction members with
  | nil => cases h
  | cons e members ih =>
      by_cases he : e.1 = name
      · have hrest : (named name (e :: members)).length = (named name members).length + 1 := by
          unfold named
          rw [List.filter_cons_of_pos (by simpa using he), List.length_cons]
        have hadd := length_named_add name members
        have hlen : (members.filter (·.1 ≠ name)).length = members.length := by omega
        rw [List.eraseP_cons_of_pos (by simpa using he),
          List.filter_cons_of_neg (by simpa using he)]
        exact (List.filter_eq_self.2 (List.length_filter_eq_length_iff.1 hlen)).symm
      · have hrest : named name (e :: members) = named name members :=
          List.filter_cons_of_neg (by simpa using he)
        rw [hrest] at h
        rw [List.eraseP_cons_of_neg (by simpa using he),
          List.filter_cons_of_pos (by simpa using he), ih h]

/-- **A removal takes out the name** exactly where one member had it. -/
theorem removeMember_perm_filter_iff (h : named name members ≠ []) :
    (removeMember name members).Perm (members.filter (·.1 ≠ name)) ↔
      (named name members).length = 1 := by
  constructor
  · intro hperm
    have hlen := hperm.length_eq
    have hremoved := length_removeMember h
    have hadd := length_named_add name members
    omega
  · intro hone
    rw [← eraseP_eq_filter hone]
    exact removeMember_perm name members

end NearRtRic.Index
