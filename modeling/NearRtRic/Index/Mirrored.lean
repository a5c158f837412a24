/-
# A relation kept at both of its ends

Members belong to groups, and the fact is stored twice: `f x` is the group of the
member `x`, if it has one, and `g b` is the list of the members of the group
`b`, if the group exists.  `Mirrored f g` says that the two ends agree and that
no list names a member twice.

The operations that keep both ends in step are a member joining a group it can
join (`link`) or leaving its group (`unlink`), and a group being founded empty
(`found`), dissolved (`dissolve`) or, with all others, emptied (`clear`).  The
condition of `link` is not only sufficient: linking a member that has a group
breaks the agreement (`link_iff`).

Nothing here names the repository.
-/

import Mathlib.Data.List.Nodup
import Mathlib.Logic.Function.Basic

namespace NearRtRic.Index

variable {α β : Type}

/-- The two ends of the relation agree. -/
structure Mirrored (f : α → Option β) (g : β → Option (List α)) : Prop where
  /-- No list names a member twice. -/
  nodup : ∀ {b l}, g b = some l → l.Nodup
  /-- A list names the members that name its group. -/
  mem : ∀ {b l}, g b = some l → ∀ x, x ∈ l ↔ f x = some b
  /-- The group a member names exists. -/
  exists_group : ∀ {x b}, f x = some b → (g b).isSome

namespace Mirrored

variable {f : α → Option β} {g : β → Option (List α)} {x : α} {b : β} {l : List α}

/-- No members, no groups. -/
theorem empty : Mirrored (fun _ : α => (none : Option β)) fun _ => none where
  nodup := nofun
  mem := nofun
  exists_group := nofun

/-- A member is in the list of one group at most. -/
theorem eq_of_mem (h : Mirrored f g) (hb : g b = some l) (hx : x ∈ l) {b' : β} {l' : List α}
    (hb' : g b' = some l') (hx' : x ∈ l') : b' = b := by
  have h₁ := (h.mem hb x).1 hx
  have h₂ := (h.mem hb' x).1 hx'
  exact Option.some.inj (h₂.symm.trans h₁)

/-- Emptying all groups: no member has one afterwards. -/
theorem clear (g : β → Option (List α)) :
    Mirrored (fun _ => (none : Option β)) fun b => (g b).map fun _ => ([] : List α) := by
  refine ⟨fun {b' l'} hl' => ?_, fun {b' l'} hl' y => ?_, nofun⟩
  · obtain ⟨l, -, rfl⟩ := Option.map_eq_some_iff.1 hl'
    exact List.nodup_nil
  · obtain ⟨l, -, rfl⟩ := Option.map_eq_some_iff.1 hl'
    simp

variable [DecidableEq β]

/-- Founding a group that does not exist, without members. -/
theorem found (h : Mirrored f g) (hb : g b = none) :
    Mirrored f (Function.update g b (some [])) := by
  refine ⟨fun {b' l'} hl' => ?_, fun {b' l'} hl' y => ?_, fun {y b'} hy => ?_⟩
  · rw [Function.update_apply] at hl'
    split at hl'
    · obtain rfl := Option.some.inj hl'
      exact List.nodup_nil
    · exact h.nodup hl'
  · rw [Function.update_apply] at hl'
    split at hl'
    · subst b'
      obtain rfl := Option.some.inj hl'
      have hy : f y ≠ some b := by
        intro hy
        have := h.exists_group hy
        rw [hb] at this
        cases this
      simp [hy]
    · exact h.mem hl' y
  · rw [Function.update_apply]
    split
    · rfl
    · exact h.exists_group hy

/-- Dissolving a group: its members have none afterwards. -/
theorem dissolve (h : Mirrored f g) (b : β) :
    Mirrored (fun x => if f x = some b then none else f x) (Function.update g b none) := by
  refine ⟨fun {b' l'} hl' => ?_, fun {b' l'} hl' y => ?_, fun {y b'} hy => ?_⟩
  · rw [Function.update_apply] at hl'
    split at hl'
    · cases hl'
    · exact h.nodup hl'
  · rw [Function.update_apply] at hl'
    split at hl'
    · cases hl'
    · rename_i hne
      rw [h.mem hl']
      by_cases hy : f y = some b
      · simp [hy, Ne.symm hne]
      · simp [hy]
  · split at hy
    · cases hy
    · rename_i hne
      have hbb : b' ≠ b := by
        rintro rfl
        exact hne hy
      rw [Function.update_of_ne hbb]
      exact h.exists_group hy

variable [DecidableEq α]

omit [DecidableEq β] in
/-- A member that is in a group is in its list exactly once. -/
theorem count_eq_one (h : Mirrored f g) (hb : g b = some l) (hx : f x = some b) :
    l.count x = 1 := List.count_eq_one_of_mem (h.nodup hb) ((h.mem hb x).2 hx)

/-- **Joining a group** keeps the ends in step exactly where the member had no
group. -/
theorem link_iff (h : Mirrored f g) (hb : g b = some l) :
    Mirrored (Function.update f x (some b)) (Function.update g b (some (l ++ [x]))) ↔
      f x = none := by
  constructor
  · intro h'
    have hself : Function.update g b (some (l ++ [x])) b = some (l ++ [x]) := by
      rw [Function.update_self]
    cases hx : f x with
    | none => rfl
    | some b' =>
        exfalso
        by_cases hbb : b' = b
        · -- the member is appended to a list that names it already
          subst hbb
          have hnd := h'.nodup hself
          have hmem : x ∈ l := (h.mem hb x).2 hx
          rw [List.nodup_append] at hnd
          exact hnd.2.2 x hmem x (List.mem_singleton_self x) rfl
        · -- the list of its other group still names it
          obtain ⟨l', hl'⟩ := Option.isSome_iff_exists.1 (h.exists_group hx)
          have hmem : x ∈ l' := (h.mem hl' x).2 hx
          have hb' : Function.update g b (some (l ++ [x])) b' = some l' := by
            rw [Function.update_of_ne hbb, hl']
          have heq := (h'.mem hb' x).1 hmem
          rw [Function.update_self] at heq
          exact hbb (Option.some.inj heq).symm
  · intro hx
    have hnot : x ∉ l := by
      rw [h.mem hb, hx]
      exact nofun
    refine ⟨fun {b' l'} hl' => ?_, fun {b' l'} hl' y => ?_, fun {y b'} hy => ?_⟩
    · rw [Function.update_apply] at hl'
      split at hl'
      · obtain rfl := Option.some.inj hl'
        rw [List.nodup_append]
        refine ⟨h.nodup hb, List.nodup_singleton x, ?_⟩
        rintro y hy z hz rfl
        rw [List.mem_singleton.1 hz] at hy
        exact hnot hy
      · exact h.nodup hl'
    · rw [Function.update_apply] at hl' ⊢
      split at hl'
      · subst b'
        obtain rfl := Option.some.inj hl'
        rw [List.mem_append, List.mem_singleton, h.mem hb]
        split
        · simp_all
        · simp_all
      · rename_i hne
        rw [h.mem hl']
        split
        · subst y
          rw [hx]
          simp [Ne.symm hne]
        · rfl
    · rw [Function.update_apply] at hy ⊢
      split
      · rfl
      · rename_i hne
        split at hy
        · exact absurd (Option.some.inj hy).symm hne
        · exact h.exists_group hy

/-- A new element is linked on both sides. -/
theorem link (h : Mirrored f g) (hb : g b = some l) (hx : f x = none) :
    Mirrored (Function.update f x (some b)) (Function.update g b (some (l ++ [x]))) :=
  (h.link_iff hb).2 hx

/-- **Leaving a group.** -/
theorem unlink (h : Mirrored f g) (hb : g b = some l) (hx : f x = some b) :
    Mirrored (Function.update f x none)
      (Function.update g b (some (l.filter (· ≠ x)))) := by
  refine ⟨fun {b' l'} hl' => ?_, fun {b' l'} hl' y => ?_, fun {y b'} hy => ?_⟩
  · rw [Function.update_apply] at hl'
    split at hl'
    · obtain rfl := Option.some.inj hl'
      exact (h.nodup hb).filter _
    · exact h.nodup hl'
  · rw [Function.update_apply] at hl' ⊢
    split at hl'
    · subst b'
      obtain rfl := Option.some.inj hl'
      rw [List.mem_filter, h.mem hb]
      split
      · simp_all
      · simp_all
    · rename_i hne
      rw [h.mem hl']
      split
      · subst y
        rw [hx]
        simp [Ne.symm hne]
      · rfl
  · rw [Function.update_apply] at hy ⊢
    split at hy
    · cases hy
    · split
      · rfl
      · exact h.exists_group hy

end Mirrored

end NearRtRic.Index
