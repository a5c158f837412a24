/-
# Least-loaded placement

Items arrive one after another, and each goes to the end of a bin that holds the
fewest items at that moment.  Two facts about any number of bins and of items:
loads that differ by at most one keep doing so (`Places.balanced`), and where the
items are distinct, every one of them is in one bin afterwards, behind what the
bin held before (`Places.exists_assignment`).

Nothing here names the repository.
-/

import Mathlib.Logic.Function.Basic
import Mathlib.Data.List.Nodup

namespace NearRtRic.Placement

variable {ι α : Type} [DecidableEq ι] {on : ι → Prop} {x : α} {xs : List α}
  {content content' : ι → List α}

/-- The loads of the bins in use differ by at most one. -/
def Balanced (on : ι → Prop) (content : ι → List α) : Prop :=
  ∀ a, on a → ∀ b, on b → (content a).length ≤ (content b).length + 1

/-- A bin in use that holds no more than any other. -/
structure Least (on : ι → Prop) (content : ι → List α) (a : ι) : Prop where
  used : on a
  le : ∀ b, on b → (content a).length ≤ (content b).length

/-- The contents after an item went to the end of a bin. -/
def put (content : ι → List α) (a : ι) (x : α) : ι → List α :=
  Function.update content a (content a ++ [x])

/-- Some items are placed one after another. -/
inductive Places (on : ι → Prop) : List α → (ι → List α) → (ι → List α) → Prop
  | nil (content : ι → List α) : Places on [] content content
  | cons {x : α} {xs : List α} {content content' : ι → List α} {a : ι}
      (least : Least on content a) (rest : Places on xs (put content a x) content') :
      Places on (x :: xs) content content'

/-- The load of a bin after a placement. -/
theorem length_put (content : ι → List α) (a : ι) (x : α) (b : ι) :
    (put content a x b).length = (content b).length + if b = a then 1 else 0 := by
  unfold put
  by_cases hb : b = a
  · subst hb
    simp
  · simp [hb]

/-- A placement in a least loaded bin keeps the balance: the bin was at most as
full as the others, and none of them was more than one above it. -/
theorem Balanced.put {a : ι} (h : Balanced on content) (ha : Least on content a) (x : α) :
    Balanced on (put content a x) := by
  intro b hb c hc
  rw [length_put, length_put]
  have hbc := h b hb c hc
  have hac := ha.le c hc
  have hba := h b hb a ha.used
  by_cases hb' : b = a
  · subst hb'
    rw [if_pos rfl]
    omega
  · rw [if_neg hb']
    omega

/-- **Any number of placements keeps the balance.** -/
theorem Places.balanced (h : Places on xs content content') (hbal : Balanced on content) :
    Balanced on content' := by
  induction h with
  | nil content => exact hbal
  | cons least rest ih => exact ih (hbal.put least _)

/-- **Distinct items are in one bin each**, in the order of their arrival behind
what the bin held before. -/
theorem Places.exists_assignment [Nonempty ι] [DecidableEq α]
    (h : Places on xs content content') (hxs : xs.Nodup) :
    ∃ bin : α → ι, (∀ x ∈ xs, on (bin x)) ∧
      ∀ a, content' a = content a ++ xs.filter (bin · = a) := by
  induction h with
  | nil content => exact ⟨fun _ => Classical.arbitrary ι, by simp, by simp⟩
  | @cons x xs content content' a least rest ih =>
      obtain ⟨hx, hxs⟩ := List.nodup_cons.1 hxs
      obtain ⟨bin, hon, hcontent⟩ := ih hxs
      have hne : ∀ y ∈ xs, Function.update bin x a y = bin y := by
        intro y hy
        have hyx : y ≠ x := by
          rintro rfl
          exact hx hy
        exact Function.update_of_ne hyx ..
      refine ⟨Function.update bin x a, ?_, fun b => ?_⟩
      · intro y hy
        rcases List.mem_cons.1 hy with rfl | hy
        · rw [Function.update_self]
          exact least.used
        · rw [hne y hy]
          exact hon y hy
      · have hfilter : xs.filter (Function.update bin x a · = b) = xs.filter (bin · = b) :=
          List.filter_congr fun y hy => by rw [hne y hy]
        rw [hcontent b, List.filter_cons, hfilter, Function.update_self]
        unfold put
        by_cases hb : b = a
        · subst hb
          simp
        · simp [hb, Ne.symm hb]

end NearRtRic.Placement
