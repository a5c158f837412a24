/-
# The mean over a window of time

`mean` is the mean of a list of numbers, which an empty list does not have.  More numbers
leave it as it is exactly if their own mean is the same (`mean_append_eq_left_iff`), and so
for two windows that end at the same time: what is in the longer one only decides
(`mean_within_eq_iff`).
-/

import Mathlib.Algebra.Order.Field.Rat
import Mathlib.Algebra.BigOperators.Group.List.Basic
import Mathlib.Data.List.Perm.Basic
import Mathlib.Tactic.FieldSimp
import Mathlib.Tactic.LinearCombination

namespace NearRtRic.Stats

variable {K : Type*} [Field K]

/-- The mean of a list, `none` where the list is empty. -/
def mean (xs : List K) : Option K :=
  if xs.length = 0 then none else some (xs.sum / xs.length)

/-- The mean of some numbers is their sum over their count. -/
theorem mean_of_ne_nil {xs : List K} (h : xs ≠ []) : mean xs = some (xs.sum / xs.length) :=
  if_neg (mt List.eq_nil_of_length_eq_zero h)

/-- Their order does not matter. -/
theorem mean_perm {xs ys : List K} (h : xs.Perm ys) : mean xs = mean ys := by
  unfold mean
  rw [h.length_eq, h.sum_eq]

/-- **More numbers leave the mean as it is exactly if they have the same mean.** -/
theorem mean_append_eq_left_iff [CharZero K] {xs ys : List K} :
    mean (xs ++ ys) = mean xs ↔ ys = [] ∨ mean ys = mean xs := by
  by_cases hys : ys = []
  · rw [hys, List.append_nil]
    exact ⟨fun _ => .inl rfl, fun _ => rfl⟩
  have happ : xs ++ ys ≠ [] := fun h => hys (List.append_eq_nil_iff.1 h).2
  rw [or_iff_right hys]
  by_cases hxs : xs = []
  · rw [hxs, List.nil_append]
  have hx : (xs.length : K) ≠ 0 :=
    Nat.cast_ne_zero.2 (mt List.eq_nil_of_length_eq_zero hxs)
  have hy : (ys.length : K) ≠ 0 :=
    Nat.cast_ne_zero.2 (mt List.eq_nil_of_length_eq_zero hys)
  have hxy : (xs.length : K) + ys.length ≠ 0 := by
    rw [← Nat.cast_add, ← List.length_append]
    exact Nat.cast_ne_zero.2 (mt List.eq_nil_of_length_eq_zero happ)
  rw [mean_of_ne_nil happ, mean_of_ne_nil hxs, mean_of_ne_nil hys, List.sum_append,
    List.length_append, Nat.cast_add, Option.some.injEq, Option.some.injEq,
    div_eq_div_iff hxy hx, div_eq_div_iff hy hx]
  constructor
  · intro h
    linear_combination h
  · intro h
    linear_combination h

/-! ### Windows -/

variable {α T : Type*} [LinearOrder T] {time : α → T} {xs : List α} {lo mid a b hi : T}

/-- What has a time in `(lo, hi]`. -/
def within (time : α → T) (lo hi : T) (xs : List α) : List α :=
  xs.filter fun x => lo < time x ∧ time x ≤ hi

/-- A window is made of its later and its earlier part. -/
theorem within_perm (h : lo ≤ mid) : (within time lo hi xs).Perm
    (within time mid hi xs ++ within time lo (min mid hi) xs) := by
  have hsplit := (List.filter_append_perm (fun x => decide (mid < time x))
    (within time lo hi xs)).symm
  unfold within at hsplit ⊢
  rw [List.filter_filter, List.filter_filter] at hsplit
  have hlate : ∀ x, (decide (mid < time x) && decide (lo < time x ∧ time x ≤ hi)) =
      decide (mid < time x ∧ time x ≤ hi) := by
    intro x
    rw [← Bool.decide_and, decide_eq_decide]
    constructor
    · rintro ⟨hmid, -, hhi⟩
      exact ⟨hmid, hhi⟩
    · rintro ⟨hmid, hhi⟩
      exact ⟨hmid, h.trans_lt hmid, hhi⟩
  have hearly : ∀ x, ((!decide (mid < time x)) && decide (lo < time x ∧ time x ≤ hi)) =
      decide (lo < time x ∧ time x ≤ min mid hi) := by
    intro x
    rw [← decide_not, ← Bool.decide_and, decide_eq_decide, not_lt, le_min_iff]
    constructor
    · rintro ⟨hmid, hlo, hhi⟩
      exact ⟨hlo, hmid, hhi⟩
    · rintro ⟨hlo, hmid, hhi⟩
      exact ⟨hmid, hlo, hhi⟩
  simpa only [hlate, hearly] using hsplit

/-- The mean of a value over a window. -/
def meanWithin (time : α → T) (value : α → K) (lo hi : T) (xs : List α) : Option K :=
  mean ((within time lo hi xs).map value)

/-- A window that begins earlier has the same mean exactly if what is in it only has. -/
theorem meanWithin_eq_of_le [CharZero K] {value : α → K} (h : lo ≤ mid) :
    meanWithin time value lo hi xs = meanWithin time value mid hi xs ↔
      within time lo (min mid hi) xs = [] ∨
        meanWithin time value lo (min mid hi) xs = meanWithin time value mid hi xs := by
  have hperm : ((within time lo hi xs).map value).Perm
      ((within time mid hi xs ++ within time lo (min mid hi) xs).map value) :=
    (within_perm h).map value
  unfold meanWithin
  rw [mean_perm hperm, List.map_append, mean_append_eq_left_iff, List.map_eq_nil_iff]

/-- **Two windows with one end have the same means exactly if nothing is in one of them only,
or what is has the means of what is in both.** -/
theorem meanWithin_eq_iff [CharZero K] {ι : Type*} {value : ι → α → K} :
    (∀ i, meanWithin time (value i) a hi xs = meanWithin time (value i) b hi xs) ↔
      within time (min a b) (min (max a b) hi) xs = [] ∨
        ∀ i, meanWithin time (value i) (min a b) (min (max a b) hi) xs =
          meanWithin time (value i) (max a b) hi xs := by
  rw [← forall_or_left]
  refine forall_congr' fun i => ?_
  rw [← meanWithin_eq_of_le min_le_max]
  rcases le_total a b with h | h
  · rw [min_eq_left h, max_eq_right h]
  · rw [min_eq_right h, max_eq_left h]
    exact eq_comm

end NearRtRic.Stats
