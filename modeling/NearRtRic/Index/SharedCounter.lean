/-
# A counter that several threads increment

`counter++` on a plain variable is a load and, later, a store of the successor; a thread that
is between the two holds the value that it has loaded.  The value that is loaded is what the
increment evaluates to: the number that the thread goes on with.

A run is the sequence of the threads that step, each making its next half.  `nodup_iff` is the
fact about it: the numbers that are given out are pairwise different exactly where no load comes
between the load and the store of another thread.
-/

import Mathlib.Data.List.Induction
import Mathlib.Data.List.Nodup
import Mathlib.Logic.Function.Basic
import Mathlib.Order.Basic

namespace NearRtRic.Index

/-- The variable, what the threads between their two halves hold, and the numbers that were
given out, in order. -/
structure Counter (κ : Type) where
  value : Nat
  held : κ → Option Nat
  given : List (κ × Nat)

namespace Counter

variable {κ : Type} [DecidableEq κ]

/-- Before the first increment. -/
def start (value : Nat) : Counter κ := ⟨value, fun _ => none, []⟩

/-- The next half of an increment of the thread `t`. -/
def step (c : Counter κ) (t : κ) : Counter κ :=
  match c.held t with
  | none => { c with
      held := Function.update c.held t (some c.value)
      given := c.given ++ [(t, c.value)] }
  | some v => { c with value := v + 1, held := Function.update c.held t none }

def run (value : Nat) (ts : List κ) : Counter κ := ts.foldl step (start value)

/-- The numbers that were given to a thread. -/
def givenTo (c : Counter κ) (t : κ) : List Nat := (c.given.filter (·.1 = t)).map (·.2)

/-- No load comes between the load and the store of another thread. -/
def Exclusive (value : Nat) (ts : List κ) : Prop :=
  ∀ before t after, ts = before ++ t :: after → (run value before).held t = none →
    ∀ u, (run value before).held u = none

/-! ### Numbers given out -/

variable {value : Nat} {ts : List κ} {t : κ} {c : Counter κ}

/-- A schedule with one more step. -/
theorem run_append_singleton (value : Nat) (ts : List κ) (t : κ) :
    run value (ts ++ [t]) = (run value ts).step t := by
  rw [run, List.foldl_append]
  rfl

/-- A step is a load, which gives out the value, or a store. -/
theorem step_cases (c : Counter κ) (t : κ) :
    (c.held t = none ∧ (c.step t).given = c.given ++ [(t, c.value)] ∧
      (c.step t).value = c.value ∧ (c.step t).held = Function.update c.held t (some c.value)) ∨
    ∃ v, c.held t = some v ∧ (c.step t).given = c.given ∧ (c.step t).value = v + 1 ∧
      (c.step t).held = Function.update c.held t none := by
  unfold step
  cases h : c.held t with
  | none => exact .inl ⟨rfl, rfl, rfl, rfl⟩
  | some v => exact .inr ⟨v, rfl, rfl, rfl, rfl⟩

/-- Between increments the value is greater than every number given out; during the one
increment that is going on it is the number that the thread holds. -/
inductive Settled (c : Counter κ) : Prop
  | idle : (∀ u, c.held u = none) → (∀ x ∈ c.given, x.2 < c.value) → Settled c
  | busy (t : κ) : c.held t = some c.value → (∀ u, u ≠ t → c.held u = none) →
      (t, c.value) ∈ c.given → (∀ x ∈ c.given, x.2 ≤ c.value) → Settled c

omit [DecidableEq κ] in
/-- At the start nobody is between a load and a store. -/
theorem settled_start : Settled (start value : Counter κ) :=
  .idle (fun _ => rfl) fun _ hx => absurd hx List.not_mem_nil

omit [DecidableEq κ] in
/-- What the given numbers are after one more. -/
theorem nodup_append_given (c : Counter κ) (t : κ) :
    ((c.given ++ [(t, c.value)]).map (·.2)).Nodup ↔
      (c.given.map (·.2)).Nodup ∧ ∀ x ∈ c.given, x.2 ≠ c.value := by
  rw [List.map_append, List.map_singleton, List.nodup_append]
  refine and_congr_right fun _ => ⟨fun h x hx => ?_, fun h => ⟨List.nodup_singleton _, ?_⟩⟩
  · exact h.2 x.2 (List.mem_map_of_mem hx) c.value (List.mem_singleton_self _)
  · rintro a ha b hb
    obtain ⟨x, hx, rfl⟩ := List.mem_map.1 ha
    rw [List.mem_singleton.1 hb]
    exact h x hx

/-- **One step** of a thread that does not load while another one holds a number. -/
theorem Settled.step (h : Settled c) (hnodup : (c.given.map (·.2)).Nodup)
    (halone : c.held t = none → ∀ u, c.held u = none) :
    Settled (c.step t) ∧ ((c.step t).given.map (·.2)).Nodup := by
  rcases step_cases c t with ⟨hload, hgiven, hvalue, hheld⟩ | ⟨v, hstore, hgiven, hvalue, hheld⟩
  · cases h with
    | busy u hu _ _ _ =>
        rw [halone hload u] at hu
        cases hu
    | idle hnone hlt =>
        refine ⟨.busy t ?_ (fun u hne => ?_) ?_ fun x hx => ?_, ?_⟩
        · rw [hheld, hvalue, Function.update_self]
        · rw [hheld, Function.update_of_ne hne, hnone u]
        · rw [hgiven, hvalue]
          exact List.mem_append_right _ (List.mem_singleton_self _)
        · rw [hvalue]
          rw [hgiven] at hx
          rcases List.mem_append.1 hx with hx | hx
          · exact Nat.le_of_lt (hlt x hx)
          · exact (List.mem_singleton.1 hx ▸ Nat.le_refl _)
        · rw [hgiven, nodup_append_given]
          exact ⟨hnodup, fun x hx => Nat.ne_of_lt (hlt x hx)⟩
  · refine ⟨?_, by rwa [hgiven]⟩
    cases h with
    | idle hnone _ =>
        rw [hnone t] at hstore
        cases hstore
    | busy u hu hothers _ hle =>
        obtain rfl : t = u := by
          by_contra hne
          rw [hothers t hne] at hstore
          cases hstore
        obtain rfl := Option.some.inj (hu.symm.trans hstore)
        refine .idle (fun w => ?_) fun x hx => ?_
        · rw [hheld, Function.update_apply]
          split
          · rfl
          · exact hothers w ‹_›
        · rw [hgiven] at hx
          rw [hvalue]
          exact Nat.lt_succ_of_le (hle x hx)

/-- A load while another thread holds a number gives out that number again. -/
theorem Settled.repeats (h : Settled c) {u : κ} (hload : c.held t = none)
    (hu : c.held u ≠ none) : ¬ ((c.step t).given.map (·.2)).Nodup := by
  cases h with
  | idle hnone _ => exact absurd (hnone u) hu
  | busy w _ _ hmem _ =>
      rcases step_cases c t with ⟨-, hgiven, -, -⟩ | ⟨v, hstore, -⟩
      · rw [hgiven, nodup_append_given]
        exact fun hall => hall.2 _ hmem rfl
      · rw [hload] at hstore
        cases hstore

/-- What has been given out stays given out. -/
theorem nodup_of_step (h : ((c.step t).given.map (·.2)).Nodup) : (c.given.map (·.2)).Nodup := by
  rcases step_cases c t with ⟨-, hgiven, -, -⟩ | ⟨v, -, hgiven, -, -⟩
  · rw [hgiven, nodup_append_given] at h
    exact h.1
  · rwa [hgiven] at h

/-- One more step is exclusive if nobody else is between the two where it loads. -/
theorem exclusive_append_singleton : Exclusive value (ts ++ [t]) ↔
    Exclusive value ts ∧
      ((run value ts).held t = none → ∀ u, (run value ts).held u = none) := by
  constructor
  · intro h
    refine ⟨fun before u after hts => ?_, h ts t [] rfl⟩
    exact h before u (after ++ [t]) (by rw [hts, List.append_assoc, List.cons_append])
  · rintro ⟨hts, ht⟩ before u after heq
    rcases List.eq_nil_or_concat after with rfl | ⟨after, v, rfl⟩
    · obtain ⟨rfl, hu⟩ := List.append_inj' heq rfl
      exact List.singleton_inj.1 hu ▸ ht
    · rw [List.concat_eq_append, ← List.cons_append, ← List.append_assoc] at heq
      exact hts before u after (List.append_inj' heq rfl).1

/-- **When the numbers of a run are pairwise different**: exactly when every load finds no other
thread between its two halves. -/
theorem nodup_iff (value : Nat) (ts : List κ) :
    ((run value ts).given.map (·.2)).Nodup ↔ Exclusive value ts := by
  suffices h : (((run value ts).given.map (·.2)).Nodup ↔ Exclusive value ts) ∧
      (Exclusive value ts → Settled (run value ts)) from h.1
  induction ts using List.reverseRecOn with
  | nil =>
      refine ⟨iff_of_true List.nodup_nil fun before t after h => ?_, fun _ => settled_start⟩
      exact absurd h.symm (List.append_ne_nil_of_right_ne_nil before (List.cons_ne_nil t after))
  | append_singleton ts t ih =>
      obtain ⟨hiff, hsettled⟩ := ih
      rw [run_append_singleton, exclusive_append_singleton]
      refine ⟨⟨fun hnodup => ?_, fun ⟨hts, ht⟩ => ?_⟩, fun ⟨hts, ht⟩ => ?_⟩
      · have hts := hiff.1 (nodup_of_step hnodup)
        refine ⟨hts, fun hload u => ?_⟩
        by_contra hu
        exact (hsettled hts).repeats hload hu hnodup
      · exact ((hsettled hts).step (hiff.2 hts) ht).2
      · exact ((hsettled hts).step (hiff.2 hts) ht).1

end Counter

end NearRtRic.Index
