/-
# What has happened since

`Since P Q l` says of a list of events, in the order in which they happened, that there was
one with `P` and that there has been none with `Q` since.  It is how a state is read off a
record: what was switched on, and has not been switched off.
-/

import Mathlib.Data.List.Basic

namespace NearRtRic.Trace

variable {α : Type*} {P Q : α → Prop} {l l' : List α} {x : α}

/-- There was a `P`, and no `Q` since. -/
def Since (P Q : α → Prop) (l : List α) : Prop :=
  ∃ before x after, l = before ++ x :: after ∧ P x ∧ ∀ y ∈ after, ¬ Q y

/-- Nothing has happened in the empty list. -/
theorem not_since_nil : ¬ Since P Q [] := by
  rintro ⟨before, x, after, h, -⟩
  exact List.append_ne_nil_of_right_ne_nil before (List.cons_ne_nil x after) h.symm

/-- **Two records, one after the other.** -/
theorem since_append : Since P Q (l ++ l') ↔ Since P Q l' ∨ Since P Q l ∧ ∀ y ∈ l', ¬ Q y := by
  constructor
  · rintro ⟨before, x, after, heq, hx, hafter⟩
    rcases List.append_eq_append_iff.1 heq with ⟨mid, -, h⟩ | ⟨mid, h, h'⟩
    · exact .inl ⟨mid, x, after, h, hx, hafter⟩
    · cases mid with
      | nil => exact .inl ⟨[], x, after, h'.symm, hx, hafter⟩
      | cons y mid =>
          obtain ⟨rfl, rfl⟩ := List.cons.inj h'
          exact .inr ⟨⟨before, x, mid, h, hx, fun y hy => hafter y (List.mem_append_left l' hy)⟩,
            fun y hy => hafter y (List.mem_append_right mid hy)⟩
  · rintro (⟨before, x, after, rfl, hx, hafter⟩ | ⟨⟨before, x, after, rfl, hx, hafter⟩, hl'⟩)
    · exact ⟨l ++ before, x, after, by rw [List.append_assoc], hx, hafter⟩
    · refine ⟨before, x, after ++ l', by rw [List.append_assoc, List.cons_append], hx, ?_⟩
      intro y hy
      rcases List.mem_append.1 hy with hy | hy
      · exact hafter y hy
      · exact hl' y hy

/-- With a weaker event to wait for, and a stronger one to rule it out. -/
theorem Since.imp {P' Q' : α → Prop} (h : Since P Q l) (hP : ∀ x, P x → P' x)
    (hQ : ∀ x ∈ l, Q' x → Q x) : Since P' Q' l := by
  obtain ⟨before, x, after, rfl, hx, hafter⟩ := h
  refine ⟨before, x, after, rfl, hP x hx, fun y hy hy' => hafter y hy (hQ y ?_ hy')⟩
  exact List.mem_append_right _ (List.mem_cons_of_mem _ hy)

/-- Of one event it is that event. -/
theorem since_singleton : Since P Q [x] ↔ P x := by
  constructor
  · rintro ⟨before, y, after, heq, hy, -⟩
    rcases List.append_eq_singleton_iff.1 heq.symm with ⟨-, h⟩ | ⟨-, h⟩
    · exact (List.cons.inj h).1 ▸ hy
    · cases h
  · exact fun hx => ⟨[], x, [], rfl, hx, nofun⟩

/-- One more event. -/
theorem since_concat : Since P Q (l ++ [x]) ↔ P x ∨ Since P Q l ∧ ¬ Q x := by
  rw [since_append, since_singleton]
  simp

end NearRtRic.Trace
