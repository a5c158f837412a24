/-
# What values a program passes on

A specification of programs that knows nothing of the state.  Answers come with a property
(`Answered`), calls need one (`Allowed`), and `Program.Guarded` says that a program makes
allowed calls only, as long as it is answered so.  It is proved call by call along the code.

`Pool.invariant_of_guarded` makes it an invariant of shared state.  Where an allowed call
keeps the invariant and is answered as it should be, any number of guarded threads keep it
in every interleaving: a thread may write back what it read long ago, as the property of
what it read does not depend on the state.

Nothing here names the repository.
-/

import NearRtRic.Effect.Interleave

namespace NearRtRic.Effect

variable {E : Interface} {α β σ τ : Type}

namespace Program

variable (Answered : (o : E.Op) → E.Ans o → Prop) (Allowed : E.Op → Prop)

/-- Every call is allowed and every result satisfies `Q`, as long as the calls are answered as
`Answered` says. -/
def Guarded : Program E α → (α → Prop) → Prop
  | ret a, Q => Q a
  | panic, _ => True
  | call o k, Q => Allowed o ∧ ∀ r, Answered o r → (k r).Guarded Q

variable {Answered Allowed} {p : Program E α} {Q Q' : α → Prop}

/-- A return is guarded by its postcondition. -/
@[simp] theorem guarded_ret (a : α) :
    (ret a : Program E α).Guarded Answered Allowed Q ↔ Q a := Iff.rfl

/-- A call must be allowed, and what follows guarded for every answer. -/
theorem guarded_call {o : E.Op} {k : E.Ans o → Program E α} :
    (call o k).Guarded Answered Allowed Q ↔
      Allowed o ∧ ∀ r, Answered o r → (k r).Guarded Answered Allowed Q := Iff.rfl

/-- A call on its own. -/
@[simp] theorem guarded_perform {o : E.Op} {Q : E.Ans o → Prop} :
    (perform o : Program E (E.Ans o)).Guarded Answered Allowed Q ↔
      Allowed o ∧ ∀ r, Answered o r → Q r := Iff.rfl

/-- Where the value is missing nothing follows. -/
theorem guarded_orPanic {a : Option α} :
    (orPanic a : Program E α).Guarded Answered Allowed Q ↔ ∀ x, a = some x → Q x := by
  cases a with
  | none => exact iff_of_true trivial nofun
  | some a => exact ⟨fun h x hx => Option.some.inj hx ▸ h, fun h => h a rfl⟩

/-- The rule of sequencing. -/
@[simp] theorem guarded_bind {f : α → Program E β} {Q : β → Prop} :
    (p >>= f).Guarded Answered Allowed Q ↔
      p.Guarded Answered Allowed fun a => (f a).Guarded Answered Allowed Q := by
  induction p with
  | ret a => exact Iff.rfl
  | panic => exact Iff.rfl
  | call o k ih => exact and_congr_right fun _ => forall₂_congr fun r _ => ih r

/-- The rule of consequence. -/
theorem Guarded.mono (h : p.Guarded Answered Allowed Q) (hQ : ∀ a, Q a → Q' a) :
    p.Guarded Answered Allowed Q' := by
  induction p with
  | ret a => exact hQ a h
  | panic => trivial
  | call o k ih => exact ⟨h.1, fun r hr => ih r (h.2 r hr)⟩

/-- A specification of the first program, used inside a longer one. -/
theorem Guarded.bind {f : α → Program E β} {Q' : β → Prop} (h : p.Guarded Answered Allowed Q)
    (hf : ∀ a, Q a → (f a).Guarded Answered Allowed Q') :
    (p >>= f).Guarded Answered Allowed Q' := guarded_bind.2 (h.mono hf)

end Program

namespace Pool

variable [DecidableEq τ] {sem : τ → (o : E.Op) → σ → E.Ans o → σ → Prop}
  {Answered : (o : E.Op) → E.Ans o → Prop} {Allowed : E.Op → Prop} {I : σ → Prop}
  {Q : τ → α → Prop} {c c' : Pool E α σ τ}

/-- **Guarded threads keep an invariant** in every interleaving, and stay guarded. -/
theorem invariant_of_guarded
    (hsem : ∀ t o s r s', I s → Allowed o → sem t o s r s' → Answered o r ∧ I s')
    (hguarded : ∀ t, (c.thread t).Guarded Answered Allowed (Q t)) (hI : I c.state)
    (h : Reach sem c c') :
    I c'.state ∧ ∀ t, (c'.thread t).Guarded Answered Allowed (Q t) := by
  induction h with
  | refl => exact ⟨hI, hguarded⟩
  | tail _ hstep ih =>
      obtain ⟨t, o, hstep⟩ := hstep
      obtain ⟨hI', hguarded'⟩ := ih
      obtain ⟨hk, hcall⟩ := hstep
      rename_i k r s
      have ht := hguarded' t
      rw [hk] at ht
      obtain ⟨hanswered, hkeeps⟩ := hsem t o _ r s hI' ht.1 hcall
      refine ⟨hkeeps, fun u => ?_⟩
      by_cases hu : u = t
      · subst hu
        simpa only [Function.update_self] using ht.2 r hanswered
      · simpa only [Function.update_of_ne hu] using hguarded' u

end Pool

end NearRtRic.Effect
