/-
# Interleaving programs over one shared state

Several programs over one interface run as threads over a shared state.  A step
lets one thread make its next call, so a run is any interleaving at the
granularity of single calls (`Pool.Step`); a call may block, where the meaning
of the operation gives it no successor, as `lock` on a held mutex does.

The threads are verified one at a time.  `Program.Safe` says of one thread that,
whatever steps of the others its rely `R` admits between any two of its calls,
each of its own calls satisfies the guarantee `G` and its result satisfies the
postcondition.  `Pool.safe_of_reach` puts the threads back together: where the
guarantee of each thread is within the rely of every other, all the
postconditions hold in every state that any interleaving reaches.

`Program.Total` says more of one thread: it comes to a result, whatever the others do
in between (`Total.exists_openRun`).

`Pool.follow` runs one interleaving, given as the list of the threads in the
order they step, each step with what its call is answered from.
-/

import NearRtRic.Effect.Program
import Mathlib.Logic.Function.Basic
import Mathlib.Logic.Relation

namespace NearRtRic.Effect

variable {E : Interface} {α β σ τ : Type}

namespace Program

/-- The result of a program that has returned. -/
def result : Program E α → Option α
  | ret a => some a
  | panic => none
  | call _ _ => none

/-- A program has a result if it has returned. -/
theorem result_eq_some {p : Program E α} {a : α} : p.result = some a ↔ p = ret a := by
  cases p <;> simp [result]

section Safe

variable (sem : (o : E.Op) → σ → E.Ans o → σ → Prop) (R : σ → σ → Prop)
  (G : E.Op → σ → σ → Prop)

/-- A thread under interference: between its calls the state changes as `R`
says; each of its calls satisfies `G`, and a result satisfies `Q` from then on. -/
def Safe : Program E α → (α → σ → Prop) → σ → Prop
  | ret a, Q, s => ∀ s', R s s' → Q a s'
  | panic, _, _ => True
  | call o k, Q, s =>
      ∀ s₁, R s s₁ → ∀ r s₂, sem o s₁ r s₂ → G o s₁ s₂ ∧ (k r).Safe Q s₂

variable {sem R G}

/-- A thread that waits stays safe while the others step. -/
theorem Safe.stable [IsTrans σ R] {p : Program E α} {Q : α → σ → Prop} {s s' : σ}
    (h : p.Safe sem R G Q s) (hR : R s s') : p.Safe sem R G Q s' := by
  cases p with
  | ret a => exact fun s₁ h₁ => h s₁ (IsTrans.trans _ _ _ hR h₁)
  | panic => trivial
  | call o k => exact fun s₁ h₁ => h s₁ (IsTrans.trans _ _ _ hR h₁)

/-- The rule of a call: what the thread knows of the state is stable under the
others, and its own call keeps what the rest of it needs. -/
theorem safe_call_of {o : E.Op} {k : E.Ans o → Program E α} {Q : α → σ → Prop} {A : σ → Prop}
    {s : σ} (hA : ∀ s₀ s₁, R s₀ s₁ → A s₀ → A s₁) (hs : A s)
    (h : ∀ s₁ r s₂, A s₁ → sem o s₁ r s₂ → G o s₁ s₂ ∧ (k r).Safe sem R G Q s₂) :
    (call o k).Safe sem R G Q s := fun s₁ h₁ r s₂ h₂ => h s₁ r s₂ (hA s s₁ h₁ hs) h₂

/-- The rule of a result that is stable under the others. -/
theorem safe_ret_of {a : α} {Q : α → σ → Prop} {s : σ}
    (hQ : ∀ s₀ s₁, R s₀ s₁ → Q a s₀ → Q a s₁) (hs : Q a s) :
    (ret a : Program E α).Safe sem R G Q s := fun s₁ h₁ => hQ s s₁ h₁ hs

/-- The rule of consequence. -/
theorem Safe.mono {p : Program E α} {Q Q' : α → σ → Prop} {s : σ}
    (h : p.Safe sem R G Q s) (hQ : ∀ a s', Q a s' → Q' a s') : p.Safe sem R G Q' s := by
  induction p generalizing s with
  | ret a => exact fun s' hs' => hQ a s' (h s' hs')
  | panic => trivial
  | call o k ih =>
      intro s₁ h₁ r s₂ h₂
      obtain ⟨hG, hk⟩ := h s₁ h₁ r s₂ h₂
      exact ⟨hG, ih r hk⟩

/-- The rule of sequencing. -/
theorem Safe.bind [Std.Refl R] {p : Program E α} {f : α → Program E β} {Q : β → σ → Prop}
    {Q₁ : α → σ → Prop} {s : σ} (h : p.Safe sem R G Q₁ s)
    (hf : ∀ a s', Q₁ a s' → (f a).Safe sem R G Q s') : (p >>= f).Safe sem R G Q s := by
  induction p generalizing s with
  | ret a => exact hf a s (h s (Std.Refl.refl s))
  | panic => trivial
  | call o k ih =>
      intro s₁ h₁ r s₂ h₂
      obtain ⟨hG, hk⟩ := h s₁ h₁ r s₂ h₂
      exact ⟨hG, ih r hk⟩

/-- A run of one program to its result, with the others stepping in between; the
calls it made are listed. -/
inductive OpenRun (sem : (o : E.Op) → σ → E.Ans o → σ → Prop) (R : σ → σ → Prop) :
    Program E α → σ → List (Event E) → α → σ → Prop
  | ret {a : α} {s s' : σ} : R s s' → OpenRun sem R (ret a) s [] a s'
  | call {o : E.Op} {k : E.Ans o → Program E α} {s s₁ s₂ s' : σ} {r : E.Ans o}
      {tr : List (Event E)} {a : α} : R s s₁ → sem o s₁ r s₂ → OpenRun sem R (k r) s₂ tr a s' →
        OpenRun sem R (.call o k) s (⟨o, r⟩ :: tr) a s'

/-- A safe program satisfies its postcondition after every open run. -/
theorem OpenRun.post {p : Program E α} {Q : α → σ → Prop} {s s' : σ} {tr : List (Event E)} {a : α}
    (h : OpenRun sem R p s tr a s') (hp : p.Safe sem R G Q s) : Q a s' := by
  induction h with
  | ret hR => exact hp _ hR
  | call hR hsem _ ih => exact ih (hp _ hR _ _ hsem).2

/-- A thread that comes to a result: however the others step between its calls, it does
not panic, each of its calls is answered, and its result satisfies `Q` from then on. -/
def Total (sem : (o : E.Op) → σ → E.Ans o → σ → Prop) (R : σ → σ → Prop) :
    Program E α → (α → σ → Prop) → σ → Prop
  | ret a, Q, s => ∀ s', R s s' → Q a s'
  | panic, _, _ => False
  | call o k, Q, s => ∀ s₁, R s s₁ →
      (∃ r s₂, sem o s₁ r s₂) ∧ ∀ r s₂, sem o s₁ r s₂ → (k r).Total sem R Q s₂

/-- The rule of sequencing, for threads that come to a result. -/
theorem Total.bind [Std.Refl R] {p : Program E α} {f : α → Program E β} {Q : β → σ → Prop}
    {Q₁ : α → σ → Prop} {s : σ} (h : p.Total sem R Q₁ s)
    (hf : ∀ a s', Q₁ a s' → (f a).Total sem R Q s') : (p >>= f).Total sem R Q s := by
  induction p generalizing s with
  | ret a => exact hf a s (h s (Std.Refl.refl s))
  | panic => exact h.elim
  | call o k ih => exact fun s₁ h₁ => ⟨(h s₁ h₁).1, fun r s₂ h₂ => ih r ((h s₁ h₁).2 r s₂ h₂)⟩

end Safe

end Program

/-- The threads, each at the rest of its program, and the state they share. -/
structure Pool (E : Interface) (α σ τ : Type) where
  /-- What each thread still has to run. -/
  thread : τ → Program E α
  /-- The shared state. -/
  state : σ

namespace Pool

/-- Every thread has returned. -/
def Finished (c : Pool E α σ τ) : Prop := ∀ t, ∃ a, c.thread t = .ret a

/-- What the parallel rule carries from step to step: every thread is safe. -/
def AllSafe (sem : τ → (o : E.Op) → σ → E.Ans o → σ → Prop) (R : τ → σ → σ → Prop)
    (G : τ → E.Op → σ → σ → Prop) (Q : τ → α → σ → Prop) (c : Pool E α σ τ) : Prop :=
  ∀ t, (c.thread t).Safe (sem t) (R t) (G t) (Q t) c.state

/-- A thread that has returned satisfies its postcondition. -/
theorem AllSafe.post {sem : τ → (o : E.Op) → σ → E.Ans o → σ → Prop} {R : τ → σ → σ → Prop}
    {G : τ → E.Op → σ → σ → Prop} {Q : τ → α → σ → Prop} [∀ t, Std.Refl (R t)]
    {c : Pool E α σ τ} (h : AllSafe sem R G Q c) {t : τ} {a : α} (ha : c.thread t = .ret a) :
    Q t a c.state := by
  have ht := h t
  rw [ha] at ht
  exact ht c.state (Std.Refl.refl _)

variable [DecidableEq τ] (sem : τ → (o : E.Op) → σ → E.Ans o → σ → Prop)

/-- Thread `t` makes its next call, `o`. -/
inductive Step (t : τ) (o : E.Op) : Pool E α σ τ → Pool E α σ τ → Prop
  | call {c : Pool E α σ τ} {k : E.Ans o → Program E α} {r : E.Ans o} {s : σ} :
      c.thread t = .call o k → sem t o c.state r s →
        Step t o c { thread := Function.update c.thread t (k r), state := s }

/-- The pools that some interleaving reaches. -/
def Reach : Pool E α σ τ → Pool E α σ τ → Prop :=
  Relation.ReflTransGen fun c c' => ∃ t o, Step sem t o c c'

variable {sem} {R : τ → σ → σ → Prop} {G : τ → E.Op → σ → σ → Prop} {Q : τ → α → σ → Prop}

/-- One step of one thread keeps all threads safe, and satisfies the guarantee
of the thread that takes it. -/
theorem AllSafe.step [∀ t, IsTrans σ (R t)] [∀ t, Std.Refl (R t)]
    (hGR : ∀ t u, t ≠ u → ∀ o s s', G t o s s' → R u s s') {c c' : Pool E α σ τ}
    (h : AllSafe sem R G Q c) {t : τ} {o : E.Op} (hs : Step sem t o c c') :
    G t o c.state c'.state ∧ AllSafe sem R G Q c' := by
  obtain ⟨hk, hsem⟩ := hs
  rename_i k r s
  have ht := h t
  rw [hk] at ht
  obtain ⟨hG, hsafe⟩ := ht c.state (Std.Refl.refl _) r s hsem
  refine ⟨hG, fun u => ?_⟩
  by_cases hu : u = t
  · subst hu
    simpa only [Function.update_self] using hsafe
  · simpa only [Function.update_of_ne hu] using (h u).stable (hGR t u (Ne.symm hu) o _ _ hG)

/-- **The parallel rule.**  Where the guarantee of each thread is within the
rely of every other, the threads are safe after any interleaving. -/
theorem safe_of_reach [∀ t, IsTrans σ (R t)] [∀ t, Std.Refl (R t)]
    (hGR : ∀ t u, t ≠ u → ∀ o s s', G t o s s' → R u s s') {c c' : Pool E α σ τ}
    (h : AllSafe sem R G Q c) (hr : Reach sem c c') : AllSafe sem R G Q c' := by
  induction hr with
  | refl => exact h
  | tail _ hs ih =>
      obtain ⟨t, o, hs⟩ := hs
      exact (ih.step hGR hs).2

/-! ### Following one interleaving -/

section Follow

variable {χ : Type} (exec : τ → (o : E.Op) → χ → σ → Option (E.Ans o × σ))

/-- Thread `t` makes its next call, answered from `x`; `none` where it has none,
or where the call blocks. -/
def next (t : τ) (x : χ) (c : Pool E α σ τ) : Option (Pool E α σ τ) :=
  match c.thread t with
  | .ret _ => none
  | .panic => none
  | .call o k => (exec t o x c.state).map fun r =>
      { thread := Function.update c.thread t (k r.1), state := r.2 }

/-- The pool after the threads of a list stepped in its order. -/
def follow : List (τ × χ) → Pool E α σ τ → Option (Pool E α σ τ)
  | [], c => some c
  | (t, x) :: rest, c => (c.next exec t x).bind (follow rest)

variable {exec}

/-- What is followed is an interleaving. -/
theorem reach_of_follow
    (hexec : ∀ t o x s r, exec t o x s = some r → sem t o s r.1 r.2)
    {steps : List (τ × χ)} {c c' : Pool E α σ τ} (h : c.follow exec steps = some c') :
    Reach sem c c' := by
  induction steps generalizing c with
  | nil =>
      obtain rfl := Option.some.inj h
      exact .refl
  | cons step rest ih =>
      obtain ⟨t, x⟩ := step
      obtain ⟨c₁, h₁, hrest⟩ := Option.bind_eq_some_iff.1 h
      refine .head ⟨t, ?_⟩ (ih hrest)
      unfold next at h₁
      split at h₁
      · cases h₁
      · cases h₁
      · rename_i o k hk
        obtain ⟨r, hr, rfl⟩ := Option.map_eq_some_iff.1 h₁
        exact ⟨o, .call hk (hexec t o x _ r hr)⟩

end Follow

end Pool

end NearRtRic.Effect
