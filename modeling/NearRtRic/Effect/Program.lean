/-
# Programs over an interface of operations

A handler of a server is a sequence of calls to the outside (a store, a peer, a
clock, a mutex) with pure computation in between.  `Program E α` is such a
sequence as a tree: a result, a panic, or a call of an operation of the
interface `E` with one continuation for each of its answers.  It is a monad, so
a handler is written in `do` notation line by line with its source, and one
definition serves every reading of it:

* `Program.run` answers the calls from a list of outcomes and computes;
* `Program.Always` is the weakest precondition over all outcomes that satisfy a
  predicate, with the rules `always_bind` and `always_mono` that compose the
  specifications of the functions a handler is made of;
* the interleaving of several programs over one shared state is
  `NearRtRic.Effect.Interleave`.

Nothing here names the repository.
-/

import Mathlib.Logic.Function.Basic

namespace NearRtRic.Effect

/-- The operations a program may call, each with the type of its answers. -/
structure Interface where
  /-- The operations, with their arguments. -/
  Op : Type
  /-- The answers of an operation. -/
  Ans : Op → Type

/-- A program over `E`: a result, a panic (the process dies here), or a call
with one continuation for each answer. -/
inductive Program (E : Interface) (α : Type) : Type
  | ret (a : α)
  | panic
  | call (o : E.Op) (k : E.Ans o → Program E α)

namespace Program

variable {E : Interface} {α β γ χ σ : Type}

/-- Sequencing: `f` continues every result of `p`, and a panic stays a panic. -/
protected def bind : Program E α → (α → Program E β) → Program E β
  | ret a, f => f a
  | panic, _ => panic
  | call o k, f => call o fun r => (k r).bind f

instance : Monad (Program E) where
  pure := ret
  bind := Program.bind

/-- The program that calls `o` and returns its answer. -/
def perform (o : E.Op) : Program E (E.Ans o) := call o ret

/-- The value of an access that may be out of range, or a panic. -/
def orPanic : Option α → Program E α
  | some a => ret a
  | none => panic

/-- A value that is there is returned. -/
@[simp] theorem orPanic_some (a : α) : (orPanic (some a) : Program E α) = ret a := rfl

/-- One that is missing is a panic. -/
@[simp] theorem orPanic_none : (orPanic none : Program E α) = panic := rfl

/-- `pure` is the constructor, which is the form that the rules here are about. -/
@[simp] theorem pure_eq_ret (a : α) : (pure a : Program E α) = ret a := rfl

/-- A program that returns at once hands its value on. -/
@[simp] theorem ret_bind (a : α) (f : α → Program E β) : ret a >>= f = f a := rfl

/-- Nothing comes behind a panic. -/
@[simp] theorem panic_bind (f : α → Program E β) : (panic : Program E α) >>= f = panic := rfl

/-- What comes behind a program that calls comes behind the rest of it. -/
@[simp] theorem call_bind (o : E.Op) (k : E.Ans o → Program E α) (f : α → Program E β) :
    call o k >>= f = call o fun r => k r >>= f := rfl

/-- A single operation with what comes behind it is a call. -/
@[simp] theorem perform_bind (o : E.Op) (f : E.Ans o → Program E β) :
    perform o >>= f = call o f := rfl

/-- Returning the result is nothing more to do, by induction on the program. -/
theorem bind_ret (p : Program E α) : p >>= ret = p := by
  induction p with
  | ret a => rfl
  | panic => rfl
  | call o k ih => exact congrArg (call o) (funext ih)

/-- What comes behind may be put together first, by induction on the program. -/
theorem bind_assoc' (p : Program E α) (f : α → Program E β) (g : β → Program E γ) :
    p >>= f >>= g = p >>= fun a => f a >>= g := by
  induction p with
  | ret a => rfl
  | panic => rfl
  | call o k ih => exact congrArg (call o) (funext ih)

instance : LawfulMonad (Program E) :=
  LawfulMonad.mk' _ bind_ret (fun _ _ => rfl) bind_assoc'

/-! ### Running on a list of outcomes -/

/-- Run a program: `exec` answers each call from the next outcome of the list,
and from the default outcome once the list is used up.  The result is `none`
where the program panicked. -/
def run [Inhabited χ] (exec : (o : E.Op) → χ → σ → E.Ans o × σ) :
    Program E α → List χ → σ → Option α × σ
  | ret a, _, s => (some a, s)
  | panic, _, s => (none, s)
  | call o k, cs, s =>
      (k (exec o (cs.headD default) s).1).run exec cs.tail (exec o (cs.headD default) s).2

section Run

variable [Inhabited χ] {exec : (o : E.Op) → χ → σ → E.Ans o × σ}

/-- The outcome that answers call number `n` of a run. -/
def outcome : List χ → Nat → χ
  | cs, 0 => cs.headD default
  | cs, n + 1 => outcome cs.tail n

/-- The outcomes behind the first are those that are left. -/
@[simp] theorem outcome_tail (cs : List χ) (n : Nat) : outcome cs.tail n = outcome cs (n + 1) := rfl

/-- Where all outcomes of a list satisfy `ok`, every call is answered so. -/
theorem outcome_of_forall {ok : χ → Prop} {cs : List χ} (hcs : ∀ c ∈ cs, ok c) (hd : ok default)
    (n : Nat) : ok (outcome cs n) := by
  induction n generalizing cs with
  | zero =>
      cases cs with
      | nil => exact hd
      | cons c cs => exact hcs c (List.mem_cons_self ..)
  | succ n ih => exact ih fun c hc => hcs c (List.mem_of_mem_tail hc)

/-- A program that returns at once uses no outcome up. -/
@[simp] theorem run_ret (a : α) (cs : List χ) (s : σ) :
    (ret a : Program E α).run exec cs s = (some a, s) := rfl

/-- A call takes the first outcome, and its rest runs with the others. -/
@[simp] theorem run_call (o : E.Op) (k : E.Ans o → Program E α) (cs : List χ) (s : σ) :
    (call o k).run exec cs s =
      (k (exec o (outcome cs 0) s).1).run exec cs.tail (exec o (outcome cs 0) s).2 := rfl

/-- A pure continuation does not change where a run ends. -/
theorem run_bind_ret (p : Program E α) (g : α → β) (cs : List χ) (s : σ) :
    ((p >>= fun a => ret (g a)).run exec cs s).2 = (p.run exec cs s).2 := by
  induction p generalizing cs s with
  | ret a => rfl
  | panic => rfl
  | call o k ih => exact ih _ _ _

end Run

section Always

variable (exec : (o : E.Op) → χ → σ → E.Ans o × σ) (ok : χ → Prop) (P : σ → Prop)

/-- The weakest precondition over all outcomes that satisfy `ok`: every result
satisfies `Q` in the state it is returned in, and `P` holds at every panic. -/
def Always : Program E α → (α → σ → Prop) → σ → Prop
  | ret a, Q, s => Q a s
  | panic, _, s => P s
  | call o k, Q, s => ∀ c, ok c → (k (exec o c s).1).Always Q (exec o c s).2

variable {exec ok P}

/-- Of a value that is returned at once the postcondition has to hold. -/
@[simp] theorem always_ret (a : α) (Q : α → σ → Prop) (s : σ) :
    (ret a : Program E α).Always exec ok P Q s ↔ Q a s := Iff.rfl

/-- Of a panic the condition for panics has to hold. -/
@[simp] theorem always_panic (Q : α → σ → Prop) (s : σ) :
    (panic : Program E α).Always exec ok P Q s ↔ P s := Iff.rfl

/-- The rule of sequencing: the second program runs in whatever state the first
one leaves. -/
@[simp] theorem always_bind (p : Program E α) (f : α → Program E β) (Q : β → σ → Prop) (s : σ) :
    (p >>= f).Always exec ok P Q s ↔
      p.Always exec ok P (fun a s' => (f a).Always exec ok P Q s') s := by
  induction p generalizing s with
  | ret a => exact Iff.rfl
  | panic => exact Iff.rfl
  | call o k ih => exact forall₂_congr fun c _ => ih _ _

/-- The rule of consequence. -/
theorem always_imp {p : Program E α} {P' : σ → Prop} {Q Q' : α → σ → Prop} {s : σ}
    (h : p.Always exec ok P Q s) (hP : ∀ s', P s' → P' s') (hQ : ∀ a s', Q a s' → Q' a s') :
    p.Always exec ok P' Q' s := by
  induction p generalizing s with
  | ret a => exact hQ a s h
  | panic => exact hP s h
  | call o k ih => exact fun c hc => ih _ (h c hc)

/-- A postcondition may be weakened. -/
theorem always_mono {p : Program E α} {Q Q' : α → σ → Prop} {s : σ}
    (h : p.Always exec ok P Q s) (hQ : ∀ a s', Q a s' → Q' a s') :
    p.Always exec ok P Q' s := always_imp h (fun _ => id) hQ

/-- A program that may panic and return anything meets the condition that says nothing. -/
theorem always_trivial (p : Program E α) (s : σ) :
    p.Always exec ok (fun _ => True) (fun _ _ => True) s := by
  induction p generalizing s with
  | ret a => trivial
  | panic => trivial
  | call o k ih => exact fun c _ => ih _ _

/-- A specification of the first program, used inside a longer one. -/
theorem always_bind_of {p : Program E α} {f : α → Program E β} {Q : β → σ → Prop}
    {R : α → σ → Prop} {s : σ} (h : p.Always exec ok P R s)
    (hf : ∀ a s', R a s' → (f a).Always exec ok P Q s') : (p >>= f).Always exec ok P Q s :=
  (always_bind p f Q s).2 (always_mono h hf)

/-- A run answered by admitted outcomes ends as the weakest precondition says. -/
theorem run_of_always [Inhabited χ] {p : Program E α} {Q : α → σ → Prop} {s : σ}
    (h : p.Always exec ok P Q s) {cs : List χ} (hcs : ∀ c ∈ cs, ok c) (hd : ok default) :
    match p.run exec cs s with
    | (some a, s') => Q a s'
    | (none, s') => P s' := by
  induction p generalizing s cs with
  | ret a => exact h
  | panic => exact h
  | call o k ih =>
      have hc : ok (cs.headD default) := by
        cases cs with
        | nil => exact hd
        | cons c cs => exact hcs c (List.mem_cons_self ..)
      exact ih _ (h _ hc) fun c hc' => hcs c (List.mem_of_mem_tail hc')

/-- One predicate of the state alone, at every end of a run. -/
theorem run_state_of_always [Inhabited χ] {p : Program E α} {s : σ}
    (h : p.Always exec ok P (fun _ s' => P s') s) {cs : List χ} (hcs : ∀ c ∈ cs, ok c)
    (hd : ok default) : P (p.run exec cs s).2 := by
  have := run_of_always h hcs hd
  revert this
  cases p.run exec cs s with
  | mk r s' => cases r <;> exact id

/-- Where no panic is reached, the run has a result. -/
theorem run_isSome_of_always [Inhabited χ] {p : Program E α} {Q : α → σ → Prop} {s : σ}
    (h : p.Always exec ok (fun _ => False) Q s) {cs : List χ} (hcs : ∀ c ∈ cs, ok c)
    (hd : ok default) : (p.run exec cs s).1.isSome := by
  have hrun := run_of_always h hcs hd
  revert hrun
  cases p.run exec cs s with
  | mk r s' =>
      cases r with
      | none => exact fun hrun => hrun.elim
      | some a => exact fun _ => rfl

/-- Where no result is reached, the run panics. -/
theorem run_eq_none_of_always [Inhabited χ] {p : Program E α} {s : σ}
    (h : p.Always exec ok P (fun _ _ => False) s) {cs : List χ} (hcs : ∀ c ∈ cs, ok c)
    (hd : ok default) : (p.run exec cs s).1 = none := by
  have hrun := run_of_always h hcs hd
  revert hrun
  cases p.run exec cs s with
  | mk r s' =>
      cases r with
      | none => exact fun _ => rfl
      | some a => exact fun hrun => hrun.elim

end Always

/-! ### Programs that make only some calls -/

section Calls

variable {good : E.Op → Prop}

/-- Every call of the program is `good`, whatever is answered. -/
def Calls (good : E.Op → Prop) : Program E α → Prop
  | ret _ => True
  | panic => True
  | call o k => good o ∧ ∀ r, (k r).Calls good

/-- A program that returns at once makes no calls. -/
@[simp] theorem calls_ret (a : α) : (ret a : Program E α).Calls good := trivial

/-- Neither does one that returns or panics. -/
@[simp] theorem calls_orPanic (a : Option α) : (orPanic a : Program E α).Calls good := by
  cases a with
  | none => trivial
  | some a => trivial

/-- A single operation is all that its program makes. -/
@[simp] theorem calls_perform (o : E.Op) : (perform o : Program E (E.Ans o)).Calls good ↔ good o :=
  ⟨fun h => h.1, fun h => ⟨h, fun _ => trivial⟩⟩

/-- Two programs in sequence make the calls of both. -/
theorem calls_bind {p : Program E α} {f : α → Program E β} (hp : p.Calls good)
    (hf : ∀ a, (f a).Calls good) : (p >>= f).Calls good := by
  induction p with
  | ret a => exact hf a
  | panic => trivial
  | call o k ih => exact ⟨hp.1, fun r => ih r (hp.2 r)⟩

/-- **The rule of simulation.**  Where one meaning answers the good calls as another does
on a view of its state, and keeps an invariant, what holds of a program under the other
meaning holds of it under the first. -/
theorem Calls.always {τ ω : Type} {p : Program E α} (hp : p.Calls good) (view : τ → σ)
    {exec : (o : E.Op) → χ → σ → E.Ans o × σ} {exec' : (o : E.Op) → ω → τ → E.Ans o × τ}
    {ok : χ → Prop} {ok' : ω → Prop} {I : τ → Prop}
    (hsim : ∀ o, good o → ∀ w, I w → ∀ c', ok' c' → ∃ c, ok c ∧
      (exec' o c' w).1 = (exec o c (view w)).1 ∧ view (exec' o c' w).2 = (exec o c (view w)).2 ∧
        I (exec' o c' w).2)
    {P : σ → Prop} {Q : α → σ → Prop} {w : τ} (hw : I w)
    (h : p.Always exec ok P Q (view w)) :
    p.Always exec' ok' (fun w => P (view w) ∧ I w) (fun a w => Q a (view w) ∧ I w) w := by
  induction p generalizing w with
  | ret a => exact ⟨h, hw⟩
  | panic => exact ⟨h, hw⟩
  | call o k ih =>
      intro c' hc'
      obtain ⟨c, hc, hanswer, hview, hI⟩ := hsim o hp.1 w hw c' hc'
      rw [hanswer]
      refine ih _ (hp.2 _) hI ?_
      rw [hview]
      exact h c hc

end Calls

/-! ### Programs without panics -/

section NeverPanics

/-- No path through the program ends in a panic. -/
def NeverPanics : Program E α → Prop
  | ret _ => True
  | panic => False
  | call _ k => ∀ r, (k r).NeverPanics

/-- A program that returns at once does not panic. -/
@[simp] theorem neverPanics_ret (a : α) : (ret a : Program E α).NeverPanics := trivial

/-- A value that is asked for does not panic exactly where it is there. -/
@[simp] theorem neverPanics_orPanic (a : Option α) :
    (orPanic a : Program E α).NeverPanics ↔ a.isSome := by
  cases a with
  | none => exact ⟨fun h => h.elim, nofun⟩
  | some a => exact ⟨fun _ => rfl, fun _ => trivial⟩

/-- A single operation does not panic. -/
theorem neverPanics_perform (o : E.Op) : (perform o : Program E (E.Ans o)).NeverPanics :=
  fun _ => trivial

/-- Neither do two programs in sequence of which none does. -/
theorem neverPanics_bind {p : Program E α} {f : α → Program E β} (hp : p.NeverPanics)
    (hf : ∀ a, (f a).NeverPanics) : (p >>= f).NeverPanics := by
  induction p with
  | ret a => exact hf a
  | panic => exact hp.elim
  | call o k ih => exact fun r => ih r (hp r)

/-- A program that never panics meets the condition that only forbids panics, from any state. -/
theorem NeverPanics.always {exec : (o : E.Op) → χ → σ → E.Ans o × σ} {ok : χ → Prop}
    {p : Program E α} (hp : p.NeverPanics) (s : σ) :
    p.Always exec ok (fun _ => False) (fun _ _ => True) s := by
  induction p generalizing s with
  | ret a => trivial
  | panic => exact hp
  | call o k ih => exact fun c _ => ih _ (hp _) _

end NeverPanics

/-! ### Recording the calls -/

section Recording

/-- A call that was made, with its answer. -/
abbrev Event (E : Interface) := (o : E.Op) × E.Ans o

variable (exec : (o : E.Op) → χ → σ → E.Ans o × σ)

/-- The meaning `exec`, with the calls so far as a part of the state. -/
def recording (o : E.Op) (c : χ) (s : σ × List (Event E)) : E.Ans o × (σ × List (Event E)) :=
  ((exec o c s.1).1, ((exec o c s.1).2, s.2 ++ [⟨o, (exec o c s.1).1⟩]))

variable {exec}

/-- A program that makes good calls only records good calls. -/
theorem Calls.always_recording {good : E.Op → Prop} {p : Program E α} (hp : p.Calls good)
    {ok : χ → Prop} {P : σ → Prop} {Q : α → σ → Prop} {s : σ} {tr : List (Event E)}
    (htr : ∀ e ∈ tr, good e.1) (h : p.Always exec ok P Q s) :
    p.Always (recording exec) ok (fun w => P w.1 ∧ ∀ e ∈ w.2, good e.1)
      (fun a w => Q a w.1 ∧ ∀ e ∈ w.2, good e.1) (s, tr) := by
  refine hp.always Prod.fst (fun o ho w hw c hc => ⟨c, hc, rfl, rfl, ?_⟩) htr h
  intro e he
  rcases List.mem_append.1 he with he | he
  · exact hw e he
  · obtain rfl := List.mem_singleton.1 he
    exact ho

end Recording

/-! ### Paths -/

section Path

/-- The calls along one path through a program, with arbitrary answers, and the
rest that the path leads to. -/
inductive Path : Program E α → List (Event E) → Program E α → Prop
  | refl (p : Program E α) : Path p [] p
  | call {o : E.Op} {k : E.Ans o → Program E α} {r : E.Ans o} {tr : List (Event E)}
      {q : Program E α} : Path (k r) tr q → Path (.call o k) (⟨o, r⟩ :: tr) q

/-- The meaning of the calls for which an outcome is an answer to every call, and
the state is what was called. -/
def answering (o : E.Op) (answer : (o : E.Op) → E.Ans o) (tr : List (Event E)) :
    E.Ans o × List (Event E) := (answer o, tr ++ [⟨o, answer o⟩])

/-- What holds whatever is answered holds at the end of every path. -/
theorem Path.of_always [DecidableEq E.Op] [∀ o, Nonempty (E.Ans o)] {p q : Program E α}
    {tr tr₀ : List (Event E)} (h : Path p tr q) {P : List (Event E) → Prop}
    {Q : α → List (Event E) → Prop} (hp : p.Always answering (fun _ => True) P Q tr₀) :
    q.Always answering (fun _ => True) P Q (tr₀ ++ tr) := by
  induction h generalizing tr₀ with
  | refl p => rwa [List.append_nil]
  | @call o k r tr q _ ih =>
      classical
      have hr := hp (Function.update (fun o => Classical.arbitrary (E.Ans o)) o r) trivial
      simp only [answering, Function.update_self] at hr
      have hrest := ih hr
      rwa [List.append_assoc] at hrest

end Path

end Program

end NearRtRic.Effect
