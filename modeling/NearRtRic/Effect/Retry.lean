/-
# Retried sequences of calls

A service makes some calls in order and stops at the first that fails; a caller
tries the whole sequence again while the error says that this may help, up to a
number of attempts.  A call that failed may have taken effect.

`retryFrom` is the loop, for any program, and `Attempts` are complete runs of a
program one after another: a run of the loop is a sequence of attempts in which all
but the last failed with an error worth retrying (`attempts_of_retryFrom`).

Where the effects of the calls are idempotent and commute (`Replayable`), a prefix
of them may be done any number of times before the whole (`effects_take`), so an
attempt that succeeds leaves what a first and undisturbed one would have left
(`state_of_attempts`).

Nothing here names the repository.
-/

import NearRtRic.Effect.Program

namespace NearRtRic.Effect

open Program

variable {α σ χ ε ε' : Type}

/-! ### The loop -/

section Loop

variable {E : Interface} [Inhabited χ] {exec : (o : E.Op) → χ → σ → E.Ans o × σ}
  {again : ε → Bool} {attempts : Int} {f : Program E (Except ε α)}

/-- Attempt number `i` and those after it. -/
def retryFrom (again : ε → Bool) (attempts : Int) (f : Program E (Except ε α)) (i : Int) :
    Program E (Except ε α) := do
  match ← f with
  | .ok a => return .ok a
  | .error err =>
      if again err then
        if attempts ≤ i then return .error err else retryFrom again attempts f (i + 1)
      else return .error err
termination_by (attempts - i).toNat

/-- Complete runs of a program one after another, with their results. -/
inductive Attempts (exec : (o : E.Op) → χ → σ → E.Ans o × σ) (f : Program E α) :
    List α → σ → σ → Prop
  | last {cs : List χ} {r : α} {s s' : σ} (run : f.run exec cs s = (some r, s')) :
      Attempts exec f [r] s s'
  | cons {cs : List χ} {r : α} {rs : List α} {s s₁ s' : σ}
      (run : f.run exec cs s = (some r, s₁)) (rest : Attempts exec f rs s₁ s') :
      Attempts exec f (r :: rs) s s'

variable (exec) in
/-- A run of a sequence of two programs is a run of the first and then, on the
outcomes that it leaves, one of the second. -/
theorem exists_run_bind {β : Type} (p : Program E α) (g : α → Program E β) (cs : List χ) (s : σ) :
    ∃ ds, (p >>= g).run exec cs s =
      match p.run exec cs s with
      | (some a, s') => (g a).run exec ds s'
      | (none, s') => (none, s') := by
  induction p generalizing cs s with
  | ret a => exact ⟨cs, rfl⟩
  | panic => exact ⟨cs, rfl⟩
  | call o k ih => exact ih _ cs.tail _

variable (exec again attempts f) in
/-- An attempt ends the loop, or it failed with an error worth retrying and was not
the last one allowed. -/
theorem exists_run_retryFrom (i : Int) (cs : List χ) (s : σ) :
    ∃ ds, (retryFrom again attempts f i).run exec cs s =
      match f.run exec cs s with
      | (some (.error err), s') =>
          if again err ∧ i < attempts then (retryFrom again attempts f (i + 1)).run exec ds s'
          else (some (.error err), s')
      | end' => end' := by
  rw [retryFrom]
  obtain ⟨ds, hbind⟩ := exists_run_bind exec f _ cs s
  refine ⟨ds, hbind.trans ?_⟩
  cases f.run exec cs s with
  | mk result s' =>
      cases result with
      | none => rfl
      | some result =>
          cases result with
          | ok a => rfl
          | error err =>
              dsimp only
              by_cases hagain : again err
              · by_cases hi : attempts ≤ i
                · have hlt : ¬ (again err ∧ i < attempts) := fun h => absurd h.2 (by omega)
                  rw [if_pos hagain, if_pos hi, if_neg hlt]
                  rfl
                · rw [if_pos hagain, if_neg hi, if_pos ⟨hagain, by omega⟩]
              · rw [if_neg hagain, if_neg fun h => hagain h.1]
                rfl

/-- **A run of the loop is a sequence of attempts:** all but the last one failed
with an error worth retrying, and there are no more of them than were left. -/
theorem attempts_of_retryFrom {i : Int} {cs : List χ} {s s' : σ} {r : Except ε α}
    (h : (retryFrom again attempts f i).run exec cs s = (some r, s')) :
    ∃ rs, Attempts exec f (rs ++ [r]) s s' ∧
      (∀ r' ∈ rs, ∃ err, r' = .error err ∧ again err) ∧ rs.length ≤ (attempts - i).toNat := by
  obtain ⟨ds, hrun⟩ := exists_run_retryFrom exec again attempts f i cs s
  rw [hrun] at h
  cases hf : f.run exec cs s with
  | mk result s₁ =>
      rw [hf] at h
      have hlast : (result, s₁) = (some r, s') → ∃ rs, Attempts exec f (rs ++ [r]) s s' ∧
          (∀ r' ∈ rs, ∃ err, r' = .error err ∧ again err) ∧ rs.length ≤ (attempts - i).toNat :=
        fun h => ⟨[], .last (hf.trans h), by simp, by simp⟩
      split at h
      · rename_i err s₂ heq
        split at h
        · rename_i hagain
          obtain ⟨rs, hrest, hretried, hlength⟩ := attempts_of_retryFrom h
          refine ⟨.error err :: rs, .cons (hf.trans heq) hrest, ?_, ?_⟩
          · intro r' hr'
            rcases List.mem_cons.1 hr' with rfl | hr'
            · exact ⟨err, rfl, hagain.1⟩
            · exact hretried r' hr'
          · rw [List.length_cons]
            omega
        · exact hlast (heq.trans h)
      · exact hlast h
termination_by (attempts - i).toNat

variable (again attempts) in
/-- The loop returns where every run of the program does. -/
theorem run_retryFrom_isSome (hf : ∀ cs s, (f.run exec cs s).1.isSome) (i : Int) (cs : List χ)
    (s : σ) : ((retryFrom again attempts f i).run exec cs s).1.isSome := by
  obtain ⟨ds, hrun⟩ := exists_run_retryFrom exec again attempts f i cs s
  rw [hrun]
  have hsome := hf cs s
  split
  · split
    · exact run_retryFrom_isSome hf (i + 1) ds _
    · rfl
  · exact hsome
termination_by (attempts - i).toNat

/-- The last of some attempts. -/
theorem Attempts.exists_run_last {f : Program E α} {rs : List α} {r : α} {s s' : σ}
    (h : Attempts exec f (rs ++ [r]) s s') : ∃ cs s₁, f.run exec cs s₁ = (some r, s') := by
  generalize hall : rs ++ [r] = all at h
  induction h generalizing rs with
  | @last cs r' s s' run =>
      have hlast := congrArg List.getLast? hall
      rw [List.getLast?_concat, List.getLast?_singleton] at hlast
      obtain rfl := Option.some.inj hlast
      exact ⟨cs, s, run⟩
  | @cons cs r' all s s₁ s' run rest ih =>
      cases rs with
      | nil =>
          obtain rfl : [] = all := (List.cons.inj hall).2
          cases rest
      | cons r₀ rs => exact ih (List.cons.inj hall).2

variable (exec) in
/-- Recording the calls changes neither the result nor the state. -/
theorem run_recording (p : Program E α) (cs : List χ) (w : σ × List (Event E)) :
    (p.run (recording exec) cs w).1 = (p.run exec cs w.1).1 ∧
      (p.run (recording exec) cs w).2.1 = (p.run exec cs w.1).2 := by
  induction p generalizing cs w with
  | ret a => exact ⟨rfl, rfl⟩
  | panic => exact ⟨rfl, rfl⟩
  | call o k ih => exact ih _ cs.tail _

/-- Attempts with their calls recorded are attempts. -/
theorem Attempts.of_recording {f : Program E α} {rs : List α} {w w' : σ × List (Event E)}
    (h : Attempts (recording exec) f rs w w') : Attempts exec f rs w.1 w'.1 := by
  induction h with
  | @last cs r w w' run =>
      obtain ⟨hr, hs⟩ := run_recording exec f cs w
      rw [run] at hr hs
      exact .last (Prod.ext hr.symm hs.symm)
  | @cons cs r rs w w₁ w' run rest ih =>
      obtain ⟨hr, hs⟩ := run_recording exec f cs w
      rw [run] at hr hs
      exact .cons (Prod.ext hr.symm hs.symm) ih

end Loop

/-! ### A sequence of calls -/

section Sequence

variable {Op : Type} {effect : Op → σ → σ} {ops : List Op}

/-- Calls that answer nil or an error. -/
abbrev calls (Op ε : Type) : Interface where
  Op := Op
  Ans _ := Except ε Unit

/-- What can become of a call. -/
inductive CallOutcome (ε : Type)
  | ok
  /-- It fails; `effect` says whether it took effect. -/
  | fails (effect : Bool) (err : ε)
  deriving DecidableEq, Repr

instance : Inhabited (CallOutcome ε) := ⟨.ok⟩

/-- The meaning of calls with these effects. -/
def execCalls (effect : Op → σ → σ) (o : Op) : CallOutcome ε → σ → Except ε Unit × σ
  | .ok, s => (.ok (), effect o s)
  | .fails true err, s => (.error err, effect o s)
  | .fails false err, s => (.error err, s)

/-- The calls in order, up to the first that fails; `wrap` is what becomes of its
error. -/
def sequence (wrap : ε → ε') : List Op → Program (calls Op ε) (Except ε' Unit)
  | [] => return .ok ()
  | o :: ops => do
      match ← (perform (E := calls Op ε) o) with
      | .error err => return .error (wrap err)
      | .ok () => sequence wrap ops

/-- The effects of some calls. -/
def effects (effect : Op → σ → σ) (ops : List Op) (s : σ) : σ := ops.foldl (fun s o => effect o s) s

/-- Doing a call twice is doing it once, and the order of two calls does not
matter. -/
structure Replayable (effect : Op → σ → σ) (ops : List Op) : Prop where
  idem : ∀ o ∈ ops, ∀ s, effect o (effect o s) = effect o s
  comm : ∀ o ∈ ops, ∀ o' ∈ ops, ∀ s, effect o (effect o' s) = effect o' (effect o s)

/-- The rest of a replayable sequence is replayable. -/
theorem Replayable.tail {o : Op} (h : Replayable effect (o :: ops)) : Replayable effect ops where
  idem o' ho' := h.idem o' (List.mem_cons_of_mem _ ho')
  comm o₁ h₁ o₂ h₂ := h.comm o₁ (List.mem_cons_of_mem _ h₁) o₂ (List.mem_cons_of_mem _ h₂)

/-- One of the calls done before all of them. -/
theorem Replayable.effects_mem (h : Replayable effect ops) {o : Op} (ho : o ∈ ops) (s : σ) :
    effects effect ops (effect o s) = effects effect ops s := by
  induction ops generalizing s with
  | nil => cases ho
  | cons o' ops ih =>
      change effects effect ops (effect o' (effect o s)) = effects effect ops (effect o' s)
      rcases List.mem_cons.1 ho with rfl | hmem
      · rw [h.idem _ ho]
      · rw [h.comm _ (List.mem_cons_self ..) _ ho]
        exact ih h.tail hmem _

/-- A prefix of the calls done before all of them. -/
theorem Replayable.effects_take (h : Replayable effect ops) (n : Nat) (s : σ) :
    effects effect ops (effects effect (ops.take n) s) = effects effect ops s := by
  suffices ∀ pre : List Op, (∀ o ∈ pre, o ∈ ops) →
      effects effect ops (effects effect pre s) = effects effect ops s from
    this _ fun o ho => List.mem_of_mem_take ho
  intro pre hpre
  induction pre generalizing s with
  | nil => rfl
  | cons o pre ih =>
      change effects effect ops (effects effect pre (effect o s)) = _
      rw [ih _ fun o' ho' => hpre o' (List.mem_cons_of_mem _ ho')]
      exact h.effects_mem (hpre o (List.mem_cons_self ..)) s

/-- A run of the sequence does a prefix of its calls, and all of them where it
returns nil. -/
theorem run_sequence (wrap : ε → ε') (effect : Op → σ → σ) (ops : List Op)
    (cs : List (CallOutcome ε)) (s : σ) :
    ∃ r n, (sequence wrap ops).run (execCalls effect) cs s =
        (some r, effects effect (ops.take n) s) ∧ (r = .ok () → ops.length ≤ n) := by
  induction ops generalizing cs s with
  | nil => exact ⟨.ok (), 0, rfl, fun _ => Nat.le_refl _⟩
  | cons o ops ih =>
      rw [sequence, perform_bind, run_call]
      cases outcome cs 0 with
      | ok =>
          obtain ⟨r, n, hrest, hok⟩ := ih cs.tail (effect o s)
          exact ⟨r, n + 1, hrest, fun hr => Nat.succ_le_succ (hok hr)⟩
      | fails took err =>
          cases took
          · exact ⟨.error (wrap err), 0, rfl, nofun⟩
          · exact ⟨.error (wrap err), 1, rfl, nofun⟩

/-- Where no call fails, the sequence does all its calls and returns nil. -/
theorem run_sequence_ok (wrap : ε → ε') (effect : Op → σ → σ) (ops : List Op) (s : σ) :
    (sequence wrap ops).run (execCalls (ε := ε) effect) [] s =
      (some (.ok ()), effects effect ops s) := by
  induction ops generalizing s with
  | nil => rfl
  | cons o ops ih => exact ih (effect o s)

/-- **Attempts of which the last returns nil** leave what one undisturbed attempt
would have left. -/
theorem state_of_attempts (h : Replayable effect ops) {wrap : ε → ε'}
    {rs : List (Except ε' Unit)} {s s' : σ}
    (hrs : Attempts (execCalls (ε := ε) effect) (sequence wrap ops) (rs ++ [.ok ()]) s s') :
    s' = effects effect ops s := by
  generalize hall : rs ++ [.ok ()] = all at hrs
  induction hrs generalizing rs with
  | @last cs r s s' hrun =>
      obtain ⟨r', n, hrun', hok⟩ := run_sequence wrap effect ops cs s
      obtain ⟨hr, hs⟩ := Prod.mk.inj (hrun'.symm.trans hrun)
      have hlast := congrArg List.getLast? hall
      rw [List.getLast?_concat, List.getLast?_singleton] at hlast
      have hnil : r' = .ok () := (Option.some.inj hr).trans (Option.some.inj hlast).symm
      rw [← hs, List.take_of_length_le (hok hnil)]
  | @cons cs r all s s₁ s' hrun rest ih =>
      obtain ⟨r', n, hrun', -⟩ := run_sequence wrap effect ops cs s
      have hs₁ := (Prod.mk.inj (hrun'.symm.trans hrun)).2
      cases rs with
      | nil =>
          -- the last attempt is not followed by another
          obtain rfl : [] = all := (List.cons.inj hall).2
          cases rest
      | cons r rs =>
          rw [ih (List.cons.inj hall).2, ← hs₁]
          exact h.effects_take n s

end Sequence

end NearRtRic.Effect
