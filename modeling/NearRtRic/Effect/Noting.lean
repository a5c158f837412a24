/-
# Notes of some calls

`noting note exec` is the meaning `exec` that also writes down the calls that `note` has
something to say of, with their answers.  It changes nothing that a program does
(`run_noting`), and where the calls of a program are worth no note, what holds of it under
`exec` holds of it still (`Calls.always_noting`).

Nothing here names the repository.
-/

import NearRtRic.Effect.Program

namespace NearRtRic.Effect.Program

variable {E : Interface} {α β σ χ ν : Type} [Inhabited χ]
  {exec : (o : E.Op) → χ → σ → E.Ans o × σ} {ok : χ → Prop} {P : σ → Prop}

/-- The meaning `exec`, with the notes so far as a part of the state. -/
def noting (note : (o : E.Op) → E.Ans o → Option ν) (exec : (o : E.Op) → χ → σ → E.Ans o × σ)
    (o : E.Op) (c : χ) (w : σ × List ν) : E.Ans o × (σ × List ν) :=
  ((exec o c w.1).1, ((exec o c w.1).2, w.2 ++ (note o (exec o c w.1).1).toList))

variable {note : (o : E.Op) → E.Ans o → Option ν}

/-- Taking notes changes neither the result nor the state. -/
theorem run_noting (p : Program E α) (cs : List χ) (w : σ × List ν) :
    (p.run (noting note exec) cs w).1 = (p.run exec cs w.1).1 ∧
      (p.run (noting note exec) cs w).2.1 = (p.run exec cs w.1).2 := by
  induction p generalizing cs w with
  | ret a => exact ⟨rfl, rfl⟩
  | panic => exact ⟨rfl, rfl⟩
  | call o k ih => exact ih _ cs.tail _

omit [Inhabited χ] in
/-- What holds of the state without notes. -/
theorem always_noting {p : Program E α} {Q : α → σ → Prop} {s : σ} {ns : List ν}
    (h : p.Always exec ok P Q s) :
    p.Always (noting note exec) ok (fun w => P w.1) (fun a w => Q a w.1) (s, ns) := by
  induction p generalizing s ns with
  | ret a => exact h
  | panic => exact h
  | call o k ih => exact fun c hc => ih _ (h c hc)

omit [Inhabited χ] in
/-- Calls without a note. -/
theorem Calls.always_noting {good : E.Op → Prop} (hgood : ∀ o, good o → ∀ r, note o r = none)
    {p : Program E α} (hp : p.Calls good) {Q : α → σ → Prop} {s : σ} {ns : List ν}
    (h : p.Always exec ok P Q s) :
    p.Always (noting note exec) ok (fun w => P w.1 ∧ w.2 = ns) (fun a w => Q a w.1 ∧ w.2 = ns)
      (s, ns) := by
  refine hp.always Prod.fst (fun o ho w hw c hc => ⟨c, hc, rfl, rfl, ?_⟩) rfl h
  rw [noting, hgood o ho, Option.toList_none, List.append_nil]
  exact hw

omit [Inhabited χ] in
/-- Two specifications at once. -/
theorem always_and {p : Program E α} {P' : σ → Prop} {Q Q' : α → σ → Prop} {s : σ}
    (h : p.Always exec ok P Q s) (h' : p.Always exec ok P' Q' s) :
    p.Always exec ok (fun s => P s ∧ P' s) (fun a s => Q a s ∧ Q' a s) s := by
  induction p generalizing s with
  | ret a => exact ⟨h, h'⟩
  | panic => exact ⟨h, h'⟩
  | call o k ih => exact fun c hc => ih _ (h c hc) (h' c hc)

omit [Inhabited χ] in
/-- An invariant of the calls that a program makes. -/
theorem Calls.always_invariant {good : E.Op → Prop} {I : σ → Prop} {p : Program E α}
    (hp : p.Calls good) (hI : ∀ o, good o → ∀ c, ok c → ∀ s, I s → I (exec o c s).2) {s : σ}
    (hs : I s) : p.Always exec ok I (fun _ => I) s := by
  induction p generalizing s with
  | ret a => exact hs
  | panic => exact hs
  | call o k ih => exact fun c hc => ih _ (hp.2 _) (hI o hp.1 c hc s hs)

end NearRtRic.Effect.Program
