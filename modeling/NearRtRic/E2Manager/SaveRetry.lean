/-
# `SaveNodeb` and its retries

`rNibWriter.SaveNodeb` makes up to three calls of the shared data layer, which are no
transaction: it sets the pairs, takes the RAN out of the unknown nodes, and adds it
to the nodes of its type.  `RNibDataService.SaveNodeb` of
`services/rnib_data_service.go` tries it again from its first call while the error is
a connection error.  A call that failed may have been done all the same.

The three effects are idempotent and commute (`replayable_saveNodebCalls`): a RAN that
leaves the unknown nodes joins the nodes of another type.  So the retries fall under
`Effect.Retry`, and a save that succeeds in the end is a save that never failed
(`saveNodeb_retried`).
-/

import NearRtRic.E2Manager.Rnib
import NearRtRic.Effect.Retry

namespace NearRtRic.E2Manager

open Effect Program

/-- The calls of `common.ISdlInstance` that `SaveNodeb` makes. -/
inductive SdlCall
  | set (pairs : Pairs)
  | removeMember (group : NodeType) (member : NbIdentity)
  | addMember (group : NodeType) (member : NbIdentity)

/-- What the calls do to the store. -/
def SdlCall.effect : SdlCall → Sdl → Sdl
  | .set pairs, s => s.set pairs
  | .removeMember group member, s => s.removeMember group member
  | .addMember group member, s => s.addMember group member

/-- The errors of the shared data layer: a `*net.OpError`, or any other. -/
inductive SdlError
  | netOpError
  | other
  deriving DecidableEq, Repr

/-- The errors of the writer: `common.ValidationError`, and `common.InternalError`
around an error of the shared data layer. -/
inductive RNibError
  | validation
  | internal (err : SdlError)
  deriving DecidableEq, Repr

/-- The interface of the writer. -/
abbrev sdl : Interface := calls SdlCall SdlError

/-- The meaning of the calls. -/
abbrev SdlCall.exec : (o : SdlCall) → CallOutcome SdlError → Sdl → Except SdlError Unit × Sdl :=
  execCalls SdlCall.effect

namespace SdlInstance

def set (pairs : Pairs) : Program sdl (Except SdlError Unit) := perform (E := sdl) (.set pairs)

def removeMember (group : NodeType) (member : NbIdentity) : Program sdl (Except SdlError Unit) :=
  perform (E := sdl) (.removeMember group member)

def addMember (group : NodeType) (member : NbIdentity) : Program sdl (Except SdlError Unit) :=
  perform (E := sdl) (.addMember group member)

end SdlInstance

namespace RNibWriterInstance

/-- The last call of `SaveNodeb`. -/
def addToType (entity : NodebInfo) (nbIdentity : NbIdentity) :
    Program sdl (Except RNibError Unit) := do
  match ← SdlInstance.addMember entity.nodeType nbIdentity with
  | .error err => return .error (.internal err)
  | .ok () => return .ok ()

/-- `rNibWriterInstance.SaveNodeb`. -/
def saveNodeb (nbIdentity : NbIdentity) (entity : NodebInfo) :
    Program sdl (Except RNibError Unit) :=
  match RNibWriter.saveNodebPairs nbIdentity entity with
  | .error _ => return .error .validation
  | .ok pairs => do
      match ← SdlInstance.set pairs with
      | .error err => return .error (.internal err)
      | .ok () =>
          let ranNameIdentity : NbIdentity := { inventoryName := nbIdentity.inventoryName }
          if (RNibWriter.isNotEmpty nbIdentity).isSome then
            match ← SdlInstance.removeMember .UNKNOWN ranNameIdentity with
            | .error err => return .error (.internal err)
            | .ok () => addToType entity nbIdentity
          else addToType entity ranNameIdentity

end RNibWriterInstance

namespace RNibDataService

/-- `isRnibConnectionError`. -/
def isRnibConnectionError : RNibError → Bool
  | .internal .netOpError => true
  | _ => false

/-- `retry`: the first attempt is number one.  The sleep between two attempts is left
out. -/
def retry (maxAttempts : Int) (f : Program sdl (Except RNibError Unit)) :
    Program sdl (Except RNibError Unit) := retryFrom isRnibConnectionError maxAttempts f 1

/-- `SaveNodeb`, in the calls of the shared data layer. -/
def saveNodebRetrying (maxAttempts : Int) (nbIdentity : NbIdentity) (nb : NodebInfo) :
    Program sdl (Except RNibError Unit) :=
  retry maxAttempts (RNibWriterInstance.saveNodeb nbIdentity nb)

end RNibDataService

/-! ### The calls of one save -/

/-- The calls of a save whose pairs can be built. -/
def saveNodebCalls (nbIdentity : NbIdentity) (entity : NodebInfo) (pairs : Pairs) : List SdlCall :=
  let ranNameIdentity : NbIdentity := { inventoryName := nbIdentity.inventoryName }
  if (RNibWriter.isNotEmpty nbIdentity).isSome then
    [.set pairs, .removeMember .UNKNOWN ranNameIdentity, .addMember entity.nodeType nbIdentity]
  else [.set pairs, .addMember entity.nodeType ranNameIdentity]

/-- `addToType` is one call: the member is added to the set of its node type. -/
theorem addToType_eq_sequence (entity : NodebInfo) (nbIdentity : NbIdentity) :
    RNibWriterInstance.addToType entity nbIdentity =
      sequence RNibError.internal [.addMember entity.nodeType nbIdentity] := by
  refine congrArg (Program.call (E := sdl) (.addMember entity.nodeType nbIdentity)) ?_
  funext answer
  cases answer <;> rfl

/-- A save is the sequence of its calls. -/
theorem saveNodeb_eq_sequence {nbIdentity : NbIdentity} {entity : NodebInfo} {pairs : Pairs}
    (h : RNibWriter.saveNodebPairs nbIdentity entity = .ok pairs) :
    RNibWriterInstance.saveNodeb nbIdentity entity =
      sequence RNibError.internal (saveNodebCalls nbIdentity entity pairs) := by
  unfold RNibWriterInstance.saveNodeb saveNodebCalls
  rw [h]
  by_cases hid : (RNibWriter.isNotEmpty nbIdentity).isSome
  · simp only [if_pos hid]
    refine congrArg (Program.call (E := sdl) (.set pairs)) (funext fun answer => ?_)
    cases answer with
    | error err => rfl
    | ok u =>
        refine congrArg (Program.call (E := sdl) (.removeMember .UNKNOWN _)) ?_
        funext answer
        cases answer with
        | error err => rfl
        | ok u => exact addToType_eq_sequence entity nbIdentity
  · simp only [if_neg hid]
    refine congrArg (Program.call (E := sdl) (.set pairs)) (funext fun answer => ?_)
    cases answer with
    | error err => rfl
    | ok u => exact addToType_eq_sequence entity _

/-- A save that is accepted as one of an identified RAN knows its type. -/
theorem nodeType_of_saveNodebPairs {nbIdentity : NbIdentity} {entity : NodebInfo} {pairs : Pairs}
    (h : RNibWriter.saveNodebPairs nbIdentity entity = .ok pairs)
    (hid : (RNibWriter.isNotEmpty nbIdentity).isSome) : entity.nodeType ≠ .UNKNOWN := by
  intro htype
  unfold RNibWriter.saveNodebPairs at h
  rw [if_pos ⟨hid, htype⟩] at h
  cases h

/-! ### Replaying the calls -/

/-- A value that some pair sets does not depend on what was stored before. -/
theorem Sdl.set_value_congr {pairs : Pairs} {k : Key} (h : ∃ p ∈ pairs, p.1 = k) (s s' : Sdl) :
    (s.set pairs).value k = (s'.set pairs).value k := by
  induction pairs generalizing s s' with
  | nil => simp at h
  | cons p pairs ih =>
      by_cases htail : ∃ q ∈ pairs, q.1 = k
      · exact ih htail { s with value := Function.update s.value p.1 (some p.2) }
          { s' with value := Function.update s'.value p.1 (some p.2) }
      · have hne : ∀ q ∈ pairs, q.1 ≠ k := fun q hq hk => htail ⟨q, hq, hk⟩
        have hp : p.1 = k := by
          obtain ⟨q, hq, hk⟩ := h
          rcases List.mem_cons.1 hq with rfl | hq
          · exact hk
          · exact absurd hk (hne q hq)
        subst hp
        have hstep : ∀ t : Sdl, (t.set (p :: pairs)).value p.1 = some p.2 := fun t =>
          (Sdl.set_value_of_ne { t with value := Function.update t.value p.1 (some p.2) } hne).trans
            (Function.update_self ..)
        rw [hstep s, hstep s']

/-- Setting pairs twice is setting them once. -/
theorem Sdl.set_set (s : Sdl) (pairs : Pairs) : (s.set pairs).set pairs = s.set pairs := by
  have hvalue : ((s.set pairs).set pairs).value = (s.set pairs).value := by
    funext k
    by_cases h : ∃ p ∈ pairs, p.1 = k
    · exact set_value_congr h _ _
    · exact set_value_of_ne _ fun p hp hk => h ⟨p, hp, hk⟩
  have hmembers : ((s.set pairs).set pairs).members = (s.set pairs).members := rfl
  cases hs : (s.set pairs).set pairs
  cases hs' : s.set pairs
  simp_all

/-- To remove a member twice is to remove it once. -/
theorem Sdl.removeMember_removeMember (s : Sdl) (t : NodeType) (id : NbIdentity) :
    (s.removeMember t id).removeMember t id = s.removeMember t id := by
  simp [removeMember]

/-- To add a member twice is to add it once. -/
theorem Sdl.addMember_addMember (s : Sdl) (t : NodeType) (id : NbIdentity) :
    (s.addMember t id).addMember t id = s.addMember t id := by
  simp [addMember]

/-- The members of two types are independent. -/
theorem Sdl.addMember_removeMember (s : Sdl) {t t' : NodeType} (h : t ≠ t') (id id' : NbIdentity) :
    (s.removeMember t' id').addMember t id = (s.addMember t id).removeMember t' id' := by
  simp [addMember, removeMember, h, h.symm, Function.update_comm h]

/-- Every call has the same effect twice as once. -/
theorem SdlCall.effect_effect (o : SdlCall) (s : Sdl) : o.effect (o.effect s) = o.effect s := by
  cases o with
  | set pairs => exact s.set_set pairs
  | removeMember group member => exact s.removeMember_removeMember group member
  | addMember group member => exact s.addMember_addMember group member

/-- **The calls of a save can be replayed.** -/
theorem replayable_saveNodebCalls {nbIdentity : NbIdentity} {entity : NodebInfo} {pairs : Pairs}
    (h : RNibWriter.saveNodebPairs nbIdentity entity = .ok pairs) :
    Replayable SdlCall.effect (saveNodebCalls nbIdentity entity pairs) := by
  refine ⟨fun o _ s => o.effect_effect s, ?_⟩
  unfold saveNodebCalls
  by_cases hid : (RNibWriter.isNotEmpty nbIdentity).isSome
  · have hcomm := fun s : Sdl => s.addMember_removeMember (nodeType_of_saveNodebPairs h hid)
      nbIdentity { inventoryName := nbIdentity.inventoryName }
    simp only [if_pos hid, List.mem_cons, List.not_mem_nil, or_false]
    rintro o (rfl | rfl | rfl) o' (rfl | rfl | rfl) s
    exacts [rfl, rfl, rfl, rfl, rfl, (hcomm s).symm, rfl, hcomm s, rfl]
  · simp only [if_neg hid, List.mem_cons, List.not_mem_nil, or_false]
    rintro o (rfl | rfl) o' (rfl | rfl) s
    exacts [rfl, rfl, rfl, rfl]

/-- What the calls of a save leave is what the writer's equation says. -/
theorem effects_saveNodebCalls {nbIdentity : NbIdentity} {entity : NodebInfo} {pairs : Pairs}
    (h : RNibWriter.saveNodebPairs nbIdentity entity = .ok pairs) (s : Sdl) :
    RNibWriter.saveNodeb nbIdentity entity s =
      .ok (effects SdlCall.effect (saveNodebCalls nbIdentity entity pairs) s) := by
  unfold RNibWriter.saveNodeb RNibWriter.saveNodebMembers saveNodebCalls
  rw [h]
  cases RNibWriter.isNotEmpty nbIdentity <;> rfl

/-- **A save that no call disturbs** writes what `RNibWriter.saveNodeb` says. -/
theorem run_saveNodeb {nbIdentity : NbIdentity} {entity : NodebInfo} {s s' : Sdl} :
    (RNibWriterInstance.saveNodeb nbIdentity entity).run SdlCall.exec [] s =
      (some (.ok ()), s') ↔ RNibWriter.saveNodeb nbIdentity entity s = .ok s' := by
  cases h : RNibWriter.saveNodebPairs nbIdentity entity with
  | error e =>
      simp [RNibWriterInstance.saveNodeb, RNibWriter.saveNodeb, h, bind, Except.bind]
  | ok pairs =>
      rw [saveNodeb_eq_sequence h, run_sequence_ok, effects_saveNodebCalls h]
      simp

/-! ### The retried save -/

/-- `SaveNodeb` returns, whatever its calls answer. -/
theorem run_saveNodeb_isSome (nbIdentity : NbIdentity) (entity : NodebInfo)
    (cs : List (CallOutcome SdlError)) (s : Sdl) :
    ((RNibWriterInstance.saveNodeb nbIdentity entity).run SdlCall.exec cs s).1.isSome := by
  cases h : RNibWriter.saveNodebPairs nbIdentity entity with
  | error e =>
      unfold RNibWriterInstance.saveNodeb
      rw [h]
      rfl
  | ok pairs =>
      obtain ⟨r, n, hrun, -⟩ := run_sequence RNibError.internal SdlCall.effect
        (saveNodebCalls nbIdentity entity pairs) cs s
      rw [saveNodeb_eq_sequence h, hrun]
      rfl

/-- Attempts of which the last one returns nil leave what one undisturbed save
leaves. -/
theorem state_of_saveNodeb_attempts {nbIdentity : NbIdentity} {entity : NodebInfo}
    {rs : List (Except RNibError Unit)} {s s' : Sdl}
    (h : Attempts SdlCall.exec (RNibWriterInstance.saveNodeb nbIdentity entity)
      (rs ++ [.ok ()]) s s') : RNibWriter.saveNodeb nbIdentity entity s = .ok s' := by
  cases hpairs : RNibWriter.saveNodebPairs nbIdentity entity with
  | error e =>
      obtain ⟨cs, s₁, hrun⟩ := h.exists_run_last
      unfold RNibWriterInstance.saveNodeb at hrun
      rw [hpairs] at hrun
      cases hrun
  | ok pairs =>
      rw [saveNodeb_eq_sequence hpairs] at h
      rw [effects_saveNodebCalls hpairs, state_of_attempts (replayable_saveNodebCalls hpairs) h]

/-- **Retried saves are idempotent.**  Whatever becomes of the calls: where the retried
save returns nil, the store is what one undisturbed save makes of the store it started
from.  The calls that were made are those of some attempts; each attempt but the last
failed with a connection error, and there are no more than `maxAttempts` of them, and
one where that is less. -/
theorem saveNodeb_retried (maxAttempts : Int) (nbIdentity : NbIdentity) (nb : NodebInfo)
    (cs : List (CallOutcome SdlError)) (s : Sdl) :
    ∃ r s' tr, (RNibDataService.saveNodebRetrying maxAttempts nbIdentity nb).run
        (recording SdlCall.exec) cs (s, []) = (some r, (s', tr)) ∧
      (r = .ok () → (RNibWriterInstance.saveNodeb nbIdentity nb).run SdlCall.exec [] s =
        (some (.ok ()), s')) ∧
      ∃ retried, Attempts (recording SdlCall.exec) (RNibWriterInstance.saveNodeb nbIdentity nb)
          (retried ++ [r]) (s, []) (s', tr) ∧
        (∀ r' ∈ retried, ∃ err, r' = .error err ∧ RNibDataService.isRnibConnectionError err) ∧
        ((retried ++ [r]).length : Int) ≤ max 1 maxAttempts := by
  have hreturns : ∀ cs w, ((RNibWriterInstance.saveNodeb nbIdentity nb).run
      (recording SdlCall.exec) cs w).1.isSome := by
    intro cs w
    rw [(run_recording SdlCall.exec _ cs w).1]
    exact run_saveNodeb_isSome nbIdentity nb cs w.1
  obtain ⟨r, hr⟩ := Option.isSome_iff_exists.1 (run_retryFrom_isSome
    RNibDataService.isRnibConnectionError maxAttempts hreturns 1 cs (s, []))
  have hrun := Prod.ext (y := (some r, _)) hr rfl
  obtain ⟨retried, hattempts, hretried, hlength⟩ := attempts_of_retryFrom hrun
  refine ⟨r, _, _, hrun, ?_, retried, hattempts, hretried, ?_⟩
  · rintro rfl
    exact run_saveNodeb.2 (state_of_saveNodeb_attempts hattempts.of_recording)
  · rw [List.length_append, List.length_singleton]
    omega

end NearRtRic.E2Manager
