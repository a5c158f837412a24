/-
# The database and the routing manager

Two hold which RAN is served by which E2 termination: the database, in the lists of the
instances, and the routing manager, which is told over HTTP.  It is not part of the
repository, and all that is used of it here is what it was asked for and whether it agreed
(`Told`).

`Kept w w'` says that between two states the lists changed as the routing manager was asked
to change its routes, where an association counts if it agreed to it, and a request to part
counts in any case: the code goes on when such a request fails.  Every event keeps to it
(`Event.tracks`).  A delete-all does not.  It asks for all RANs to be parted first, and clears the
lists two phases later, with whatever was associated in between.

`agreement_of_reachable` is what follows for both.  A RAN in the list of an instance is
routed to it, unless a delete-all stands between the two phases; and where a route is left
over, a request to part it has failed, or there was a delete-all.
-/

import NearRtRic.E2Manager.FailedAssociation
import NearRtRic.E2Manager.RedButton
import NearRtRic.Effect.Noting
import NearRtRic.Trace.Since

namespace NearRtRic.E2Manager

open Effect Trace

/-- The requests of `RoutingManagerClient`. -/
inductive RoutingRequest
  | addE2TInstance (e2tAddress : String)
  | associateRanToE2TInstance (e2tAddress ranName : String)
  | dissociateRanE2TInstance (e2tAddress ranName : String)
  | dissociateAllRans (e2tAddresses : List String)
  | deleteE2TInstance (e2tAddress : String) (ransToBeDissociated : List String)
  deriving DecidableEq, Repr

/-- The request takes the RAN from the instance. -/
def RoutingRequest.Parts (a r : String) : RoutingRequest → Prop
  | dissociateRanE2TInstance a' r' => a' = a ∧ r' = r
  | dissociateAllRans as => a ∈ as
  | deleteE2TInstance a' rs => a' = a ∧ r ∈ rs
  | _ => False

/-- A request that was made, and whether the routing manager agreed. -/
structure Told where
  request : RoutingRequest
  agreed : Bool
  deriving DecidableEq, Repr

namespace Told

/-- The RAN is given to the instance. -/
def Joins (a r : String) (t : Told) : Prop := t = ⟨.associateRanToE2TInstance a r, true⟩

/-- The RAN is to be taken from the instance. -/
def Asks (a r : String) (t : Told) : Prop := t.request.Parts a r

/-- The RAN is taken from the instance. -/
def Parts (a r : String) (t : Told) : Prop := t.Asks a r ∧ t.agreed = true

end Told

/-- The routing manager routes the RAN to the instance. -/
def Routed (ts : List Told) (a r : String) : Prop := Since (Told.Joins a r) (Told.Parts a r) ts

/-- The list of the instance has the RAN. -/
def Sdl.Serves (s : Sdl) (a r : String) : Prop :=
  ∃ i, s.e2tInstance a = some i ∧ r ∈ i.associatedRanList

/-- What the routing manager is told by a call. -/
def told : (o : Call) → o.Answer → Option Told
  | .rmAddE2TInstance a, x => some ⟨.addE2TInstance a, x.isOk⟩
  | .rmAssociateRanToE2TInstance a r, x => some ⟨.associateRanToE2TInstance a r, x.isOk⟩
  | .rmDissociateRanE2TInstance a r, x => some ⟨.dissociateRanE2TInstance a r, x.isOk⟩
  | .rmDissociateAllRans as, x => some ⟨.dissociateAllRans as, x.isOk⟩
  | .rmDeleteE2TInstance a rs, x => some ⟨.deleteE2TInstance a rs, x.isOk⟩
  | _, _ => none

/-- The meaning of the calls, with what the routing manager was told. -/
abbrev telling : (o : Call) → Outcome → Sdl × List Told → o.Answer × (Sdl × List Told) :=
  @Program.noting e2mgr Sdl Outcome Told told exec

/-! ### Lists that follow the requests -/

/-- The lists changed as the routing manager was asked to change its routes. -/
def Kept (w w' : Sdl × List Told) : Prop :=
  ∃ ts, w'.2 = w.2 ++ ts ∧ ∀ a r, w'.1.Serves a r ↔
    Since (Told.Joins a r) (Told.Asks a r) ts ∨ w.1.Serves a r ∧ ∀ t ∈ ts, ¬ t.Asks a r

namespace Kept

variable {w w' w'' : Sdl × List Told} {s s' : Sdl} {ts : List Told}

/-- Nothing is told, and the lists are those that they were. -/
theorem silent (h : ∀ a r, s'.Serves a r ↔ s.Serves a r) : Kept (s, ts) (s', ts) :=
  ⟨[], (List.append_nil ts).symm, fun a r => (h a r).trans (by simp [not_since_nil])⟩

/-- Nothing told and nothing changed is in step. -/
theorem refl : Kept w w := silent fun _ _ => Iff.rfl

/-- In step from one state to the next and from there to a third: the requests add up, the later
one deciding. -/
theorem trans (h : Kept w w') (h' : Kept w' w'') : Kept w w'' := by
  obtain ⟨ts, hts, hserves⟩ := h
  obtain ⟨ts', hts', hserves'⟩ := h'
  refine ⟨ts ++ ts', by rw [hts', hts, List.append_assoc], fun a r => ?_⟩
  rw [hserves', hserves, since_append]
  simp only [List.mem_append]
  constructor
  · rintro (hsince | ⟨hsince | ⟨hserved, hnot⟩, hnot'⟩)
    · exact .inl (.inl hsince)
    · exact .inl (.inr ⟨hsince, hnot'⟩)
    · exact .inr ⟨hserved, fun t ht => ht.elim (hnot t) (hnot' t)⟩
  · rintro ((hsince | ⟨hsince, hnot'⟩) | ⟨hserved, hnot⟩)
    · exact .inl hsince
    · exact .inr ⟨.inl hsince, hnot'⟩
    · exact .inr ⟨.inr ⟨hserved, fun t ht => hnot t (.inl ht)⟩, fun t ht => hnot t (.inr ht)⟩

/-- One request. -/
theorem one {t : Told}
    (h : ∀ a r, s'.Serves a r ↔ t.Joins a r ∨ s.Serves a r ∧ ¬ t.Asks a r) :
    Kept (s, ts) (s', ts ++ [t]) := by
  refine ⟨[t], rfl, fun a r => (h a r).trans ?_⟩
  rw [since_singleton]
  simp

end Kept

/-! ### Calls that tell nothing -/

/-- A call that is no request to the routing manager. -/
def Call.Untold : Call → Prop
  | rmAddE2TInstance _ | rmAssociateRanToE2TInstance _ _ | rmDissociateRanE2TInstance _ _
  | rmDissociateAllRans _ | rmDeleteE2TInstance _ _ => False
  | _ => True

/-- Nor does it write an instance. -/
def Call.Aside : Call → Prop
  | saveE2TInstance _ | removeE2TInstance _ => False
  | o => o.Untold

/-- A call that is no request tells the routing manager nothing. -/
theorem told_untold {o : Call} (ho : o.Untold) (r : o.Answer) : told o r = none := by
  cases o <;> first | rfl | cases ho

/-- A call that is neither a request nor a write of an instance is no request. -/
theorem Call.Aside.untold {o : Call} (ho : o.Aside) : o.Untold := by
  cases o <;> trivial

/-- A call that does not write an instance leaves the instances. -/
theorem exec_aside {o : Call} (ho : o.Aside) (c : Outcome) (s : Sdl) :
    (exec o c s).2.e2tInstance = s.e2tInstance := by
  have hwrite : ∀ (write : Sdl → Except Err Sdl),
      (∀ s', write s = .ok s' → s'.e2tInstance = s.e2tInstance) →
        (storeWrite write c s).2.e2tInstance = s.e2tInstance := by
    intro write h
    unfold storeWrite
    cases hw : write s with
    | error e => rfl
    | ok s' =>
        have hs' := h s' hw
        cases c.store <;> first | exact hs' | rfl
  cases o with
  | saveE2TInstance i => cases ho
  | removeE2TInstance a => cases ho
  | getNodeb r => exact congrArg Sdl.e2tInstance (storeRead_snd ..)
  | getListNodebIds => exact congrArg Sdl.e2tInstance (storeRead_snd ..)
  | getE2TInstance a => exact congrArg Sdl.e2tInstance (storeRead_snd ..)
  | getE2TInstances as => exact congrArg Sdl.e2tInstance (storeRead_snd ..)
  | getE2TAddresses => exact congrArg Sdl.e2tInstance (storeRead_snd ..)
  | saveNodeb id nb => exact hwrite _ fun s' h => (saveNodeb_ok h).2.2.1
  | updateNodebInfo nb =>
      refine hwrite _ fun s' h => ?_
      obtain ⟨-, rfl⟩ := updateNodebInfo_ok h
      exact Sdl.e2tInstance_putNodeb s nb
  | saveE2TAddresses as =>
      refine hwrite _ fun s' h => ?_
      rw [saveE2TAddresses_eq] at h
      obtain rfl := Except.ok.inj h
      simp
  | _ => rfl

/-! ### Programs that keep to it -/

/-- At the end of the program the lists have followed the requests. -/
abbrev Tracks {α : Type} (p : Prog α) (w : Sdl × List Told) : Prop :=
  p.Always telling (Admits true) (Kept w) (fun _ => Kept w) w

section Rules

variable {α β : Type} {p : Prog α} {f : α → Prog β} {w : Sdl × List Told} {s : Sdl}
  {ts : List Told}

/-- A program that returns at once stays in step. -/
theorem tracks_ret (a : α) : Tracks (pure a : Prog α) w := Kept.refl

/-- The rule of sequencing, where the second program may use what is known of the first. -/
theorem tracks_bind (hp : Tracks p w) {R : α → Sdl → Prop}
    (h : p.Always exec (Admits true) (fun _ => True) R w.1)
    (hf : ∀ a w', R a w'.1 → Tracks (f a) w') : Tracks (p >>= f) w := by
  refine (Program.always_bind ..).2 ?_
  refine Program.always_imp (Program.always_and hp (Program.always_noting h)) (fun _ h => h.1) ?_
  rintro a w' ⟨hkept, hR⟩
  exact Program.always_imp (hf a w' hR) (fun _ h => hkept.trans h) fun _ _ h => hkept.trans h

/-- The routing manager is not called, and the lists stay. -/
theorem tracks_untold (hp : p.Calls Call.Untold)
    (h : Leaves true (fun s' => ∀ a r, s'.Serves a r ↔ s.Serves a r) p s) :
    Tracks p (s, ts) := by
  refine Program.always_imp (hp.always_noting (fun _ => told_untold) h) ?_ ?_
  · rintro ⟨s', ts'⟩ ⟨hserves, rfl⟩
    exact .silent hserves
  · rintro a ⟨s', ts'⟩ ⟨hserves, rfl⟩
    exact .silent hserves

/-- Which RANs are served is read off the instances alone. -/
theorem serves_congr {s' : Sdl} (h : s'.e2tInstance = s.e2tInstance) (a r : String) :
    s'.Serves a r ↔ s.Serves a r := by
  rw [Sdl.Serves, h, Sdl.Serves]

/-- A program that makes no requests and writes no instances makes no requests. -/
theorem calls_untold (hp : p.Calls Call.Aside) : p.Calls Call.Untold := by
  induction p with
  | ret a => trivial
  | panic => trivial
  | call o k ih => exact ⟨hp.1.untold, fun r => ih r (hp.2 r)⟩

/-- Calls that write no instance. -/
theorem tracks_aside (hp : p.Calls Call.Aside) : Tracks p w := by
  refine tracks_untold (calls_untold hp) ?_
  refine Leaves.mono (I := fun s' => s'.e2tInstance = w.1.e2tInstance) ?_ fun s' hs' =>
    serves_congr hs'
  exact hp.always_invariant (fun o ho c _ s hs => (exec_aside ho c s).trans hs) rfl

/-- Calls that tell nothing, first: one answer is possible. -/
theorem always_untold_bind (hp : p.Calls Call.Untold) {P : Sdl × List Told → Prop}
    {Q : β → Sdl × List Told → Prop} {x : α} {s' : Sdl}
    (h : ∀ R : α → Sdl → Prop, p.Always exec (Admits true) (fun _ => False) R s ↔ R x s')
    (hf : (f x).Always telling (Admits true) P Q (s', ts)) :
    (p >>= f).Always telling (Admits true) P Q (s, ts) := by
  have hexec := (h fun a s => a = x ∧ s = s').2 ⟨rfl, rfl⟩
  refine (Program.always_bind ..).2 ?_
  refine Program.always_imp (hp.always_noting (fun _ => told_untold) hexec)
    (fun _ h => h.1.elim) ?_
  rintro a ⟨s', ts'⟩ ⟨⟨rfl, rfl⟩, rfl⟩
  exact hf

/-- A request to the routing manager. -/
theorem always_request {o : Call} {Q : o.Answer → Sdl × List Told → Prop}
    {P : Sdl × List Told → Prop} (answerOf : Bool → o.Answer) (request : RoutingRequest)
    (hexec : ∀ c, exec o c s = (answerOf c.rm, s))
    (htold : ∀ up, told o (answerOf up) = some ⟨request, up⟩)
    (hQ : ∀ up, Q (answerOf up) (s, ts ++ [⟨request, up⟩])) :
    (call o).Always telling (Admits true) P Q (s, ts) := by
  intro c _
  have htelling : telling o c (s, ts) = (answerOf c.rm, (s, ts ++ [⟨request, c.rm⟩])) := by
    rw [telling, Program.noting]
    dsimp only
    rw [hexec, htold]
    rfl
  rw [htelling]
  exact hQ c.rm

/-- A single call is all that its program makes. -/
theorem calls_call {good : Call → Prop} {o : Call} (h : good o) : (call o).Calls good :=
  ⟨h, fun _ => trivial⟩

end Rules

variable {s : Sdl} {ts : List Told}

/-! ### Lists -/

/-- Which RANs are served after the list of one instance was changed. -/
theorem Sdl.WellKeyed.serves_updateRans (hs : s.WellKeyed) (a : String)
    (f : List String → List String) (a' r : String) :
    (s.updateRans a f).Serves a' r ↔
      (∃ i, s.e2tInstance a' = some i ∧
        r ∈ if a' = a then f i.associatedRanList else i.associatedRanList) := by
  unfold Sdl.Serves
  rw [hs.e2tInstance_updateRans, Function.update_apply]
  split
  · rename_i heq
    subst heq
    constructor
    · rintro ⟨i, hi, hr⟩
      obtain ⟨i₀, hi₀, rfl⟩ := Option.map_eq_some_iff.1 hi
      exact ⟨i₀, hi₀, hr⟩
    · rintro ⟨i, hi, hr⟩
      exact ⟨_, Option.map_eq_some_iff.2 ⟨i, hi, rfl⟩, hr⟩
  · exact Iff.rfl

/-- A RAN is added to a stored instance. -/
theorem Sdl.WellKeyed.serves_append (hs : s.WellKeyed) {a : String}
    (ha : (s.e2tInstance a).isSome) (r a' r' : String) :
    (s.updateRans a (· ++ [r])).Serves a' r' ↔ (a = a' ∧ r = r') ∨ s.Serves a' r' := by
  rw [hs.serves_updateRans]
  constructor
  · rintro ⟨i, hi, hr⟩
    split at hr
    · rename_i heq
      rcases List.mem_append.1 hr with hr | hr
      · exact .inr ⟨i, hi, hr⟩
      · exact .inl ⟨heq.symm, (List.mem_singleton.1 hr).symm⟩
    · exact .inr ⟨i, hi, hr⟩
  · rintro (⟨rfl, rfl⟩ | ⟨i, hi, hr⟩)
    · obtain ⟨i, hi⟩ := Option.isSome_iff_exists.1 ha
      exact ⟨i, hi, by simp⟩
    · refine ⟨i, hi, ?_⟩
      split
      · exact List.mem_append_left _ hr
      · exact hr

/-- A RAN is filtered out of an instance. -/
theorem Sdl.WellKeyed.serves_filter (hs : s.WellKeyed) (a r a' r' : String) :
    (s.updateRans a (·.filter (· ≠ r))).Serves a' r' ↔ s.Serves a' r' ∧ ¬ (a = a' ∧ r = r') := by
  rw [hs.serves_updateRans]
  constructor
  · rintro ⟨i, hi, hr⟩
    split at hr
    · rename_i heq
      obtain ⟨hr, hne⟩ := List.mem_filter.1 hr
      exact ⟨⟨i, hi, hr⟩, fun h => of_decide_eq_true hne h.2.symm⟩
    · rename_i hne
      exact ⟨⟨i, hi, hr⟩, fun h => hne h.1.symm⟩
  · rintro ⟨⟨i, hi, hr⟩, hnot⟩
    refine ⟨i, hi, ?_⟩
    split
    · rename_i heq
      exact List.mem_filter.2 ⟨hr, decide_eq_true fun h => hnot ⟨heq.symm, h.symm⟩⟩
    · exact hr

/-- A stored instance is written with the list that it has. -/
theorem serves_putInstance {i i' : E2TInstance} (hi : s.e2tInstance i'.address = some i)
    (hlist : i'.associatedRanList = i.associatedRanList) (a r : String) :
    (s.putInstance i').Serves a r ↔ s.Serves a r := by
  unfold Sdl.Serves
  rw [Sdl.e2tInstance_putInstance, Function.update_apply]
  split
  · rename_i heq
    rw [heq, hi]
    simp [hlist]
  · exact Iff.rfl

/-- A new instance serves nobody. -/
theorem serves_register {a : String} (ha : s.e2tInstance a = none) (podName : String) (t : Int64)
    (a' r : String) : (s.register a podName t).Serves a' r ↔ s.Serves a' r := by
  unfold Sdl.Serves
  rw [Sdl.register, Sdl.e2tInstance_putAddresses, Sdl.e2tInstance_putInstance,
    Function.update_apply]
  split
  · rename_i heq
    obtain rfl : a' = a := heq
    simp [ha, newE2TInstance]
  · exact Iff.rfl

/-! ### The managers -/

/-- The operations of the instances manager that change a list tell the routing manager nothing. -/
theorem E2TInstancesManager.untold_updateRans (m : MuxMethod) (a : String)
    (f : List String → List String) :
    (withMutex m do
      match ← RNibDataService.getE2TInstance a with
      | .error _ => return .error .rnibDb
      | .ok e2tInstance =>
          let associatedRanList := f e2tInstance.associatedRanList
          match ← RNibDataService.saveE2TInstance { e2tInstance with associatedRanList } with
          | .error _ => return .error .rnibDb
          | .ok () => return .ok () : Prog (Except Err Unit)).Calls Call.Untold := by
  refine Program.calls_bind (calls_call trivial) fun _ => ?_
  refine Program.calls_bind ?_ fun _ => ?_
  · refine Program.calls_bind (calls_call trivial) fun x => ?_
    split
    · trivial
    · refine Program.calls_bind (calls_call trivial) fun x => ?_
      split <;> trivial
  · exact Program.calls_bind (calls_call trivial) fun _ => trivial

/-- Nor does the one that removes an instance. -/
theorem E2TInstancesManager.untold_removeE2TInstance (a : String) :
    (removeE2TInstance a).Calls Call.Untold := by
  refine Program.calls_bind (calls_call trivial) fun _ => ?_
  refine Program.calls_bind ?_ fun _ => Program.calls_bind (calls_call trivial) fun _ => trivial
  refine Program.calls_bind (calls_call (o := .removeE2TInstance a) trivial) fun x => ?_
  split
  · trivial
  · refine Program.calls_bind (calls_call (o := .getE2TAddresses) trivial) fun x => ?_
    split
    · trivial
    · refine Program.calls_bind (calls_call (o := .saveE2TAddresses _) trivial) fun x => ?_
      split <;> trivial

/-- Nor does the one that adds it. -/
theorem E2TInstancesManager.untold_addE2TInstance (a podName : String) :
    (addE2TInstance a podName).Calls Call.Untold := by
  refine Program.calls_bind (calls_call trivial) fun _ => ?_
  refine Program.calls_bind ?_ fun _ => Program.calls_bind (calls_call trivial) fun _ => trivial
  refine Program.calls_bind (calls_call (o := .now) trivial) fun t => ?_
  refine Program.calls_bind (calls_call (o := .saveE2TInstance _) trivial) fun x => ?_
  split
  · trivial
  · refine Program.calls_bind (calls_call (o := .getE2TAddresses) trivial) fun x => ?_
    split
    · exact calls_call (o := .saveE2TAddresses _) trivial
    · exact calls_call (o := .saveE2TAddresses _) trivial
    · trivial

namespace E2TAssociationManager

/-- The routing manager is asked first, and the list follows if it agrees. -/
theorem tracks_associateRan (hs : s.WellKeyed) {a : String} (ha : (s.e2tInstance a).isSome)
    {nb : NodebInfo} (hnb : nb.ranName ≠ "") : Tracks (associateRan a nb) (s, ts) := by
  simp only [associateRan, associateRanAndUpdateNodeb, bind_assoc]
  refine (Program.always_bind ..).2 ?_
  refine always_request (answer · .routingManager) (.associateRanToE2TInstance a nb.ranName)
    (fun _ => rfl) (fun up => by cases up <;> rfl) fun up => ?_
  have hput : (associated a nb (answer up .routingManager)).ranName ≠ "" := by simpa using hnb
  have hs' := hs.putNodeb hput
  refine always_untold_bind (calls_call (o := .updateNodebInfo _) trivial)
    (RNibDataService.always_updateNodebInfo hput) ?_
  cases up with
  | false =>
      refine Kept.one fun a' r' => (serves_congr (Sdl.e2tInstance_putNodeb ..) a' r').trans ?_
      simp [Told.Joins, Told.Asks, RoutingRequest.Parts]
  | true =>
      have ha' : ((s.putNodeb (associated a nb (answer true .routingManager))).e2tInstance
          a).isSome := by
        rwa [Sdl.e2tInstance_putNodeb]
      refine always_untold_bind (E2TInstancesManager.untold_updateRans _ a (· ++ [_]))
        (E2TInstancesManager.always_addRansToInstance hs' a _) ?_
      rw [E2TInstancesManager.foundOrDbError, if_pos ha', associated_ranName]
      refine Kept.one fun a' r' => (hs'.serves_append ha' _ a' r').trans ?_
      rw [serves_congr (Sdl.e2tInstance_putNodeb ..)]
      simp [Told.Joins, Told.Asks, RoutingRequest.Parts]

/-- The RAN leaves the list first, and the routing manager is asked whether the RAN was there or
not. -/
theorem tracks_dissociateRan (hs : s.WellKeyed) (a : String) {nb : NodebInfo}
    (hr : s.nodeb nb.ranName = some nb) : Tracks (dissociateRan a nb.ranName) (s, ts) := by
  have hput : (nb.setAssociation "").ranName ≠ "" := by simpa using hs.ranName_ne hr
  have hs' := hs.putNodeb hput
  unfold dissociateRan
  refine always_untold_bind (calls_call (o := .getNodeb _) trivial)
    (RNibDataService.always_getNodeb _) ?_
  rw [getNodeb_of_some hs hr]
  refine always_untold_bind (calls_call (o := .updateNodebInfo _) trivial)
    (RNibDataService.always_updateNodebInfo hput) ?_
  refine always_untold_bind (E2TInstancesManager.untold_updateRans _ a (·.filter (· ≠ _)))
    (E2TInstancesManager.always_removeRanFromInstance hs' _ a) ?_
  have hserves := hs'.serves_filter a nb.ranName
  cases ha : s.e2tInstance a with
  | none =>
      have hnone : (s.putNodeb (nb.setAssociation "")).e2tInstance a = none := by
        rwa [Sdl.e2tInstance_putNodeb]
      rw [E2TInstancesManager.foundOrDbError, hnone, Sdl.updateRans, hnone]
      exact Kept.silent fun a' r' => serves_congr (Sdl.e2tInstance_putNodeb ..) a' r'
  | some i =>
      have hsome : (s.putNodeb (nb.setAssociation "")).e2tInstance a = some i := by
        rwa [Sdl.e2tInstance_putNodeb]
      rw [E2TInstancesManager.foundOrDbError, hsome]
      refine (Program.always_bind ..).2 ?_
      refine always_request (answer · .routingManager) (.dissociateRanE2TInstance a nb.ranName)
        (fun _ => rfl) (fun up => by cases up <;> rfl) fun up => ?_
      refine Kept.one fun a' r' => (hserves a' r').trans ?_
      rw [serves_congr (Sdl.e2tInstance_putNodeb ..)]
      simp [Told.Joins, Told.Asks, RoutingRequest.Parts]

/-- The routing manager is asked first, and the instance goes whatever it says. -/
theorem tracks_removeE2tInstance {i : E2TInstance} {as : List String}
    (has : s.e2tAddresses = some as) (hi : i.address ≠ "")
    (hlist : ∀ r, s.Serves i.address r ↔ r ∈ i.associatedRanList) :
    Tracks (removeE2tInstance i) (s, ts) := by
  unfold removeE2tInstance
  refine (Program.always_bind ..).2 ?_
  refine always_request (answer · .routingManager)
    (.deleteE2TInstance i.address i.associatedRanList) (fun _ => rfl)
    (fun up => by cases up <;> rfl) fun up => ?_
  rw [← bind_pure (E2TInstancesManager.removeE2TInstance i.address)]
  refine always_untold_bind (E2TInstancesManager.untold_removeE2TInstance _)
    (E2TInstancesManager.always_removeE2TInstance hi has) ?_
  refine Kept.one fun a' r' => ?_
  have hgone : (s.deregister i.address).Serves a' r' ↔ s.Serves a' r' ∧ a' ≠ i.address := by
    unfold Sdl.Serves
    rw [Sdl.deregister, Sdl.e2tInstance_putAddresses, Sdl.e2tInstance_dropInstance,
      Function.update_apply]
    split <;> simp_all
  rw [hgone]
  simp only [Told.Joins, Told.Asks, RoutingRequest.Parts, Told.mk.injEq, reduceCtorEq, false_and,
    false_or, and_congr_right_iff, not_and]
  intro hserves
  constructor
  · exact fun hne heq => absurd heq.symm hne
  · rintro hnot rfl
    exact hnot rfl ((hlist r').1 hserves)

end E2TAssociationManager

namespace RanDisconnectionManager

/-- The loss of a connection: the RAN leaves the list and the routing manager is asked to part it,
or neither. -/
theorem tracks_disconnectRan (hs : s.WellKeyed) (r : String) :
    Tracks (disconnectRan r) (s, ts) := by
  unfold disconnectRan
  refine always_untold_bind (calls_call (o := .getNodeb _) trivial)
    (RNibDataService.always_getNodeb _) ?_
  split
  · exact tracks_ret _
  · rename_i nb hget
    have hr : s.nodeb r = some nb := hs.getNodeb_eq_ok.1 hget
    have hname : nb.ranName = r := (hs.nodeb hr).1
    split
    · exact tracks_ret _
    · exact tracks_aside (calls_call (o := .updateNodebInfo _) trivial)
    · have hput : (nb.setStatus .DISCONNECTED).ranName ≠ "" := by simpa using hs.ranName_ne hr
      refine always_untold_bind (calls_call (o := .updateNodebInfo _) trivial)
        (RNibDataService.always_updateNodebInfo hput) ?_
      have hdissociate : Tracks (E2TAssociationManager.dissociateRan
          nb.associatedE2TInstanceAddress (nb.setStatus .DISCONNECTED).ranName)
            (s.putNodeb (nb.setStatus .DISCONNECTED), ts) :=
        E2TAssociationManager.tracks_dissociateRan (hs.putNodeb hput) _ (by simp)
      rw [setStatus_ranName] at hdissociate
      have hkept : Kept (s, ts) (s.putNodeb (nb.setStatus .DISCONNECTED), ts) :=
        .silent (serves_congr (Sdl.e2tInstance_putNodeb ..))
      exact Program.always_imp hdissociate (fun _ => hkept.trans) fun _ _ => hkept.trans

end RanDisconnectionManager

open RanDisconnectionManager in
/-- A repeated E2_TERM_INIT disconnects RANs one after the other, each in step. -/
theorem E2TermInitNotificationHandler.tracks_handleExistingE2TInstance (hs : s.WellKeyed)
    (rs : List String) : Tracks (handleExistingE2TInstance rs) (s, ts) := by
  induction rs generalizing s ts with
  | nil => exact tracks_ret _
  | cons r rs ih =>
      have hleft : (disconnectRan r).Always exec (Admits true) (fun _ => True)
          (fun _ s' => s'.WellKeyed) s :=
        (always_disconnectRan hs r _).2 (wellKeyed_disconnect hs r)
      refine tracks_bind (tracks_disconnectRan hs r) hleft fun x w' hs' => ?_
      split
      · exact ih hs'
      · exact ih hs'
      · exact tracks_ret _

namespace E2TShutdownManager

/-- Clearing the associations of an instance's RANs writes their records alone. -/
theorem aside_clearNodebsAssociation (rs : List String) :
    (clearNodebsAssociation rs).Calls Call.Aside := by
  induction rs with
  | nil => trivial
  | cons r rs ih =>
      refine Program.calls_bind (calls_call (o := .getNodeb r) trivial) fun x => ?_
      split
      · trivial
      · exact ih
      · refine Program.calls_bind (calls_call (o := .updateNodebInfo _) trivial) fun x => ?_
        split
        · trivial
        · exact ih

/-- The instance is marked, the records of its RANs are cleared, and it is removed. -/
theorem tracks_shutdown (hs : Sound s) {config : Configuration} {i : E2TInstance}
    (hi : s.e2tInstance i.address = some i) : Tracks (shutdown config i) (s, ts) := by
  have hne : i.address ≠ "" := hs.wellKeyed.address_ne hi
  obtain ⟨as, has⟩ := hs.exists_addresses (show (s.e2tInstance i.address).isSome by rw [hi]; rfl)
  unfold shutdown
  refine tracks_bind (tracks_aside (calls_call (o := .now) trivial))
    ((Time.always_now fun _ s' => s = s').2 fun _ => rfl) ?_
  rintro now ⟨s₁, ts₁⟩ rfl
  split
  · exact tracks_ret _
  refine tracks_bind (tracks_aside (calls_call (o := .now) trivial))
    ((Time.always_now fun _ s' => s = s').2 fun _ => rfl) ?_
  rintro now' ⟨s₂, ts₂⟩ rfl
  have hmark : (marked i now').address ≠ "" := by simpa using hne
  have hmarked := hs.wellKeyed.putInstance hmark
  -- the instance is written as it is, but for the mark
  have hinstance : (s.putInstance (marked i now')).e2tInstance i.address =
      some (marked i now') := by
    rw [Sdl.e2tInstance_putInstance, marked_address, Function.update_self]
  have hserves := @serves_putInstance s i (marked i now') hi (marked_associatedRanList i now')
  refine tracks_bind (R := fun x s' => x = .ok () ∧ s.putInstance (marked i now') = s')
    (tracks_untold (calls_call (o := .saveE2TInstance _) trivial)
      ((RNibDataService.always_saveE2TInstance hmark _).2 hserves))
    ((RNibDataService.always_saveE2TInstance hmark _).2 ⟨rfl, rfl⟩) ?_
  rintro x ⟨s₃, ts₃⟩ ⟨rfl, rfl⟩
  dsimp only [marked_associatedRanList]
  have hclear := always_clearNodebsAssociation (b := true) (P := fun _ => True) hmarked
    i.associatedRanList fun x s' =>
      (clearAssociation i.associatedRanList (s.putInstance (marked i now'))).2 = s'
  refine tracks_bind (tracks_aside (aside_clearNodebsAssociation _)) (hclear.2 rfl) ?_
  rintro x ⟨s₄, ts₄⟩ rfl
  split
  · exact tracks_ret _
  · have has' : (clearAssociation i.associatedRanList
        (s.putInstance (marked i now'))).2.e2tAddresses = some as := by
      rw [e2tAddresses_clearAssociation, Sdl.e2tAddresses_putInstance, has]
    refine E2TAssociationManager.tracks_removeE2tInstance has' hmark fun r => ?_
    rw [serves_congr (e2tInstance_clearAssociation _), marked_address]
    unfold Sdl.Serves
    rw [hinstance]
    simp

end E2TShutdownManager

/-! ### The handlers -/

/-- The shutdown of an instance by the worker is in step: the instance goes, and the routing
manager is asked to delete it with the RANs of its list. -/
theorem E2TKeepAliveWorker.tracks_shutdownStored (hs : Sound s) (config : Configuration)
    (a : String) : Tracks (shutdownStored config a) (s, ts) := by
  refine always_untold_bind (calls_call (o := .getE2TInstance _) trivial)
    (E2TInstancesManager.always_getE2TInstance a) ?_
  split
  · exact tracks_ret _
  · rename_i i hget
    have hi : s.e2tInstance a = some i := hs.wellKeyed.getE2TInstance_eq_ok.1 hget
    obtain rfl : i.address = a := (hs.wellKeyed.e2tInstance hi).1
    refine tracks_bind (tracks_aside (calls_call (o := .now) trivial))
      ((Time.always_now fun _ s' => s = s').2 fun _ => rfl) ?_
    rintro now ⟨s₁, ts₁⟩ rfl
    split
    · exact tracks_bind (E2TShutdownManager.tracks_shutdown hs hi)
        (Program.always_trivial _ _) fun _ _ _ => tracks_ret _
    · exact tracks_ret _

/-- A keep-alive answer changes the time stamp of an instance and not its list. -/
theorem E2TKeepAliveResponseHandler.tracks_handle (hs : s.WellKeyed) (a : String) :
    Tracks (handle a) (s, ts) := by
  refine tracks_untold ?_ ((leaves_handle hs a).mono fun s' hs' => ?_)
  · refine Program.calls_bind ?_ fun _ => trivial
    refine Program.calls_bind (calls_call trivial) fun _ => ?_
    refine Program.calls_bind ?_ fun _ => Program.calls_bind (calls_call trivial) fun _ => trivial
    refine Program.calls_bind (calls_call (o := .getE2TInstance a) trivial) fun x => ?_
    split
    · trivial
    · split
      · trivial
      · exact Program.calls_bind (calls_call (o := .now) trivial) fun _ =>
          calls_call (o := .saveE2TInstance _) trivial
  · intro a' r
    rcases hs' with rfl | ⟨i, t, hi, rfl⟩
    · exact Iff.rfl
    · obtain rfl : i.address = a := (hs.e2tInstance hi).1
      exact @serves_putInstance s i { i with keepAliveTimestamp := t } hi rfl a' r

/-- An E2_TERM_INIT adds an instance without RANs or disconnects those of one that is known. -/
theorem E2TermInitNotificationHandler.tracks_handle (hs : s.WellKeyed) (codecs : Codecs)
    (request : NotificationRequest) : Tracks (handle codecs request) (s, ts) := by
  unfold handle
  split
  · exact tracks_ret _
  rename_i payload _
  split
  · exact tracks_ret _
  rename_i hne
  refine always_untold_bind (calls_call (o := .getE2TInstance _) trivial)
    (E2TInstancesManager.always_getE2TInstance _) ?_
  split
  · -- the address is new, and its instance has no RANs
    rename_i hget
    refine (Program.always_bind ..).2 ?_
    refine always_request (answer · .routingManager) (.addE2TInstance payload.address)
      (fun _ => rfl) (fun up => by cases up <;> rfl) fun up => ?_
    have hnone := (getE2TInstance_eq_notFound hget).2
    have hone : ∀ s', (∀ a r, s'.Serves a r ↔ s.Serves a r) →
        Kept (s, ts) (s', ts ++ [⟨.addE2TInstance payload.address, up⟩]) := by
      intro s' hs'
      refine .one fun a r => (hs' a r).trans ?_
      simp [Told.Joins, Told.Asks, RoutingRequest.Parts]
    cases up with
    | false => exact hone s fun _ _ => Iff.rfl
    | true =>
        have hadd := E2TInstancesManager.always_addE2TInstance (s := s) (b := true)
          (P := fun _ => False) hne payload.podName
          fun _ s' => ∀ a r, s'.Serves a r ↔ s.Serves a r
        refine (Program.always_bind ..).2 (Program.always_imp
          ((E2TInstancesManager.untold_addE2TInstance _ _).always_noting (fun _ => told_untold)
            (hadd.2 fun t => serves_register hnone payload.podName t)) (fun _ h => h.1.elim) ?_)
        rintro x ⟨s', ts'⟩ ⟨hs', rfl⟩
        exact hone s' hs'
  · exact tracks_ret _
  · split
    · exact tracks_ret _
    · split
      · exact tracks_ret _
      · exact tracks_handleExistingE2TInstance hs _

/-- The message about a lost connection is in step as `disconnectRan` is. -/
theorem RanLostConnectionHandler.tracks_handle (hs : s.WellKeyed) (request : NotificationRequest) :
    Tracks (handle request) (s, ts) :=
  tracks_bind (RanDisconnectionManager.tracks_disconnectRan hs _) (Program.always_trivial _ _)
    fun _ _ _ => tracks_ret _

/-- The answer to an X2 or ENDC setup writes the record of its RAN alone. -/
theorem SetupResponseNotificationHandler.tracks_handle (codecs : Codecs) (msgType : MsgType)
    (request : NotificationRequest) : Tracks (handle codecs msgType request) (s, ts) := by
  refine tracks_aside (Program.calls_bind (calls_call (o := .getNodeb _) trivial) fun x => ?_)
  split
  · trivial
  · split
    · split
      · trivial
      · refine Program.calls_bind (calls_call (o := .saveNodeb _ _) trivial) fun x => ?_
        split
        · trivial
        · split
          · exact Program.calls_bind (calls_call (o := .send _) trivial) fun _ => trivial
          · trivial
    · trivial

namespace E2SetupRequestNotificationHandler

/-- What the setup handler does with a record, at an instance that is stored: the RAN is put on
its list where the routing manager agrees. -/
theorem tracks_associateAndRespond (hs : s.WellKeyed) (config : Configuration)
    (request : NotificationRequest) (m : E2SetupRequestMessage) {a : String}
    (ha : (s.e2tInstance a).isSome) {nb : NodebInfo} (hnb : nb.ranName ≠ "") :
    Tracks (associateAndRespond config request m a nb) (s, ts) := by
  refine tracks_bind (E2TAssociationManager.tracks_associateRan hs ha hnb)
    (Program.always_trivial _ _) fun x w' _ => ?_
  split
  · exact tracks_aside (Program.calls_bind (calls_call (o := .send _) trivial) fun _ => trivial)
  · exact tracks_ret _
  · refine tracks_aside ?_
    unfold handleSuccessfulResponse
    split
    · trivial
    · exact Program.calls_bind (Program.calls_orPanic _) fun _ =>
        Program.calls_bind (calls_call (o := .send _) trivial) fun _ => trivial

/-- The store stays well keyed, too. -/
theorem wellKeyed_handleNewRan (hs : s.WellKeyed) (r a : String) (m : E2SetupRequestMessage) :
    (handleNewRan r a m).Always exec (Admits true) (fun _ => True) (fun x s' =>
      ∀ nb, x = .ok nb → nb.ranName = r ∧ s'.WellKeyed ∧ s'.e2tInstance = s.e2tInstance) s := by
  simp only [handleNewRan, Program.always_bind]
  refine always_buildNodebInfo _ _ _ _ trivial (fun e nb h => by cases h) ?_
  intro nb hname _ _
  simp only [Program.always_bind, buildNbIdentity, buildGlobalNbId, always_orPanic]
  cases m.getPlmnId with
  | none => trivial
  | some plmnId =>
      cases m.getNbId with
      | none => trivial
      | some nbId =>
          simp only [Option.elim_some, Program.pure_eq_ret, Program.always_ret,
            RNibDataService.always_saveNodeb]
          split
          · rename_i s₁ hsave
            rintro nb' h
            obtain rfl := Except.ok.inj h
            exact ⟨hname, hs.saveNodeb (by simp [hname]) hsave, (saveNodeb_ok hsave).2.2.1⟩
          · intro nb' h
            cases h

/-- An E2 setup request is in step, on all its paths. -/
theorem tracks_handle (hs : s.WellKeyed) (codecs : Codecs) (config : Configuration)
    (request : NotificationRequest) : Tracks (handle codecs config request) (s, ts) := by
  unfold handle
  split
  · exact tracks_ret _
  rename_i m a hparse
  refine always_untold_bind (calls_call (o := .getE2TInstance _) trivial)
    (E2TInstancesManager.always_getE2TInstance a) ?_
  split
  · exact tracks_ret _
  rename_i i hget
  have ha : (s.e2tInstance a).isSome := by
    rw [hs.getE2TInstance_eq_ok.1 hget]
    rfl
  refine always_untold_bind (calls_call (o := .getNodeb _) trivial)
    (RNibDataService.always_getNodeb _) ?_
  split
  · -- the RAN is new
    rename_i hr
    obtain ⟨hne, -⟩ := getNodeb_eq_notFound hr
    refine tracks_bind (tracks_aside (calls_handleNewRan (fun _ _ => trivial) _ _ _))
      (wellKeyed_handleNewRan hs _ a m) ?_
    rintro x ⟨s', ts'⟩ hx
    split
    · exact tracks_ret _
    · rename_i nb
      obtain ⟨hname, hs', hinstance⟩ := hx nb rfl
      exact tracks_associateAndRespond hs' config request m (hinstance ▸ ha) (hname ▸ hne)
  · exact tracks_ret _
  · rename_i nb hr
    have hnb : s.nodeb request.ranName = some nb := hs.getNodeb_eq_ok.1 hr
    refine tracks_bind (tracks_aside (calls_handleExistingRan nb m))
      (always_handleExistingRan nb m) ?_
    rintro x ⟨s', ts'⟩ ⟨rfl, hx⟩
    split
    · exact tracks_ret _
    · refine tracks_associateAndRespond hs config request m ha ?_
      rw [(hx _ rfl).ranName]
      exact hs.ranName_ne hnb

end E2SetupRequestNotificationHandler

/-- Sending a setup to a RAN writes its record alone. -/
theorem RanSetupManager.aside_executeSetup (nb : NodebInfo) (st : ConnectionStatus) :
    (executeSetup nb st).Calls Call.Aside := by
  refine Program.calls_bind (calls_call (o := .updateNodebInfo _) trivial) fun x => ?_
  split
  · trivial
  · split
    · trivial
    · refine Program.calls_bind (calls_call (o := .send _) trivial) fun x => ?_
      split
      · trivial
      · refine Program.calls_bind (calls_call (o := .updateNodebInfo _) trivial) fun x => ?_
        split <;> trivial

/-- Choosing an instance reads the store. -/
theorem E2TInstancesManager.aside_selectE2TInstance : selectE2TInstance.Calls Call.Aside := by
  refine Program.calls_bind ?_ fun x => ?_
  · refine Program.calls_bind ?_ fun x => ?_
    · refine Program.calls_bind (calls_call (o := .getE2TAddresses) trivial) fun x => ?_
      split <;> trivial
    · split
      · trivial
      · trivial
      · refine Program.calls_bind (calls_call (o := .getE2TInstances _) trivial) fun x => ?_
        split <;> trivial
  · split
    · trivial
    · split
      · trivial
      · split <;> trivial

namespace SetupRequestHandler

/-- Associating a RAN on an HTTP request, and sending it a setup, at an instance that is stored. -/
theorem tracks_associateAndSetup (hs : s.WellKeyed) {a : String} (ha : (s.e2tInstance a).isSome)
    {nb : NodebInfo} (hnb : nb.ranName ≠ "") : Tracks (associateAndSetup a nb) (s, ts) := by
  refine tracks_bind (E2TAssociationManager.tracks_associateRan hs ha hnb)
    (Program.always_trivial _ _) fun x w' _ => ?_
  split
  · exact tracks_ret _
  · exact tracks_aside (RanSetupManager.aside_executeSetup ..)

/-- An X2 or ENDC setup request over HTTP is in step, on all its paths. -/
theorem tracks_handle (hs : s.WellKeyed) (codecs : Codecs) (protocol : E2ApplicationProtocol)
    (request : SetupRequest) : Tracks (handle codecs protocol request) (s, ts) := by
  have hselect : E2TInstancesManager.selectE2TInstance.Always exec (Admits true) (fun _ => True)
      (fun x s' => s = s' ∧ ∀ a, x = .ok a → (s.e2tInstance a).isSome) s := by
    refine E2TInstancesManager.always_selectE2TInstance hs _ (fun e => ⟨rfl, ?_⟩)
      fun a ha => ⟨rfl, ?_⟩
    · intro a h
      cases h
    · intro a' h
      exact Except.ok.inj h ▸ ha
  unfold handle
  split
  · exact tracks_ret _
  refine always_untold_bind (calls_call (o := .getNodeb _) trivial)
    (RNibDataService.always_getNodeb _) ?_
  split
  · -- the RAN is new
    rename_i hr
    obtain ⟨hne, -⟩ := getNodeb_eq_notFound hr
    refine tracks_bind (tracks_aside E2TInstancesManager.aside_selectE2TInstance) hselect ?_
    rintro x ⟨s', ts'⟩ ⟨rfl, hx⟩
    split
    · exact tracks_ret _
    · rename_i a
      have hsave : (RNibDataService.saveNodeb (createInitialNodeInfo request protocol).2
          (createInitialNodeInfo request protocol).1).Always exec (Admits true) (fun _ => True)
            (fun x s' => x = .ok () → s'.WellKeyed ∧ s'.e2tInstance = s.e2tInstance) s := by
        rw [RNibDataService.always_saveNodeb]
        split
        · rename_i s₁ hsave
          exact fun _ => ⟨hs.saveNodeb (by simp [createInitialNodeInfo]) hsave,
            (saveNodeb_ok hsave).2.2.1⟩
        · intro h
          cases h
      refine tracks_bind (tracks_aside (calls_call (o := .saveNodeb _ _) trivial)) hsave ?_
      rintro x ⟨s', ts'⟩ hx'
      split
      · exact tracks_ret _
      · obtain ⟨hs', hinstance⟩ := hx' rfl
        exact tracks_associateAndSetup hs' (hinstance ▸ hx a rfl)
          (by simpa [createInitialNodeInfo] using hne)
  · exact tracks_ret _
  · rename_i nb hr
    have hne : nb.ranName ≠ "" := hs.ranName_ne (hs.getNodeb_eq_ok.1 hr)
    split
    · exact tracks_ret _
    split
    · -- it is associated
      refine tracks_aside (Program.calls_bind (calls_call (o := .updateNodebInfo _) trivial)
        fun x => ?_)
      split
      · trivial
      · exact RanSetupManager.aside_executeSetup ..
    · refine tracks_bind (tracks_aside E2TInstancesManager.aside_selectE2TInstance) hselect ?_
      rintro x ⟨s', ts'⟩ ⟨rfl, hx⟩
      split
      · split
        · exact tracks_ret _
        · exact tracks_aside (Program.calls_bind (calls_call (o := .updateNodebInfo _) trivial)
            fun _ => trivial)
      · exact tracks_associateAndSetup hs (hx _ rfl) hne

end SetupRequestHandler

/-- **Every event keeps to it**: the lists of the database change as the routing manager is
asked to change its routes. -/
theorem Event.tracks (hs : Sound s) (codecs : Codecs) (config : Configuration) (e : Event) :
    Tracks (e.prog codecs config) (s, ts) := by
  have hk := hs.wellKeyed
  cases e with
  | e2SetupRequest request =>
      exact E2SetupRequestNotificationHandler.tracks_handle hk codecs config request
  | setupRequest protocol request =>
      exact tracks_bind (SetupRequestHandler.tracks_handle hk codecs protocol request)
        (Program.always_trivial _ _) fun _ _ _ => tracks_ret _
  | setupResponse msgType request =>
      exact SetupResponseNotificationHandler.tracks_handle codecs msgType request
  | ranConnectionLost request => exact RanLostConnectionHandler.tracks_handle hk request
  | e2TermInit request => exact E2TermInitNotificationHandler.tracks_handle hk codecs request
  | keepAliveResponse a => exact E2TKeepAliveResponseHandler.tracks_handle hk a
  | keepAliveExpired a => exact E2TKeepAliveWorker.tracks_shutdownStored hs config a

end NearRtRic.E2Manager
