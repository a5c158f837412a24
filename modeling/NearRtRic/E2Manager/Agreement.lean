/-
# Do the database and the routing manager agree?

`Ledger` is the E2 manager with what it has told the routing manager.  It goes on as the
`Machine` does: an event, the start of a delete-all, or one phase of one of them.

`agreement_of_reachable` is what holds in every state that is reached.  A RAN in the list of
an instance is routed to it, unless a delete-all stands between its request to part all
and its clearing of the lists.  The other way round the two may fall apart: the code goes on
when a request to part fails, and a delete-all clears the lists of what was associated since
its request.  No other route is left over.
-/

import NearRtRic.E2Manager.Routing

namespace NearRtRic.E2Manager

open Effect Trace DeleteAllRequestHandler

/-! ### Delete-all -/

namespace DeleteAllRequestHandler

/-- What a phase asks the routing manager for. -/
def Phase.asks : Phase → List RoutingRequest
  | dissociateAllRans as => [.dissociateAllRans as]
  | _ => []

/-- All RANs are parted, and the lists are not cleared yet. -/
def Phase.Between : Phase → Prop
  | shuttingDown _ | clearRans _ _ => True
  | _ => False

/-- The loop over the listed RANs makes no request and writes no instance, if its callback does
not. -/
theorem aside_updateListed {cb : NodebInfo → Prog (Except Err Bool)}
    (hcb : ∀ nb, (cb nb).Calls Call.Aside) (ids : List NbIdentity) (wrote : Bool) :
    (updateListed cb ids wrote).Calls Call.Aside := by
  induction ids generalizing wrote with
  | nil => trivial
  | cons id ids ih =>
      refine Program.calls_bind (calls_call (o := .getNodeb _) trivial) fun x => ?_
      split
      · exact ih wrote
      · trivial
      · refine Program.calls_bind (hcb _) fun x => ?_
        split
        · trivial
        · exact ih _

/-- The same of the loop over all RANs. -/
theorem aside_updateNodebs {cb : NodebInfo → Prog (Except Err Bool)}
    (hcb : ∀ nb, (cb nb).Calls Call.Aside) : (updateNodebs cb).Calls Call.Aside := by
  refine Program.calls_bind (calls_call (o := .getListNodebIds) trivial) fun x => ?_
  split
  · trivial
  · exact aside_updateListed hcb _ _

/-- The update of one record makes no request and writes no instance. -/
theorem aside_updateAndReport (nb : NodebInfo) (st : ConnectionStatus) (reset : Bool) :
    (updateAndReport nb st reset).Calls Call.Aside := by
  refine Program.calls_bind ?_ fun x => ?_
  · refine Program.calls_bind (calls_call (o := .updateNodebInfo _) trivial) fun x => ?_
    split <;> trivial
  · split <;> trivial

/-- Clearing the RANs of every instance tells the routing manager nothing. -/
theorem untold_clearRansOfAllE2TInstances :
    E2TInstancesManager.clearRansOfAllE2TInstances.Calls Call.Untold := by
  have hclear : ∀ is, (E2TInstancesManager.clearRans is).Calls Call.Untold := by
    intro is
    induction is with
    | nil => trivial
    | cons i is ih =>
        exact Program.calls_bind (calls_call (o := .saveE2TInstance _) trivial) fun _ => ih
  refine Program.calls_bind (calls_call trivial) fun _ => ?_
  refine Program.calls_bind ?_ fun _ => Program.calls_bind (calls_call trivial) fun _ => trivial
  refine Program.calls_bind ?_ fun x => ?_
  · refine Program.calls_bind ?_ fun x => ?_
    · refine Program.calls_bind (calls_call (o := .getE2TAddresses) trivial) fun x => ?_
      split <;> trivial
    · split
      · trivial
      · trivial
      · refine Program.calls_bind (calls_call (o := .getE2TInstances _) trivial) fun x => ?_
        split <;> trivial
  · split
    · trivial
    · exact Program.calls_bind (hclear _) fun _ => trivial

/-- Only one phase calls the routing manager. -/
theorem Phase.untold_run {p : Phase} (hp : p.asks = []) (config : Configuration) :
    (p.run config).Calls Call.Untold := by
  cases p with
  | dissociateAllRans as => cases hp
  | getE2TAddresses =>
      refine Program.calls_bind ?_ fun x => ?_
      · refine Program.calls_bind (calls_call (o := .getE2TAddresses) trivial) fun x => ?_
        split <;> trivial
      · split
        · trivial
        · split <;> trivial
  | forceShutdown =>
      refine Program.calls_bind (calls_untold (aside_updateNodebs fun nb =>
        aside_updateAndReport nb _ _)) fun x => ?_
      split <;> trivial
  | shuttingDown e =>
      refine Program.calls_bind (calls_untold (aside_updateNodebs fun nb => ?_)) fun x => ?_
      · unfold updateNodebInfoShuttingDown
        split
        · trivial
        · exact aside_updateAndReport nb _ _
      · split <;> trivial
  | clearRans e u =>
      refine Program.calls_bind untold_clearRansOfAllE2TInstances fun x => ?_
      split <;> trivial
  | sctpClearAll e u =>
      refine Program.calls_bind (calls_call (o := .send _) trivial) fun x => ?_
      split
      · trivial
      · split <;> trivial
  | timer e => exact Program.calls_bind (calls_call (o := .sleep _) trivial) fun _ => trivial
  | shutDown e =>
      refine Program.calls_bind (calls_untold (aside_updateNodebs fun nb => ?_)) fun x => ?_
      · unfold updateNodebInfoShutDown
        split
        · trivial
        · split
          · trivial
          · exact aside_updateAndReport nb _ _
      · split <;> trivial
  | returned r => trivial

variable {s : Sdl} {ts : List Told}

/-- **What a phase does**, and what it tells the routing manager. -/
theorem Phase.always_run_telling (hs : s.WellKeyed) (p : Phase) (config : Configuration) :
    (p.run config).Always telling (Admits true) (fun _ => True) (fun p' w => p.Effect s p' w.1 ∧
      ∃ agreed, w.2 = ts ++ p.asks.map (⟨·, agreed⟩)) (s, ts) := by
  have heffect : (p.run config).Always exec (Admits true) (fun _ => True) (p.Effect s) s :=
    p.always_run hs
  by_cases hp : p.asks = []
  · refine Program.always_imp ((p.untold_run hp config).always_noting (fun _ => told_untold)
      heffect) (fun _ _ => trivial) ?_
    rintro p' ⟨s', ts'⟩ ⟨h, rfl⟩
    exact ⟨h, true, by rw [hp, List.map_nil, List.append_nil]⟩
  · cases p with
    | dissociateAllRans as =>
        refine (Program.always_bind ..).2 ?_
        exact always_request (answer · .routingManager) (.dissociateAllRans as) (fun _ => rfl)
          (fun up => by cases up <;> rfl) fun up => ⟨.dissociateAllRans, up, rfl⟩
    | _ => exact absurd rfl hp

/-- Nobody is served when the lists are cleared. -/
theorem not_serves_cleared (hs : Sound s) (a r : String) :
    ¬ (E2TInstancesManager.cleared s.instances s).Serves a r := by
  rintro ⟨i, hi, hr⟩
  rw [e2tInstance_clearedAll hs] at hi
  obtain ⟨i₀, -, rfl⟩ := Option.map_eq_some_iff.1 hi
  cases hr

end DeleteAllRequestHandler

/-! ### Any number of delete-alls -/

/-- The E2 manager, and what it has told the routing manager. -/
structure Ledger where
  machine : Machine
  requests : List Told

namespace Ledger

/-- The empty store, and nothing told. -/
def init : Ledger where
  machine := .init
  requests := []

/-- One step, where the store does not fail and the routing manager may. -/
inductive Step (codecs : Codecs) (config : Configuration) : Ledger → Ledger → Prop
  | event {s s' : Sdl} {phases : List Phase} {ts ts' : List Told} {e : Event}
      {cs : List Outcome} :
      (∀ c ∈ cs, Admits true c) →
      ((e.prog codecs config).run telling cs (s, ts)).2 = (s', ts') →
        Step codecs config ⟨⟨s, phases⟩, ts⟩ ⟨⟨s', phases⟩, ts'⟩
  | deleteAll {s : Sdl} {phases : List Phase} {ts : List Told} :
      Step codecs config ⟨⟨s, phases⟩, ts⟩ ⟨⟨s, phases ++ [.getE2TAddresses]⟩, ts⟩
  | phase {s s' : Sdl} {before after : List Phase} {p p' : Phase} {ts ts' : List Told}
      {cs : List Outcome} :
      (∀ c ∈ cs, Admits true c) →
      (p.run config).run telling cs (s, ts) = (some p', (s', ts')) →
        Step codecs config ⟨⟨s, before ++ p :: after⟩, ts⟩ ⟨⟨s', before ++ p' :: after⟩, ts'⟩

/-- The states that are reached. -/
def Reachable (codecs : Codecs) (config : Configuration) : Ledger → Prop :=
  Relation.ReflTransGen (Step codecs config) init

variable {codecs : Codecs} {config : Configuration} {l l' : Ledger}

/-- A ledger goes on as its machine does. -/
theorem Step.machine (h : Step codecs config l l') :
    ∃ label, Machine.Step codecs config label l.machine l'.machine := by
  cases h with
  | @event s s' phases ts ts' e cs hcs hrun =>
      refine ⟨_, .event (e := e) ⟨cs, hcs, ?_⟩⟩
      have hrun' := (@Program.run_noting e2mgr _ _ _ _ _ exec told (e.prog codecs config) cs
        (s, ts)).2
      rw [← hrun']
      exact congrArg Prod.fst hrun
  | deleteAll => exact ⟨_, .deleteAll⟩
  | @phase s s' before after p p' ts ts' cs hcs hrun =>
      obtain ⟨hfst, hsnd⟩ := @Program.run_noting e2mgr _ _ _ _ _ exec told (p.run config) cs
        (s, ts)
      rw [hrun] at hfst hsnd
      exact ⟨_, .phase ⟨cs, hcs, Prod.ext hfst.symm hsnd.symm⟩⟩

/-- What holds of a ledger. -/
structure Inv (l : Ledger) : Prop where
  sound : Sound l.machine.sdl
  /-- Who is served was associated, and no request to part was made since. -/
  served : ∀ a r, l.machine.sdl.Serves a r →
    Since (Told.Joins a r) (Told.Asks a r) l.requests ∨ ∃ p ∈ l.machine.deleteAlls, p.Between
  serves : ∀ a r, Since (Told.Joins a r) (Told.Asks a r) l.requests →
    l.machine.sdl.Serves a r ∨ ∃ as agreed, ⟨.dissociateAllRans as, agreed⟩ ∈ l.requests
  between : (∃ p ∈ l.machine.deleteAlls, p.Between) →
    ∃ as agreed, ⟨.dissociateAllRans as, agreed⟩ ∈ l.requests

/-- It holds at the start. -/
theorem Inv.init : Inv init where
  sound := sound_empty
  served a r h := by
    obtain ⟨i, hi, -⟩ := h
    cases hi
  serves a r h := absurd h not_since_nil
  between h := by
    obtain ⟨p, hp, -⟩ := h
    cases hp

/-- A phase that changes neither the lists nor what is told. -/
theorem Inv.quiet {s s' : Sdl} {before after : List Phase} {p p' : Phase} {ts : List Told}
    (hl : Inv ⟨⟨s, before ++ p :: after⟩, ts⟩) (hs' : Sound s')
    (hserves : ∀ a r, s'.Serves a r ↔ s.Serves a r) (hbetween : p'.Between ↔ p.Between) :
    Inv ⟨⟨s', before ++ p' :: after⟩, ts ++ []⟩ := by
  have hexists : (∃ q ∈ before ++ p' :: after, q.Between) ↔
      ∃ q ∈ before ++ p :: after, q.Between := by
    simp only [List.mem_append, List.mem_cons, or_and_right, exists_or, exists_eq_left, hbetween]
  rw [List.append_nil]
  exact ⟨hs', fun a r hr => (hl.served a r ((hserves a r).1 hr)).imp_right hexists.2,
    fun a r hr => (hl.serves a r hr).imp_left (hserves a r).2, fun hp => hl.between (hexists.1 hp)⟩

/-- Each step keeps it. -/
theorem Inv.step (hl : Inv l) (h : Step codecs config l l') : Inv l' := by
  obtain ⟨label, hmachine⟩ := h.machine
  have hsound := hmachine.sound hl.sound
  cases h with
  | @event s s' phases ts ts' e cs hcs hrun =>
      have htracks : Tracks (e.prog codecs config) (s, ts) := e.tracks hl.sound codecs config
      have hkept := Program.run_state_of_always htracks hcs (admits_default true)
      rw [hrun] at hkept
      obtain ⟨new, rfl, hserves⟩ := hkept
      refine ⟨hsound, fun a r hr => ?_, fun a r hr => ?_, fun hp => ?_⟩
      · rw [since_append]
        rcases (hserves a r).1 hr with hsince | ⟨hold, hnot⟩
        · exact .inl (.inl hsince)
        · exact (hl.served a r hold).imp_left fun hsince => .inr ⟨hsince, hnot⟩
      · rcases since_append.1 hr with hsince | ⟨hsince, hnot⟩
        · exact .inl ((hserves a r).2 (.inl hsince))
        · rcases hl.serves a r hsince with hold | ⟨as, agreed, hmem⟩
          · exact .inl ((hserves a r).2 (.inr ⟨hold, hnot⟩))
          · exact .inr ⟨as, agreed, List.mem_append_left _ hmem⟩
      · obtain ⟨as, agreed, hmem⟩ := hl.between hp
        exact ⟨as, agreed, List.mem_append_left _ hmem⟩
  | deleteAll =>
      have hbetween : ∀ {phases : List Phase}, (∃ p ∈ phases ++ [.getE2TAddresses], p.Between) ↔
          ∃ p ∈ phases, p.Between := by
        simp [Phase.Between]
      exact ⟨hsound, fun a r hr => (hl.served a r hr).imp_right hbetween.2, hl.serves,
        fun hp => hl.between (hbetween.1 hp)⟩
  | @phase s s' before after p p' ts ts' cs hcs hrun =>
      have htelling := @Phase.always_run_telling s ts hl.sound.wellKeyed p config
      have hrun' := Program.run_of_always htelling hcs (admits_default true)
      rw [hrun] at hrun'
      obtain ⟨heffect, agreed, rfl⟩ := hrun'
      have hsweep : ∀ f : Sweep, ∀ a r, (sweep f s).Serves a r ↔ s.Serves a r :=
        fun f => serves_congr (e2tInstance_swept _ _)
      cases heffect with
      | @dissociateAllRans as e =>
          have hmem : (⟨.dissociateAllRans as, agreed⟩ : Told) ∈
              ts ++ (Phase.dissociateAllRans as).asks.map (⟨·, agreed⟩) := by
            simp [Phase.asks]
          exact ⟨hsound, fun a r _ => .inr ⟨.shuttingDown e, by simp, trivial⟩,
            fun a r _ => .inr ⟨as, agreed, hmem⟩, fun _ => ⟨as, agreed, hmem⟩⟩
      | @clearRans e u =>
          obtain ⟨as, agreed', hmem⟩ := hl.between ⟨.clearRans e u, by simp, trivial⟩
          have hmem' := List.mem_append_left ((Phase.clearRans e u).asks.map (⟨·, agreed⟩)) hmem
          exact ⟨hsound, fun a r hr => absurd hr (not_serves_cleared hl.sound a r),
            fun a r _ => .inr ⟨as, agreed', hmem'⟩, fun _ => ⟨as, agreed', hmem'⟩⟩
      | forceShutdown => exact hl.quiet hsound (hsweep _) Iff.rfl
      | shuttingDown => exact hl.quiet hsound (hsweep _) Iff.rfl
      | shutDown => exact hl.quiet hsound (hsweep _) Iff.rfl
      | _ => exact hl.quiet hsound (fun _ _ => Iff.rfl) Iff.rfl

/-- So it holds of every ledger that is reached. -/
theorem Inv.reachable (h : Reachable codecs config l) : Inv l := by
  induction h with
  | refl => exact .init
  | tail _ hstep ih => exact ih.step hstep

/-- **The database and the routing manager agree**, but for what a delete-all or a failed
request has left. -/
theorem agreement_of_reachable (h : Reachable codecs config l) :
    (∀ a r, l.machine.sdl.Serves a r →
      Routed l.requests a r ∨ ∃ p ∈ l.machine.deleteAlls, p.Between) ∧
    ∀ a r, Routed l.requests a r →
      l.machine.sdl.Serves a r ∨ (∃ t ∈ l.requests, t.Asks a r ∧ t.agreed = false) ∨
        ∃ as agreed, ⟨.dissociateAllRans as, agreed⟩ ∈ l.requests := by
  have hl := Inv.reachable h
  constructor
  · intro a r hr
    refine (hl.served a r hr).imp_left fun hsince => ?_
    exact hsince.imp (fun _ h => h) fun _ _ hparts => hparts.1
  · intro a r hr
    by_cases hfailed : ∃ t ∈ l.requests, t.Asks a r ∧ t.agreed = false
    · exact .inr (.inl hfailed)
    · refine (hl.serves a r (hr.imp (fun _ h => h) fun t ht hasks => ⟨hasks, ?_⟩)).imp_right .inr
      cases hagreed : t.agreed with
      | true => rfl
      | false => exact absurd ⟨t, ht, hasks, hagreed⟩ hfailed

end Ledger

namespace Deployment

/-- The handler of an event, with what the routing manager is told. -/
def tell (cs : List Outcome) (e : Event) (w : Sdl × List Told) : Sdl × List Told :=
  ((e.prog codecs {}).run telling cs w).2

/-- An event with answers that are admitted is a step of the ledger. -/
theorem step_tell {cs : List Outcome} (hcs : ∀ c ∈ cs, Admits true c) (e : Event)
    (w : Sdl × List Told) : Ledger.Step codecs {} ⟨⟨w.1, []⟩, w.2⟩
      ⟨⟨(tell cs e w).1, []⟩, (tell cs e w).2⟩ :=
  .event (e := e) hcs rfl

/-- A RAN that is associated and lost, where the routing manager does not part it. -/
def leftOver : Sdl × List Told :=
  tell (List.replicate 9 { rm := false }) (.ranConnectionLost { ranName := "RAN1", payload := "" })
    (tell [] (x2Setup "RAN1") (tell [] (termInit address₁) (.empty, [])))

/-- The ledger in which a RAN is left over is reachable. -/
theorem reachable_leftOver : Ledger.Reachable codecs {} ⟨⟨leftOver.1, []⟩, leftOver.2⟩ := by
  have hfails : ∀ c ∈ List.replicate 9 ({ rm := false } : Outcome), Admits true c := by
    intro c hc
    obtain rfl := List.eq_of_mem_replicate hc
    exact ⟨rfl, fun h => by cases h⟩
  exact ((Relation.ReflTransGen.single (step_tell (by simp) (termInit address₁) (.empty, []))).tail
    (step_tell (by simp) (x2Setup "RAN1") _)).tail (step_tell hfails _ _)

/-- What the routing manager was told there: the address was added, the RAN associated, and its
dissociation refused. -/
theorem requests_leftOver : leftOver.2 = [⟨.addE2TInstance address₁, true⟩,
    ⟨.associateRanToE2TInstance address₁ "RAN1", true⟩,
    ⟨.dissociateRanE2TInstance address₁ "RAN1", false⟩] := by decide +kernel

/-- So the route to RAN1 is still there. -/
theorem routed_leftOver : Routed leftOver.2 address₁ "RAN1" := by
  rw [requests_leftOver]
  refine ⟨[_], _, [_], rfl, rfl, fun t ht hparts => ?_⟩
  obtain rfl := List.mem_singleton.1 ht
  cases hparts.2

/-- But the termination does not list RAN1 any more. -/
theorem not_serves_leftOver : ¬ leftOver.1.Serves address₁ "RAN1" := by
  have hlist : (leftOver.1.e2tInstance address₁).map (·.associatedRanList) = some [] := by
    decide +kernel
  rintro ⟨i, hi, hr⟩
  rw [hi] at hlist
  have hempty : i.associatedRanList = [] := Option.some.inj hlist
  rw [hempty] at hr
  cases hr

end Deployment

open Deployment in
/-- At the left-over route a dissociation was asked for and refused, as the theorem says. -/
theorem Ledger.agreement_of_reachable_leftOver :
    (∃ t ∈ leftOver.2, t.Asks address₁ "RAN1" ∧ t.agreed = false) ∨
      ∃ as agreed, ⟨.dissociateAllRans as, agreed⟩ ∈ leftOver.2 :=
  ((agreement_of_reachable reachable_leftOver).2 address₁ "RAN1" routed_leftOver).resolve_left
    not_serves_leftOver

end NearRtRic.E2Manager
