/-
# Delete-all among the other handlers

`Machine` is the store with the delete-alls that have started, each at its
phase; a step is one event, the start of a delete-all, or one phase of one of
them (`Machine.Step`).  Its first result is the state machine of a RAN that goes
down: in every reachable state such a RAN has no association, and no step brings
it back to life (`Machine.down_of_reachable`).

`DeleteAllRun` follows one delete-all while other handlers run between its
phases, and keeps what these did.  What one phase leaves for the next is
`Pending`; it is carried through the run, and at the return it says that no RAN
is left half way, and that all is clean that nobody else touched
(`DeleteAllRun.completes`).
-/

import NearRtRic.E2Manager.Lifecycle

namespace NearRtRic.E2Manager

open Effect DeleteAllRequestHandler

/-! ### What one phase does -/

namespace DeleteAllRequestHandler

/-- The store after a sweep over the inventory. -/
def sweep (f : Sweep) (s : Sdl) : Sdl := (swept f (listedNames s) s false).1

/-- A sweep over the inventory wrote. -/
def sweepWrote (f : Sweep) (s : Sdl) : Bool := (swept f (listedNames s) s false).2

/-- What one phase does: the next phase and the store it leaves. -/
inductive Phase.Effect : Phase → Sdl → Phase → Sdl → Prop
  | noAddress {s : Sdl} : s.addresses = [] → Effect .getE2TAddresses s .forceShutdown s
  | addresses {s : Sdl} : Effect .getE2TAddresses s (.dissociateAllRans s.addresses) s
  | forceShutdown {s : Sdl} :
      Effect .forceShutdown s (.returned (.ok none)) (sweep DeleteAllRequestHandler.forceShutdown s)
  | dissociateAllRans {as : List String} {e : Except Err Unit} {s : Sdl} :
      Effect (.dissociateAllRans as) s (.shuttingDown e) s
  | shuttingDown {e : Except Err Unit} {s : Sdl} :
      Effect (.shuttingDown e) s
        (.clearRans e (sweepWrote DeleteAllRequestHandler.shuttingDown s))
        (sweep DeleteAllRequestHandler.shuttingDown s)
  | clearRans {e : Except Err Unit} {u : Bool} {s : Sdl} :
      Effect (.clearRans e u) s (.sctpClearAll e u) (E2TInstancesManager.cleared s.instances s)
  | notSent {e : Except Err Unit} {u : Bool} {s : Sdl} :
      Effect (.sctpClearAll e u) s (.returned (.error .rmr)) s
  | sent {e : Except Err Unit} {s : Sdl} : Effect (.sctpClearAll e true) s (.timer e) s
  | sentNothingToWaitFor {e : Except Err Unit} {s : Sdl} :
      Effect (.sctpClearAll e false) s (.returned (response e)) s
  | timer {e : Except Err Unit} {s : Sdl} : Effect (.timer e) s (.shutDown e) s
  | shutDown {e : Except Err Unit} {s : Sdl} :
      Effect (.shutDown e) s (.returned (response e)) (sweep DeleteAllRequestHandler.shutDown s)
  | returned {r : Response} {s : Sdl} : Effect (.returned r) s (.returned r) s

variable {b : Bool} {config : Configuration} {s s' : Sdl} {p p' : Phase}

/-- Each phase of delete-all, under every supply of outcomes, has the effect its specification
gives. -/
theorem Phase.always_run {P : Sdl → Prop} (hs : s.WellKeyed) (p : Phase) :
    (p.run config).Always exec (Admits b) P (p.Effect s) s := by
  cases p with
  | getE2TAddresses =>
      simp only [run, Program.always_bind, E2TInstancesManager.always_getE2TAddresses]
      split
      · rename_i h
        exact .noAddress (List.isEmpty_iff.1 h)
      · exact .addresses
  | forceShutdown =>
      simp only [run, Program.always_bind,
        always_updateNodebs performs_forceShutdown forceShutdown_lawful hs]
      exact .forceShutdown
  | dissociateAllRans as =>
      simp only [run, Program.always_bind, RoutingManagerClient.always_dissociateAllRans]
      exact fun _ _ => .dissociateAllRans
  | shuttingDown e =>
      simp only [run, Program.always_bind,
        always_updateNodebs performs_shuttingDown shuttingDown_lawful hs]
      exact .shuttingDown
  | clearRans e u =>
      simp only [run, Program.always_bind,
        E2TInstancesManager.always_clearRansOfAllE2TInstances hs]
      exact .clearRans
  | sctpClearAll e u =>
      simp only [run, Program.always_bind, RmrSender.always_send]
      intro sent
      cases sent with
      | false => exact .notSent
      | true =>
          cases u with
          | false => exact .sentNothingToWaitFor
          | true => exact .sent
  | timer e =>
      simp only [run, Program.always_bind, Time.always_sleep]
      exact .timer
  | shutDown e =>
      simp only [run, Program.always_bind,
        always_updateNodebs performs_shutDown shutDown_lawful hs]
      exact .shutDown
  | returned r => exact .returned

/-- A run of one phase, on a store that does not fail. -/
def Phase.Steps (b : Bool) (config : Configuration) (p : Phase) (s : Sdl) (p' : Phase)
    (s' : Sdl) : Prop :=
  ∃ cs : List Outcome, (∀ c ∈ cs, Admits b c) ∧ (p.run config).run exec cs s = (some p', s')

/-- The same of a phase's step: its store is the phase's effect on the store before. -/
theorem Phase.effect_of_steps (hs : s.WellKeyed) (h : p.Steps b config s p' s') :
    p.Effect s p' s' := by
  obtain ⟨cs, hcs, hrun⟩ := h
  have hall : (p.run config).Always exec (Admits b) (fun _ => True) (p.Effect s) s :=
    p.always_run hs
  have heffect := Program.run_of_always hall hcs (admits_default b)
  rwa [hrun] at heffect

/-- Every phase keeps the store sound. -/
theorem Phase.Effect.sound (hs : Sound s) (h : p.Effect s p' s') : Sound s' := by
  cases h with
  | forceShutdown => exact hs.forceShutdown _ _
  | shuttingDown => exact hs.shuttingDown _ _
  | clearRans => exact hs.cleared hs.instances_stored
  | shutDown => exact hs.shutDown _ _
  | _ => exact hs

/-- A sweep over the inventory of a sound store passes over every stored RAN. -/
theorem nodeb_sweep (hs : Sound s) {f : Sweep} (hf : f.Lawful) (r : String) :
    (sweep f s).nodeb r = (s.nodeb r).map f.apply := by
  rw [sweep, nodeb_swept hf hs.wellKeyed]
  split
  · rfl
  · rename_i hr
    cases hn : s.nodeb r with
    | none => rfl
    | some nb => exact absurd ((mem_listedNames s r).2 (hs.listed hn)) hr

end DeleteAllRequestHandler

/-! ### Any number of delete-alls -/

/-- The store, and the delete-alls that have started. -/
structure Machine where
  sdl : Sdl
  deleteAlls : List Phase

namespace Machine

/-- The empty store, before anything has happened. -/
def init : Machine where
  sdl := .empty
  deleteAlls := []

/-- What a step is. -/
inductive Label
  | event (e : Event)
  | deleteAll
  | phase

/-- One step, where the store does not fail and the routing manager may. -/
inductive Step (codecs : Codecs) (config : Configuration) : Label → Machine → Machine → Prop
  | event {m : Machine} {e : Event} {s' : Sdl} :
      e.Steps true codecs config m.sdl s' → Step codecs config (.event e) m { m with sdl := s' }
  | deleteAll {m : Machine} :
      Step codecs config .deleteAll m
        { m with deleteAlls := m.deleteAlls ++ [.getE2TAddresses] }
  | phase {s s' : Sdl} {before after : List Phase} {p p' : Phase} :
      p.Steps true config s p' s' →
        Step codecs config .phase { sdl := s, deleteAlls := before ++ p :: after }
          { sdl := s', deleteAlls := before ++ p' :: after }

/-- The states that the machine reaches. -/
def Reachable (codecs : Codecs) (config : Configuration) : Machine → Prop :=
  Relation.ReflTransGen (fun m m' => ∃ l, Step codecs config l m m') init

variable {codecs : Codecs} {config : Configuration} {m m' : Machine} {l : Label}

/-- Every step of the machine keeps the store sound. -/
theorem Step.sound (hm : Sound m.sdl) (h : Step codecs config l m m') : Sound m'.sdl := by
  cases h with
  | event h => exact Event.sound_of_steps hm h
  | deleteAll => exact hm
  | phase h => exact (Phase.effect_of_steps hm.wellKeyed h).sound hm

/-- So the store of every machine reached from a sound one is sound. -/
theorem Reachable.sound (hm : Reachable codecs config m) : Sound m.sdl := by
  induction hm with
  | refl => exact sound_empty
  | tail _ hstep ih =>
      obtain ⟨l, hstep⟩ := hstep
      exact hstep.sound ih

end Machine

/-- No sweep takes a RAN out of SHUTTING_DOWN but to SHUT_DOWN. -/
theorem DeleteAllRequestHandler.Phase.Effect.held {s s' : Sdl} {p p' : Phase} (hs : Sound s)
    (h : p.Effect s p' s') : Held (fun _ => False) s s' := by
  have hsweep : ∀ {f : Sweep}, f.Lawful →
      (∀ nb : NodebInfo, nb.connectionStatus = .SHUTTING_DOWN →
        (f.apply nb).connectionStatus.Down) → Held (fun _ => False) s (sweep f s) := by
    intro f hf hdown r nb hr hst
    exact ⟨f.apply nb, by rw [nodeb_sweep hs hf, hr, Option.map_some], .inl (hdown nb hst)⟩
  cases h with
  | forceShutdown =>
      refine hsweep forceShutdown_lawful fun nb hst => ?_
      simp [Sweep.apply, DeleteAllRequestHandler.forceShutdown, ConnectionStatus.Down]
  | shuttingDown =>
      refine hsweep shuttingDown_lawful fun nb hst => ?_
      simp [Sweep.apply, DeleteAllRequestHandler.shuttingDown, hst, ConnectionStatus.Down]
  | shutDown =>
      refine hsweep shutDown_lawful fun nb hst => ?_
      simp [Sweep.apply, DeleteAllRequestHandler.shutDown, hst, ConnectionStatus.Down]
  | clearRans => exact .of_kept fun _ _ hr _ => by rwa [E2TInstancesManager.nodeb_cleared]
  | _ => exact .of_kept fun _ _ hr _ => hr

namespace Machine

variable {codecs : Codecs} {config : Configuration} {m m' : Machine} {l : Label}

/-- The RANs that a step may disconnect although they are shutting down. -/
def Label.Drops (l : Label) (s : Sdl) (r : String) : Prop :=
  ∃ a i, l = .event (.keepAliveExpired a) ∧ s.e2tInstance a = some i ∧ r ∈ i.associatedRanList

/-- A step keeps the RANs that are shutting down on their way out, but for those its label drops. -/
theorem Step.held (hm : Sound m.sdl) (h : Step codecs config l m m') :
    Held (l.Drops m.sdl) m.sdl m'.sdl := by
  have hmono : ∀ {D : String → Prop}, (∀ r, D r → l.Drops m.sdl r) →
      Held D m.sdl m'.sdl → Held (l.Drops m.sdl) m.sdl m'.sdl := by
    intro D hD hheld r nb hr hst
    obtain ⟨nb', hr', hst'⟩ := hheld r nb hr hst
    exact ⟨nb', hr', hst'.imp_right fun h => ⟨h.1, hD r h.2⟩⟩
  cases h with
  | @event _ e s' h =>
      refine hmono (fun r hr => ?_) (Event.held hm (Event.effect_of_steps hm h))
      cases e with
      | keepAliveExpired a =>
          obtain ⟨i, hi, hmem⟩ := hr
          exact ⟨a, i, rfl, hi, hmem⟩
      | _ => exact hr.elim
  | deleteAll => exact .of_kept fun _ _ hr _ => hr
  | phase h => exact hmono (fun _ => False.elim) ((Phase.effect_of_steps hm.wellKeyed h).held hm)

/-- **The state machine of a RAN that goes down.**  In every state that the
machine reaches, a RAN that is shutting down or shut down has no association;
and from SHUTTING_DOWN a step leads to SHUT_DOWN only, or to DISCONNECTED where
it shuts down an E2 termination that still lists the RAN. -/
theorem down_of_reachable (hm : Reachable codecs config m) :
    (∀ r nb, m.sdl.nodeb r = some nb →
      nb.connectionStatus = .SHUTTING_DOWN ∨ nb.connectionStatus = .SHUT_DOWN →
        nb.associatedE2TInstanceAddress = "") ∧
    ∀ l m', Step codecs config l m m' → ∀ r nb, m.sdl.nodeb r = some nb →
      nb.connectionStatus = .SHUTTING_DOWN → ∃ nb', m'.sdl.nodeb r = some nb' ∧
        (nb'.connectionStatus = .SHUTTING_DOWN ∨ nb'.connectionStatus = .SHUT_DOWN ∨
          nb'.connectionStatus = .DISCONNECTED ∧ ∃ a i, l = .event (.keepAliveExpired a) ∧
            m.sdl.e2tInstance a = some i ∧ r ∈ i.associatedRanList) := by
  refine ⟨fun r nb hr hdown => hm.sound.down hr hdown, fun l m' hstep r nb hr hst => ?_⟩
  obtain ⟨nb', hr', hst'⟩ := hstep.held hm.sound r nb hr hst
  refine ⟨nb', hr', ?_⟩
  rcases hst' with (h | h) | h
  · exact .inl h
  · exact .inr (.inl h)
  · exact .inr (.inr h)

end Machine

namespace Deployment

/-- The store after a phase on which every call succeeds. -/
def runPhase (p : Phase) (s : Sdl) : Sdl := ((p.run {}).run exec [] s).2

/-- A phase run with no failing call is a step of that phase. -/
theorem steps_runPhase {p p' : Phase} {s : Sdl} (h : ((p.run {}).run exec [] s).1 = some p') :
    p.Steps true {} s p' (runPhase p s) := ⟨[], by simp, Prod.ext h rfl⟩

/-- One termination and one RAN, connected through it. -/
def connected : Sdl := after [termInit address₁, x2Setup "RAN1"]

/-- The machine with the connected store is reachable. -/
theorem reachable_connected :
    Machine.Reachable codecs {} { sdl := connected, deleteAlls := [] } := by
  have h₁ : Machine.Reachable codecs {} { sdl := after [termInit address₁], deleteAlls := [] } :=
    .single ⟨_, .event (steps_next true _ _)⟩
  exact h₁.tail ⟨_, .event (steps_next true _ _)⟩

/-- The same after the first sweep of a delete-all. -/
def halfway : Machine where
  sdl := runPhase (.shuttingDown (.ok ())) connected
  deleteAlls := [.clearRans (.ok ()) true]

/-- The machine between the first and the second phase is reachable. -/
theorem reachable_halfway : Machine.Reachable codecs {} halfway := by
  have h₀ : Machine.Reachable codecs {}
      { sdl := connected, deleteAlls := [.getE2TAddresses] } :=
    reachable_connected.tail ⟨_, .deleteAll⟩
  have h₁ : Machine.Reachable codecs {}
      { sdl := connected, deleteAlls := [.dissociateAllRans [address₁]] } :=
    h₀.tail ⟨_, @Machine.Step.phase codecs {} connected connected [] [] .getE2TAddresses _
      (steps_runPhase rfl)⟩
  have h₂ : Machine.Reachable codecs {}
      { sdl := connected, deleteAlls := [.shuttingDown (.ok ())] } :=
    h₁.tail ⟨_, @Machine.Step.phase codecs {} connected connected [] []
      (.dissociateAllRans [address₁]) _ (steps_runPhase rfl)⟩
  exact h₂.tail ⟨_, @Machine.Step.phase codecs {} connected _ [] [] (.shuttingDown (.ok ())) _
    (steps_runPhase rfl)⟩

end Deployment

open Machine in
/-- The RAN of the deployment, in the middle of a delete-all. -/
theorem Machine.down_of_reachable_halfway :
    (∃ nb, Deployment.halfway.sdl.nodeb "RAN1" = some nb ∧
      nb.connectionStatus = .SHUTTING_DOWN ∧ nb.associatedE2TInstanceAddress = "") ∧
    ∀ l m', Step Deployment.codecs {} l Deployment.halfway m' → ∃ nb',
      m'.sdl.nodeb "RAN1" = some nb' ∧ (nb'.connectionStatus = .SHUTTING_DOWN ∨
        nb'.connectionStatus = .SHUT_DOWN ∨ nb'.connectionStatus = .DISCONNECTED) := by
  obtain ⟨hdown, hstep⟩ := down_of_reachable Deployment.reachable_halfway
  obtain ⟨nb, hnb, hst⟩ : ∃ nb, Deployment.halfway.sdl.nodeb "RAN1" = some nb ∧
      nb.connectionStatus = .SHUTTING_DOWN := ⟨_, rfl, rfl⟩
  refine ⟨⟨nb, hnb, hst, hdown _ nb hnb (.inl hst)⟩, fun l m' h => ?_⟩
  obtain ⟨nb', hnb', h | h | h⟩ := hstep l m' h "RAN1" nb hnb hst
  · exact ⟨nb', hnb', .inl h⟩
  · exact ⟨nb', hnb', .inr (.inl h)⟩
  · exact ⟨nb', hnb', .inr (.inr h.1)⟩

/-! ### The run of one delete-all -/

/-- One delete-all from the store `s₀` on, with other handlers between its
phases: the phase it stands at, the store, and the steps of the others, each as
the stores before and after it. -/
inductive DeleteAllRun (codecs : Codecs) (config : Configuration) (s₀ : Sdl) :
    Phase → Sdl → List (Sdl × Sdl) → Prop
  | start : DeleteAllRun codecs config s₀ .getE2TAddresses s₀ []
  | phase {p p' : Phase} {s s' : Sdl} {others : List (Sdl × Sdl)} :
      DeleteAllRun codecs config s₀ p s others → p.Steps true config s p' s' →
        DeleteAllRun codecs config s₀ p' s' others
  | other {p : Phase} {s s' : Sdl} {others : List (Sdl × Sdl)} {e : Event} :
      DeleteAllRun codecs config s₀ p s others → e.Steps true codecs config s s' →
        DeleteAllRun codecs config s₀ p s' (others ++ [(s, s')])

/-- No other handler has changed what `f` reads. -/
def Untouched {α : Type} (f : Sdl → α) (others : List (Sdl × Sdl)) : Prop :=
  ∀ step ∈ others, f step.2 = f step.1

/-- One more step of another handler leaves `f` untouched if it does so itself and the others
before it did. -/
theorem untouched_append {α : Type} {f : Sdl → α} {others : List (Sdl × Sdl)} {s s' : Sdl} :
    Untouched f (others ++ [(s, s')]) ↔ Untouched f others ∧ f s' = f s := by
  simp [Untouched, or_imp, forall_and]

/-- No RAN is shutting down. -/
def NoneShuttingDown (s : Sdl) : Prop :=
  ∀ r nb, s.nodeb r = some nb → nb.connectionStatus ≠ .SHUTTING_DOWN

/-- Every RAN that no other handler touched has a status that satisfies `D`. -/
def RansUntouched (D : ConnectionStatus → Prop) (others : List (Sdl × Sdl)) (s : Sdl) : Prop :=
  ∀ r nb, s.nodeb r = some nb → Untouched (·.nodeb r) others → D nb.connectionStatus

/-- Every instance that no other handler touched lists no RAN. -/
def InstancesUntouched (others : List (Sdl × Sdl)) (s : Sdl) : Prop :=
  ∀ a i, s.e2tInstance a = some i → Untouched (·.e2tInstance a) others → i.associatedRanList = []

/-- What the phases so far have achieved for a delete-all at a phase. -/
def Pending (others : List (Sdl × Sdl)) (s : Sdl) : Phase → Prop
  | .forceShutdown => InstancesUntouched others s
  | .clearRans _ u => RansUntouched ConnectionStatus.Down others s ∧
      (u = false → NoneShuttingDown s ∧ RansUntouched (· = .SHUT_DOWN) others s)
  | .sctpClearAll _ u => (RansUntouched ConnectionStatus.Down others s ∧
      (u = false → NoneShuttingDown s ∧ RansUntouched (· = .SHUT_DOWN) others s)) ∧
      InstancesUntouched others s
  | .timer _ => RansUntouched ConnectionStatus.Down others s ∧ InstancesUntouched others s
  | .shutDown _ => RansUntouched ConnectionStatus.Down others s ∧ InstancesUntouched others s
  | .returned (.ok _) => NoneShuttingDown s ∧ RansUntouched (· = .SHUT_DOWN) others s ∧
      InstancesUntouched others s
  | _ => True

section Pending

variable {others : List (Sdl × Sdl)} {s s' : Sdl} {p p' : Phase}

/-- Where no RAN is shutting down and none begins to, none is shutting down afterwards. -/
theorem NoneShuttingDown.of_from (h : NoneShuttingDown s) (hs : ShuttingDownFrom s s') :
    NoneShuttingDown s' := fun r nb hr hst => h r nb (hs r nb hr hst) hst

/-- RANs the others left alone before stay accounted for after one more step of another handler. -/
theorem RansUntouched.other {D : ConnectionStatus → Prop} (h : RansUntouched D others s) :
    RansUntouched D (others ++ [(s, s')]) s' := by
  intro r nb hr hunt
  obtain ⟨hold, heq⟩ := untouched_append.1 hunt
  exact h r nb (heq ▸ hr) hold

/-- Instances the others left alone before stay accounted for after one more step of another
handler. -/
theorem InstancesUntouched.other (h : InstancesUntouched others s) :
    InstancesUntouched (others ++ [(s, s')]) s' := by
  intro a i hi hunt
  obtain ⟨hold, heq⟩ := untouched_append.1 hunt
  exact h a i (heq ▸ hi) hold

/-- A step of another handler leaves to each phase what it was promised. -/
theorem Pending.other (h : Pending others s p) (hfrom : ShuttingDownFrom s s') :
    Pending (others ++ [(s, s')]) s' p := by
  cases p with
  | forceShutdown => exact h.other
  | clearRans e u => exact ⟨h.1.other, fun hu => ⟨(h.2 hu).1.of_from hfrom, (h.2 hu).2.other⟩⟩
  | sctpClearAll e u =>
      exact ⟨⟨h.1.1.other, fun hu => ⟨(h.1.2 hu).1.of_from hfrom, (h.1.2 hu).2.other⟩⟩, h.2.other⟩
  | timer e => exact ⟨h.1.other, h.2.other⟩
  | shutDown e => exact ⟨h.1.other, h.2.other⟩
  | returned r =>
      cases r with
      | error err => trivial
      | ok message => exact ⟨h.1.of_from hfrom, h.2.1.other, h.2.2.other⟩
  | _ => trivial

/-- A sound store that lists no address has no termination instance. -/
theorem not_mem_addresses_of_nil (hs : Sound s) (h : s.addresses = []) (a : String) :
    s.e2tInstance a = none := by
  have hmem : a ∉ s.addresses := by simp [h]
  rw [hs.mem_addresses] at hmem
  exact Option.not_isSome_iff_eq_none.1 hmem

/-- A sweep leaves every status as `D` says. -/
theorem sweep_all (D : ConnectionStatus → Prop) (hs : Sound s) {f : Sweep} (hf : f.Lawful)
    (hD : ∀ r nb, s.nodeb r = some nb → D (f.apply nb).connectionStatus) (r : String)
    (nb : NodebInfo) (hr : (sweep f s).nodeb r = some nb) : D nb.connectionStatus := by
  rw [nodeb_sweep hs hf] at hr
  obtain ⟨nb₀, h₀, rfl⟩ := Option.map_eq_some_iff.1 hr
  exact hD r nb₀ h₀

/-- A sweep over the RANs leaves the termination instances as they are. -/
theorem e2tInstance_sweep (f : Sweep) : (sweep f s).e2tInstance = s.e2tInstance :=
  e2tInstance_swept ..

/-- A sweep that wrote nothing found every listed RAN as it wants it. -/
theorem none_of_sweepWrote (hs : Sound s) {f : Sweep} (h : sweepWrote f s = false) {r : String}
    {nb : NodebInfo} (hr : s.nodeb r = some nb) : f nb = none := by
  have hmem : r ∈ listedNames s := (mem_listedNames s r).2 (hs.listed hr)
  have := (swept_not_wrote h).2 r hmem
  rwa [hr, Option.bind_some] at this

/-- **Each phase achieves what the next one is promised.** -/
theorem Pending.phase (hs : Sound s) (h : Pending others s p) (he : p.Effect s p' s') :
    Pending others s' p' := by
  cases he with
  | noAddress hnil =>
      intro a i hi _
      rw [not_mem_addresses_of_nil hs hnil] at hi
      cases hi
  | addresses => trivial
  | forceShutdown =>
      have hshut : ∀ r nb, (sweep DeleteAllRequestHandler.forceShutdown s).nodeb r = some nb →
          nb.connectionStatus = .SHUT_DOWN := by
        refine sweep_all (· = .SHUT_DOWN) hs forceShutdown_lawful fun r nb _ => ?_
        simp [Sweep.apply, DeleteAllRequestHandler.forceShutdown]
      refine ⟨fun r nb hr hst => ?_, fun r nb hr _ => hshut r nb hr, fun a i hi hunt => ?_⟩
      · rw [hshut r nb hr] at hst
        cases hst
      · rw [e2tInstance_sweep] at hi
        exact h a i hi hunt
  | dissociateAllRans => trivial
  | shuttingDown =>
      refine ⟨fun r nb hr _ => ?_, fun hu => ?_⟩
      · refine sweep_all ConnectionStatus.Down hs shuttingDown_lawful (fun r nb hr => ?_) r nb hr
        by_cases hst : nb.connectionStatus = .SHUT_DOWN <;>
          simp [Sweep.apply, DeleteAllRequestHandler.shuttingDown, hst, ConnectionStatus.Down]
      · -- nothing was written, so every RAN was shut down before the sweep
        have hshut : ∀ r nb, (sweep DeleteAllRequestHandler.shuttingDown s).nodeb r = some nb →
            nb.connectionStatus = .SHUT_DOWN := by
          refine sweep_all (· = .SHUT_DOWN) hs shuttingDown_lawful fun r nb hr => ?_
          have hnone := none_of_sweepWrote hs hu hr
          unfold DeleteAllRequestHandler.shuttingDown at hnone
          split at hnone
          · rename_i hst
            simp [Sweep.apply, DeleteAllRequestHandler.shuttingDown, hst]
          · cases hnone
        refine ⟨fun r nb hr hst => ?_, fun r nb hr _ => hshut r nb hr⟩
        rw [hshut r nb hr] at hst
        cases hst
  | clearRans =>
      have hn : (E2TInstancesManager.cleared s.instances s).nodeb = s.nodeb :=
        E2TInstancesManager.nodeb_cleared _
      refine ⟨⟨fun r nb hr => h.1 r nb (hn ▸ hr), fun hu => ?_⟩, fun a i hi _ => ?_⟩
      · exact ⟨fun r nb hr => (h.2 hu).1 r nb (hn ▸ hr),
          fun r nb hr => (h.2 hu).2 r nb (hn ▸ hr)⟩
      · rw [e2tInstance_clearedAll hs] at hi
        obtain ⟨i₀, -, rfl⟩ := Option.map_eq_some_iff.1 hi
        rfl
  | notSent => trivial
  | sent => exact ⟨h.1.1, h.2⟩
  | sentNothingToWaitFor =>
      rename_i e
      cases e <;> exact ⟨(h.1.2 rfl).1, (h.1.2 rfl).2, h.2⟩
  | timer => exact h
  | shutDown =>
      rename_i e
      have hnone : NoneShuttingDown (sweep DeleteAllRequestHandler.shutDown s) := by
        refine sweep_all (· ≠ .SHUTTING_DOWN) hs shutDown_lawful fun r nb _ => ?_
        by_cases hst : nb.connectionStatus = .SHUTTING_DOWN <;>
          simp [Sweep.apply, DeleteAllRequestHandler.shutDown, hst]
      have hshut : RansUntouched (· = .SHUT_DOWN) others
          (sweep DeleteAllRequestHandler.shutDown s) := by
        intro r nb hr hunt
        rw [nodeb_sweep hs shutDown_lawful] at hr
        obtain ⟨nb₀, h₀, rfl⟩ := Option.map_eq_some_iff.1 hr
        rcases h.1 r nb₀ h₀ hunt with hst | hst <;>
          simp [Sweep.apply, DeleteAllRequestHandler.shutDown, hst]
      have hinst : InstancesUntouched others (sweep DeleteAllRequestHandler.shutDown s) :=
        fun a i hi => h.2 a i (by rwa [e2tInstance_sweep] at hi)
      cases e <;> exact ⟨hnone, hshut, hinst⟩
  | returned => exact h

end Pending

namespace DeleteAllRun

variable {codecs : Codecs} {config : Configuration} {s₀ s : Sdl} {p : Phase}
  {others : List (Sdl × Sdl)}

/-- The store is sound at every point of a delete-all run that began in a sound one. -/
theorem sound (h₀ : Sound s₀) (h : DeleteAllRun codecs config s₀ p s others) : Sound s := by
  induction h with
  | start => exact h₀
  | phase _ hp ih => exact (Phase.effect_of_steps ih.wellKeyed hp).sound ih
  | other _ he ih => exact Event.sound_of_steps ih he

/-- The run lemma: what the phases have achieved stays, whoever steps between. -/
theorem pending (h₀ : Sound s₀) (h : DeleteAllRun codecs config s₀ p s others) :
    Pending others s p := by
  induction h with
  | start => trivial
  | phase hrun hp ih =>
      have hs := hrun.sound h₀
      exact ih.phase hs (Phase.effect_of_steps hs.wellKeyed hp)
  | other hrun he ih =>
      have hs := hrun.sound h₀
      exact ih.other (Event.shuttingDownFrom hs (Event.effect_of_steps hs he))

/-- **Delete-all completes.**  A delete-all that starts in a reachable state and
returns without error, whatever other handlers ran between its phases, leaves no
RAN shutting down; every RAN that no other handler touched is shut down without
association, and every E2 termination that no other handler touched lists no
RAN. -/
theorem completes {m : Machine} (hm : Machine.Reachable codecs config m)
    {message : Option String}
    (h : DeleteAllRun codecs config m.sdl (.returned (.ok message)) s others) :
    (∀ r nb, s.nodeb r = some nb → nb.connectionStatus ≠ .SHUTTING_DOWN) ∧
    (∀ r nb, s.nodeb r = some nb → Untouched (·.nodeb r) others →
      nb.connectionStatus = .SHUT_DOWN ∧ nb.associatedE2TInstanceAddress = "") ∧
    ∀ a i, s.e2tInstance a = some i → Untouched (·.e2tInstance a) others →
      i.associatedRanList = [] := by
  obtain ⟨hnone, hshut, hinst⟩ := h.pending hm.sound
  refine ⟨hnone, fun r nb hr hunt => ?_, hinst⟩
  have hst := hshut r nb hr hunt
  exact ⟨hst, (h.sound hm.sound).down hr (.inr hst)⟩

end DeleteAllRun

namespace Deployment

/-- A second termination registers in the middle of the delete-all. -/
def joined : Sdl := next halfway.sdl (termInit address₂)

/-- The store when the delete-all returns. -/
def deleted : Sdl := runPhase (.shutDown (.ok ())) (runPhase (.clearRans (.ok ()) true) joined)

/-- The delete-all between whose phases another RAN joins is such a run. -/
theorem run_deleted : DeleteAllRun codecs {} connected (.returned (.ok none)) deleted
    [(halfway.sdl, joined)] := by
  have h₁ : DeleteAllRun codecs {} connected (.clearRans (.ok ()) true) halfway.sdl [] :=
    .phase (.phase (.phase .start (steps_runPhase rfl)) (steps_runPhase rfl)) (steps_runPhase rfl)
  have h₂ : DeleteAllRun codecs {} connected (.clearRans (.ok ()) true) joined
      [(halfway.sdl, joined)] := .other h₁ (steps_next true _ _)
  have h₃ : DeleteAllRun codecs {} connected (.sctpClearAll (.ok ()) true)
      (runPhase (.clearRans (.ok ()) true) joined) [(halfway.sdl, joined)] :=
    .phase h₂ (steps_runPhase (by decide +kernel))
  have h₄ : DeleteAllRun codecs {} connected (.shutDown (.ok ()))
      (runPhase (.clearRans (.ok ()) true) joined) [(halfway.sdl, joined)] :=
    .phase (.phase h₃ ⟨[], by simp, rfl⟩) ⟨[], by simp, rfl⟩
  exact .phase h₄ (steps_runPhase (by decide +kernel))

end Deployment

open Deployment in
/-- The RAN and the first termination of the deployment. -/
theorem DeleteAllRun.completes_deleted :
    (∃ nb, deleted.nodeb "RAN1" = some nb ∧ nb.connectionStatus = .SHUT_DOWN ∧
      nb.associatedE2TInstanceAddress = "") ∧
    ∃ i, deleted.e2tInstance address₁ = some i ∧ i.associatedRanList = [] := by
  obtain ⟨-, hran, hinst⟩ := completes reachable_connected run_deleted
  have hnb : (deleted.nodeb "RAN1").isSome := by decide +kernel
  have hi : (deleted.e2tInstance address₁).isSome := by decide +kernel
  obtain ⟨nb, hnb⟩ := Option.isSome_iff_exists.1 hnb
  obtain ⟨i, hi⟩ := Option.isSome_iff_exists.1 hi
  have hsame : joined.nodeb "RAN1" = halfway.sdl.nodeb "RAN1" := by decide +kernel
  have hsame' : joined.e2tInstance address₁ = halfway.sdl.e2tInstance address₁ := by decide +kernel
  refine ⟨⟨nb, hnb, hran "RAN1" nb hnb ?_⟩, i, hi, hinst address₁ i hi ?_⟩
  · simpa [Untouched] using hsame
  · simpa [Untouched] using hsame'

end NearRtRic.E2Manager
