/-
# Who gets connected

A RAN is connected while its record says CONNECTED.  `Connects R s s'` says that a step from
`s` to `s'` connects no RAN but those of `R`.  An E2 setup request and a setup response may
connect the RAN that they are from, and no other event, and no phase of a delete-all, may
connect any (`Machine.Step.connects`).  So, whatever runs beside it, a RAN that is connected
has set up since it last lost its connection (`Machine.since_of_connected`).

An X2 or ENDC setup request over HTTP is the one that needs a look: associating the RAN
writes CONNECTED, and CONNECTING is written over it before the handler returns.
-/

import NearRtRic.E2Manager.RedButton
import NearRtRic.Trace.Since

namespace NearRtRic.E2Manager

open Effect

/-- The record of the RAN says CONNECTED. -/
def Connected (s : Sdl) (r : String) : Prop :=
  ∃ nb, s.nodeb r = some nb ∧ nb.connectionStatus = .CONNECTED

/-- No RAN gets connected but those of `R`. -/
def Connects (R : String → Prop) (s s' : Sdl) : Prop :=
  ∀ r, Connected s' r → R r ∨ Connected s r

/-- The RAN that an event may connect. -/
def Event.SetsUp : Event → String → Prop
  | e2SetupRequest request, r => r = request.ranName
  | setupResponse _ request, r => r = request.ranName
  | _, _ => False

variable {b : Bool} {R R' : String → Prop} {s s' s'' : Sdl}

namespace Connects

/-- Doing nothing connects no RAN. -/
theorem refl : Connects R s s := fun _ h => .inr h

/-- A step that connects the RANs of a set connects those of every larger set. -/
theorem mono (h : Connects R s s') (hR : ∀ r, R r → R' r) : Connects R' s s' :=
  fun r hr => (h r hr).imp_left (hR r)

/-- Two steps that connect RANs of the set only do so together. -/
theorem trans (h : Connects R s s') (h' : Connects R s' s'') : Connects R s s'' := by
  intro r hr
  rcases h' r hr with hr | hr
  · exact .inl hr
  · exact h r hr

/-- A step that leaves the RANs' records as they are connects none. -/
theorem of_nodeb_eq (h : s'.nodeb = s.nodeb) : Connects R s s' := by
  rintro r ⟨nb, hnb, hst⟩
  exact .inr ⟨nb, h ▸ hnb, hst⟩

/-- The record of one RAN changes. -/
theorem of_update {r : String} {x : Option NodebInfo}
    (h : s'.nodeb = Function.update s.nodeb r x)
    (hx : ∀ nb, x = some nb → nb.connectionStatus = .CONNECTED → R r ∨ Connected s r) :
    Connects R s s' := by
  rintro r' ⟨nb, hnb, hst⟩
  rw [h, Function.update_apply] at hnb
  split at hnb
  · rename_i heq
    exact heq ▸ hx nb hnb hst
  · exact .inr ⟨nb, hnb, hst⟩

end Connects

/-! ### The loss of a connection -/

namespace RanDisconnectionManager

/-- A record that `disconnected` has gone over is not connected. -/
theorem disconnected_ne (nb : NodebInfo) : (disconnected nb).connectionStatus ≠ .CONNECTED := by
  unfold disconnected
  split <;> simp_all

/-- Disconnecting a RAN connects none. -/
theorem connects_disconnect (hs : s.WellKeyed) (r : String) : Connects R s (disconnect r s) := by
  refine .of_update (nodeb_disconnect hs r) fun nb hnb hst => ?_
  obtain ⟨nb₀, -, rfl⟩ := Option.map_eq_some_iff.1 hnb
  exact absurd hst (disconnected_ne nb₀)

/-- Its RAN is not connected afterwards. -/
theorem not_connected_disconnect (hs : s.WellKeyed) (r : String) :
    ¬ Connected (disconnect r s) r := by
  rintro ⟨nb, hnb, hst⟩
  rw [nodeb_disconnect hs, Function.update_self] at hnb
  obtain ⟨nb₀, -, rfl⟩ := Option.map_eq_some_iff.1 hnb
  exact disconnected_ne nb₀ hst

/-- Disconnecting a list of RANs connects none. -/
theorem connects_disconnectAll (hs : Sound s) (rs : List String) :
    Connects R s (disconnectAll rs s) := by
  induction rs generalizing s with
  | nil => exact .refl
  | cons r rs ih => exact (connects_disconnect hs.wellKeyed r).trans (ih (hs.disconnect r))

end RanDisconnectionManager

/-! ### Setup handlers -/

/-- A move of the association connects its own RAN at most. -/
theorem RanMove.connects {C : NodebInfo → Prop} {r : String} (hs : s.WellKeyed)
    (h : RanMove b C r s s') : Connects (· = r) s s' := by
  obtain ⟨-, nb, -, heq⟩ := h.nodeb_eq hs
  exact .of_update heq fun _ _ _ => .inl rfl

/-- Several moves of one RAN connect that RAN at most. -/
theorem RanMoves.connects {C : NodebInfo → Prop} {r : String} (hs : Sound s)
    (h : RanMoves b C r s s') : Connects (· = r) s s' := by
  induction h with
  | refl => exact .refl
  | tail hms hm ih => exact ih.trans (hm.connects (hs.ranMoves hms).wellKeyed)

/-- `ExecuteSetup` leaves the status that it is given, or DISCONNECTED. -/
theorem RanSetupManager.leaves_executeSetup_status {nb : NodebInfo}
    (hne : nb.ranName ≠ "") (st : ConnectionStatus) :
    Leaves b (fun s' => ∃ st', (st' = st ∨ st' = .DISCONNECTED) ∧
      s'.nodeb = Function.update s.nodeb nb.ranName (some (nb.setStatus st')))
      (executeSetup nb st) s := by
  have hput : ∀ st, (nb.setStatus st).ranName ≠ "" := fun st => by simpa using hne
  simp only [Leaves, executeSetup, Program.always_bind,
    RNibDataService.always_updateNodebInfo (hput _)]
  split
  · exact ⟨st, .inl rfl, by simp⟩
  · simp only [Program.always_bind, RmrSender.always_send]
    intro sent
    split
    · exact ⟨st, .inl rfl, by simp⟩
    · simp only [Program.always_bind, RNibDataService.always_updateNodebInfo (hput _)]
      exact ⟨.DISCONNECTED, .inr rfl, by simp⟩

namespace SetupRequestHandler

/-- Associating and sending a setup request leaves the RAN connecting or disconnected. -/
theorem leaves_associateAndSetup_status (hs : s.WellKeyed) {a : String} {nb : NodebInfo}
    (hne : nb.ranName ≠ "") (ha : (s.e2tInstance a).isSome) :
    Leaves b (fun s' => ∃ nb', nb'.connectionStatus ≠ .CONNECTED ∧
      s'.nodeb = Function.update s.nodeb nb.ranName (some nb')) (associateAndSetup a nb) s := by
  simp only [Leaves, associateAndSetup, Program.always_bind,
    E2TAssociationManager.always_associateRan hs a hne]
  intro up _
  cases up with
  | false =>
      refine ⟨E2TAssociationManager.associated a nb (.error .routingManager), ?_, ?_⟩
      · simp [E2TAssociationManager.associated]
      · rw [nodeb_associate]
        rfl
  | true =>
      simp only [E2TAssociationManager.associateResult, E2TInstancesManager.foundOrDbError, ha,
        if_true]
      refine Leaves.mono (RanSetupManager.leaves_executeSetup_status (by simpa using hne)
        .CONNECTING) ?_
      rintro s' ⟨st', hst', heq⟩
      rw [nodeb_associate, E2TAssociationManager.associated_ranName, Function.update_idem] at heq
      exact ⟨_, by rcases hst' with rfl | rfl <;> simp, heq⟩

/-- **A setup request over HTTP connects no RAN.** -/
theorem leaves_handle_connects (hs : s.WellKeyed) (codecs : Codecs)
    (protocol : E2ApplicationProtocol) (request : SetupRequest) :
    Leaves b (Connects R s) (handle codecs protocol request) s := by
  have hupdate : ∀ (r : String) (s' : Sdl), (∃ nb' : NodebInfo,
      nb'.connectionStatus ≠ .CONNECTED ∧ s'.nodeb = Function.update s.nodeb r (some nb')) →
        Connects R s s' := by
    rintro r s' ⟨nb', hst, heq⟩
    exact .of_update heq fun nb hnb hconnected => absurd (Option.some.inj hnb ▸ hconnected) hst
  unfold Leaves handle
  split
  · exact .refl
  simp only [Program.always_bind, RNibDataService.always_getNodeb]
  split
  · rename_i hr
    obtain ⟨hne, -⟩ := getNodeb_eq_notFound hr
    simp only [connectNewRan, Program.always_bind]
    refine E2TInstancesManager.always_selectE2TInstance hs _ (fun _ => .refl) fun a ha => ?_
    simp only [Program.always_bind, RNibDataService.always_saveNodeb]
    split
    · rename_i s₁ hsave
      obtain ⟨-, hnodeb, hinstance, -⟩ := saveNodeb_ok hsave
      have hs₁ : s₁.WellKeyed := hs.saveNodeb (by simp [createInitialNodeInfo]) hsave
      refine Leaves.mono (leaves_associateAndSetup_status hs₁
        (by simpa [createInitialNodeInfo] using hne) (by rwa [hinstance])) ?_
      rintro s' ⟨nb', hst, heq⟩
      refine hupdate request.ranName s' ⟨nb', hst, heq.trans ?_⟩
      rw [hnodeb]
      exact Function.update_idem ..
    · exact .refl
  · exact .refl
  · rename_i nb hr
    have hnb : s.nodeb request.ranName = some nb := hs.getNodeb_eq_ok.1 hr
    have hname : nb.ranName = request.ranName := (hs.nodeb hnb).1
    have hne : nb.ranName ≠ "" := hs.ranName_ne hnb
    split
    · exact .refl
    split
    · simp only [connectExistingRanWithAssociatedE2TAddress, Program.always_bind,
        RNibDataService.always_updateNodebInfo hne]
      refine Leaves.mono (RanSetupManager.leaves_executeSetup_status hne _) ?_
      rintro s' ⟨st', hst', heq⟩
      rw [Sdl.nodeb_putNodeb, Function.update_idem] at heq
      refine .of_update heq fun nb' hnb' hconnected => .inr ?_
      obtain rfl := Option.some.inj hnb'
      rw [setStatus_status] at hconnected
      have hold : nb.connectionStatus = .CONNECTED := by
        by_contra hnot
        rw [if_neg hnot] at hst'
        rcases hst' with rfl | rfl <;> cases hconnected
      exact ⟨nb, by rw [hname, hnb], hold⟩
    · simp only [connectExistingRanWithoutAssociatedE2TAddress, Program.always_bind]
      refine E2TInstancesManager.always_selectE2TInstance hs _ (fun e => ?_) fun a ha => ?_
      · dsimp only
        split
        · exact .refl
        · simp only [Program.always_bind, RNibDataService.always_updateNodebInfo
            (show (nb.setStatus .DISCONNECTED).ranName ≠ "" by simpa using hne)]
          exact hupdate nb.ranName _ ⟨nb.setStatus .DISCONNECTED, by simp, by simp⟩
      · exact Leaves.mono (leaves_associateAndSetup_status hs hne ha) (hupdate nb.ranName)

end SetupRequestHandler

/-! ### Events and delete-alls -/

/-- **Whom an event connects.** -/
theorem Event.connects {codecs : Codecs} {config : Configuration} (hs : Sound s) {e : Event}
    (h : e.Steps b codecs config s s') : Connects e.SetsUp s s' := by
  have heffect := e.effect_of_steps hs h
  cases e with
  | e2SetupRequest request =>
      rcases heffect with rfl | hmove
      · exact .refl
      · exact hmove.connects hs.wellKeyed
  | setupRequest protocol request =>
      obtain ⟨cs, hcs, rfl⟩ := h
      have hleaves : Leaves b (Connects (Event.SetsUp (.setupRequest protocol request)) s)
          (Event.prog codecs config (.setupRequest protocol request)) s :=
        Program.always_bind_of (SetupRequestHandler.leaves_handle_connects hs.wellKeyed codecs
          protocol request) fun _ _ h => h
      exact Program.run_state_of_always hleaves hcs (admits_default b)
  | setupResponse msgType request => exact RanMoves.connects hs heffect
  | ranConnectionLost request =>
      obtain rfl := heffect
      exact RanDisconnectionManager.connects_disconnect hs.wellKeyed _
  | e2TermInit request =>
      rcases heffect with rfl | ⟨a, podName, t, -, -, rfl⟩ | ⟨rs, rfl⟩
      · exact .refl
      · exact .of_nodeb_eq (by simp [Sdl.register])
      · exact RanDisconnectionManager.connects_disconnectAll hs rs
  | keepAliveResponse a =>
      rcases heffect with rfl | ⟨i, t, -, rfl⟩
      · exact .refl
      · exact .of_nodeb_eq (by simp)
  | keepAliveExpired a =>
      rcases heffect with rfl | ⟨i, now, hi, rfl⟩
      · exact .refl
      · rintro r ⟨nb, hnb, hst⟩
        rcases nodeb_down hs.wellKeyed hi now r with heq | ⟨-, heq⟩
        · exact .inr ⟨nb, heq ▸ hnb, hst⟩
        · rw [heq] at hnb
          obtain ⟨nb₀, -, rfl⟩ := Option.map_eq_some_iff.1 hnb
          simp [E2TShutdownManager.disassociated] at hst

/-- No phase of a delete-all connects a RAN. -/
theorem DeleteAllRequestHandler.Phase.Effect.connects {p p' : Phase} (hs : Sound s)
    (h : p.Effect s p' s') : Connects R s s' := by
  have hsweep : ∀ {f : Sweep}, f.Lawful → (∀ nb : NodebInfo,
      (f.apply nb).connectionStatus = .CONNECTED → nb.connectionStatus = .CONNECTED) →
        Connects R s (sweep f s) := by
    rintro f hf hst r ⟨nb, hnb, hconnected⟩
    rw [nodeb_sweep hs hf] at hnb
    obtain ⟨nb₀, hnb₀, rfl⟩ := Option.map_eq_some_iff.1 hnb
    exact .inr ⟨nb₀, hnb₀, hst nb₀ hconnected⟩
  cases h with
  | forceShutdown =>
      refine hsweep forceShutdown_lawful fun nb hst => ?_
      simp [Sweep.apply, DeleteAllRequestHandler.forceShutdown] at hst
  | shuttingDown =>
      refine hsweep shuttingDown_lawful fun nb hst => ?_
      unfold Sweep.apply DeleteAllRequestHandler.shuttingDown at hst
      split at hst
      · exact hst
      · simp at hst
  | shutDown =>
      refine hsweep shutDown_lawful fun nb hst => ?_
      unfold Sweep.apply DeleteAllRequestHandler.shutDown at hst
      split at hst
      · simp at hst
      · exact hst
  | clearRans => exact .of_nodeb_eq (by funext r; rw [E2TInstancesManager.nodeb_cleared])
  | _ => exact .refl

namespace Machine

open Trace DeleteAllRequestHandler

/-- The RAN that a step may connect. -/
def Label.SetsUp : Label → String → Prop
  | event e, r => e.SetsUp r
  | _, _ => False

/-- The step handles the loss of the connection of a RAN. -/
def Label.Loses (l : Label) (r : String) : Prop :=
  ∃ request, l = .event (.ranConnectionLost request) ∧ r = request.ranName

/-- The states that the machine reaches, with the steps that it has made. -/
inductive Ran (codecs : Codecs) (config : Configuration) : List Label → Machine → Prop
  | init : Ran codecs config [] init
  | step {ls : List Label} {m m' : Machine} {l : Label} :
      Ran codecs config ls m → Step codecs config l m m' → Ran codecs config (ls ++ [l]) m'

variable {codecs : Codecs} {config : Configuration} {m m' : Machine} {l : Label} {ls : List Label}
  {r : String}

/-- A step of the machine connects the RANs its label sets up, and no other. -/
theorem Step.connects (hm : Sound m.sdl) (h : Step codecs config l m m') :
    Connects l.SetsUp m.sdl m'.sdl := by
  cases h with
  | event h => exact Event.connects hm h
  | deleteAll => exact .refl
  | phase h => exact (Phase.effect_of_steps hm.wellKeyed h).connects hm

/-- After a step whose label loses a RAN, that RAN is not connected. -/
theorem Step.not_connected (hm : Sound m.sdl) (h : Step codecs config l m m') (hl : l.Loses r) :
    ¬ Connected m'.sdl r := by
  obtain ⟨request, rfl, rfl⟩ := hl
  cases h with
  | event h =>
      obtain rfl := Event.effect_of_steps hm h
      exact RanDisconnectionManager.not_connected_disconnect hm.wellKeyed _

/-- The store is sound after every sequence of labels. -/
theorem Ran.sound (h : Ran codecs config ls m) : Sound m.sdl := by
  induction h with
  | init => exact sound_empty
  | step _ hstep ih => exact hstep.sound ih

/-- **A connected RAN has set up since it last lost its connection**, by an E2 setup request or a
setup response. -/
theorem since_of_connected (h : Ran codecs config ls m) (hr : Connected m.sdl r) :
    Since (·.SetsUp r) (·.Loses r) ls := by
  induction h with
  | init =>
      obtain ⟨nb, hnb, -⟩ := hr
      cases hnb
  | step hran hstep ih =>
      refine since_concat.2 ?_
      rcases hstep.connects hran.sound r hr with hl | hold
      · exact .inl hl
      · exact .inr ⟨ih hold, fun hl => hstep.not_connected hran.sound hl hr⟩

end Machine

namespace Deployment

/-- The loss of the connection of the gNB. -/
def lost : Event := .ranConnectionLost { ranName := "RAN1", payload := "" }

/-- The gNB after it has lost its connection and set up again. -/
def again : Sdl := setUp address₁ "RAN1" (next connectedGnb lost)

def againSteps : List Machine.Label :=
  [.event (termInit address₁), .event (e2Setup address₁ "RAN1"), .event lost,
    .event (e2Setup address₁ "RAN1")]

/-- The example sequence of labels is one the machine can take. -/
theorem ran_again : Machine.Ran codecs {} againSteps { sdl := again, deleteAlls := [] } := by
  have hsetUp : ∀ s, (e2Setup address₁ "RAN1").Steps true codecs {} s (setUp address₁ "RAN1" s) :=
    fun s => steps_setUp true s "RAN1" (by decide) (by decide)
  exact (((Machine.Ran.init.step (.event (steps_next true _ (termInit address₁)))).step
    (.event (hsetUp _))).step (.event (steps_next true _ lost))).step (.event (hsetUp _))

/-- RAN1 is connected after it. -/
theorem connected_again : Connected again "RAN1" := by
  have hstatus : (again.nodeb "RAN1").map (·.connectionStatus) = some .CONNECTED := by
    decide +kernel
  obtain ⟨nb, hnb, hst⟩ := Option.map_eq_some_iff.1 hstatus
  exact ⟨nb, hnb, hst⟩

end Deployment

open Deployment in
/-- In the example the last setup of RAN1 comes after the last loss of it. -/
theorem Machine.since_of_connected_again :
    Trace.Since (·.SetsUp "RAN1") (·.Loses "RAN1") againSteps :=
  since_of_connected ran_again connected_again

end NearRtRic.E2Manager
