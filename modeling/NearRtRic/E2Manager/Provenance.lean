/-
# Every value in the store comes from an event

All handlers run side by side here, each in a goroutine of its own, with the keep-alive
worker and delete-all among them, over a store that may fail in any way, also after a write
took effect.  `tracedStore_of_reach` is what can still be said of the store: all of it is
traced (`NearRtRic.E2Manager.Origins`).

The update of a gNB's cells, which changes none of what is traced, has an interface of its
own and is left out.
-/

import NearRtRic.E2Manager.Origins

namespace NearRtRic.E2Manager

open Effect Program

namespace Origins

variable {o : Origins} {nb nb' : NodebInfo} {a r : String}

/-! ### The handlers -/

namespace E2SetupRequestNotificationHandler

variable {setupRequest : E2SetupRequestMessage} {config : Configuration}
  {request : NotificationRequest}

/-- The functions are those of the request. -/
theorem keeps_setGnbFunctions (hnb : o.Traced nb) (h : o.SetUp nb.ranName a setupRequest) :
    o.Keeps (E2SetupRequestNotificationHandler.setGnbFunctions nb setupRequest)
      fun x => ∀ nb', x = .ok nb' → o.Traced nb' ∧ nb'.ranName = nb.ranName := by
  unfold E2SetupRequestNotificationHandler.setGnbFunctions
  split
  · exact keeps_error _ _
  · rename_i ranFunctions hfunctions
    refine guarded_bind.2 (guarded_orPanic.2 fun nb₁ hnb₁ => keeps_ok ?_)
    cases ranFunctions with
    | none =>
        obtain rfl := Option.some.inj hnb₁
        exact ⟨hnb, rfl⟩
    | some ranFunctions =>
        obtain ⟨gnb, -, rfl⟩ := Option.map_eq_some_iff.1 hnb₁
        refine ⟨⟨hnb.ran, hnb.association, hnb.identity, fun gnb' hgnb' _ => ?_⟩, rfl⟩
        obtain rfl := Option.some.inj hgnb'
        exact .inl ⟨a, setupRequest, h, hfunctions⟩

/-- The global id `buildGlobalNbId` gives is made of the request's own PLMN and ID. -/
theorem keeps_buildGlobalNbId (setupRequest : E2SetupRequestMessage) :
    o.Keeps (E2SetupRequestNotificationHandler.buildGlobalNbId setupRequest)
      fun g => setupRequest.getPlmnId = some g.plmnId ∧ setupRequest.getNbId = some g.nbId :=
  guarded_bind.2 (guarded_orPanic.2 fun _ hplmn =>
    guarded_bind.2 (guarded_orPanic.2 fun _ hnb => ⟨hplmn, hnb⟩))

/-- The record of a new RAN comes from the request that asked for it, and has its name. -/
theorem keeps_handleNewRan (h : o.SetUp r a setupRequest) :
    o.Keeps (E2SetupRequestNotificationHandler.handleNewRan r a setupRequest)
      fun x => ∀ nb, x = .ok nb → o.Traced nb ∧ nb.ranName = r := by
  have hbuild : o.Keeps (E2SetupRequestNotificationHandler.buildNodebInfo r a setupRequest)
      fun x => ∀ nb, x = .ok nb → o.Traced nb ∧ nb.ranName = r := by
    refine (keeps_buildGlobalNbId setupRequest).bind fun g hg => keeps_setGnbFunctions ?_ h
    refine ⟨.inl ⟨a, setupRequest, h⟩, fun _ => .inl ⟨setupRequest, h⟩, fun g' hg' => ?_,
      fun gnb hgnb hne => ?_⟩
    · obtain rfl := Option.some.inj hg'
      exact .inl ⟨a, setupRequest, h, hg⟩
    · obtain rfl := Option.some.inj hgnb
      exact absurd rfl hne
  refine hbuild.bind fun x hx => ?_
  split
  · exact keeps_error _ _
  · rename_i nb
    obtain ⟨hnb, hname⟩ := hx nb rfl
    have hid : o.Keeps (E2SetupRequestNotificationHandler.buildNbIdentity r setupRequest)
        fun id => id.inventoryName = nb.ranName :=
      (keeps_buildGlobalNbId setupRequest).bind fun _ _ => hname.symm
    refine hid.bind fun id hid => (keeps_saveNodeb hid hnb).bind fun x _ => ?_
    split
    · exact keeps_error _ _
    · exact keeps_ok ⟨hnb, hname⟩

/-- A known RAN's record stays traced when a later request of the same RAN updates it. -/
theorem keeps_handleExistingRan (hnb : o.Traced nb) (h : o.SetUp nb.ranName a setupRequest) :
    o.Keeps (E2SetupRequestNotificationHandler.handleExistingRan nb setupRequest)
      fun x => ∀ nb', x = .ok nb' → o.Traced nb' ∧ nb'.ranName = nb.ranName := by
  unfold E2SetupRequestNotificationHandler.handleExistingRan
  split
  · exact keeps_error _ _
  · exact keeps_setGnbFunctions hnb h

/-- Associating a traced record with the termination its request came through, and answering the
request, keeps the store traced. -/
theorem keeps_associateAndRespond (hnb : o.Traced nb) (h : o.SetUp nb.ranName a setupRequest) :
    o.Keeps (E2SetupRequestNotificationHandler.associateAndRespond config request setupRequest a nb)
      fun _ => True := by
  refine (E2TAssociationManager.keeps_associateRan hnb (.inl ⟨setupRequest, h⟩)).bind
    fun x _ => ?_
  split
  · exact (keeps_call (c := .send _) trivial).bind fun _ _ => trivial
  · trivial
  · unfold E2SetupRequestNotificationHandler.handleSuccessfulResponse
    split
    · trivial
    · exact guarded_bind.2 (guarded_orPanic.2 fun response _ =>
        (keeps_call (c := .send _) trivial).bind fun _ _ => trivial)

/-- The E2 setup handler keeps the store traced when its request has come in. -/
theorem keeps_handle (hcame : o.came (.e2SetupRequest request)) :
    o.Keeps (E2SetupRequestNotificationHandler.handle o.codecs config request) fun _ => True := by
  unfold E2SetupRequestNotificationHandler.handle
  split
  · trivial
  · rename_i setupRequest a hparse
    have hsetUp : request.ranName ≠ "" → o.SetUp request.ranName a setupRequest := fun hne =>
      ⟨hne, request, hcame, rfl, hparse⟩
    refine (keeps_getE2TInstance a).bind fun x _ => ?_
    split
    · trivial
    · refine (keeps_getNodeb request.ranName).bind fun x hx => ?_
      split
      · have h := hsetUp (hx.2 rfl)
        refine (keeps_handleNewRan h).bind fun x hx => ?_
        split
        · trivial
        · rename_i nb
          obtain ⟨hnb, hname⟩ := hx nb rfl
          exact keeps_associateAndRespond hnb (hname ▸ h)
      · trivial
      · rename_i nb
        obtain ⟨hname, hnb⟩ := hx.1 nb rfl
        have h := hsetUp (hname ▸ hnb.ranName_ne)
        refine (keeps_handleExistingRan hnb (hname ▸ h)).bind fun x hx => ?_
        split
        · trivial
        · rename_i nb'
          obtain ⟨hnb', hname'⟩ := hx nb' rfl
          exact keeps_associateAndRespond hnb' (hname'.trans hname ▸ h)

end E2SetupRequestNotificationHandler

/-- The handler of E2_TERM_INIT keeps the store traced: it rewrites records only with what they
already hold. -/
theorem keeps_e2TermInit {request : NotificationRequest} (hcame : o.came (.e2TermInit request)) :
    o.Keeps (E2TermInitNotificationHandler.handle o.codecs request) fun _ => True := by
  have hexisting : ∀ rs, o.Keeps (E2TermInitNotificationHandler.handleExistingE2TInstance rs)
      fun _ => True := by
    intro rs
    induction rs with
    | nil => trivial
    | cons r rs ih =>
        refine (keeps_disconnectRan r).bind fun x _ => ?_
        split
        · exact ih
        · exact ih
        · trivial
  unfold E2TermInitNotificationHandler.handle
  split
  · trivial
  · rename_i payload hpayload
    split
    · trivial
    · refine (keeps_getE2TInstance _).bind fun x hx => ?_
      split
      · refine (keeps_call (c := .rmAddE2TInstance _) trivial).bind fun x _ => ?_
        split
        · trivial
        · exact (E2TInstancesManager.keeps_addE2TInstance
            ⟨request, payload, hcame, hpayload, rfl⟩ payload.podName).bind fun _ _ => trivial
      · trivial
      · split
        · trivial
        · split
          · trivial
          · exact hexisting _

/-- What a setup response makes of a record. -/
theorem traced_populateNodebByPdu {msgType : SetupResponseNotificationHandler.MsgType}
    {request : NotificationRequest} (hcame : o.came (.setupResponse msgType request))
    (hnb : o.Traced nb) (hname : nb.ranName = request.ranName) {id : NbIdentity}
    (h : SetupResponseNotificationHandler.populateNodebByPdu o.codecs msgType
      { inventoryName := request.ranName } nb request.payload = .ok (id, nb')) :
    id.inventoryName = nb'.ranName ∧ o.Traced nb' := by
  have hfailure : ∀ {unpack : String → Except Err String} {failureType : FailureType},
      SetupResponseManager.setupFailure unpack failureType { inventoryName := request.ranName } nb
        request.payload = .ok (id, nb') → id.inventoryName = nb'.ranName ∧ o.Traced nb' := by
    intro unpack failureType h
    unfold SetupResponseManager.setupFailure at h
    cases hunpack : unpack request.payload with
    | error e => rw [hunpack] at h; cases h
    | ok failure =>
        rw [hunpack] at h
        obtain ⟨rfl, rfl⟩ := Prod.mk.inj (Except.ok.inj h)
        exact ⟨hname.symm, hnb.ran, hnb.association, hnb.identity, hnb.functions⟩
  cases msgType with
  | RIC_X2_SETUP_RESP =>
      dsimp only [SetupResponseNotificationHandler.populateNodebByPdu,
        SetupResponseManager.x2SetupResponse] at h
      cases hunpack : o.codecs.unpackX2SetupResponse request.payload with
      | error e => rw [hunpack] at h; cases h
      | ok response =>
          rw [hunpack] at h
          obtain ⟨rfl, rfl⟩ := Prod.mk.inj (Except.ok.inj h)
          refine ⟨hname.symm, hnb.ran, hnb.association, fun g hg => .inr ⟨[], ?_⟩, nofun⟩
          obtain ⟨globalNbId, enb⟩ := response
          obtain rfl := hg
          exact ⟨_, request, hcame, hname.symm, .inl ⟨enb, hunpack⟩⟩
  | RIC_ENDC_X2_SETUP_RESP =>
      dsimp only [SetupResponseNotificationHandler.populateNodebByPdu,
        SetupResponseManager.endcSetupResponse] at h
      cases hunpack : o.codecs.unpackEndcSetupResponse request.payload with
      | error e => rw [hunpack] at h; cases h
      | ok response =>
          rw [hunpack] at h
          obtain ⟨rfl, rfl⟩ := Prod.mk.inj (Except.ok.inj h)
          obtain ⟨globalNbId, gnb⟩ := response
          have hresponded : o.Responded nb.ranName globalNbId gnb.ranFunctions :=
            ⟨_, request, hcame, hname.symm, .inr ⟨gnb, hunpack, rfl⟩⟩
          refine ⟨hname.symm, hnb.ran, hnb.association, fun g hg => .inr ⟨gnb.ranFunctions, ?_⟩,
            fun gnb' hgnb' _ => .inr ⟨globalNbId, ?_⟩⟩
          · obtain rfl := hg
            exact hresponded
          · obtain rfl := Option.some.inj hgnb'
            exact hresponded
  | RIC_X2_SETUP_FAILURE => exact hfailure h
  | RIC_ENDC_X2_SETUP_FAILURE => exact hfailure h

/-- The handler of X2 and ENDC setup responses keeps the store traced. -/
theorem keeps_setupResponse {msgType : SetupResponseNotificationHandler.MsgType}
    {request : NotificationRequest} (hcame : o.came (.setupResponse msgType request)) :
    o.Keeps (SetupResponseNotificationHandler.handle o.codecs msgType request) fun _ => True := by
  refine (keeps_getNodeb request.ranName).bind fun x hx => ?_
  split
  · trivial
  · rename_i nb
    obtain ⟨hname, hnb⟩ := hx.1 nb rfl
    split
    · split
      · trivial
      · rename_i id nb' hpopulate
        have hnb' := traced_populateNodebByPdu hcame hnb hname hpopulate
        refine (keeps_saveNodeb hnb'.1 hnb'.2).bind fun x _ => ?_
        split
        · trivial
        · split
          · exact (keeps_call (c := .send _) trivial).bind fun _ _ => trivial
          · trivial
    · trivial

namespace SetupRequestHandler

/-- Associating a traced record with the termination selected for it keeps the store traced. -/
theorem keeps_associateAndSetup (hnb : o.Traced nb) (h : o.Linked nb.ranName a) :
    o.Keeps (SetupRequestHandler.associateAndSetup a nb) fun _ => True := by
  refine (E2TAssociationManager.keeps_associateRan hnb h).bind fun x hx => ?_
  split
  · trivial
  · exact keeps_executeSetup hx.1 _

/-- The REST handler of X2 and ENDC setups keeps the store traced when its request has come in. -/
theorem keeps_handle {protocol : E2ApplicationProtocol} {request : SetupRequest}
    (hcame : o.came (.setupRequest protocol request)) :
    o.Keeps (SetupRequestHandler.handle o.codecs protocol request) fun _ => True := by
  have hrequested : request.ranName ≠ "" → o.Requested request.ranName := fun hne =>
    ⟨hne, protocol, request, hcame, rfl⟩
  unfold SetupRequestHandler.handle
  split
  · trivial
  · refine (keeps_getNodeb request.ranName).bind fun x hx => ?_
    split
    · have hrequested := hrequested (hx.2 rfl)
      refine E2TInstancesManager.keeps_selectE2TInstance.bind fun x hx => ?_
      split
      · trivial
      · rename_i a
        have hnew : o.Traced (SetupRequestHandler.createInitialNodeInfo request protocol).1 :=
          ⟨.inr hrequested, fun hne => absurd rfl hne, nofun, nofun⟩
        refine (keeps_saveNodeb rfl hnew).bind fun x _ => ?_
        split
        · trivial
        · exact keeps_associateAndSetup hnew (.inr ⟨hrequested, hx a rfl⟩)
    · trivial
    · rename_i nb
      obtain ⟨hname, hnb⟩ := hx.1 nb rfl
      have hrequested := hrequested (hname ▸ hnb.ranName_ne)
      split
      · trivial
      · split
        · refine (keeps_updateNodebInfo hnb).bind fun x _ => ?_
          split
          · trivial
          · exact keeps_executeSetup hnb _
        · refine E2TInstancesManager.keeps_selectE2TInstance.bind fun x hx => ?_
          split
          · split
            · trivial
            · exact (keeps_updateNodebInfo (hnb.setStatus _)).bind fun _ _ => trivial
          · rename_i a
            exact keeps_associateAndSetup hnb (.inr ⟨hname.symm ▸ hrequested, hx a rfl⟩)

end SetupRequestHandler

/-! ### Delete-all -/

namespace DeleteAllRequestHandler

/-- A delete-all phase changes a record's status and its address only, so the record it writes
back is still traced. -/
theorem keeps_updateAndReport (hnb : o.Traced nb) (st : ConnectionStatus) (reset : Bool) :
    o.Keeps (DeleteAllRequestHandler.updateAndReport nb st reset) fun _ => True := by
  have hupdate : o.Keeps (DeleteAllRequestHandler.updateNodebInfo nb st reset) fun _ => True := by
    refine (keeps_updateNodebInfo (hnb.updated st reset)).bind fun x _ => ?_
    split <;> trivial
  refine hupdate.bind fun x _ => ?_
  split <;> trivial

/-- The loop over all listed RANs keeps the store traced when its callback does. -/
theorem keeps_updateNodebs {updateCb : NodebInfo → Prog (Except Err Bool)}
    (hcb : ∀ nb, o.Traced nb → o.Keeps (updateCb nb) fun _ => True) :
    o.Keeps (DeleteAllRequestHandler.updateNodebs updateCb) fun _ => True := by
  have hlisted : ∀ ids once,
      o.Keeps (DeleteAllRequestHandler.updateListed updateCb ids once) fun _ => True := by
    intro ids
    induction ids with
    | nil => exact fun _ => trivial
    | cons id ids ih =>
        intro once
        refine (keeps_getNodeb id.inventoryName).bind fun x hx => ?_
        split
        · exact ih once
        · trivial
        · rename_i nb
          refine (hcb nb (hx.1 nb rfl).2).bind fun x _ => ?_
          split
          · trivial
          · exact ih _
  refine (keeps_call (c := .getListNodebIds) trivial).bind fun x _ => ?_
  split
  · trivial
  · exact hlisted _ _

/-- The callback of a forced shutdown keeps the store traced. -/
theorem keeps_updateNodebInfoForceShutdown (hnb : o.Traced nb) :
    o.Keeps (DeleteAllRequestHandler.updateNodebInfoForceShutdown nb) fun _ => True :=
  keeps_updateAndReport hnb _ _

/-- The callback that marks RANs as shutting down keeps the store traced. -/
theorem keeps_updateNodebInfoShuttingDown (hnb : o.Traced nb) :
    o.Keeps (DeleteAllRequestHandler.updateNodebInfoShuttingDown nb) fun _ => True := by
  unfold DeleteAllRequestHandler.updateNodebInfoShuttingDown
  split
  · trivial
  · exact keeps_updateAndReport hnb _ _

/-- The callback that marks RANs as shut down keeps the store traced. -/
theorem keeps_updateNodebInfoShutDown (hnb : o.Traced nb) :
    o.Keeps (DeleteAllRequestHandler.updateNodebInfoShutDown nb) fun _ => True := by
  unfold DeleteAllRequestHandler.updateNodebInfoShutDown
  split
  · trivial
  · split
    · trivial
    · exact keeps_updateAndReport hnb _ _

/-- Delete-all as a whole keeps the store traced. -/
theorem keeps_handle (config : Configuration) :
    o.Keeps (DeleteAllRequestHandler.handle config) fun _ => True := by
  refine E2TInstancesManager.keeps_getE2TAddresses.bind fun x _ => ?_
  split
  · trivial
  · split
    · refine (keeps_updateNodebs fun _ => keeps_updateNodebInfoForceShutdown).bind fun x _ => ?_
      split <;> trivial
    · refine (keeps_call (c := .rmDissociateAllRans _) trivial).bind fun dissocErr _ => ?_
      have hresponse : o.Keeps (pure (DeleteAllRequestHandler.response dissocErr) :
        Prog DeleteAllRequestHandler.Response) fun _ => True := trivial
      refine (keeps_updateNodebs fun _ => keeps_updateNodebInfoShuttingDown).bind fun x _ => ?_
      split
      · trivial
      · refine E2TInstancesManager.keeps_clearRansOfAllE2TInstances.bind fun x _ => ?_
        split
        · trivial
        · refine (keeps_call (c := .send _) trivial).bind fun x _ => ?_
          split
          · trivial
          · split
            · refine (keeps_call (c := .sleep _) trivial).bind fun _ _ => ?_
              refine (keeps_updateNodebs fun _ => keeps_updateNodebInfoShutDown).bind
                fun x _ => ?_
              split
              · trivial
              · exact hresponse
            · exact hresponse

end DeleteAllRequestHandler

end Origins

/-! ### Every interleaving -/

/-- What a goroutine runs. -/
inductive Routine
  | event (e : Event)
  | keepAliveWorker (ticks : Nat)
  | deleteAll

def Routine.prog (codecs : Codecs) (config : Configuration) : Routine → Prog Unit
  | event e => e.prog codecs config
  | keepAliveWorker ticks => E2TKeepAliveWorker.execute config ticks
  | deleteAll => do
      let _ ← DeleteAllRequestHandler.handle config
      return ()

namespace Origins

variable {o : Origins}

/-- What a goroutine does where its event is one of those that came. -/
theorem keeps_prog (config : Configuration) (routine : Routine)
    (hcame : ∀ e, routine = .event e → o.came e) :
    o.Keeps (routine.prog o.codecs config) fun _ => True := by
  cases routine with
  | keepAliveWorker ticks => exact E2TKeepAliveWorker.keeps_execute config ticks
  | deleteAll => exact (DeleteAllRequestHandler.keeps_handle config).bind fun _ _ => trivial
  | event e =>
      have he := hcame e rfl
      cases e with
      | e2SetupRequest request => exact E2SetupRequestNotificationHandler.keeps_handle he
      | setupRequest protocol request =>
          exact (SetupRequestHandler.keeps_handle he).bind fun _ _ => trivial
      | setupResponse msgType request => exact keeps_setupResponse he
      | ranConnectionLost request => exact (keeps_disconnectRan _).bind fun _ _ => trivial
      | e2TermInit request => exact keeps_e2TermInit he
      | keepAliveResponse a =>
          exact (E2TInstancesManager.keeps_resetKeepAliveTimestamp a).bind fun _ _ => trivial
      | keepAliveExpired a => exact E2TKeepAliveWorker.keeps_shutdownStored config a

end Origins

/-- A call in a run in which anything may fail. -/
def Shared.anySem {ι : Type} (t : Option ι) (o : Call) (s : Shared ι) (r : o.Answer)
    (s' : Shared ι) : Prop := ∃ c, Shared.exec t o c s = some (r, s')

variable {ι : Type}

/-- The goroutines before their first calls, `routine none` being the keep-alive worker. -/
def Routine.start (codecs : Codecs) (config : Configuration) (routine : Option ι → Routine)
    (s : Sdl) : Pool e2mgr Unit (Shared ι) (Option ι) where
  thread t := (routine t).prog codecs config
  state := { sdl := s }

/-- The events of some goroutines, with the codecs. -/
def Routine.origins (codecs : Codecs) (routine : Option ι → Routine) : Origins where
  codecs
  came e := ∃ t, routine t = .event e

/-- A call keeps a store traced and is answered from it, be it of the mutex or not. -/
theorem Origins.TracedStore.anySem {o : Origins} {t : Option ι} {c : Call} {s s' : Shared ι}
    {r : c.Answer} (hs : o.TracedStore s.sdl) (hc : o.Allowed c) (h : Shared.anySem t c s r s') :
    o.Answered c r ∧ o.TracedStore s'.sdl := by
  obtain ⟨outcome, h⟩ := h
  cases c with
  | lock m =>
      rw [Shared.exec_lock] at h
      split at h
      · cases h
      · obtain ⟨-, rfl⟩ := Prod.mk.inj (Option.some.inj h)
        exact ⟨trivial, hs⟩
  | unlock =>
      obtain ⟨-, rfl⟩ := Prod.mk.inj (Option.some.inj h)
      exact ⟨trivial, hs⟩
  | _ =>
      obtain ⟨rfl, rfl⟩ := Prod.mk.inj (Option.some.inj h)
      exact ⟨hs.answered _ outcome, hs.exec hc outcome⟩

/-- The empty store is traced: it holds no record. -/
theorem Origins.tracedStore_empty (o : Origins) : o.TracedStore .empty where
  nodeb _ _ h := by cases h
  e2tInstance _ _ h := by cases h
  e2tAddresses _ h := by cases h

section

variable [DecidableEq ι] {codecs : Codecs} {config : Configuration} {routine : Option ι → Routine}
  {c : Pool e2mgr Unit (Shared ι) (Option ι)}

/-- The run lemma, for events that are known to have come. -/
theorem Origins.TracedStore.of_reach {o : Origins} {s : Sdl} (hs : o.TracedStore s)
    (hcame : ∀ t e, routine t = .event e → o.came e)
    (h : Pool.Reach Shared.anySem (Routine.start o.codecs config routine s) c) :
    o.TracedStore c.state.sdl :=
  (Pool.invariant_of_guarded (I := fun s => o.TracedStore s.sdl) (Q := fun _ _ => True)
    (fun _ _ _ _ _ hI hc hsem => hI.anySem hc hsem)
    (fun t => Origins.keeps_prog config (routine t) (hcame t)) hs h).1

/-- **Whatever fails and however the handlers interleave, every value in the store comes from
an event** that reached the manager. -/
theorem tracedStore_of_reach
    (h : Pool.Reach Shared.anySem (Routine.start codecs config routine .empty) c) :
    (Routine.origins codecs routine).TracedStore c.state.sdl :=
  (Routine.origins codecs routine).tracedStore_empty.of_reach (fun t _ he => ⟨t, he⟩) h

end

namespace Deployment

/-- Delete-all, the E2_TERM_INIT of an address, and the request of a RAN. -/
def routines : Option Bool → Routine
  | none => .deleteAll
  | some false => .event (termInit address₁)
  | some true => .event (x2Setup "RAN1")

/-- Delete-all starts while the RAN is associated, and the answer to the write of the
association is lost. -/
def disturbed : Option (Pool e2mgr Unit (Shared Bool) (Option Bool)) :=
  (Routine.start codecs {} routines .empty).follow Shared.exec
    (List.replicate 8 (some false, default) ++ List.replicate 5 (some true, default) ++
      List.replicate 4 (none, default) ++ [(some true, { store := .failsAfterEffect })])

/-- In the disturbed run RAN1 ends at the termination its setup came through, and its record is
traced. -/
theorem tracedStore_of_reach_disturbed : ∃ c, disturbed = some c ∧
    (c.state.sdl.nodeb "RAN1").map (·.associatedE2TInstanceAddress) = some address₁ ∧
      (Routine.origins codecs routines).TracedStore c.state.sdl := by
  have hrun : disturbed.map (fun c =>
      (c.state.sdl.nodeb "RAN1").map (·.associatedE2TInstanceAddress)) =
      some (some address₁) := by decide +kernel
  obtain ⟨c, hc, hfacts⟩ := Option.map_eq_some_iff.1 hrun
  exact ⟨c, hc, hfacts,
    tracedStore_of_reach (Pool.reach_of_follow (fun _ _ x _ _ h => ⟨x, h⟩) hc)⟩

end Deployment

end NearRtRic.E2Manager
