/-
# When E2 setup handling panics

The handler takes the first IE of the request for the Global E2 node id and the second for
the RAN functions, and sets the functions in the gNB of a record.  `Panics` says of a
request and a store whether it follows a nil pointer or leaves a slice on some run:

* a RAN that is not stored sends a request without IEs, of which the id is read;
* a stored RAN sends one without IEs, which is answered, or
* a stored RAN that is no gNB sends one with two IEs or more.  The list of its functions
  is not nil then, also where the second IE has none.

`run_isSome_iff` is the equivalence.  A handler that does not panic is one whose paths end
in results; where it does, the run on which every call succeeds ends in the panic.
-/

import NearRtRic.E2Manager.Registry

namespace NearRtRic.E2Manager.E2SetupRequestNotificationHandler

open Effect

/-- The request of a RAN, and the record stored for it, with which `Handle` panics. -/
def PanicsOn (config : Configuration) (m : E2SetupRequestMessage) : Option NodebInfo → Prop
  | none => m.e2setupRequestIEs = []
  | some nb => nb.connectionStatus ≠ .SHUTTING_DOWN ∧
      (m.e2setupRequestIEs = [] ∧ (∃ id, convertTo20BitString config.ricNearRtId = .ok id) ∨
        nb.getGnb = none ∧ ∃ fs, m.extractRanFunctionsList = .ok (some fs))

/-- The request is parsed, its instance is stored and its RAN has a name; the rest is
`PanicsOn`. -/
def Panics (codecs : Codecs) (config : Configuration) (request : NotificationRequest)
    (s : Sdl) : Prop :=
  ∃ m a, parseSetupRequest codecs request.payload = .ok (m, a) ∧ (s.e2tInstance a).isSome ∧
    request.ranName ≠ "" ∧ PanicsOn config m (s.nodeb request.ranName)

variable {codecs : Codecs} {config : Configuration} {request : NotificationRequest}
variable {m : E2SetupRequestMessage} {s : Sdl}

/-! ### What is read of a request -/

/-- The PLMN id of the first IE can be read as long as there is an IE. -/
theorem getPlmnId_isSome : m.getPlmnId.isSome ↔ m.e2setupRequestIEs ≠ [] := by
  unfold E2SetupRequestMessage.getPlmnId E2SetupRequestMessage.getGlobalE2NodeId
  cases m.e2setupRequestIEs <;> simp

/-- So can its node id. -/
theorem getNbId_isSome : m.getNbId.isSome ↔ m.e2setupRequestIEs ≠ [] := by
  unfold E2SetupRequestMessage.getNbId E2SetupRequestMessage.getGlobalE2NodeId
  cases m.e2setupRequestIEs <;> simp

/-- And so can what the answer echoes. -/
theorem successResponse_isSome (plmnId ricId : String) :
    (newE2SetupSuccessResponseMessage plmnId ricId m).isSome ↔ m.e2setupRequestIEs ≠ [] := by
  unfold newE2SetupSuccessResponseMessage
  match m.e2setupRequestIEs with
  | [] => simp
  | [_] => simp
  | _ :: _ :: _ => simp

/-- A list of functions is set in a gNB only. -/
theorem withRanFunctions_isSome {nb : NodebInfo} {fs : Option (List RanFunction)} :
    (withRanFunctions nb fs).isSome ↔ fs = none ∨ nb.getGnb.isSome := by
  cases fs with
  | none => simp [withRanFunctions]
  | some fs => simp [withRanFunctions]

/-! ### Requests that are handled -/

/-- The functions are written through the gNB part of the record: there must be one, or no
function to write. -/
theorem neverPanics_setGnbFunctions {nb : NodebInfo}
    (h : nb.getGnb.isSome ∨ ∀ fs, m.extractRanFunctionsList ≠ .ok (some fs)) :
    (setGnbFunctions nb m).NeverPanics := by
  unfold setGnbFunctions
  split
  · trivial
  · rename_i fs hfs
    refine Program.neverPanics_bind ((Program.neverPanics_orPanic _).2 ?_) fun _ => trivial
    rw [withRanFunctions_isSome]
    rcases h with h | h
    · exact .inr h
    · cases fs with
      | none => exact .inl rfl
      | some fs => exact absurd hfs (h fs)

/-- The global id is read from the first IE. -/
theorem neverPanics_buildGlobalNbId (h : m.e2setupRequestIEs ≠ []) :
    (buildGlobalNbId m).NeverPanics :=
  Program.neverPanics_bind ((Program.neverPanics_orPanic _).2 (getPlmnId_isSome.2 h)) fun _ =>
    Program.neverPanics_bind ((Program.neverPanics_orPanic _).2 (getNbId_isSome.2 h)) fun _ =>
      trivial

/-- A new RAN has a gNB part, so its registration needs an IE only. -/
theorem neverPanics_handleNewRan (h : m.e2setupRequestIEs ≠ []) (r a : String) :
    (handleNewRan r a m).NeverPanics := by
  have hid := neverPanics_buildGlobalNbId h
  refine Program.neverPanics_bind ?_ fun x => ?_
  · exact Program.neverPanics_bind hid fun _ => neverPanics_setGnbFunctions (.inl rfl)
  · cases x with
    | error e => trivial
    | ok nb =>
        refine Program.neverPanics_bind (Program.neverPanics_bind hid fun _ => trivial) fun id => ?_
        refine Program.neverPanics_bind (Program.neverPanics_perform _) fun x => ?_
        cases x <;> trivial

/-- The instances manager reads no IE. -/
theorem neverPanics_addRansToInstance (a : String) (rs : List String) :
    (E2TInstancesManager.addRansToInstance a rs).NeverPanics := by
  refine Program.neverPanics_bind (Program.neverPanics_perform _) fun _ => ?_
  refine Program.neverPanics_bind ?_ fun _ =>
    Program.neverPanics_bind (Program.neverPanics_perform _) fun _ => trivial
  refine Program.neverPanics_bind (Program.neverPanics_perform _) fun x => ?_
  cases x with
  | error e => trivial
  | ok i =>
      refine Program.neverPanics_bind (Program.neverPanics_perform _) fun x => ?_
      cases x <;> trivial

/-- Nor does the association. -/
theorem neverPanics_associateRan (a : String) (nb : NodebInfo) :
    (E2TAssociationManager.associateRan a nb).NeverPanics := by
  refine Program.neverPanics_bind ?_ fun x => ?_
  · refine Program.neverPanics_bind (Program.neverPanics_perform _) fun rmErr => ?_
    refine Program.neverPanics_bind (Program.neverPanics_perform _) fun rNibErr => ?_
    cases rmErr <;> cases rNibErr <;> trivial
  · obtain ⟨nb, e | u⟩ := x
    · trivial
    · refine Program.neverPanics_bind (neverPanics_addRansToInstance _ _) fun x => ?_
      cases x <;> trivial

/-- The answer takes the first IE of the request again. -/
theorem neverPanics_handleSuccessfulResponse (h : m.e2setupRequestIEs ≠ [] ∨
      ∀ id, convertTo20BitString config.ricNearRtId ≠ .ok id) (r : String) :
    (handleSuccessfulResponse config r request m).NeverPanics := by
  unfold handleSuccessfulResponse
  split
  · trivial
  · rename_i id hid
    have hne : m.e2setupRequestIEs ≠ [] := h.resolve_right fun h => h id hid
    exact Program.neverPanics_bind ((Program.neverPanics_orPanic _).2
      ((successResponse_isSome ..).2 hne)) fun _ =>
        Program.neverPanics_bind (Program.neverPanics_perform _) fun _ => trivial

/-- What follows the registration needs an IE only where the RIC id converts and an answer is
built. -/
theorem neverPanics_associateAndRespond (h : m.e2setupRequestIEs ≠ [] ∨
      ∀ id, convertTo20BitString config.ricNearRtId ≠ .ok id) (a : String) (nb : NodebInfo) :
    (associateAndRespond config request m a nb).NeverPanics := by
  refine Program.neverPanics_bind (neverPanics_associateRan a nb) fun x => ?_
  split
  · exact Program.neverPanics_bind (Program.neverPanics_perform _) fun _ => trivial
  · trivial
  · exact neverPanics_handleSuccessfulResponse h _

/-- **A request on which the handler does not panic**, whatever is answered. -/
theorem always_handleParsed_of_not_panicsOn (hs : s.WellKeyed) (a : String)
    (h : (s.e2tInstance a).isSome → request.ranName ≠ "" →
      ¬ PanicsOn config m (s.nodeb request.ranName)) :
    (handleParsed config request m a).Always exec (fun _ => True) (fun _ => False)
      (fun _ _ => True) s := by
  refine Program.always_bind_of (always_getE2TInstance_any hs a) ?_
  rintro x s₁ ⟨rfl, hfound, -⟩
  cases x with
  | error e => trivial
  | ok i =>
      have h := h (by rw [hfound i rfl]; rfl)
      refine Program.always_bind_of (always_getNodeb_any hs request.ranName) ?_
      rintro x s₂ ⟨rfl, hstored, hnone⟩
      refine Program.NeverPanics.always ?_ s₂
      split
      · -- the RAN is new
        obtain ⟨hne, hnone⟩ := hnone rfl
        have hies : m.e2setupRequestIEs ≠ [] := by
          rw [hnone] at h
          exact h hne
        refine Program.neverPanics_bind (neverPanics_handleNewRan hies _ _) fun x => ?_
        cases x with
        | error e => trivial
        | ok nb => exact neverPanics_associateAndRespond (.inl hies) a nb
      · trivial
      · rename_i nb
        have hnb := hstored nb rfl
        rw [hnb] at h
        have h := h (hs.nodeb hnb).2
        unfold handleExistingRan
        split
        · trivial
        · rename_i hst
          simp only [PanicsOn, not_and, not_or, not_exists] at h
          obtain ⟨hanswer, hfunctions⟩ := h hst
          refine Program.neverPanics_bind (neverPanics_setGnbFunctions ?_) fun x => ?_
          · cases hgnb : nb.getGnb with
            | none => exact .inr (hfunctions hgnb)
            | some gnb => exact .inl rfl
          · cases x with
            | error e => trivial
            | ok nb' =>
                refine neverPanics_associateAndRespond ?_ a nb'
                by_cases hies : m.e2setupRequestIEs = []
                · exact .inr (hanswer hies)
                · exact .inl hies

/-! ### Requests that are not -/

/-- **A request on which the handler panics**, on every run without a failure. -/
theorem always_handleParsed_of_panicsOn (hs : s.WellKeyed) {a : String}
    (ha : (s.e2tInstance a).isSome) (hne : request.ranName ≠ "")
    (h : PanicsOn config m (s.nodeb request.ranName)) :
    (handleParsed config request m a).Always exec (Admits false) (fun _ => True)
      (fun _ _ => False) s := by
  obtain ⟨i, hi⟩ := Option.isSome_iff_exists.1 ha
  simp only [handleParsed, Program.always_bind, E2TInstancesManager.always_getE2TInstance,
    hs.getE2TInstance_eq_ok.2 hi, RNibDataService.always_getNodeb]
  cases hnb : s.nodeb request.ranName with
  | none =>
      rw [hnb] at h
      have hid : m.getPlmnId = none := by
        rw [← Option.not_isSome_iff_eq_none, getPlmnId_isSome]
        exact not_not.2 h
      simp only [getNodeb_of_none hnb hne, Program.always_bind, handleNewRan, buildNodebInfo,
        buildGlobalNbId, hid]
      trivial
  | some nb =>
      rw [hnb] at h
      obtain ⟨hst, h⟩ := h
      simp only [getNodeb_of_some hs hnb, Program.always_bind, handleExistingRan, if_neg hst,
        always_setGnbFunctions]
      rcases h with ⟨hies, id, hid⟩ | ⟨hgnb, fs, hfs⟩
      · have hextract : m.extractRanFunctionsList = .ok none := by
          rw [E2SetupRequestMessage.extractRanFunctionsList, hies]
        have hanswer : newE2SetupSuccessResponseMessage config.plmnId id m = none := by
          rw [newE2SetupSuccessResponseMessage, hies]
        rw [hextract]
        simp only [withRanFunctions, Option.elim_some, associateAndRespond, Program.always_bind,
          E2TAssociationManager.always_associateRan hs a (hs.ranName_ne hnb)]
        intro up hup
        obtain rfl := hup trivial
        simp only [E2TAssociationManager.associateResult, E2TInstancesManager.foundOrDbError, ha,
          if_true, handleSuccessfulResponse, hid, Program.always_bind, hanswer]
        trivial
      · rw [hfs]
        simp only [withRanFunctions, hgnb, Option.map_none]
        trivial

/-- **When E2 setup handling never panics.** -/
theorem run_isSome_iff (hs : s.WellKeyed) (codecs : Codecs) (config : Configuration)
    (request : NotificationRequest) :
    (∀ cs, ((handle codecs config request).run exec cs s).1.isSome) ↔
      ¬ Panics codecs config request s := by
  unfold handle Panics
  cases hparse : parseSetupRequest codecs request.payload with
  | error e => simp
  | ok ma =>
      obtain ⟨m, a⟩ := ma
      constructor
      · rintro hrun ⟨m', a', heq, ha, hne, h⟩
        obtain ⟨rfl, rfl⟩ := Prod.mk.inj (Except.ok.inj heq)
        have hnone := Program.run_eq_none_of_always (always_handleParsed_of_panicsOn hs ha hne h)
          (fun _ hc => absurd hc List.not_mem_nil) (admits_default false)
        have hsome := hrun []
        rw [hnone] at hsome
        cases hsome
      · intro h cs
        exact Program.run_isSome_of_always (always_handleParsed_of_not_panicsOn hs a
          fun ha hne hon => h ⟨m, a, rfl, ha, hne, hon⟩) (fun _ _ => trivial) trivial

open Deployment

/-- The setup request of a gNB that is connected. -/
theorem run_isSome_iff_connected : connectedGnb.WellKeyed ∧ ∀ cs : List Outcome,
    ((handle Deployment.codecs {}
      { ranName := "RAN1", payload := address₁ ++ "|" ++ setupRequestXml }).run
        exec cs connectedGnb).1.isSome := by
  refine ⟨wellKeyed_connectedGnb,
    (run_isSome_iff wellKeyed_connectedGnb Deployment.codecs {} _).2 ?_⟩
  rintro ⟨m, a, hparse, -, -, h⟩
  dsimp only at hparse h
  rw [@parse_e2Setup address₁ (by decide) (by decide)] at hparse
  obtain ⟨rfl, rfl⟩ := Prod.mk.inj (Except.ok.inj hparse)
  have hgnb : (connectedGnb.nodeb "RAN1").map (·.getGnb.isSome) = some true := by
    decide +kernel
  obtain ⟨nb, hnb, hsome⟩ := Option.map_eq_some_iff.1 hgnb
  rw [show connectedGnb.nodeb "RAN1" = some nb from hnb] at h
  obtain ⟨-, ⟨hies, -⟩ | ⟨hnone, -⟩⟩ := h
  · exact absurd hies (by unfold setupRequestMessage; nofun)
  · rw [hnone] at hsome
    cases hsome

/-- The codecs, where the text `xml` is unmarshalled into `m`. -/
def codecsOf (xml : String) (m : E2SetupRequestMessage) : Codecs :=
  { Deployment.codecs with
    unmarshalE2SetupRequest := fun payload => if payload = xml then some m else none }

/-- A request with this text is handled as one that says `m`. -/
theorem parse_codecsOf (xml : String) (m : E2SetupRequestMessage) {address : String}
    (hne : address ≠ "") (hbar : '|' ∉ address.toList) :
    parseSetupRequest (codecsOf xml m) (address ++ "|" ++ xml) = .ok (m, address) := by
  refine parseSetupRequest_append (codecsOf xml m) hne hbar ?_
  simp only [codecsOf, if_true]

/-- The setup request of a gNB without IEs, -/
def emptyRequest : NotificationRequest :=
  { ranName := "RAN1", payload := address₁ ++ "|" ++ e2setupXml "" }

/-- and what it is unmarshalled into. -/
def emptyMessage : E2SetupRequestMessage := { e2setupRequestIEs := [] }

/-- **A request without IEs from a new RAN panics.** -/
theorem not_run_isSome : ¬ ∀ (codecs : Codecs) (config : Configuration)
    (request : NotificationRequest) (s : Sdl) (cs : List Outcome), s.WellKeyed →
      ((handle codecs config request).run exec cs s).1.isSome := by
  intro hall
  have hsome := hall (codecsOf (e2setupXml "") emptyMessage) {} emptyRequest oneTermination []
    wellKeyed_oneTermination
  have hparse : parseSetupRequest (codecsOf (e2setupXml "") emptyMessage) emptyRequest.payload =
      .ok (emptyMessage, address₁) :=
    parse_codecsOf (e2setupXml "") emptyMessage (by decide) (by decide)
  rw [handle, hparse] at hsome
  have hnew : oneTermination.nodeb "RAN1" = none := by decide +kernel
  have hpanics : PanicsOn {} emptyMessage (oneTermination.nodeb "RAN1") := hnew ▸ rfl
  have hnone := Program.run_eq_none_of_always
    (@always_handleParsed_of_panicsOn {} emptyRequest _ _ wellKeyed_oneTermination address₁
      (by decide +kernel) (by decide) hpanics)
    (fun _ hc => absurd hc List.not_mem_nil) (admits_default false)
  rw [hnone] at hsome
  cases hsome

end NearRtRic.E2Manager.E2SetupRequestNotificationHandler
