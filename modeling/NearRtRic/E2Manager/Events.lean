/-
# The events of the E2 manager

What reaches the E2 manager from outside, one at a time: the RMR messages of the
E2 terminations, the HTTP setup requests, and the rounds of the keep-alive
worker.  `Event.prog` is the handler of each, `Event.Steps` its run on a store
that does not fail, and `Event.effect_of_steps` says what that run can do to a
sound store.  Delete-all is not among them: other handlers run between its
phases (`NearRtRic.E2Manager.Lifecycle`).
-/

import NearRtRic.E2Manager.Invariants

namespace NearRtRic.E2Manager

open Effect

/-- The events. -/
inductive Event
  /-- RIC_E2_SETUP_REQ. -/
  | e2SetupRequest (request : NotificationRequest)
  /-- An X2 or ENDC setup request over HTTP. -/
  | setupRequest (protocol : E2ApplicationProtocol) (request : SetupRequest)
  /-- An X2 or ENDC setup response or failure. -/
  | setupResponse (msgType : SetupResponseNotificationHandler.MsgType)
      (request : NotificationRequest)
  /-- RIC_SCTP_CONNECTION_FAILURE. -/
  | ranConnectionLost (request : NotificationRequest)
  /-- E2_TERM_INIT. -/
  | e2TermInit (request : NotificationRequest)
  /-- E2_TERM_KEEP_ALIVE_RESP. -/
  | keepAliveResponse (address : String)
  /-- The keep-alive worker comes to one instance. -/
  | keepAliveExpired (address : String)

/-- One round of the keep-alive worker on the instance as it is stored. -/
def E2TKeepAliveWorker.shutdownStored (config : Configuration) (address : String) : Prog Unit := do
  match ← E2TInstancesManager.getE2TInstance address with
  | .error _ => return ()
  | .ok e2tInstance => shutdownIfExpired config e2tInstance

/-- The handler of an event. -/
def Event.prog (codecs : Codecs) (config : Configuration) : Event → Prog Unit
  | e2SetupRequest request => E2SetupRequestNotificationHandler.handle codecs config request
  | setupRequest protocol request => do
      let _ ← SetupRequestHandler.handle codecs protocol request
      return ()
  | setupResponse msgType request =>
      SetupResponseNotificationHandler.handle codecs msgType request
  | ranConnectionLost request => RanLostConnectionHandler.handle request
  | e2TermInit request => E2TermInitNotificationHandler.handle codecs request
  | keepAliveResponse address => E2TKeepAliveResponseHandler.handle address
  | keepAliveExpired address => E2TKeepAliveWorker.shutdownStored config address

/-- A run of the handler of an event, on a store that does not fail. -/
def Event.Steps (b : Bool) (codecs : Codecs) (config : Configuration) (e : Event)
    (s s' : Sdl) : Prop :=
  ∃ cs : List Outcome, (∀ c ∈ cs, Admits b c) ∧ ((e.prog codecs config).run exec cs s).2 = s'

/-- What the handler of an event can do to the store. -/
def Event.Effect (b : Bool) (codecs : Codecs) : Event → Sdl → Sdl → Prop
  | e2SetupRequest request, s, s' =>
      s' = s ∨ RanMove b
        (fun nb => ∃ a, E2SetupRequestNotificationHandler.reassociated codecs request s =
          some (a, nb)) request.ranName s s'
  | setupRequest _ request, s, s' =>
      RanMoves b SetupRequestHandler.Unassociated request.ranName s s'
  | setupResponse _ request, s, s' => RanMoves b (fun _ => False) request.ranName s s'
  | ranConnectionLost request, s, s' =>
      s' = RanDisconnectionManager.disconnect request.ranName s
  | e2TermInit _, s, s' =>
      s' = s ∨
        (∃ a podName t, a ≠ "" ∧ s.e2tInstance a = none ∧ s' = s.register a podName t) ∨
        ∃ rs, s' = RanDisconnectionManager.disconnectAll rs s
  | keepAliveResponse a, s, s' =>
      s' = s ∨ ∃ i t, s.e2tInstance a = some i ∧
        s' = s.putInstance { i with keepAliveTimestamp := t }
  | keepAliveExpired a, s, s' =>
      s' = s ∨ ∃ i now, s.e2tInstance a = some i ∧ s' = E2TShutdownManager.down i now s

section

variable {b : Bool} {codecs : Codecs} {config : Configuration} {s s' : Sdl}

/-- A round of the keep-alive worker shuts the instance down or does nothing. -/
theorem E2TKeepAliveWorker.leaves_shutdownStored (hs : Sound s) (a : String) :
    Leaves b (fun s' => s' = s ∨ ∃ i now, s.e2tInstance a = some i ∧
      s' = E2TShutdownManager.down i now s) (shutdownStored config a) s := by
  simp only [Leaves, shutdownStored, Program.always_bind,
    E2TInstancesManager.always_getE2TInstance]
  split
  · exact .inl rfl
  · rename_i i hget
    have hi : s.e2tInstance a = some i := hs.wellKeyed.getE2TInstance_eq_ok.1 hget
    obtain ⟨as, has⟩ := hs.exists_addresses (show (s.e2tInstance a).isSome by rw [hi]; rfl)
    simp only [shutdownIfExpired, Program.always_bind, Time.always_now]
    intro now
    split
    · rw [Program.always_bind]
      exact Program.always_mono (E2TShutdownManager.leaves_shutdown hs.wellKeyed
        (hs.wellKeyed.address_ne hi) has (.inl rfl) fun now => .inr ⟨i, now, hi, rfl⟩)
        fun _ _ h => h
    · exact .inl rfl

/-- Every handler keeps to its effect. -/
theorem Event.leaves_prog (hs : Sound s) (e : Event) :
    Leaves b (e.Effect b codecs s) (e.prog codecs config) s := by
  have hk := hs.wellKeyed
  cases e with
  | e2SetupRequest request =>
      exact E2SetupRequestNotificationHandler.leaves_handle hk codecs config request
  | setupRequest protocol request =>
      exact Program.always_bind_of (SetupRequestHandler.leaves_handle hk codecs protocol request)
        fun _ _ h => h
  | setupResponse msgType request =>
      exact SetupResponseNotificationHandler.leaves_handle hk codecs msgType request
  | ranConnectionLost request => exact RanLostConnectionHandler.leaves_handle hk request
  | e2TermInit request => exact E2TermInitNotificationHandler.leaves_handle hk codecs request
  | keepAliveResponse address => exact E2TKeepAliveResponseHandler.leaves_handle hk address
  | keepAliveExpired address => exact E2TKeepAliveWorker.leaves_shutdownStored hs address

/-- **What a run of a handler does to a sound store.** -/
theorem Event.effect_of_steps (hs : Sound s) {e : Event} (h : e.Steps b codecs config s s') :
    e.Effect b codecs s s' := by
  obtain ⟨cs, hcs, rfl⟩ := h
  exact Program.run_state_of_always (e.leaves_prog hs) hcs (admits_default b)

/-- No effect of an event breaks the invariant. -/
theorem Sound.effect (hs : Sound s) {e : Event} (h : e.Effect b codecs s s') : Sound s' := by
  cases e with
  | e2SetupRequest request =>
      rcases h with rfl | h
      · exact hs
      · exact hs.ranMove h
  | setupRequest protocol request => exact hs.ranMoves h
  | setupResponse msgType request => exact hs.ranMoves h
  | ranConnectionLost request =>
      obtain rfl := h
      exact hs.disconnect _
  | e2TermInit request =>
      rcases h with rfl | ⟨a, podName, t, hne, hnone, rfl⟩ | ⟨rs, rfl⟩
      · exact hs
      · exact hs.register hne hnone podName t
      · exact hs.disconnectAll rs
  | keepAliveResponse address =>
      rcases h with rfl | ⟨i, t, hi, rfl⟩
      · exact hs
      · refine hs.putInstance (show _ = some i from ?_)
        rw [← hi, ← (hs.wellKeyed.e2tInstance hi).1]
  | keepAliveExpired address =>
      rcases h with rfl | ⟨i, now, hi, rfl⟩
      · exact hs
      · exact hs.shutdown hi now

/-- **Every event keeps the store sound.** -/
theorem Event.sound_of_steps (hs : Sound s) {e : Event} (h : e.Steps b codecs config s s') :
    Sound s' := hs.effect (effect_of_steps hs h)

end

/-! ### A small deployment

Two E2 terminations and the messages of one gNB, for the runs on fixed inputs
below and in the modules that follow. -/

namespace Deployment

def address₁ : String := "10.0.2.1:38000"

def address₂ : String := "10.0.2.2:38000"

/-- The payload of the E2_TERM_INIT of an address. -/
def termInitJson (address : String) : String := "\x7b\"address\":\"" ++ address ++ "\"\x7d"

/-- A setup request with these IEs, as the termination prints it. -/
def e2setupXml (ies : String) : String :=
  "<E2AP-PDU><initiatingMessage><value><E2setupRequest><protocolIEs>" ++ ies ++
  "</protocolIEs></E2setupRequest></value></initiatingMessage></E2AP-PDU>"

/-- The IE with the identity of a gNB. -/
def nodeIdXml : String :=
  "<E2setupRequestIEs><id>3</id><value><GlobalE2node-ID><gNB><global-gNB-ID>" ++
  "<plmn-id>131014</plmn-id><gnb-id><gnb-ID>1011</gnb-ID></gnb-id>" ++
  "</global-gNB-ID></gNB></GlobalE2node-ID></value></E2setupRequestIEs>"

/-- The setup request of a gNB without RAN functions. -/
def setupRequestXml : String := e2setupXml nodeIdXml

/-- What `xml.Unmarshal` makes of it. -/
def setupRequestMessage : E2SetupRequestMessage where
  e2setupRequestIEs :=
    [{ id := "3", globalE2nodeID := { gnbPlmnID := "131014", gnbID := "1011" } }]

/-- The codecs on these messages. -/
def codecs : Codecs where
  unmarshalE2SetupRequest payload :=
    if payload = setupRequestXml then some setupRequestMessage else none
  unmarshalE2TermInit payload :=
    ([address₁, address₂].find? (termInitJson · = payload)).map fun a => { address := a }
  unpackX2SetupResponse _ := .error .internalError
  unpackEndcSetupResponse _ := .error .internalError
  unpackX2SetupFailure _ := .error .internalError
  unpackEndcSetupFailure _ := .error .internalError
  isIP ip := ip = "10.0.0.7"

/-- The E2_TERM_INIT of an address. -/
def termInit (address : String) : Event :=
  .e2TermInit { ranName := "", payload := termInitJson address }

/-- The X2 setup request of a RAN. -/
def x2Setup (ranName : String) : Event :=
  .setupRequest .X2_SETUP_REQUEST { ranIp := "10.0.0.7", ranPort := 36422, ranName }

/-- The E2 setup request of the gNB, through the termination at `address`. -/
def e2Setup (address ranName : String) : Event :=
  .e2SetupRequest { ranName, payload := address ++ "|" ++ setupRequestXml }

/-- The store after an event on which every call succeeds. -/
def next (s : Sdl) (e : Event) : Sdl := ((e.prog codecs {}).run exec [] s).2

/-- The store after some events, from the empty one. -/
def after (es : List Event) : Sdl := es.foldl next .empty

/-- What an event does with every call answered is one of its steps. -/
theorem steps_next (b : Bool) (s : Sdl) (e : Event) : e.Steps b codecs {} s (next s e) :=
  ⟨[], by simp, rfl⟩

/-- The payload of the example is split at the bar behind the address, and decoded. -/
theorem parse_e2Setup {address : String} (hne : address ≠ "") (hbar : '|' ∉ address.toList) :
    E2SetupRequestNotificationHandler.parseSetupRequest codecs
      (address ++ "|" ++ setupRequestXml) = .ok (setupRequestMessage, address) := by
  refine E2SetupRequestNotificationHandler.parseSetupRequest_append codecs hne hbar ?_
  simp only [codecs, if_true]

/-- The store after the E2 setup request of the gNB. -/
def setUp (address ranName : String) (s : Sdl) : Sdl :=
  ((E2SetupRequestNotificationHandler.handleParsed {}
    { ranName, payload := address ++ "|" ++ setupRequestXml } setupRequestMessage address).run
      exec [] s).2

/-- So `setUp` is a step of an E2 setup. -/
theorem steps_setUp (b : Bool) (s : Sdl) (ranName : String) {address : String}
    (hne : address ≠ "") (hbar : '|' ∉ address.toList) :
    (e2Setup address ranName).Steps b codecs {} s (setUp address ranName s) := by
  refine ⟨[], by simp, ?_⟩
  rw [e2Setup, Event.prog, E2SetupRequestNotificationHandler.handle, parse_e2Setup hne hbar]
  rfl

/-- A termination without RANs. -/
def oneTermination : Sdl := next .empty (termInit address₁)

/-- The store with one termination is well keyed. -/
theorem wellKeyed_oneTermination : oneTermination.WellKeyed :=
  (Event.sound_of_steps sound_empty (steps_next true .empty (termInit address₁))).wellKeyed

/-- A gNB that is connected through it. -/
def connectedGnb : Sdl := setUp address₁ "RAN1" oneTermination

/-- So is the one with a connected gNB. -/
theorem wellKeyed_connectedGnb : connectedGnb.WellKeyed :=
  (Event.sound_of_steps (Event.sound_of_steps sound_empty (steps_next true .empty _))
    (steps_setUp true _ "RAN1" (by decide) (by decide))).wellKeyed

end Deployment

end NearRtRic.E2Manager
