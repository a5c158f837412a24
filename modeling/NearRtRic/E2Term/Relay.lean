/-
# The messages of a run

`Draft` is a message as the connections determine it, without the buffer it is written
into: the fields that the code does not set are `none`.  `RelayEvent.drafts` are the drafts
of one round of the listener, read off the message or the connection that it is about.

`transcript_run` says that RMR has no influence on them.  Whatever it returns and whatever
is in the buffers that it hands out, the messages of a run are its drafts, in order, each
with the transaction id that the listener read for it and each handed to RMR once, or twice
after `RMR_ERR_RETRY`.  The message buffer is used again for every message; what is left in
it from one shows in the next behind a shorter name, and in no other field that the code sets.
Where RMR hands out buffers without a name and takes what it is given (`Tidy`), no name is
left in any.

`accounted_of_reached` is about the connections: in runs of epoll batches that keep names and
have no event of a connection behind the `RIC_SCTP_CLEAR_ALL` that frees it, a connection that
is gone has been announced once, by the last message about it.
-/

import NearRtRic.E2Term.Batch
import NearRtRic.E2Term.Uplink

namespace NearRtRic.E2Term

open CString

/-- A message without its buffer, and the connection that it is about. -/
structure Draft where
  about : Option Nat
  mtype : MessageType
  meid : Option Bytes
  sub_id : Option Int
  payload : Bytes
  deriving DecidableEq, Repr

/-- What a message is relayed as: its type, and the `sub_id` where it is made of the id of the
request. -/
def relayedAs : Present → ProcedureCode → Option (MessageType × Option (RICrequestID → Int))
  | .nothing, _ => none
  | _, .ErrorIndication => some (.RIC_ERROR_INDICATION, none)
  | _, .Reset => some (.RIC_X2_RESET, none)
  | _, .RICserviceUpdate => some (.RIC_SERVICE_UPDATE, none)
  | .initiatingMessage, .RICindication =>
      some (.RIC_INDICATION, some fun id => toInt id.ricRequestorID)
  | _, .RICindication => some (.RIC_INDICATION, some fun id => toInt id.ricInstanceID)
  | .successfulOutcome, .RICcontrol =>
      some (.RIC_CONTROL_ACK, some fun id => toInt id.ricInstanceID)
  | .unsuccessfulOutcome, .RICcontrol =>
      some (.RIC_CONTROL_FAILURE, some fun id => toInt id.ricInstanceID)
  | .successfulOutcome, .RICsubscription => some (.RIC_SUB_RESP, none)
  | .unsuccessfulOutcome, .RICsubscription => some (.RIC_SUB_FAILURE, none)
  | .successfulOutcome, .RICsubscriptionDelete => some (.RIC_SUB_DEL_RESP, none)
  | .unsuccessfulOutcome, .RICsubscriptionDelete => some (.RIC_SUB_DEL_FAILURE, none)
  | _, _ => none

/-- No message is relayed as an announcement. -/
theorem relayedAs_ne {present : Present} {code : ProcedureCode} {mtype : MessageType}
    {sub_id : Option (RICrequestID → Int)} (h : relayedAs present code = some (mtype, sub_id)) :
    mtype ≠ .RIC_SCTP_CONNECTION_FAILURE := by
  rintro rfl
  cases present <;> cases code <;> cases h

/-- The id of the request in the first element that has one. -/
def E2apPdu.requestID (pdu : E2apPdu) : Option RICrequestID :=
  pdu.protocolIEs.findSome? RequestIe.value

namespace Termination

variable (s : Termination) (p : Nat)

/-- What the bytes of a message, read on the connection `p`, are relayed as. -/
def relayDraft (cu : ConnectedCU) (bytes : Bytes) (pdu : E2apPdu) : Option Draft :=
  let draft mtype sub_id : Draft := ⟨some p, mtype, some (visible cu.enodbName), sub_id, bytes⟩
  match relayedAs pdu.present pdu.procedureCode with
  | none => none
  | some (mtype, none) => some (draft mtype none)
  | some (mtype, some sub_id) => pdu.requestID.map fun id => draft mtype (some (sub_id id))

/-- The setup request that is sent, if its elements are come through. -/
def setupDraft (cu : ConnectedCU) (pdu : E2apPdu) : Option Draft :=
  match pdu.present, pdu.procedureCode, pdu.setupPayload with
  | .initiatingMessage, .E2setup, some payload =>
      let collected := s.collectSetup p cu pdu.setupIes
      if collected.2 then
        some ⟨some p, .RIC_E2_SETUP_REQ, some (visible collected.1.message), none, payload⟩
      else none
  | _, _, _ => none

def messageDrafts (bytes : Bytes) (pdu : E2apPdu) : List Draft :=
  match s.peers p with
  | none => []
  | some cu => (relayDraft p cu bytes pdu).toList ++ (s.setupDraft p cu pdu).toList

/-- A connection is announced as gone. -/
def failureDrafts (text : Bytes) : List Draft :=
  match s.peers p with
  | none => []
  | some cu =>
      [⟨some p, .RIC_SCTP_CONNECTION_FAILURE, some (visible cu.enodbName), none,
        (visible cu.enodbName ++ ascii "|" ++ text).take 255⟩]

/-- The reads of one round, up to the one that ends the loop. -/
def readDrafts (s : Termination) : List SctpRead → List Draft
  | [] | .eagain :: _ | .message _ none :: _ => []
  | .eintr :: reads => readDrafts s reads
  | .eof :: _ | .error :: _ => s.failureDrafts p (ascii "CU disconnected unexpectedly")
  | .message bytes (some pdu) :: reads =>
      s.messageDrafts p bytes pdu ++ readDrafts (s.handlePdu p pdu.toPdu) reads

/-- The keys of `RIC_SCTP_CLEAR_ALL`. -/
def clearDrafts (s : Termination) : List Bytes → List Draft
  | [] => []
  | key :: keys =>
      (if (ascii "host:").isPrefixOf key || (ascii "msg:").isPrefixOf key then []
        else match s.sctpMap.lookup key with
          | none => []
          | some p => s.failureDrafts p (ascii "RIC_SCTP_CLEAR_ALL")) ++
        clearDrafts (s.clearKey key) keys

end Termination

/-- The messages that are handled, and whether the connection is closed behind them. -/
def handled : List SctpRead → List Pdu × Bool
  | [] | .eagain :: _ | .message _ none :: _ => ([], false)
  | .eintr :: reads => handled reads
  | .eof :: _ | .error :: _ => ([], true)
  | .message _ (some pdu) :: reads => (pdu.toPdu :: (handled reads).1, (handled reads).2)

/-- The event as the connections see it. -/
def RelayEvent.toEvent : RelayEvent → Event
  | accept hostName portNumber addToEpoll => .accept hostName portNumber addToEpoll
  | data p reads => .data p (handled reads).1 (handled reads).2
  | error p => .error p
  | rmr .keepAlive => .rmr .other
  | rmr (.clearAll _) => .rmr .clearAll
  | rmr (.downlink enodbName messageType sent) => .rmr (.downlink enodbName messageType sent)
  | rmr .other => .rmr .other
  | inotify => .inotify

/-- The drafts of one round. -/
def RelayEvent.drafts (ka_message : Bytes) (s : Termination) : RelayEvent → List Draft
  | data p reads => if (s.peers p).isSome then s.readDrafts p reads else []
  | error p => s.failureDrafts p (ascii "Failed SCTP Connection")
  | rmr .keepAlive => [⟨none, .E2_TERM_KEEP_ALIVE_RESP, none, none, ka_message⟩]
  | rmr (.clearAll order) => s.clearDrafts (Relay.inOrder order s.sctpMap.keys)
  | accept .. | rmr (.downlink ..) | rmr .other | inotify => []

/-- The drafts of a run. -/
def Termination.drafts (ka_message : Bytes) : Termination → List RelayEvent → List Draft
  | _, [] => []
  | s, e :: es => e.drafts ka_message s ++ (s.step e.toEvent).drafts ka_message es

/-- RMR hands no message back with an error, and only buffers without a name. -/
def Surroundings.Tidy (S : Surroundings) : Prop :=
  ∀ n, S.answers n = .null ∨ ∃ next, S.answers n = .sent next ∧ Clear next.meid

/-- A buffer holds what a draft says, with the `n`-th transaction id.  The name stands over what
was in the field, which is nothing in a clean buffer and in that of a setup request. -/
structure Draft.WrittenTo (S : Surroundings) (clean : Prop) (d : Draft) (n : Nat)
    (m : RmrMessage) : Prop where
  mtype : m.mtype = some d.mtype
  meid : ∀ name, d.meid = some name → ∃ field, m.meid = S.bytes2meid field name ∧
    (clean ∨ d.mtype = .RIC_E2_SETUP_REQ → Clear field)
  sub_id : ∀ id, d.sub_id = some id → m.sub_id = some id
  payload : m.payload = d.payload
  xact : m.xact = transactionId (S.ids n)

/-- The draft is sent: RMR got the message once, or twice after `RMR_ERR_RETRY`. -/
structure Draft.SentAs (S : Surroundings) (clean : Prop) (d : Draft) (n : Nat)
    (s : Submission) : Prop where
  about : s.about = d.about
  written : d.WrittenTo S clean n s.message
  results : ∃ x, s.results = [.retry, x] ∨
    s.results = [x] ∧ (x = .retry → d.mtype = .E2_TERM_KEEP_ALIVE_RESP)

/-- Messages that say what their drafts say, numbered from `n` on. -/
inductive Transcript (S : Surroundings) (clean : Prop) :
    Nat → List Submission → List Draft → Prop
  | nil (n : Nat) : Transcript S clean n [] []
  | cons {n : Nat} {s : Submission} {d : Draft} {log : List Submission} {ds : List Draft} :
      d.SentAs S clean n s → Transcript S clean (n + 1) log ds →
        Transcript S clean n (s :: log) (d :: ds)

namespace Transcript

variable {S : Surroundings} {clean clean' : Prop} {n : Nat} {log log' : List Submission}
  {ds ds' : List Draft}

/-- Two stretches of the log, the second numbered on from the first. -/
theorem append (h : Transcript S clean n log ds)
    (h' : Transcript S clean (n + ds.length) log' ds') :
    Transcript S clean n (log ++ log') (ds ++ ds') := by
  induction h with
  | nil n => exact h'
  | cons hd _ ih =>
      refine .cons hd (ih ?_)
      rw [List.length_cons] at h'
      rwa [Nat.add_assoc, Nat.add_comm 1]

/-- What is said where buffers are clean for one reason is said for a stronger one. -/
theorem imp (h : Transcript S clean n log ds) (himp : clean' → clean) :
    Transcript S clean' n log ds := by
  induction h with
  | nil n => exact .nil n
  | cons hd _ ih =>
      refine .cons ⟨hd.about, ⟨hd.written.mtype, fun name hname => ?_, hd.written.sub_id,
        hd.written.payload, hd.written.xact⟩, hd.results⟩ ih
      obtain ⟨field, hfield, hclear⟩ := hd.written.meid name hname
      exact ⟨field, hfield, fun h => hclear (h.imp_left himp)⟩

/-- The transaction ids are those of the numbers that were read from `n` on. -/
theorem xacts (h : Transcript S clean n log ds) :
    log.map (·.message.xact) = (List.range' n ds.length).map (transactionId ∘ S.ids) := by
  induction h with
  | nil n => rfl
  | cons hd _ ih =>
      rw [List.map_cons, ih, hd.written.xact, List.length_cons, List.range'_succ, List.map_cons]
      rfl

end Transcript

namespace Rmr

variable {S : Surroundings} {r r' r'' : Rmr} {ds ds' : List Draft}

/-- There is no name in the buffer. -/
def Blank (r : Rmr) : Prop := Clear r.sendMessage.meid

/-- From one state of the buffer to the other, messages with these drafts are sent. -/
structure Says (S : Surroundings) (r r' : Rmr) (ds : List Draft) : Prop where
  increments : r'.increments = r.increments + ds.length
  blank : S.Tidy → r.Blank → r'.Blank
  log : ∃ log, r'.log = r.log ++ log ∧ Transcript S (S.Tidy ∧ r.Blank) r.increments log ds

/-- A step that sends nothing, takes no number and leaves the address of the buffer. -/
theorem Says.silent (hincrements : r'.increments = r.increments) (hlog : r'.log = r.log)
    (hmeid : r'.sendMessage.meid = r.sendMessage.meid) : Says S r r' [] :=
  ⟨hincrements, fun _ h => by rwa [Blank, hmeid], [], by rw [hlog, List.append_nil], .nil _⟩

/-- One step after another. -/
theorem Says.trans (h : Says S r r' ds) (h' : Says S r' r'' ds') : Says S r r'' (ds ++ ds') := by
  obtain ⟨log, hlog, htrans⟩ := h.log
  obtain ⟨log', hlog', htrans'⟩ := h'.log
  refine ⟨?_, fun htidy hblank => h'.blank htidy (h.blank htidy hblank), log ++ log', ?_, ?_⟩
  · rw [h'.increments, h.increments, List.length_append]
    omega
  · rw [hlog', hlog, List.append_assoc]
  · rw [h.increments] at htrans'
    exact htrans.append (htrans'.imp fun hclean => ⟨hclean.1, h.blank hclean.1 hclean.2⟩)

/-- All that is in the record, where it was empty. -/
theorem Says.transcript (h : Says S r r' ds) (hlog : r.log = []) :
    Transcript S (S.Tidy ∧ r.Blank) r.increments r'.log ds := by
  obtain ⟨log, hlog', htranscript⟩ := h.log
  rwa [hlog', hlog, List.nil_append]

/-- After a call that RMR answers as it should there is no name in the buffer. -/
theorem blank_rmr_send_msg (htidy : S.Tidy) : (r.rmr_send_msg S).2.Blank := by
  unfold rmr_send_msg Blank
  rcases htidy r.calls with hnull | ⟨next, hsent, hclear⟩
  · rw [hnull]
    exact S.alloc_clear _
  · rw [hsent]
    exact hclear

/-- **What `sendRmrMessage` does**: the message of the buffer is handed to RMR once, or a second
time after `RMR_ERR_RETRY`. -/
theorem sendRmrMessage_spec (about : Option Nat) :
    (r.sendRmrMessage S about).increments = r.increments ∧
      (S.Tidy → (r.sendRmrMessage S about).Blank) ∧
      ∃ results x,
        (r.sendRmrMessage S about).log = r.log ++ [⟨about, r.sendMessage, results⟩] ∧
        (results = [.retry, x] ∨ results = [x] ∧ x ≠ .retry) := by
  have hblank : S.Tidy → (r.rmr_send_msg S).2.Blank := blank_rmr_send_msg
  have hagain : S.Tidy → ((r.rmr_send_msg S).2.rmr_send_msg S).2.Blank := blank_rmr_send_msg
  have hincrements : (r.rmr_send_msg S).2.increments = r.increments := rfl
  have hlog : (r.rmr_send_msg S).2.log = r.log := rfl
  unfold sendRmrMessage
  generalize r.rmr_send_msg S = first at *
  obtain ⟨result, r'⟩ := first
  have hrecord : ∀ results, (r'.record ⟨about, r.sendMessage, results⟩).log =
      r.log ++ [⟨about, r.sendMessage, results⟩] := fun results => by rw [record, hlog]
  cases result with
  | retry =>
      refine ⟨hincrements, hagain, [.retry, (r'.rmr_send_msg S).1], _, ?_, .inl rfl⟩
      exact congrArg (· ++ _) hlog
  | sent next => exact ⟨hincrements, hblank, _, _, hrecord _, .inr ⟨rfl, nofun⟩⟩
  | failed => exact ⟨hincrements, hblank, _, _, hrecord _, .inr ⟨rfl, nofun⟩⟩
  | null => exact ⟨hincrements, hblank, _, _, hrecord _, .inr ⟨rfl, nofun⟩⟩

/-- A message that was put into the buffer is sent. -/
theorem says_sendRmrMessage {d : Draft} (hlog : r'.log = r.log)
    (hincrements : r'.increments = r.increments + 1)
    (hd : d.WrittenTo S (S.Tidy ∧ r.Blank) r.increments r'.sendMessage) :
    Says S r (r'.sendRmrMessage S d.about) [d] := by
  obtain ⟨hincrements', hblank, results, x, hlog', hresults⟩ :=
    @sendRmrMessage_spec S r' d.about
  refine ⟨hincrements'.trans hincrements, fun htidy _ => hblank htidy,
    [⟨d.about, r'.sendMessage, results⟩], by rw [hlog', hlog], .cons ⟨rfl, hd, x, ?_⟩ (.nil _)⟩
  rcases hresults with h | ⟨h, hne⟩
  · exact .inl h
  · exact .inr ⟨h, fun hx => absurd hx hne⟩

/-- The name of a draft is written over what is in the buffer. -/
theorem meid_writtenTo {d : Draft} {name : Bytes} (hname : d.meid = some name)
    (hmtype : d.mtype ≠ .RIC_E2_SETUP_REQ) (name' : Bytes) (h : d.meid = some name') :
    ∃ field, S.bytes2meid r.sendMessage.meid name = S.bytes2meid field name' ∧
      ((S.Tidy ∧ r.Blank) ∨ d.mtype = .RIC_E2_SETUP_REQ → Clear field) := by
  obtain rfl := Option.some.inj (hname.symm.trans h)
  exact ⟨_, rfl, fun hclean => (hclean.resolve_right hmtype).2⟩

variable {p : Nat} {cu : ConnectedCU} {pdu : E2apPdu} {enodbName payload text : Bytes}

/-- A message under the name of a connection. -/
theorem says_sendRequestToXapp {mtype : MessageType} (hmtype : mtype ≠ .RIC_E2_SETUP_REQ) :
    Says S r ((r.fill payload).sendRequestToXapp S p enodbName mtype)
      [⟨some p, mtype, some enodbName, none, payload⟩] :=
  says_sendRmrMessage (d := ⟨some p, mtype, some enodbName, none, payload⟩) rfl rfl
    ⟨rfl, meid_writtenTo rfl hmtype, nofun, rfl, rfl⟩

/-- A connection is announced as gone. -/
theorem says_sendFailure : Says S r (r.sendFailure S p enodbName text)
    [⟨some p, .RIC_SCTP_CONNECTION_FAILURE, some enodbName, none,
      (enodbName ++ ascii "|" ++ text).take 255⟩] :=
  says_sendRequestToXapp nofun

/-- The answer to a keep-alive, which is handed to RMR once, whatever RMR says. -/
theorem says_sendKeepAlive (ka_message : Bytes) : Says S r (r.sendKeepAlive S ka_message)
    [⟨none, .E2_TERM_KEEP_ALIVE_RESP, none, none, ka_message⟩] where
  increments := rfl
  blank htidy _ := by
    have hblank : ∀ r : Rmr, (r.rmr_send_msg S).2.Blank := fun r => blank_rmr_send_msg htidy
    exact hblank _
  log := ⟨_, rfl,
    .cons ⟨rfl, ⟨rfl, nofun, nofun, rfl, rfl⟩, _, .inr ⟨rfl, fun _ => rfl⟩⟩ (.nil _)⟩

/-- A message with the id of a request is sent for the first element that has one. -/
theorem says_sendWithRequestID (mtype : MessageType) (hmtype : mtype ≠ .RIC_E2_SETUP_REQ)
    (sub_id : RICrequestID → Int) (reads : Bool) (ies : List RequestIe) :
    Says S r ((r.fill payload).sendWithRequestID S p cu mtype sub_id reads ies)
      ((ies.findSome? RequestIe.value).map fun id =>
        (⟨some p, mtype, some (visible cu.enodbName), some (sub_id id), payload⟩ :
          Draft)).toList := by
  induction ies with
  | nil => exact .silent rfl rfl rfl
  | cons ie ies ih =>
      unfold sendWithRequestID
      rw [List.findSome?_cons]
      cases ie.value with
      | none => exact ih
      | some id =>
          exact says_sendRmrMessage
            (d := ⟨some p, mtype, some (visible cu.enodbName), some (sub_id id), payload⟩) rfl rfl
            ⟨rfl, meid_writtenTo rfl hmtype, fun _ h => h, rfl, rfl⟩

/-- A setup request goes out in a buffer of its own; the listener's is as it was. -/
theorem says_buildAndsendSetupRequest (bytes : Bytes) :
    Says S r ((r.fill bytes).buildAndsendSetupRequest S p enodbName payload)
      [⟨some p, .RIC_E2_SETUP_REQ, some enodbName, none, payload⟩] := by
  let own : Rmr := { r with sendMessage := { S.alloc (r.calls + 1) with payload } }
  have h : Says S r (((own.address S .RIC_E2_SETUP_REQ enodbName none).bytes2xact S).sendRmrMessage
      S (some p)) [⟨some p, .RIC_E2_SETUP_REQ, some enodbName, none, payload⟩] := by
    refine says_sendRmrMessage (d := ⟨some p, .RIC_E2_SETUP_REQ, some enodbName, none, payload⟩)
      rfl rfl ⟨rfl, fun name hname => ?_, nofun, rfl, rfl⟩
    obtain rfl := Option.some.inj hname
    exact ⟨_, rfl, fun _ => S.alloc_clear _⟩
  exact ⟨h.increments, fun _ hblank => hblank, h.log⟩

/-! ### One message -/

/-- Only an E2 setup request has a draft of its own. -/
theorem setupDraft_eq_none {s : Termination}
    (h : pdu.present = .initiatingMessage → pdu.procedureCode ≠ .E2setup) :
    s.setupDraft p cu pdu = none := by
  unfold Termination.setupDraft
  split
  · rename_i hpresent hcode _
    exact absurd hcode (h hpresent)
  · rfl

/-- An initiating message is relayed by its kind, and an E2 setup with its own draft behind. -/
theorem says_asnInitiatingRequest {s : Termination} {bytes : Bytes}
    (hpresent : pdu.present = .initiatingMessage) :
    Says S r ((r.fill bytes).asnInitiatingRequest S p cu pdu (s.collectSetup p cu pdu.setupIes))
      ((Termination.relayDraft p cu bytes pdu).toList ++ (s.setupDraft p cu pdu).toList) := by
  by_cases hcode : pdu.procedureCode = .E2setup
  · unfold asnInitiatingRequest Termination.relayDraft Termination.setupDraft
    rw [hpresent, hcode]
    cases pdu.setupPayload with
    | none => exact .silent rfl rfl rfl
    | some payload =>
        dsimp only
        split
        · exact says_buildAndsendSetupRequest bytes
        · exact .silent rfl rfl rfl
  · rw [setupDraft_eq_none fun _ => hcode, Option.toList_none, List.append_nil]
    unfold asnInitiatingRequest Termination.relayDraft
    rw [hpresent]
    cases h : pdu.procedureCode with
    | E2setup => exact absurd h hcode
    | RICserviceUpdate | ErrorIndication | Reset => exact says_sendRequestToXapp nofun
    | RICindication => exact says_sendWithRequestID .RIC_INDICATION nofun _ _ _
    | _ => exact .silent rfl rfl rfl

/-- A successful outcome is relayed by its kind. -/
theorem says_asnSuccsesfulMsg {bytes : Bytes} (hpresent : pdu.present = .successfulOutcome) :
    Says S r ((r.fill bytes).asnSuccsesfulMsg S p cu pdu)
      (Termination.relayDraft p cu bytes pdu).toList := by
  unfold asnSuccsesfulMsg Termination.relayDraft
  rw [hpresent]
  cases pdu.procedureCode with
  | RICcontrol => exact says_sendWithRequestID .RIC_CONTROL_ACK nofun _ _ _
  | RICindication => exact says_sendWithRequestID .RIC_INDICATION nofun _ _ _
  | E2setup | RICserviceQuery | undefined => exact .silent rfl rfl rfl
  | _ => exact says_sendRequestToXapp nofun

/-- So is an unsuccessful one. -/
theorem says_asnUnSuccsesfulMsg {bytes : Bytes} (hpresent : pdu.present = .unsuccessfulOutcome) :
    Says S r ((r.fill bytes).asnUnSuccsesfulMsg S p cu pdu)
      (Termination.relayDraft p cu bytes pdu).toList := by
  unfold asnUnSuccsesfulMsg Termination.relayDraft
  rw [hpresent]
  cases pdu.procedureCode with
  | RICcontrol => exact says_sendWithRequestID .RIC_CONTROL_FAILURE nofun _ _ _
  | RICindication => exact says_sendWithRequestID .RIC_INDICATION nofun _ _ _
  | E2setup | RICserviceQuery | undefined => exact .silent rfl rfl rfl
  | _ => exact says_sendRequestToXapp nofun

end Rmr

namespace Relay

open Rmr

variable {S : Surroundings} {ka_message : Bytes} {r r' : Relay} {p : Nat}

/-- Whatever a decoded message is, what is sent are its drafts. -/
theorem says_dispatch (bytes : Bytes) (pdu : E2apPdu) :
    Says S r.rmr (r.dispatch S p bytes pdu).rmr (r.termination.messageDrafts p bytes pdu) := by
  unfold dispatch Termination.messageDrafts
  dsimp only
  cases r.termination.peers p with
  | none => exact .silent rfl rfl rfl
  | some cu =>
      dsimp only
      cases hpresent : pdu.present with
      | initiatingMessage => exact says_asnInitiatingRequest hpresent
      | successfulOutcome =>
          rw [setupDraft_eq_none (by rw [hpresent]; nofun), Option.toList_none, List.append_nil]
          exact says_asnSuccsesfulMsg hpresent
      | unsuccessfulOutcome =>
          rw [setupDraft_eq_none (by rw [hpresent]; nofun), Option.toList_none, List.append_nil]
          exact says_asnUnSuccsesfulMsg hpresent
      | nothing =>
          have hrelay : Termination.relayDraft p cu bytes pdu = none := by
            unfold Termination.relayDraft
            rw [hpresent]
            rfl
          rw [setupDraft_eq_none (by rw [hpresent]; nofun), hrelay]
          exact .silent rfl rfl rfl

/-! ### One round -/

/-- A lost connection is announced by its draft, if its record is live. -/
theorem says_announce (text : Bytes) (close : Termination → Termination) :
    Says S r.rmr (r.announce S p text close).rmr (r.termination.failureDrafts p text) := by
  unfold announce Termination.failureDrafts
  dsimp only
  cases r.termination.peers p with
  | none => exact .silent rfl rfl rfl
  | some cu => exact says_sendFailure

/-- The loop over the reads handles what `handled` says, and the round announces the connection
where it is done. -/
theorem readLoop_spec (reads : List SctpRead) :
    (r.readLoop S p reads).2 = (handled reads).2 ∧
      (r.readLoop S p reads).1.termination =
        (handled reads).1.foldl (fun s pdu => s.handlePdu p pdu) r.termination ∧
      ∃ ds, Says S r.rmr (r.readLoop S p reads).1.rmr ds ∧
        r.termination.readDrafts p reads = ds ++
          if (handled reads).2 then
            (r.readLoop S p reads).1.termination.failureDrafts p
              (ascii "CU disconnected unexpectedly")
          else [] := by
  induction reads generalizing r with
  | nil => exact ⟨rfl, rfl, [], .silent rfl rfl rfl, rfl⟩
  | cons read reads ih =>
      cases read with
      | eintr => exact ih
      | eagain => exact ⟨rfl, rfl, [], .silent rfl rfl rfl, rfl⟩
      | eof => exact ⟨rfl, rfl, [], .silent rfl rfl rfl, rfl⟩
      | error => exact ⟨rfl, rfl, [], .silent rfl rfl rfl, rfl⟩
      | message bytes decoded =>
          cases decoded with
          | none => exact ⟨rfl, rfl, [], .silent rfl rfl rfl, rfl⟩
          | some pdu =>
              obtain ⟨hdone, hterm, ds, hsays, hdrafts⟩ := @ih (r.dispatch S p bytes pdu)
              refine ⟨hdone, hterm, _, (says_dispatch bytes pdu).trans hsays, ?_⟩
              rw [List.append_assoc]
              exact congrArg (r.termination.messageDrafts p bytes pdu ++ ·) hdrafts

/-- **Reading a connection.** -/
theorem receiveDataFromSctp_spec (reads : List SctpRead) :
    (r.receiveDataFromSctp S p reads).termination =
        r.termination.receiveDataFromSctp p (handled reads).1 (handled reads).2 ∧
      Says S r.rmr (r.receiveDataFromSctp S p reads).rmr
        (if (r.termination.peers p).isSome then r.termination.readDrafts p reads else []) := by
  unfold receiveDataFromSctp Termination.receiveDataFromSctp Termination.deref
  cases hp : r.termination.peers p with
  | none => exact ⟨rfl, .silent rfl rfl rfl⟩
  | some cu =>
      obtain ⟨hdone, hterm, ds, hsays, hdrafts⟩ := @readLoop_spec S r p reads
      rw [Option.isSome_some, if_pos rfl, hdrafts]
      dsimp only
      cases hloop : r.readLoop S p reads with
      | mk r' done =>
          rw [hloop] at hdone hterm hsays
          obtain rfl : done = (handled reads).2 := hdone
          obtain hterm : r'.termination = _ := hterm
          cases hclosed : (handled reads).2 with
          | true =>
              rw [← hterm]
              exact ⟨rfl, hsays.trans (says_announce _ _)⟩
          | false =>
              rw [← hterm]
              exact ⟨rfl, by simpa using hsays⟩

/-- **Some keys of `RIC_SCTP_CLEAR_ALL`.** -/
theorem clearKeys_spec (keys : List Bytes) :
    (keys.foldl (clearKey S) r).termination =
        keys.foldl Termination.clearKey r.termination ∧
      Says S r.rmr (keys.foldl (clearKey S) r).rmr (r.termination.clearDrafts keys) := by
  induction keys generalizing r with
  | nil => exact ⟨rfl, .silent rfl rfl rfl⟩
  | cons key keys ih =>
      obtain ⟨hterm, hsays⟩ := @ih (clearKey S r key)
      have hkey : (clearKey S r key).termination = r.termination.clearKey key ∧
          Says S r.rmr (clearKey S r key).rmr
            (if (ascii "host:").isPrefixOf key || (ascii "msg:").isPrefixOf key then []
              else match r.termination.sctpMap.lookup key with
                | none => []
                | some p => r.termination.failureDrafts p (ascii "RIC_SCTP_CLEAR_ALL")) := by
        unfold clearKey Termination.clearKey
        split
        · exact ⟨rfl, .silent rfl rfl rfl⟩
        · cases r.termination.sctpMap.lookup key with
          | none => exact ⟨rfl, .silent rfl rfl rfl⟩
          | some p => exact ⟨rfl, says_announce _ _⟩
      rw [hkey.1] at hterm hsays
      exact ⟨hterm, hkey.2.trans hsays⟩

/-- The order in which the keys are gone through is one of them. -/
theorem perm_inOrder (order keys : List Bytes) : (inOrder order keys).Perm keys := by
  unfold inOrder
  split
  · assumption
  · exact .refl keys

/-- **`RIC_SCTP_CLEAR_ALL`**, in whatever order. -/
theorem clearAll_spec (order : List Bytes) :
    (r.clearAll S order).termination = r.termination.clearAll ∧
      Says S r.rmr (r.clearAll S order).rmr
        (r.termination.clearDrafts (inOrder order r.termination.sctpMap.keys)) := by
  obtain ⟨hterm, hsays⟩ := @clearKeys_spec S r (inOrder order r.termination.sctpMap.keys)
  rw [Termination.foldl_clearKey_perm (perm_inOrder order r.termination.sctpMap.keys)] at hterm
  exact ⟨congrArg (fun s : Termination => { s with sctpMap := ∅ }) hterm, hsays⟩

/-- **One round**: the connections go on as without messages, and the drafts of the round are
sent. -/
theorem round_spec (e : RelayEvent) :
    (r.round S ka_message e).termination = r.termination.step e.toEvent ∧
      Says S r.rmr (r.round S ka_message e).rmr (e.drafts ka_message r.termination) := by
  cases e with
  | accept hostName portNumber addToEpoll => exact ⟨rfl, .silent rfl rfl rfl⟩
  | data p reads => exact receiveDataFromSctp_spec reads
  | error p => exact ⟨rfl, says_announce _ _⟩
  | rmr m =>
      cases m with
      | keepAlive => exact ⟨rfl, says_sendKeepAlive ka_message⟩
      | clearAll order => exact clearAll_spec order
      | downlink enodbName messageType sent => exact ⟨rfl, .silent rfl rfl rfl⟩
      | other => exact ⟨rfl, .silent rfl rfl rfl⟩
  | inotify => exact ⟨rfl, .silent rfl rfl rfl⟩

/-- A round in which no name goes astray. -/
theorem eq_round_of_step {e : RelayEvent} (h : r.step S ka_message e = some r') :
    r' = r.round S ka_message e := by
  unfold step at h
  dsimp only at h
  split at h
  · cases h
  · exact (Option.some.inj h).symm

/-- A step that writes through no wild pointer is the round as it is computed. -/
theorem step_eq {e : RelayEvent} (h : (r.round S ka_message e).rmr.stray = false) :
    r.step S ka_message e = some (r.round S ka_message e) := by
  unfold step
  rw [if_neg (by rw [h]; nofun)]

/-! ### Runs -/

/-- **A run**: the connections are those of the listener without its messages, and the drafts of
the run are sent. -/
theorem run_spec {es : List RelayEvent} (h : r.run S ka_message es = some r') :
    r'.termination = r.termination.run (es.map RelayEvent.toEvent) ∧
      Says S r.rmr r'.rmr (r.termination.drafts ka_message es) := by
  induction es generalizing r with
  | nil =>
      obtain rfl := Option.some.inj h
      exact ⟨rfl, .silent rfl rfl rfl⟩
  | cons e es ih =>
      rw [run, List.foldlM_cons] at h
      obtain ⟨r₁, hr₁, hrest⟩ := Option.bind_eq_some_iff.1 h
      obtain rfl := eq_round_of_step hr₁
      obtain ⟨hterm, hsays⟩ := @round_spec S ka_message r e
      obtain ⟨hterm', hsays'⟩ := ih hrest
      rw [hterm] at hterm' hsays'
      exact ⟨hterm', hsays.trans hsays'⟩

/-- A run whose first round sends no name astray. -/
theorem run_cons {e : RelayEvent} (h : (r.round S ka_message e).rmr.stray = false)
    (es : List RelayEvent) :
    r.run S ka_message (e :: es) = (r.round S ka_message e).run S ka_message es := by
  rw [run, List.foldlM_cons, step_eq h]
  rfl

/-- The first buffer has no name in it. -/
theorem blank_start (S : Surroundings) : (start S).rmr.Blank := S.alloc_clear 0

/-- **RMR has no influence on what is sent**: the messages of a run are its drafts, each with the
number that the listener read for it, and its name is over what was left in the buffer, which
is no name where RMR is tidy. -/
theorem transcript_run {S : Surroundings} {ka_message : Bytes} {es : List RelayEvent} {r : Relay}
    (h : (start S).run S ka_message es = some r) :
    Transcript S S.Tidy 0 r.rmr.log (E2Term.start.drafts ka_message es) :=
  ((run_spec h).2.transcript rfl).imp fun htidy => ⟨htidy, blank_start S⟩

/-- Surroundings in which a name is copied into its field, the counter starts at 7 and `me_id`
is NULL. -/
def surroundings (answers : Nat → SendResult) : Surroundings where
  answers := answers
  alloc _ := ⟨none, none, [], [], []⟩
  alloc_clear _ _ hc := absurd hc List.not_mem_nil
  bytes2meid field name :=
    name.take RMR_MAX_MEID ++ field.drop (name.take RMR_MAX_MEID).length
  begins _ _ := List.prefix_append _ _
  rest _ _ := List.drop_left
  ids n := n + 7
  me_id_null _ := true

/-- RMR asks for the second message again, and gives out empty buffers. -/
def askingAgain : Nat → SendResult
  | 1 => .retry
  | _ => .sent ⟨none, none, [], [], []⟩

/-- A gNB connects, -/
def connects : RelayEvent := .accept (ascii "10.0.2.101") 36422 true

/-- sets up, -/
def setsUp : RelayEvent :=
  .data 0 [.message [0, 1] (some ⟨.initiatingMessage, .E2setup, [.globalE2nodeID Termination.gnbA],
    some (ascii "10.0.2.10:38000|<E2AP-PDU/>"), []⟩), .eagain]

/-- sends an indication and closes the connection. -/
def reports : RelayEvent :=
  .data 0 [.message [0, 5, 7] (some ⟨.initiatingMessage, .RICindication, [], none,
    [.other, .requestID (some ⟨24, 0⟩)]⟩), .eof]

/-- The rounds of it, and what is left. -/
def afterSession : Relay :=
  let S := surroundings askingAgain
  (((start S).round S [] connects).round S [] setsUp).round S [] reports

/-- No name goes astray in it. -/
theorem run_session :
    (start (surroundings askingAgain)).run (surroundings askingAgain) []
      [connects, setsUp, reports] = some afterSession :=
  (run_cons rfl _).trans ((run_cons (by decide +kernel) _).trans
    (run_cons (by decide +kernel) []))

/-- The messages of the session, the second of which RMR asks for again. -/
theorem transcript_run_session :
    Transcript (surroundings askingAgain) (surroundings askingAgain).Tidy 0 afterSession.rmr.log
      (E2Term.start.drafts [] [connects, setsUp, reports]) :=
  transcript_run run_session

end Relay

/-! ### Connections that are gone -/

/-- What a message is about, and its type. -/
abbrev Topic := Option Nat × Option MessageType

def Draft.topic (d : Draft) : Topic := (d.about, some d.mtype)

def Submission.topic (s : Submission) : Topic := (s.about, s.message.mtype)

/-- The connection is announced as gone. -/
def gone (p : Nat) : Topic := (some p, some .RIC_SCTP_CONNECTION_FAILURE)

/-- The connections and types in a log are those of its drafts, in order. -/
theorem Transcript.topics {S : Surroundings} {clean : Prop} {n : Nat} {log : List Submission}
    {ds : List Draft} (h : Transcript S clean n log ds) :
    log.map Submission.topic = ds.map Draft.topic := by
  induction h with
  | nil n => rfl
  | cons hd _ ih =>
      rw [List.map_cons, List.map_cons, ih, Submission.topic, hd.about, hd.written.mtype,
        Draft.topic]

/-- The connection has been announced as gone once, by the last message about it. -/
def Announced (ts : List Topic) (p : Nat) : Prop :=
  ∃ before after, ts = before ++ gone p :: after ∧ gone p ∉ before ∧ ∀ t, (some p, t) ∉ after

/-- The messages so far account for the connections: nothing has been said of those to come, no
open one has been announced as gone, and each of the others has. -/
structure Accounted (s : Termination) (ts : List Topic) : Prop where
  fresh : ∀ p, s.next ≤ p → s.peers p = none
  unknown : ∀ p t, s.next ≤ p → (some p, t) ∉ ts
  live : ∀ p, (s.peers p).isSome → gone p ∉ ts
  freed : ∀ p < s.next, s.peers p = none → Announced ts p

namespace Accounted

variable {s s' : Termination} {ts : List Topic} {p : Nat}

/-- Before the first event nothing is accounted for. -/
theorem start : Accounted E2Term.start [] where
  fresh _ _ := rfl
  unknown _ _ _ := List.not_mem_nil
  live _ _ := List.not_mem_nil
  freed _ hp := absurd hp (Nat.not_lt_zero _)

/-- Only which connections are allocated matters. -/
theorem congr (h : Accounted s ts) (hnext : s'.next = s.next)
    (hpeers : ∀ q, (s'.peers q).isSome = (s.peers q).isSome) : Accounted s' ts := by
  have hnone : ∀ q, s'.peers q = none ↔ s.peers q = none := fun q => by
    rw [← Option.isNone_iff_eq_none, ← Option.isNone_iff_eq_none, ← Option.not_isSome,
      ← Option.not_isSome, hpeers]
  refine ⟨fun q hq => (hnone q).2 (h.fresh q (hnext ▸ hq)),
    fun q t hq => h.unknown q t (hnext ▸ hq), fun q hq => h.live q (hpeers q ▸ hq),
    fun q hq hfreed => ?_⟩
  exact h.freed q (hnext ▸ hq) ((hnone q).1 hfreed)

/-- Without a word nothing changes. -/
theorem silent (h : Accounted s ts) : Accounted s (ts ++ []) := by
  rwa [List.append_nil]

/-- A live record is not the next one. -/
theorem lt_next (h : Accounted s ts) (hp : (s.peers p).isSome) : p < s.next := by
  by_contra hge
  rw [h.fresh p (by omega)] at hp
  cases hp

/-- A message that is about an open connection or about none. -/
theorem say (h : Accounted s ts) {about : Option Nat} {mtype : Option MessageType}
    (hlive : ∀ p, about = some p → (s.peers p).isSome)
    (htype : ∀ p, (about, mtype) ≠ gone p) : Accounted s (ts ++ [(about, mtype)]) where
  fresh := h.fresh
  unknown q t hq hmem := by
    rcases List.mem_append.1 hmem with hmem | hmem
    · exact h.unknown q t hq hmem
    · obtain ⟨rfl, rfl⟩ := Prod.mk.inj (List.mem_singleton.1 hmem)
      have hlt := h.lt_next (hlive q rfl)
      omega
  live q hq hmem := by
    rcases List.mem_append.1 hmem with hmem | hmem
    · exact h.live q hq hmem
    · exact htype q (List.mem_singleton.1 hmem).symm
  freed q hq hfreed := by
    obtain ⟨before, after, rfl, hbefore, hafter⟩ := h.freed q hq hfreed
    refine ⟨before, after ++ [(about, mtype)], by simp, hbefore, fun t hmem => ?_⟩
    rcases List.mem_append.1 hmem with hmem | hmem
    · exact hafter t hmem
    · obtain ⟨rfl, rfl⟩ := Prod.mk.inj (List.mem_singleton.1 hmem)
      have hopen := hlive q rfl
      rw [hfreed] at hopen
      cases hopen

/-- Words about a live record that announce no failure. -/
theorem sayAll (h : Accounted s ts) (ts' : List Topic) (hlive : (s.peers p).isSome)
    (hts' : ∀ t ∈ ts', t.1 = some p ∧ t.2 ≠ some .RIC_SCTP_CONNECTION_FAILURE) :
    Accounted s (ts ++ ts') := by
  induction ts' generalizing ts with
  | nil => rwa [List.append_nil]
  | cons t ts' ih =>
      obtain ⟨habout, htype⟩ := hts' t List.mem_cons_self
      have hsay : Accounted s (ts ++ [(t.1, t.2)]) := by
        refine h.say (fun q hq => ?_) fun q hgone => htype (Prod.mk.inj hgone).2
        obtain rfl : p = q := Option.some.inj (habout.symm.trans hq)
        exact hlive
      have hrest := ih hsay fun t' ht' => hts' t' (List.mem_cons_of_mem t ht')
      rwa [List.append_assoc] at hrest

/-- An open connection is announced as gone, and freed. -/
theorem close (h : Accounted s ts) (hlive : (s.peers p).isSome) (hnext : s'.next = s.next)
    (hpeers : s'.peers = Function.update s.peers p none) : Accounted s' (ts ++ [gone p]) where
  fresh q hq := by
    rw [hpeers, Function.update_apply]
    split
    · rfl
    · exact h.fresh q (hnext ▸ hq)
  unknown q t hq hmem := by
    rw [hnext] at hq
    rcases List.mem_append.1 hmem with hmem | hmem
    · exact h.unknown q t hq hmem
    · obtain ⟨hqp, -⟩ := Prod.mk.inj (List.mem_singleton.1 hmem)
      obtain rfl := Option.some.inj hqp
      have hlt := h.lt_next hlive
      omega
  live q hq hmem := by
    rw [hpeers, Function.update_apply] at hq
    split at hq
    · cases hq
    · rename_i hqp
      rcases List.mem_append.1 hmem with hmem | hmem
      · exact h.live q hq hmem
      · exact hqp (Option.some.inj (Prod.mk.inj (List.mem_singleton.1 hmem)).1)
  freed q hq hfreed := by
    rw [hpeers, Function.update_apply] at hfreed
    split at hfreed
    · rename_i hqp
      obtain rfl := hqp
      exact ⟨ts, [], rfl, h.live q hlive, fun _ => List.not_mem_nil⟩
    · rename_i hqp
      obtain ⟨before, after, rfl, hbefore, hafter⟩ := h.freed q (hnext ▸ hq) hfreed
      refine ⟨before, after ++ [gone p], by simp, hbefore, fun t hmem => ?_⟩
      rcases List.mem_append.1 hmem with hmem | hmem
      · exact hafter t hmem
      · exact hqp (Option.some.inj (Prod.mk.inj (List.mem_singleton.1 hmem)).1)

/-- Announcing an open connection and freeing it, or doing neither. -/
theorem failure (h : Accounted s ts) (text : Bytes) (hnext : s'.next = s.next)
    (hpeers : (s.peers p).isSome → s'.peers = Function.update s.peers p none)
    (hnone : s.peers p = none → s'.peers = s.peers) :
    Accounted s' (ts ++ (s.failureDrafts p text).map Draft.topic) := by
  unfold Termination.failureDrafts
  cases hp : s.peers p with
  | none =>
      rw [List.map_nil, List.append_nil]
      exact h.congr hnext fun q => by rw [hnone hp]
  | some cu =>
      have hlive : (s.peers p).isSome := by rw [hp]; rfl
      exact h.close hlive hnext (hpeers hlive)

/-- The messages of a peer are about it, and announce no failure. -/
theorem topic_of_mem_messageDrafts {bytes : Bytes} {pdu : E2apPdu} {d : Draft}
    (hd : d ∈ s.messageDrafts p bytes pdu) :
    d.about = some p ∧ d.mtype ≠ .RIC_SCTP_CONNECTION_FAILURE := by
  unfold Termination.messageDrafts at hd
  split at hd
  · cases hd
  · rw [List.mem_append, Option.mem_toList, Option.mem_toList] at hd
    rcases hd with hd | hd
    · unfold Termination.relayDraft at hd
      dsimp only at hd
      split at hd
      · cases hd
      · rename_i mtype heq
        obtain rfl := Option.some.inj hd
        exact ⟨rfl, relayedAs_ne heq⟩
      · rename_i mtype sub_id heq
        obtain ⟨id, -, rfl⟩ := Option.map_eq_some_iff.1 hd
        exact ⟨rfl, relayedAs_ne heq⟩
    · unfold Termination.setupDraft at hd
      split at hd
      · dsimp only at hd
        split at hd
        · obtain rfl := Option.some.inj hd
          exact ⟨rfl, nofun⟩
        · cases hd
      · cases hd

/-- A message leaves its peer's record live. -/
theorem isSome_handlePdu (pdu : Pdu) (q : Nat) :
    ((s.handlePdu p pdu).peers q).isSome = (s.peers q).isSome := by
  cases pdu with
  | other => rfl
  | e2setup ies =>
      cases hp : s.peers p with
      | none => simp [Termination.handlePdu, Termination.deref, hp]
      | some cu =>
          rw [Termination.handlePdu_e2setup hp]
          dsimp only
          rw [Function.update_apply]
          split
          · rename_i hqp
            rw [hqp, hp]
            rfl
          · rfl

/-- It makes no record. -/
theorem next_handlePdu (pdu : Pdu) : (s.handlePdu p pdu).next = s.next := by
  cases pdu with
  | other => rfl
  | e2setup ies =>
      unfold Termination.handlePdu Termination.deref
      cases s.peers p <;> rfl

/-- **The reads of an open connection.** -/
theorem reads (h : Accounted s ts) (hlive : (s.peers p).isSome) (reads : List SctpRead) :
    Accounted (s.receiveDataFromSctp p (handled reads).1 (handled reads).2)
      (ts ++ (s.readDrafts p reads).map Draft.topic) := by
  obtain ⟨cu, hcu⟩ := Option.isSome_iff_exists.1 hlive
  unfold Termination.receiveDataFromSctp
  rw [Termination.deref_of_live hcu]
  dsimp only
  induction reads generalizing s ts cu with
  | nil => simpa [handled, Termination.readDrafts] using h
  | cons read reads ih =>
      have hclose : Accounted (s.cleanHashEntry p)
          (ts ++ (s.failureDrafts p (ascii "CU disconnected unexpectedly")).map Draft.topic) := by
        have hclean := Termination.cleanHashEntry_of_live hcu
        exact h.failure _ (by rw [hclean]) (fun _ => by rw [hclean])
          fun hnone => absurd hnone (by rw [hcu]; nofun)
      cases read with
      | eintr => exact ih h hlive cu hcu
      | eagain => simpa [handled, Termination.readDrafts] using h
      | eof => exact hclose
      | error => exact hclose
      | message bytes decoded =>
          cases decoded with
          | none => simpa [handled, Termination.readDrafts] using h
          | some pdu =>
              have hsay := h.sayAll ((s.messageDrafts p bytes pdu).map Draft.topic) hlive
                fun t ht => by
                  obtain ⟨d, hd, rfl⟩ := List.mem_map.1 ht
                  obtain ⟨habout, htype⟩ := topic_of_mem_messageDrafts hd
                  exact ⟨habout, fun heq => htype (Option.some.inj heq)⟩
              have hnext := hsay.congr (next_handlePdu (p := p) pdu.toPdu)
                (isSome_handlePdu pdu.toPdu)
              obtain ⟨cu', hcu'⟩ := Termination.handlePdu_peers hcu pdu.toPdu
              have hrest := ih hnext (by rw [hcu']; rfl) cu' hcu'
              rw [List.append_assoc, ← List.map_append] at hrest
              exact hrest

/-- A connection that is announced and freed, or was freed before. -/
theorem free (h : Accounted s ts) (text : Bytes) :
    Accounted (s.free p) (ts ++ (s.failureDrafts p text).map Draft.topic) := by
  cases hp : s.peers p with
  | none =>
      have hfree : s.free p = { s with fault := true } := by
        rw [Termination.free, Termination.deref, hp]
      exact h.failure text (by rw [hfree]) (fun hlive => absurd hlive (by simp [hp]))
        fun _ => by rw [hfree]
  | some cu =>
      have hfree := Termination.deref_of_live hp
        fun _ => { s with peers := Function.update s.peers p none }
      exact h.failure text (by rw [Termination.free, hfree])
        (fun _ => by rw [Termination.free, hfree]) fun hnone => absurd hnone (by simp [hp])

/-- **The keys of `RIC_SCTP_CLEAR_ALL`.** -/
theorem clearKeys (h : Accounted s ts) (keys : List Bytes) :
    Accounted (keys.foldl Termination.clearKey s)
      (ts ++ (s.clearDrafts keys).map Draft.topic) := by
  induction keys generalizing s ts with
  | nil => simpa [Termination.clearDrafts] using h
  | cons key keys ih =>
      rw [Termination.clearDrafts, List.map_append, ← List.append_assoc, List.foldl_cons]
      refine ih ?_
      unfold Termination.clearKey
      split
      · rwa [List.map_nil, List.append_nil]
      · cases s.sctpMap.lookup key with
        | none => rwa [List.map_nil, List.append_nil]
        | some q => exact h.free _

/-- One more connection. -/
theorem extend (h : Accounted s ts) (hnext : s'.next = s.next + 1)
    (hnew : (s'.peers s.next).isSome) (hpeers : ∀ q, q ≠ s.next → s'.peers q = s.peers q) :
    Accounted s' ts where
  fresh q hq := by
    rw [hpeers q (by omega)]
    exact h.fresh q (by omega)
  unknown q t hq := h.unknown q t (by omega)
  live q hq := by
    by_cases hqnew : q = s.next
    · exact hqnew ▸ h.unknown s.next _ le_rfl
    · exact h.live q (hpeers q hqnew ▸ hq)
  freed q hq hfreed := by
    have hqnew : q ≠ s.next := by
      rintro rfl
      rw [hfreed] at hnew
      cases hnew
    exact h.freed q (by omega) (hpeers q hqnew ▸ hfreed)

/-- A connection that is accepted gets a record, of which nothing was said. -/
theorem accept (h : Accounted s ts) (hostName : Bytes) (portNumber : Nat) (addToEpoll : Bool) :
    Accounted (s.accept hostName portNumber addToEpoll) ts := by
  unfold Termination.accept
  split
  · exact h.extend rfl (by simp) fun q hq => Function.update_of_ne hq _ _
  · exact h

/-- A connection that is lost is announced once, with its record freed. -/
theorem error (h : Accounted s ts) (text : Bytes) :
    Accounted (s.handlepoll_error p) (ts ++ (s.failureDrafts p text).map Draft.topic) := by
  cases hp : s.peers p with
  | none =>
      have herror : s.handlepoll_error p = { s with fault := true } := by
        rw [Termination.handlepoll_error, Termination.deref, hp]
      exact h.failure text (by rw [herror]) (fun hlive => absurd hlive (by simp [hp]))
        fun _ => by rw [herror]
  | some cu =>
      have hclean := Termination.cleanHashEntry_of_live (s := s.erase (visible cu.enodbName)) hp
      have herror := (Termination.handlepoll_error_of_live hp).trans hclean
      exact h.failure text (by rw [herror]; rfl) (fun _ => by rw [herror]; rfl)
        fun hnone => absurd hnone (by simp [hp])

/-- A message that is sent to a RAN frees nothing, as no connection is marked as connected. -/
theorem downlink (h : Accounted s ts)
    (hcon : ∀ p cu, s.peers p = some cu → cu.isConnected = false) (enodbName : Bytes)
    (messageType : Nat) (sent : Bool) :
    Accounted (s.sendMessagetoCu enodbName messageType sent) ts := by
  unfold Termination.sendMessagetoCu
  split
  · exact h
  · rename_i q _
    unfold Termination.deref
    cases hq : s.peers q with
    | none => exact h.congr rfl fun _ => rfl
    | some cu =>
        dsimp only
        rw [hcon q cu hq, if_pos (by simp)]
        exact h

/-- **One round.** -/
theorem step (h : Accounted s ts) (hcon : ∀ p cu, s.peers p = some cu → cu.isConnected = false)
    (ka_message : Bytes) (e : RelayEvent) :
    Accounted (s.step e.toEvent) (ts ++ (e.drafts ka_message s).map Draft.topic) := by
  cases e with
  | accept hostName portNumber addToEpoll => exact (h.accept hostName portNumber addToEpoll).silent
  | data p reads =>
      rw [RelayEvent.drafts]
      split
      · rename_i hlive
        exact h.reads hlive reads
      · rename_i hdead
        have hnone : s.peers p = none := Option.not_isSome_iff_eq_none.1 hdead
        have hstep : s.step (.data p (handled reads).1 (handled reads).2) =
            { s with fault := true } := by
          rw [Termination.step, Termination.receiveDataFromSctp, Termination.deref, hnone]
        have hfault : Accounted { s with fault := true } ts := h.congr rfl fun _ => rfl
        rw [RelayEvent.toEvent, hstep]
        exact hfault.silent
  | error p => exact h.error _
  | rmr m =>
      cases m with
      | keepAlive =>
          exact h.say (fun p hp => absurd hp (Option.some_ne_none p).symm)
            fun p hp => Option.some_ne_none p (Prod.mk.inj hp).1.symm
      | clearAll order =>
          have hclear := h.clearKeys (Relay.inOrder order s.sctpMap.keys)
          rw [Termination.foldl_clearKey_perm
            (Relay.perm_inOrder order s.sctpMap.keys)] at hclear
          exact hclear.congr rfl fun _ => rfl
      | downlink enodbName messageType sent =>
          exact (h.downlink hcon enodbName messageType sent).silent
      | other => exact h.silent
  | inotify => exact h.silent

end Accounted

namespace Relay

variable {S : Surroundings} {ka_message : Bytes} {r r' : Relay}

/-- The states that runs lead to in which the events come in batches, the setups keep names, and
no `RIC_SCTP_CLEAR_ALL` frees a connection that an event behind it in its batch is about. -/
inductive Reached (S : Surroundings) (ka_message : Bytes) : Relay → Prop
  | start : Reached S ka_message (start S)
  | batch {r r' : Relay} (es : List RelayEvent) : Reached S ka_message r →
      r.termination.Batch (es.map RelayEvent.toEvent) →
      r.termination.NoneCleared (es.map RelayEvent.toEvent) →
      r.termination.KeepsNames (es.map RelayEvent.toEvent) →
      r.run S ka_message es = some r' → Reached S ka_message r'

/-- What holds between the rounds of such a run. -/
structure Sound (r : Relay) : Prop where
  reached : Termination.Reached Termination.keepsNames r.termination
  accounted : Accounted r.termination (r.rmr.log.map Submission.topic)

/-- **One round** that keeps names. -/
theorem Sound.round (h : Sound r) {e : RelayEvent}
    (hkeep : r.termination.keepsNames e.toEvent) : Sound (r.round S ka_message e) := by
  obtain ⟨hterm, hsays⟩ := @round_spec S ka_message r e
  obtain ⟨log, hlog, htranscript⟩ := hsays.log
  have haccounted := h.accounted.step
    (fun p cu => Termination.not_connected_of_reached h.reached) ka_message e
  refine ⟨?_, ?_⟩
  · rw [hterm]
    exact h.reached.step e.toEvent hkeep
  · rwa [hterm, hlog, List.map_append, htranscript.topics]

/-- **One batch**: every event of it is about an open connection when it is handled. -/
theorem Sound.batch (h : Sound r) {es : List RelayEvent}
    (hbatch : r.termination.Batch (es.map RelayEvent.toEvent))
    (hnone : r.termination.NoneCleared (es.map RelayEvent.toEvent))
    (hkeep : r.termination.KeepsNames (es.map RelayEvent.toEvent))
    (hrun : r.run S ka_message es = some r') : Sound r' := by
  induction es generalizing r with
  | nil => exact Option.some.inj hrun ▸ h
  | cons e es ih =>
      rw [run, List.foldlM_cons] at hrun
      obtain ⟨r₁, hr₁, hrest⟩ := Option.bind_eq_some_iff.1 hrun
      obtain rfl := eq_round_of_step hr₁
      have hterm := (@round_spec S ka_message r e).1
      have htail := hbatch.tail h.reached.unconditional hnone
      refine ih (h.round (hbatch.keepsNames hkeep.1)) ?_ ?_ ?_ hrest
      · rw [hterm]
        exact htail
      · rw [hterm]
        exact hnone.tail
      · rw [hterm]
        exact hkeep.2

/-- A batch of one event. -/
theorem Reached.round (h : Reached S ka_message r) (e : RelayEvent)
    (hlive : ∀ p, e.toEvent.peer? = some p → (r.termination.peers p).isSome)
    (hkeep : r.termination.setsUpKeeping e.toEvent)
    (hstray : (r.round S ka_message e).rmr.stray = false) :
    Reached S ka_message (r.round S ka_message e) := by
  refine h.batch [e] ⟨?_, ?_⟩ ?_ ⟨hkeep, trivial⟩ ?_
  · rw [List.map_singleton, List.filterMap_cons]
    split
    · exact List.nodup_nil
    · exact List.nodup_singleton _
  · intro e' he'
    rw [List.mem_singleton.1 he']
    exact hlive
  · intro pre post hes e' he'
    obtain ⟨-, hpost⟩ | ⟨pre', rfl, hpre'⟩ := List.cons_eq_append_iff.1 hes
    · rw [(List.cons.inj hpost).2] at he'
      cases he'
    · exact absurd hpre'.symm (List.append_ne_nil_of_right_ne_nil _ (List.cons_ne_nil _ _))
  · exact run_cons hstray []

/-- The three messages of it, of which the second was handed to RMR twice. -/
example : afterSession.rmr.log.map (fun s => (s.topic, s.message.sub_id, s.results.length)) =
    [((some 0, some .RIC_E2_SETUP_REQ), none, 1), ((some 0, some .RIC_INDICATION), some 24, 2),
      (gone 0, none, 1)] := by decide +kernel

end Relay

end NearRtRic.E2Term
