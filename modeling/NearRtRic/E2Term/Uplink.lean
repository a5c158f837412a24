/-
# What the termination sends to the RIC

The other half of the listener in `sctpThread.cpp`: the messages that it hands to RMR.
`asnInitiatingRequest`, `asnSuccsesfulMsg` and `asnUnSuccsesfulMsg` relay what a RAN sent,
the bytes that were read being the payload already; a connection that goes away is
announced by `RIC_SCTP_CONNECTION_FAILURE`, and a keep-alive request is answered.  All of
this goes through one message buffer, which RMR replaces at every send, and takes its
transaction id from one counter.

`Relay` is the listener with this half, `Relay.round` one of its rounds; what the round does
to the connections is `Termination.step`.  What is not the listener's own is in
`Surroundings`: what RMR answers to each call and what its buffers hold, and what the
increments of `transactionCounter` read, which the main thread increments as well.  The name
field of a buffer is written over, not replaced, so that the end of a longer name that was in
it stays.

For an indication the source reads the name back through `me_id`, a pointer that it never
sets.  Where that is not NULL by chance, the bytes go astray, and nothing is known of the
listener from there on: `Relay.step` has no result.

The trace that `buildJsonMessage` writes is left out.  RMR has a buffer whenever one is
allocated, and `transactionCounter`, a `long` that starts at 10¹² at most, does not overflow.
-/

import Mathlib.Data.List.DropRight
import NearRtRic.CString.Decimal
import NearRtRic.E2Term.SetupName
import NearRtRic.E2Term.Receive

namespace NearRtRic.E2Term

open CString

/-- The RMR messages that the termination sends. -/
inductive MessageType where
  | RIC_E2_SETUP_REQ
  | RIC_SERVICE_UPDATE
  | RIC_ERROR_INDICATION
  | RIC_X2_RESET
  | RIC_INDICATION
  | RIC_CONTROL_ACK
  | RIC_CONTROL_FAILURE
  | RIC_SUB_RESP
  | RIC_SUB_FAILURE
  | RIC_SUB_DEL_RESP
  | RIC_SUB_DEL_FAILURE
  | RIC_SCTP_CONNECTION_FAILURE
  | E2_TERM_KEEP_ALIVE_RESP
  /-- Sent by the main thread. -/
  | E2_TERM_INIT
  deriving DecidableEq, Repr

/-- What is in a message buffer; `none` for a field as RMR made it.  `meid` is the whole name
field. -/
structure RmrMessage where
  mtype : Option MessageType
  sub_id : Option Int
  meid : Bytes
  xact : Bytes
  payload : Bytes
  deriving DecidableEq, Repr

/-- What `rmr_send_msg` returns. -/
inductive SendResult where
  /-- The message is out; a buffer for another one. -/
  | sent (next : RmrMessage)
  /-- The message, in the state `RMR_ERR_RETRY`. -/
  | retry
  /-- The message, in another state. -/
  | failed
  /-- NULL, for which a buffer is allocated. -/
  | null
  deriving DecidableEq, Repr

/-- `RMR_MAX_MEID`, the length of the name field. -/
def RMR_MAX_MEID : Nat := 32

/-- There is no name in the field. -/
def Clear (meid : Bytes) : Prop := ∀ c ∈ meid, c = 0

/-- The name in a field, without the zeros behind it. -/
def nameIn (meid : Bytes) : Bytes := (meid.take RMR_MAX_MEID).rdropWhile (· = 0)

/-- What the listener finds around it. -/
structure Surroundings where
  /-- What `rmr_send_msg` returns, call by call. -/
  answers : Nat → SendResult
  /-- What `rmr_alloc_msg` returns: the listener's first buffer, and those for each call. -/
  alloc : Nat → RmrMessage
  alloc_clear : ∀ n, Clear (alloc n).meid
  /-- What `rmr_bytes2meid` makes of the name field: the bytes of the name, as far as there is
  room, and behind them what was there. -/
  bytes2meid : Bytes → Bytes → Bytes
  begins : ∀ field name, name.take RMR_MAX_MEID <+: bytes2meid field name
  rest : ∀ field name, (bytes2meid field name).drop (name.take RMR_MAX_MEID).length =
    field.drop (name.take RMR_MAX_MEID).length
  /-- What the listener's increments of `transactionCounter` read, one after the other. -/
  ids : Nat → Nat
  /-- Whether `me_id` is NULL when the message of a call is written. -/
  me_id_null : Nat → Bool

namespace Surroundings

variable (S : Surroundings) {field name : Bytes}

/-- A name without zeros in a field that had none in it. -/
theorem bytes2meid_of_clear (h : Clear field) :
    ∃ rest, S.bytes2meid field name = name.take RMR_MAX_MEID ++ rest ∧ Clear rest := by
  obtain ⟨rest, hrest⟩ := S.begins field name
  refine ⟨rest, hrest.symm, fun c hc => ?_⟩
  have hdrop := S.rest field name
  rw [← hrest, List.drop_left] at hdrop
  rw [hdrop] at hc
  exact h c (List.mem_of_mem_drop hc)

/-- The E2 manager reads the name, as far as there was room for it. -/
theorem nameIn_bytes2meid (h : Clear field) (hname : 0 ∉ name) :
    nameIn (S.bytes2meid field name) = name.take RMR_MAX_MEID := by
  obtain ⟨rest, hrest, hclear⟩ := @bytes2meid_of_clear S field name h
  have hlength : (name.take RMR_MAX_MEID).length ≤ RMR_MAX_MEID := List.length_take_le ..
  have hzeros : ∀ c ∈ (rest.take (RMR_MAX_MEID - (name.take RMR_MAX_MEID).length)).reverse,
      decide (c = 0) = true := fun c hc =>
    decide_eq_true (hclear c (List.mem_of_mem_take (List.mem_reverse.1 hc)))
  have hstays : (name.take RMR_MAX_MEID).reverse.dropWhile (· = 0) =
      (name.take RMR_MAX_MEID).reverse := by
    refine List.dropWhile_eq_self_iff.2 fun hpos hzero => ?_
    have hmem := List.getElem_mem hpos
    rw [of_decide_eq_true hzero] at hmem
    exact hname (List.mem_of_mem_take (List.mem_reverse.1 hmem))
  rw [nameIn, hrest, List.take_append, List.take_of_length_le hlength, List.rdropWhile,
    List.reverse_append, List.dropWhile_append_of_pos hzeros, hstays, List.reverse_reverse]

/-- Read as a C string, it is the same. -/
theorem visible_bytes2meid (h : Clear field) (hname : 0 ∉ name)
    (hfits : name.length < RMR_MAX_MEID) : visible (S.bytes2meid field name) = name := by
  obtain ⟨rest, hrest, hclear⟩ := @bytes2meid_of_clear S field name h
  have htake : name.take RMR_MAX_MEID = name := List.take_of_length_le (Nat.le_of_lt hfits)
  rw [hrest, htake, List.eq_replicate_of_mem hclear, visible_append_zeros hname]

end Surroundings

/-- A message that was handed to RMR, and what its calls returned.  `about` is a record of
the connection that it came from or is about. -/
structure Submission where
  about : Option Nat
  message : RmrMessage
  results : List SendResult
  deriving DecidableEq, Repr

/-- The buffer, how often the counter was incremented, and a record of the calls.  `stray`: a
name was read back through a pointer that is neither NULL nor set. -/
structure Rmr where
  sendMessage : RmrMessage
  increments : Nat
  calls : Nat
  log : List Submission
  stray : Bool

/-- `"%15ld"`. -/
def transactionId (n : Nat) : Bytes := padded 15 n

namespace Rmr

variable (S : Surroundings) (r : Rmr)

/-- The buffer after a call. -/
def buffer (sendMessage : RmrMessage) (n : Nat) : SendResult → RmrMessage
  | .sent next => next
  | .null => S.alloc n
  | .retry | .failed => sendMessage

def rmr_send_msg : SendResult × Rmr :=
  let result := S.answers r.calls
  (result, { r with
    sendMessage := buffer S r.sendMessage (r.calls + 1) result, calls := r.calls + 1 })

def record (s : Submission) : Rmr := { r with log := r.log ++ [s] }

/-- `sendRmrMessage`: a second call where RMR asks for it. -/
def sendRmrMessage (about : Option Nat) : Rmr :=
  match r.rmr_send_msg S with
  | (.retry, r') =>
      let (result, r'') := r'.rmr_send_msg S
      r''.record ⟨about, r.sendMessage, [.retry, result]⟩
  | (result, r') => r'.record ⟨about, r.sendMessage, [result]⟩

/-- The next transaction id. -/
def bytes2xact : Rmr :=
  { r with sendMessage := { r.sendMessage with xact := transactionId (S.ids r.increments) }
           increments := r.increments + 1 }

def fill (payload : Bytes) : Rmr := { r with sendMessage := { r.sendMessage with payload } }

/-- The type and the name of a message, and its `sub_id` where that is set. -/
def address (mtype : MessageType) (meid : Bytes) (sub_id : Option Int) : Rmr :=
  { r with sendMessage := { r.sendMessage with
      mtype := some mtype
      meid := S.bytes2meid r.sendMessage.meid meid
      sub_id := sub_id <|> r.sendMessage.sub_id } }

/-- `sendRequestToXapp`. -/
def sendRequestToXapp (p : Nat) (enodbName : Bytes) (requestId : MessageType) : Rmr :=
  (((r.address S requestId enodbName none).bytes2xact S)).sendRmrMessage S (some p)

/-- `RIC_SCTP_CONNECTION_FAILURE` with the name of the connection and a text. -/
def sendFailure (p : Nat) (enodbName text : Bytes) : Rmr :=
  (r.fill ((enodbName ++ ascii "|" ++ text).take 255)).sendRequestToXapp S p enodbName
    .RIC_SCTP_CONNECTION_FAILURE

/-- The answer to `E2_TERM_KEEP_ALIVE_REQ`, which is not sent again. -/
def sendKeepAlive (ka_message : Bytes) : Rmr :=
  let r := (r.fill ka_message).bytes2xact S
  let r := { r with sendMessage := { r.sendMessage with mtype := some .E2_TERM_KEEP_ALIVE_RESP } }
  let (result, r') := r.rmr_send_msg S
  r'.record ⟨none, r.sendMessage, [result]⟩

end Rmr

/-! ### Messages of a RAN -/

/-- The choice that an `E2AP_PDU` is of. -/
inductive Present where
  | initiatingMessage
  | successfulOutcome
  | unsuccessfulOutcome
  | nothing
  deriving DecidableEq, Repr

inductive ProcedureCode where
  | E2setup
  | ErrorIndication
  | Reset
  | RICcontrol
  | RICindication
  | RICserviceQuery
  | RICserviceUpdate
  | RICsubscription
  | RICsubscriptionDelete
  | undefined
  deriving DecidableEq, Repr

structure RICrequestID where
  ricRequestorID : Int
  ricInstanceID : Int
  deriving DecidableEq, Repr

/-- An information element of an indication or of the outcome of a control request: one with
the id of the request, the value being one or not, or another one. -/
inductive RequestIe where
  | requestID (value : Option RICrequestID)
  | other
  deriving DecidableEq, Repr

def RequestIe.value : RequestIe → Option RICrequestID
  | requestID value => value
  | other => none

/-- A message, with what the branches read of it. -/
structure E2apPdu where
  present : Present
  procedureCode : ProcedureCode
  setupIes : List SetupIe
  /-- The payload that `buildAndsendSetupRequest` prints, `none` where the message cannot be
  encoded as XML. -/
  setupPayload : Option Bytes
  protocolIEs : List RequestIe
  deriving DecidableEq, Repr

/-- The setup request that it is. -/
def E2apPdu.toPdu (pdu : E2apPdu) : Pdu :=
  match pdu.present, pdu.procedureCode, pdu.setupPayload with
  | .initiatingMessage, .E2setup, some _ => .e2setup pdu.setupIes
  | _, _, _ => .other

/-- `(int)` of a `long`. -/
def toInt (n : Int) : Int := Int.bmod n (2 ^ 32)

namespace Rmr

variable (S : Surroundings) (p : Nat) (cu : ConnectedCU) (pdu : E2apPdu) (r : Rmr)

/-- The loop over the elements up to the first that carries the id of the request; `reads`:
the name is read back through `me_id`. -/
def sendWithRequestID (mtype : MessageType) (sub_id : RICrequestID → Int) (reads : Bool) :
    List RequestIe → Rmr
  | [] => r
  | ie :: ies =>
      match ie.value with
      | some requestID =>
          let r := (r.address S mtype (visible cu.enodbName) (some (sub_id requestID))).bytes2xact S
          let r := { r with stray := r.stray || reads && !S.me_id_null r.calls }
          r.sendRmrMessage S (some p)
      | none => sendWithRequestID mtype sub_id reads ies

/-- `buildAndsendSetupRequest`, with a message buffer of its own. -/
def buildAndsendSetupRequest (enodbName payload : Bytes) : Rmr :=
  let own : Rmr := { r with sendMessage := { S.alloc (r.calls + 1) with payload } }
  let r' := ((own.address S .RIC_E2_SETUP_REQ enodbName none).bytes2xact S).sendRmrMessage S
    (some p)
  { r' with sendMessage := r.sendMessage }

/-- `asnInitiatingRequest`; what `collectSetupAndServiceUpdate_RequestData` leaves is given. -/
def asnInitiatingRequest (collected : Termination.Setup × Bool) : Rmr :=
  let send := r.sendRequestToXapp S p (visible cu.enodbName)
  match pdu.procedureCode with
  | .E2setup =>
      match pdu.setupPayload with
      | some payload =>
          if collected.2 then
            r.buildAndsendSetupRequest S p (visible collected.1.message) payload
          else r
      | none => r
  | .RICserviceUpdate => send .RIC_SERVICE_UPDATE
  | .ErrorIndication => send .RIC_ERROR_INDICATION
  | .Reset => send .RIC_X2_RESET
  | .RICindication =>
      r.sendWithRequestID S p cu .RIC_INDICATION (fun id => toInt id.ricRequestorID)
        true pdu.protocolIEs
  | .RICcontrol | .RICserviceQuery | .RICsubscription | .RICsubscriptionDelete | .undefined => r

/-- `asnSuccsesfulMsg`. -/
def asnSuccsesfulMsg : Rmr :=
  let send := r.sendRequestToXapp S p (visible cu.enodbName)
  match pdu.procedureCode with
  | .ErrorIndication => send .RIC_ERROR_INDICATION
  | .Reset => send .RIC_X2_RESET
  | .RICcontrol =>
      r.sendWithRequestID S p cu .RIC_CONTROL_ACK (fun id => toInt id.ricInstanceID)
        false pdu.protocolIEs
  | .RICindication =>
      r.sendWithRequestID S p cu .RIC_INDICATION (fun id => toInt id.ricInstanceID)
        false pdu.protocolIEs
  | .RICserviceUpdate => send .RIC_SERVICE_UPDATE
  | .RICsubscription => send .RIC_SUB_RESP
  | .RICsubscriptionDelete => send .RIC_SUB_DEL_RESP
  | .E2setup | .RICserviceQuery | .undefined => r

/-- `asnUnSuccsesfulMsg`. -/
def asnUnSuccsesfulMsg : Rmr :=
  let send := r.sendRequestToXapp S p (visible cu.enodbName)
  match pdu.procedureCode with
  | .ErrorIndication => send .RIC_ERROR_INDICATION
  | .Reset => send .RIC_X2_RESET
  | .RICcontrol =>
      r.sendWithRequestID S p cu .RIC_CONTROL_FAILURE (fun id => toInt id.ricInstanceID)
        false pdu.protocolIEs
  | .RICindication =>
      r.sendWithRequestID S p cu .RIC_INDICATION (fun id => toInt id.ricInstanceID)
        false pdu.protocolIEs
  | .RICserviceUpdate => send .RIC_SERVICE_UPDATE
  | .RICsubscription => send .RIC_SUB_FAILURE
  | .RICsubscriptionDelete => send .RIC_SUB_DEL_FAILURE
  | .E2setup | .RICserviceQuery | .undefined => r

end Rmr

/-! ### The listener -/

/-- The listener with its messages. -/
structure Relay where
  termination : Termination
  rmr : Rmr

/-- What `read` returns, and for bytes what `asn_decode` makes of them. -/
inductive SctpRead where
  | message (bytes : Bytes) (decoded : Option E2apPdu)
  | eintr
  | eagain
  | eof
  | error
  deriving DecidableEq, Repr

/-- A message from RMR. -/
inductive RmrInput where
  | keepAlive
  /-- `RIC_SCTP_CLEAR_ALL`, and the order in which the keys of the map are gone through. -/
  | clearAll (order : List Bytes)
  /-- A message for the RAN `enodbName`; whether `send` succeeds. -/
  | downlink (enodbName : Bytes) (messageType : Nat) (sent : Bool)
  /-- Unknown types, and messages that do not decode. -/
  | other
  deriving DecidableEq, Repr

/-- An epoll event. -/
inductive RelayEvent where
  | accept (hostName : Bytes) (portNumber : Nat) (addToEpoll : Bool)
  | data (p : Nat) (reads : List SctpRead)
  | error (p : Nat)
  | rmr (m : RmrInput)
  | inotify
  deriving DecidableEq, Repr

namespace Relay

variable (S : Surroundings) (ka_message : Bytes) (r : Relay) (p : Nat)

/-- One message is handled: what the connections make of it, and what is sent. -/
def dispatch (bytes : Bytes) (pdu : E2apPdu) : Relay where
  termination := r.termination.handlePdu p pdu.toPdu
  rmr :=
    match r.termination.peers p with
    | none => r.rmr
    | some cu =>
        let rmr := r.rmr.fill bytes
        match pdu.present with
        | .initiatingMessage =>
            rmr.asnInitiatingRequest S p cu pdu
              (r.termination.collectSetup p cu pdu.setupIes)
        | .successfulOutcome => rmr.asnSuccsesfulMsg S p cu pdu
        | .unsuccessfulOutcome => rmr.asnUnSuccsesfulMsg S p cu pdu
        | .nothing => rmr

/-- The loop over the reads, and whether the connection is done. -/
def readLoop (r : Relay) : List SctpRead → Relay × Bool
  | [] | .eagain :: _ => (r, false)
  | .eintr :: reads => readLoop r reads
  | .eof :: _ | .error :: _ => (r, true)
  | .message bytes none :: _ => ({ r with rmr := r.rmr.fill bytes }, false)
  | .message bytes (some pdu) :: reads => readLoop (r.dispatch S p bytes pdu) reads

/-- The connection is announced as gone, and `close` cleans it up. -/
def announce (text : Bytes) (close : Termination → Termination) : Relay where
  termination := close r.termination
  rmr :=
    match r.termination.peers p with
    | none => r.rmr
    | some cu => r.rmr.sendFailure S p (visible cu.enodbName) text

/-- `receiveDataFromSctp`. -/
def receiveDataFromSctp (reads : List SctpRead) : Relay :=
  match r.termination.peers p with
  | none => { r with termination := { r.termination with fault := true } }
  | some _ =>
      match r.readLoop S p reads with
      | (r, true) =>
          r.announce S p (ascii "CU disconnected unexpectedly") (·.cleanHashEntry p)
      | (r, false) => r

/-- `handlepoll_error`. -/
def handlepoll_error : Relay :=
  r.announce S p (ascii "Failed SCTP Connection") (·.handlepoll_error p)

/-- The part of `RIC_SCTP_CLEAR_ALL` for one key. -/
def clearKey (r : Relay) (key : Bytes) : Relay :=
  if (ascii "host:").isPrefixOf key || (ascii "msg:").isPrefixOf key then r
  else match r.termination.sctpMap.lookup key with
    | none => r
    | some p => r.announce S p (ascii "RIC_SCTP_CLEAR_ALL") (·.free p)

/-- The keys of an `unordered_map` in the order in which it is gone through, which may be any;
what is no order of these keys stands for theirs. -/
def inOrder (order keys : List Bytes) : List Bytes := if order.Perm keys then order else keys

/-- `RIC_SCTP_CLEAR_ALL`. -/
def clearAll (order : List Bytes) : Relay :=
  let r := (inOrder order r.termination.sctpMap.keys).foldl (clearKey S) r
  { r with termination := { r.termination with sctpMap := ∅ } }

/-- `receiveXappMessages`. -/
def receiveXappMessages : RmrInput → Relay
  | .keepAlive => { r with rmr := r.rmr.sendKeepAlive S ka_message }
  | .clearAll order => r.clearAll S order
  | .downlink enodbName messageType sent =>
      { r with termination := r.termination.sendMessagetoCu enodbName messageType sent }
  | .other => r

/-- One round of the loop over the events. -/
def round : RelayEvent → Relay
  | .accept hostName portNumber addToEpoll =>
      { r with termination := r.termination.accept hostName portNumber addToEpoll }
  | .data p reads => r.receiveDataFromSctp S p reads
  | .error p => r.handlepoll_error S p
  | .rmr m => r.receiveXappMessages S ka_message m
  | .inotify => r

/-- One round, if no name goes astray in it. -/
def step (e : RelayEvent) : Option Relay :=
  let r' := r.round S ka_message e
  if r'.rmr.stray then none else some r'

def run (es : List RelayEvent) : Option Relay := es.foldlM (step S ka_message) r

/-- Before the first connection. -/
def start : Relay := ⟨E2Term.start, ⟨S.alloc 0, 0, 0, [], false⟩⟩

end Relay

end NearRtRic.E2Term
