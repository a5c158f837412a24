/-
# The listener of the E2 termination

`listener` in `sctpThread.cpp` waits for epoll events and handles them one by one.
The data pointer of a connection's registration is the address of its
`ConnectedCU`, and `sctpMap` maps RAN names to such addresses.  A `ConnectedCU` is
allocated by `accept`, freed by `cleanHashEntry` and by `RIC_SCTP_CLEAR_ALL`, and
has here a number of its own, never used again.  `fault` records that a freed one
was read or freed again.

The registrations ask for `EPOLLIN | EPOLLET` only, so no event has `EPOLLOUT` and
`handleEinprogressMessages`, which alone sets `isConnected`, is not among the
handlers.  A RAN name field is a buffer of any length: one identity writes at most
28 of its 64 bytes.
-/

import Mathlib.Data.List.AList
import NearRtRic.E2Term.RanName

namespace NearRtRic.E2Term

open CString

/-- The fields of `ConnectedCU` that the listener reads. -/
structure ConnectedCU where
  hostName : Bytes
  /-- `(uint16_t) strtol(portNumber)`. -/
  portNumber : Nat
  enodbName : Bytes := []
  isConnected : Bool := false
  deriving DecidableEq, Repr

/-- `mapWrapper`: the keys are C++ strings made from C strings. -/
abbrev SctpMap := AList fun _ : Bytes => Nat

/-- What the listener works on. -/
structure Termination where
  /-- The `ConnectedCU`s that are allocated. -/
  peers : Nat → Option ConnectedCU
  /-- The number of the next one. -/
  next : Nat
  sctpMap : SctpMap
  /-- A freed `ConnectedCU` was read or freed again. -/
  fault : Bool

/-- Before the first connection. -/
def start : Termination := ⟨fun _ => none, 0, ∅, false⟩

/-- An information element of an E2 setup request. -/
inductive SetupIe where
  | globalE2nodeID (id : GlobalE2nodeID)
  /-- `RANfunctionsAdded` or `RANfunctionsModified`, and whether
  `RAN_Function_list_To_Vector` decodes the definitions in it. -/
  | ranFunctions (decodes : Bool)
  | other
  deriving DecidableEq, Repr

/-- A decoded E2AP message. -/
inductive Pdu where
  | e2setup (ies : List SetupIe)
  /-- Any other message, and a setup that cannot be encoded as XML. -/
  | other
  deriving DecidableEq, Repr

namespace Termination

variable (s : Termination) (p : Nat)

/-- Reading through a pointer to a `ConnectedCU`. -/
def deref (k : ConnectedCU → Termination) : Termination :=
  match s.peers p with
  | some cu => k cu
  | none => { s with fault := true }

def free : Termination :=
  s.deref p fun _ => { s with peers := Function.update s.peers p none }

def erase (key : Bytes) : Termination := { s with sctpMap := s.sctpMap.erase key }

/-! ### Handlers -/

/-- The key `host:<hostName>:<port>`. -/
def hostKey (cu : ConnectedCU) : Bytes :=
  (ascii "host:" ++ visible cu.hostName ++ ascii ":" ++ ascii (toString cu.portNumber)).take 2047

/-- `cleanHashEntry`. -/
def cleanHashEntry : Termination :=
  s.deref p fun cu => ((s.erase (hostKey cu)).erase (visible cu.enodbName)).free p

/-- A new connection on the listening socket.  Where `addToEpoll` fails, the
`ConnectedCU` is leaked: nothing refers to it. -/
def accept (hostName : Bytes) (portNumber : Nat) (addToEpoll : Bool) : Termination :=
  if addToEpoll then
    { s with peers := Function.update s.peers s.next (some { hostName, portNumber }),
             next := s.next + 1 }
  else s

/-- `handlepoll_error`. -/
def handlepoll_error : Termination :=
  s.deref p fun cu => (s.erase (visible cu.enodbName)).cleanHashEntry p

/-- What `collectSetupAndServiceUpdate_RequestData` writes: the name fields of the
connection and of the message, and the map. -/
structure Setup where
  enodbName : Bytes
  message : Bytes
  sctpMap : SctpMap

/-- The loop over the information elements, and whether it ran to its end. -/
def collectIes (p : Nat) : Setup → List SetupIe → Setup × Bool
  | r, [] => (r, true)
  | r, .globalE2nodeID id :: ies =>
      match buildRanName r.enodbName id with
      | none => (r, false)
      | some b =>
          let message := memcpy (visible b) r.message
          collectIes p ⟨b, message, r.sctpMap.insert (visible message) p⟩ ies
  | r, .ranFunctions decodes :: ies => if decodes then collectIes p r ies else (r, false)
  | r, .other :: ies => collectIes p r ies

/-- `collectSetupAndServiceUpdate_RequestData`: the connection's name is cleared first, the
message's is a copy of what it was. -/
def collectSetup (cu : ConnectedCU) (ies : List SetupIe) : Setup × Bool :=
  collectIes p ⟨[], cu.enodbName, s.sctpMap⟩ ies

/-- One message read and handled. -/
def handlePdu : Pdu → Termination
  | .e2setup ies =>
      s.deref p fun cu =>
        let r := (s.collectSetup p cu ies).1
        { s with peers := Function.update s.peers p (some { cu with enodbName := r.enodbName }),
                 sctpMap := r.sctpMap }
  | .other => s

/-- `receiveDataFromSctp`: messages are read until the socket has no more
(`done = false`, also where a message does not decode) or until the end of the
stream or an error. -/
def receiveDataFromSctp (pdus : List Pdu) (done : Bool) : Termination :=
  s.deref p fun _ =>
    let s' := pdus.foldl (fun s pdu => s.handlePdu p pdu) s
    if done then s'.cleanHashEntry p else s'

/-- The part of `RIC_SCTP_CLEAR_ALL` for one key. -/
def clearKey (key : Bytes) : Termination :=
  if (ascii "host:").isPrefixOf key || (ascii "msg:").isPrefixOf key then s
  else match s.sctpMap.lookup key with
    | none => s
    | some p => s.free p

/-- `RIC_SCTP_CLEAR_ALL`. -/
def clearAll : Termination :=
  { s.sctpMap.keys.foldl clearKey s with sctpMap := ∅ }

/-- The connection that a message for a RAN is sent on. -/
def sendsOn (enodbName : Bytes) : Option Nat := s.sctpMap.lookup (visible enodbName)

/-- `sendMessagetoCu`, then `sendSctpMsg` with the result of its `send`. -/
def sendMessagetoCu (enodbName : Bytes) (messageType : Nat) (sent : Bool) : Termination :=
  match s.sendsOn enodbName with
  | none => s
  | some p =>
      s.deref p fun cu =>
        if sent || !cu.isConnected then s
        else
          let s' := s.cleanHashEntry p
          let key := (ascii "msg:" ++ visible enodbName ++ ascii "|" ++
            ascii (toString messageType)).take 127
          ((s'.sctpMap.lookup key).elim s' s'.free).erase key

end Termination

/-- A message from RMR. -/
inductive XappMessage where
  | clearAll
  /-- A message for the RAN `enodbName`; whether `send` succeeds. -/
  | downlink (enodbName : Bytes) (messageType : Nat) (sent : Bool)
  /-- Keep-alives, unknown types, and messages that do not decode. -/
  | other
  deriving DecidableEq, Repr

/-- An epoll event. -/
inductive Event where
  | accept (hostName : Bytes) (portNumber : Nat) (addToEpoll : Bool)
  /-- Data on the connection `p`. -/
  | data (p : Nat) (pdus : List Pdu) (done : Bool)
  /-- `EPOLLERR` or `EPOLLHUP` on the connection `p`. -/
  | error (p : Nat)
  | rmr (m : XappMessage)
  | inotify
  deriving DecidableEq, Repr

/-- `receiveXappMessages`. -/
def Termination.receiveXappMessages (s : Termination) : XappMessage → Termination
  | .clearAll => s.clearAll
  | .downlink enodbName messageType sent => s.sendMessagetoCu enodbName messageType sent
  | .other => s

/-- One round of the loop over the events. -/
def Termination.step (s : Termination) : Event → Termination
  | .accept hostName portNumber addToEpoll => s.accept hostName portNumber addToEpoll
  | .data p pdus done => s.receiveDataFromSctp p pdus done
  | .error p => s.handlepoll_error p
  | .rmr m => s.receiveXappMessages m
  | .inotify => s

def Termination.run (s : Termination) (es : List Event) : Termination := es.foldl step s

end NearRtRic.E2Term
