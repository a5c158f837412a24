/-
# The messages of the E2 manager

What the handlers receive and send, as they see it once it is unmarshalled: the
E2 setup request with its protocol IEs, the response the manager builds to it,
the E2_TERM_INIT payload, the body of an X2 or ENDC setup request, and the RMR
message that goes out.  The functions of `models/` on them are translated here;
where the Go code indexes a slice, the result is an `Option`, `none` standing
for the panic.

The XML and JSON codecs themselves stand outside (`Codecs` of
`NearRtRic.E2Manager.Interface`): the payload of an outgoing message is the
structure that is marshalled.
-/

import NearRtRic.E2Manager.Entities

namespace NearRtRic.E2Manager

/-! ### Numbers in strings -/

/-- The value of a digit, in any base up to 36. -/
def digitValue (c : Char) : Option Nat :=
  if '0' ≤ c ∧ c ≤ '9' then some (c.toNat - '0'.toNat)
  else if 'a' ≤ c ∧ c ≤ 'z' then some (c.toNat - 'a'.toNat + 10)
  else if 'A' ≤ c ∧ c ≤ 'Z' then some (c.toNat - 'A'.toNat + 10)
  else none

/-- `strconv.ParseUint(s, base, bitSize)`: `none` where it returns an error, that
is on an empty string, on a character that is no digit, and on a value that
does not fit. -/
def parseUint (s : String) (base bitSize : Nat) : Option Nat :=
  if s.isEmpty then none
  else
    let value := s.toList.foldl (fun acc c => do
      let d ← digitValue c
      let n ← acc
      if d < base then return n * base + d else none) (some 0)
    value.filter (· < 2 ^ bitSize)

/-- `trimSpaces`: every blank and line feed is taken out. -/
def trimSpaces (s : String) : String :=
  String.ofList (s.toList.filter fun c => c ≠ ' ' ∧ c ≠ '\n')

/-! ### `E2SetupRequestMessage` -/

/-- The four kinds of a Global E2 node id, each with its PLMN and its node id;
an element that is absent from the XML is left empty. -/
structure GlobalE2NodeId where
  gnbPlmnID : String := ""
  gnbID : String := ""
  enGnbPlmnID : String := ""
  enGnbID : String := ""
  enbPlmnID : String := ""
  enbMacro : String := ""
  enbHome : String := ""
  enbShortMacro : String := ""
  enbLongMacro : String := ""
  ngEnbPlmnID : String := ""
  ngEnbMacro : String := ""
  ngEnbShortMacro : String := ""
  ngEnbLongMacro : String := ""
  deriving DecidableEq, Repr

/-- `RanFunctionItem`. -/
structure RanFunctionItem where
  ranFunctionID : String
  ranFunctionDefinition : String
  ranFunctionRevision : String
  deriving DecidableEq, Repr

/-- One of the `E2setupRequestIEs`. -/
structure E2SetupRequestIE where
  id : String := ""
  globalE2nodeID : GlobalE2NodeId := {}
  ranFunctionsList : List RanFunctionItem := []
  deriving DecidableEq, Repr

/-- `E2SetupRequestMessage`: the protocol IEs of the request. -/
structure E2SetupRequestMessage where
  e2setupRequestIEs : List E2SetupRequestIE
  deriving DecidableEq, Repr

/-- The first non-empty string, `""` if all are. -/
def firstNonEmpty (ids : List String) : String := (ids.find? (· ≠ "")).getD ""

/-- One item of `ExtractRanFunctionsList`. -/
def extractRanFunction (item : RanFunctionItem) : Except Err RanFunction :=
  match parseUint item.ranFunctionID 10 32, parseUint item.ranFunctionRevision 10 32 with
  | none, _ => .error (.text ("#e2_setup_request_message.ExtractRanFunctionsList - " ++
      "Failed parse uint RanFunctionID from " ++ item.ranFunctionID))
  | some _, none => .error (.text ("#e2_setup_request_message.ExtractRanFunctionsList - " ++
      "Failed parse uint RanFunctionRevision from " ++ item.ranFunctionRevision))
  | some id, some rev =>
      .ok { ranFunctionId := id, ranFunctionRevision := rev,
            ranFunctionDefinition := trimSpaces item.ranFunctionDefinition }

namespace E2SetupRequestMessage

variable (m : E2SetupRequestMessage)

/-- `ExtractRanFunctionsList`: nil for a request of fewer than two IEs, else the
list of the second IE. -/
def extractRanFunctionsList : Except Err (Option (List RanFunction)) :=
  match m.e2setupRequestIEs with
  | _ :: ie :: _ => (ie.ranFunctionsList.mapM extractRanFunction).map some
  | _ => .ok none

/-- `getGlobalE2NodeId`: that of the first IE. -/
def getGlobalE2NodeId : Option GlobalE2NodeId := (m.e2setupRequestIEs.head?).map (·.globalE2nodeID)

/-- `GetPlmnId`. -/
def getPlmnId : Option String := m.getGlobalE2NodeId.map fun g =>
  trimSpaces (firstNonEmpty [g.gnbPlmnID, g.enGnbPlmnID, g.enbPlmnID, g.ngEnbPlmnID])

/-- `GetNbId`. -/
def getNbId : Option String := m.getGlobalE2NodeId.map fun g =>
  trimSpaces (firstNonEmpty [g.gnbID, g.enGnbID,
    firstNonEmpty [g.enbHome, g.enbLongMacro, g.enbMacro, g.enbShortMacro],
    firstNonEmpty [g.ngEnbLongMacro, g.ngEnbMacro, g.ngEnbShortMacro]])

end E2SetupRequestMessage

/-! ### `E2SetupResponseMessage` -/

/-- The value of a response IE; nil in an IE that was never filled. -/
inductive E2setupResponseValue
  | nil
  | globalRICID (plmnIdentity ricID : String)
  /-- The container of `RANfunctionID-Item`s: the ids and revisions. -/
  | ranFunctionsIDList (items : List (String × String))
  deriving DecidableEq, Repr

/-- `E2setupResponseIEs`. -/
structure E2setupResponseIE where
  id : String := ""
  value : E2setupResponseValue := .nil
  deriving DecidableEq, Repr

/-- `TimeToWait`, in seconds. -/
abbrev TimeToWait := Nat

/-- `E2SetupResponseMessage`: a successful or an unsuccessful outcome. -/
inductive E2SetupResponseMessage
  | successfulOutcome (e2setupResponseIEs : List E2setupResponseIE)
  /-- The cause `transport-resource-unavailable` and a time to wait. -/
  | unsuccessfulOutcome (timeToWait : TimeToWait)
  deriving DecidableEq, Repr

/-- `extractRanFunctionsIDList`: the ids and revisions of the second IE's list. -/
def extractRanFunctionsIDList (ie : E2SetupRequestIE) : List (String × String) :=
  ie.ranFunctionsList.map fun item => (item.ranFunctionID, item.ranFunctionRevision)

/-- `NewE2SetupSuccessResponseMessage`: as many IEs as the request has.  The
first is the Global RIC id, so a request without IEs panics here; the second
acknowledges the functions of the request's second IE; the others stay empty. -/
def newE2SetupSuccessResponseMessage (plmnId ricId : String) (request : E2SetupRequestMessage) :
    Option E2SetupResponseMessage :=
  match request.e2setupRequestIEs with
  | [] => none
  | [_] => some (.successfulOutcome [{ id := "4", value := .globalRICID plmnId ricId }])
  | _ :: ie :: rest => some (.successfulOutcome
      ({ id := "4", value := .globalRICID plmnId ricId } ::
       { id := "9", value := .ranFunctionsIDList (extractRanFunctionsIDList ie) } ::
       rest.map fun _ => {}))

/-- `NewE2SetupFailureResponseMessage`. -/
def newE2SetupFailureResponseMessage (timeToWait : TimeToWait) : E2SetupResponseMessage :=
  .unsuccessfulOutcome timeToWait

/-- `TimeToWaitEnum.V60s`. -/
def V60s : TimeToWait := 60

/-- `convertTo20BitString`: the first twenty digits of `%020b`. -/
def convertTo20BitString (ricNearRtId : String) : Except Err String :=
  match parseUint ricNearRtId 16 32 with
  | none => .error (.text ("strconv.ParseUint: parsing " ++ ricNearRtId))
  | some r =>
      let digits := Nat.toDigits 2 r
      .ok (String.ofList ((List.replicate (20 - digits.length) '0' ++ digits).take 20))

/-! ### Requests -/

/-- `models.NotificationRequest`: what the manager reads of an RMR message. -/
structure NotificationRequest where
  ranName : String
  payload : String
  transactionId : String := ""
  deriving DecidableEq, Repr

/-- `models.E2TermInitPayload`. -/
structure E2TermInitPayload where
  address : String
  podName : String := ""
  deriving DecidableEq, Repr

/-- `models.SetupRequest`: the body of an X2 or ENDC setup request. -/
structure SetupRequest where
  ranIp : String
  ranPort : Nat
  ranName : String
  deriving DecidableEq, Repr

/-- The RMR message types of `rmrCgo` that the handlers send or receive. -/
inductive RmrMessageType
  | RIC_X2_SETUP_REQ
  | RIC_X2_SETUP_RESP
  | RIC_X2_SETUP_FAILURE
  | RIC_ENDC_X2_SETUP_REQ
  | RIC_ENDC_X2_SETUP_RESP
  | RIC_ENDC_X2_SETUP_FAILURE
  | RIC_E2_SETUP_RESP
  | RIC_E2_SETUP_FAILURE
  | RIC_SCTP_CLEAR_ALL
  | E2_TERM_KEEP_ALIVE_REQ
  | RAN_CONNECTED
  deriving DecidableEq, Repr

/-- The structure that is marshalled into the payload of an outgoing message. -/
inductive RmrPayload
  | nil
  | e2SetupResponse (message : E2SetupResponseMessage)
  /-- `models.E2RequestMessage` with the packed X2 or ENDC setup request. -/
  | e2Request (ranName ip : String) (port : Nat)
  /-- `models.ResourceStatusPayload` of a RAN that the RIC has connected. -/
  | resourceStatus (nodeType : NodeType)
  deriving DecidableEq, Repr

/-- `models.RmrMessage`. -/
structure RmrMessage where
  msgType : RmrMessageType
  ranName : String := ""
  payload : RmrPayload := .nil
  xAction : String := ""
  deriving DecidableEq, Repr

end NearRtRic.E2Manager
