/-
# The message handlers

The RMR and HTTP handlers of the E2 manager that write RANs and E2 terminations:
`handlers/rmrmsghandlers` and `handlers/httpmsghandlers`.  `DeleteAllRequestHandler`
is in `NearRtRic.E2Manager.DeleteAll`.

A handler may panic where the Go code indexes a slice or follows a nil pointer;
the program then ends in `Program.panic` with the store as it was left.
-/

import NearRtRic.E2Manager.Managers

namespace NearRtRic.E2Manager

open Effect

namespace E2SetupRequestNotificationHandler

/-- The format `%x`: two hexadecimal digits for each byte. -/
def hex (s : String) : String :=
  String.ofList (s.toUTF8.toList.flatMap fun b =>
    [Nat.digitChar (b.toNat / 16), Nat.digitChar (b.toNat % 16)])

/-- `parseSetupRequest`: the E2T address up to the first `|`, the message after it. -/
def parseSetupRequest (codecs : Codecs) (payload : String) :
    Except Err (E2SetupRequestMessage × String) :=
  let handler := "#E2SetupRequestNotificationHandler.parseSetupRequest - "
  let e2tIpAddress := payload.toList.takeWhile (· ≠ '|')
  match payload.toList.drop e2tIpAddress.length with
  | [] => .error (.text (handler ++
      "Error parsing E2 Setup Request failed extract Payload: no | separator found"))
  | _ :: message =>
      if e2tIpAddress.isEmpty then .error (.text (handler ++ "Empty E2T Address received"))
      else
        match codecs.unmarshalE2SetupRequest (String.ofList message) with
        | none => .error (.text (handler ++
            "Error unmarshalling E2 Setup Request payload: " ++ hex payload))
        | some setupRequest => .ok (setupRequest, String.ofList e2tIpAddress)

/-- A payload that starts with an address and a bar parses into the two. -/
theorem parseSetupRequest_append (codecs : Codecs) {e2tIpAddress message : String}
    (hne : e2tIpAddress ≠ "") (hbar : '|' ∉ e2tIpAddress.toList)
    {setupRequest : E2SetupRequestMessage}
    (h : codecs.unmarshalE2SetupRequest message = some setupRequest) :
    parseSetupRequest codecs (e2tIpAddress ++ "|" ++ message) =
      .ok (setupRequest, e2tIpAddress) := by
  have hlist : (e2tIpAddress ++ "|" ++ message).toList =
      e2tIpAddress.toList ++ '|' :: message.toList := by simp
  have htake : (e2tIpAddress.toList ++ '|' :: message.toList).takeWhile (· ≠ '|') =
      e2tIpAddress.toList := by
    rw [List.takeWhile_append_of_pos fun c hc => ?_]
    · simp
    · have : c ≠ '|' := fun heq => hbar (heq ▸ hc)
      simpa using this
  have hnil : e2tIpAddress.toList.isEmpty = false := by simpa using hne
  simp only [parseSetupRequest, hlist, htake, List.drop_left, hnil, String.ofList_toList, h,
    Bool.false_eq_true, if_false]

/-- `setGnbFunctions` on a decoded list: nothing to set, or a gNB to set it in;
`none` where the node is no gNB and the assignment panics. -/
def withRanFunctions (nodebInfo : NodebInfo) : Option (List RanFunction) → Option NodebInfo
  | none => some nodebInfo
  | some ranFunctions => nodebInfo.getGnb.map fun gnb =>
      { nodebInfo with configuration := some (.gnb { gnb with ranFunctions }) }

/-- `setGnbFunctions`. -/
def setGnbFunctions (nodebInfo : NodebInfo) (setupRequest : E2SetupRequestMessage) :
    Prog (Except Err NodebInfo) :=
  match setupRequest.extractRanFunctionsList with
  | .error err => return .error err
  | .ok ranFunctions => do
      return .ok (← Program.orPanic (withRanFunctions nodebInfo ranFunctions))

/-- `buildGlobalNbId`. -/
def buildGlobalNbId (setupRequest : E2SetupRequestMessage) : Prog GlobalNbId := do
  let plmnId ← Program.orPanic setupRequest.getPlmnId
  let nbId ← Program.orPanic setupRequest.getNbId
  return { plmnId, nbId }

/-- `buildNodebInfo`: a gNB that is connected to the instance. -/
def buildNodebInfo (ranName e2tAddress : String) (request : E2SetupRequestMessage) :
    Prog (Except Err NodebInfo) := do
  let globalNbId ← buildGlobalNbId request
  setGnbFunctions
    { ranName, associatedE2TInstanceAddress := e2tAddress, connectionStatus := .CONNECTED,
      nodeType := .GNB, configuration := some (.gnb {}), globalNbId := some globalNbId } request

/-- `buildNbIdentity`. -/
def buildNbIdentity (ranName : String) (setupRequest : E2SetupRequestMessage) :
    Prog NbIdentity := do
  return { inventoryName := ranName, globalNbId := some (← buildGlobalNbId setupRequest) }

/-- `handleNewRan`. -/
def handleNewRan (ranName e2tIpAddress : String) (setupRequest : E2SetupRequestMessage) :
    Prog (Except Err NodebInfo) := do
  match ← buildNodebInfo ranName e2tIpAddress setupRequest with
  | .error err => return .error err
  | .ok nodebInfo =>
      let nbIdentity ← buildNbIdentity ranName setupRequest
      match ← RNibDataService.saveNodeb nbIdentity nodebInfo with
      | .error err => return .error err
      | .ok () => return .ok nodebInfo

/-- `handleExistingRan`: a RAN that is shutting down is refused. -/
def handleExistingRan (nodebInfo : NodebInfo) (setupRequest : E2SetupRequestMessage) :
    Prog (Except Err NodebInfo) :=
  if nodebInfo.connectionStatus = .SHUTTING_DOWN then
    return .error (.text "nodeB entity in incorrect state")
  else setGnbFunctions nodebInfo setupRequest

/-- `handleUnsuccessfulResponse`. -/
def handleUnsuccessfulResponse (nodebInfo : NodebInfo) (req : NotificationRequest) :
    Prog Unit := do
  let _ ← RmrSender.send
    { msgType := .RIC_E2_SETUP_FAILURE, ranName := nodebInfo.ranName,
      payload := .e2SetupResponse (newE2SetupFailureResponseMessage V60s),
      xAction := req.transactionId }
  return ()

/-- `handleSuccessfulResponse`. -/
def handleSuccessfulResponse (config : Configuration) (ranName : String)
    (req : NotificationRequest) (setupRequest : E2SetupRequestMessage) : Prog Unit := do
  match convertTo20BitString config.ricNearRtId with
  | .error _ => return ()
  | .ok ricNearRtId =>
      let successResponse ← Program.orPanic
        (newE2SetupSuccessResponseMessage config.plmnId ricNearRtId setupRequest)
      let _ ← RmrSender.send
        { msgType := .RIC_E2_SETUP_RESP, ranName, payload := .e2SetupResponse successResponse,
          xAction := req.transactionId }
      return ()

/-- The second half of `Handle`: associate the RAN and answer. -/
def associateAndRespond (config : Configuration) (request : NotificationRequest)
    (setupRequest : E2SetupRequestMessage) (e2tIpAddress : String) (nodebInfo : NodebInfo) :
    Prog Unit := do
  match ← E2TAssociationManager.associateRan e2tIpAddress nodebInfo with
  | (nodebInfo, .error .routingManager) => handleUnsuccessfulResponse nodebInfo request
  | (_, .error _) => return ()
  | (_, .ok ()) => handleSuccessfulResponse config request.ranName request setupRequest

/-- `Handle` on a parsed request. -/
def handleParsed (config : Configuration) (request : NotificationRequest)
    (setupRequest : E2SetupRequestMessage) (e2tIpAddress : String) : Prog Unit := do
  match ← E2TInstancesManager.getE2TInstance e2tIpAddress with
  | .error _ => return ()
  | .ok _ =>
      match ← RNibDataService.getNodeb request.ranName with
      | .error .resourceNotFound =>
          match ← handleNewRan request.ranName e2tIpAddress setupRequest with
          | .error _ => return ()
          | .ok nodebInfo =>
              associateAndRespond config request setupRequest e2tIpAddress nodebInfo
      | .error _ => return ()
      | .ok nodebInfo =>
          match ← handleExistingRan nodebInfo setupRequest with
          | .error _ => return ()
          | .ok nodebInfo =>
              associateAndRespond config request setupRequest e2tIpAddress nodebInfo

/-- `Handle`. -/
def handle (codecs : Codecs) (config : Configuration) (request : NotificationRequest) :
    Prog Unit :=
  match parseSetupRequest codecs request.payload with
  | .error _ => return ()
  | .ok (setupRequest, e2tIpAddress) => handleParsed config request setupRequest e2tIpAddress

end E2SetupRequestNotificationHandler

namespace E2TermInitNotificationHandler

/-- `HandleExistingE2TInstance`: the loop goes on past a RAN that is not found,
and ends at any other error. -/
def handleExistingE2TInstance : List String → Prog Unit
  | [] => return ()
  | ranName :: ranNames => do
      match ← RanDisconnectionManager.disconnectRan ranName with
      | .ok () => handleExistingE2TInstance ranNames
      | .error .resourceNotFound => handleExistingE2TInstance ranNames
      | .error _ => return ()

/-- `HandleNewE2TInstance`. -/
def handleNewE2TInstance (e2tAddress podName : String) : Prog Unit := do
  match ← RoutingManagerClient.addE2TInstance e2tAddress with
  | .error _ => return ()
  | .ok () =>
      let _ ← E2TInstancesManager.addE2TInstance e2tAddress podName
      return ()

/-- `Handle` on an unmarshalled payload with an address. -/
def handleAddress (e2tAddress podName : String) : Prog Unit := do
  match ← E2TInstancesManager.getE2TInstance e2tAddress with
  | .error .resourceNotFound => handleNewE2TInstance e2tAddress podName
  | .error _ => return ()
  | .ok e2tInstance =>
      if e2tInstance.associatedRanList.isEmpty then return ()
      else if e2tInstance.state = .ToBeDeleted then return ()
      else handleExistingE2TInstance e2tInstance.associatedRanList

/-- `Handle`: an empty address is ignored. -/
def handle (codecs : Codecs) (request : NotificationRequest) : Prog Unit :=
  match codecs.unmarshalE2TermInit request.payload with
  | none => return ()
  | some payload =>
      if payload.address = "" then return () else handleAddress payload.address payload.podName

end E2TermInitNotificationHandler

/-- `RanLostConnectionHandler.Handle`. -/
def RanLostConnectionHandler.handle (request : NotificationRequest) : Prog Unit := do
  let _ ← RanDisconnectionManager.disconnectRan request.ranName
  return ()

namespace SetupResponseNotificationHandler

/-- The four messages the handler is registered for. -/
inductive MsgType
  | RIC_X2_SETUP_RESP
  | RIC_X2_SETUP_FAILURE
  | RIC_ENDC_X2_SETUP_RESP
  | RIC_ENDC_X2_SETUP_FAILURE
  deriving DecidableEq, Repr

/-- The `PopulateNodebByPdu` each message is registered with. -/
def populateNodebByPdu (codecs : Codecs) :
    MsgType → NbIdentity → NodebInfo → String → Except Err (NbIdentity × NodebInfo)
  | .RIC_X2_SETUP_RESP => SetupResponseManager.x2SetupResponse codecs
  | .RIC_X2_SETUP_FAILURE => SetupResponseManager.x2SetupFailureResponse codecs
  | .RIC_ENDC_X2_SETUP_RESP => SetupResponseManager.endcSetupResponse codecs
  | .RIC_ENDC_X2_SETUP_FAILURE => SetupResponseManager.endcSetupFailureResponse codecs

/-- `isConnectionStatusValid`. -/
def isConnectionStatusValid (connectionStatus : ConnectionStatus) : Bool :=
  connectionStatus = .CONNECTING ∨ connectionStatus = .CONNECTED

/-- `isSuccessSetupResponseMessage`. -/
def isSuccessSetupResponseMessage (msgType : MsgType) : Bool :=
  msgType = .RIC_X2_SETUP_RESP ∨ msgType = .RIC_ENDC_X2_SETUP_RESP

/-- `Handle`: a response counts only while the RAN is connecting or connected. -/
def handle (codecs : Codecs) (msgType : MsgType) (request : NotificationRequest) : Prog Unit := do
  match ← RNibDataService.getNodeb request.ranName with
  | .error _ => return ()
  | .ok nodebInfo =>
      if isConnectionStatusValid nodebInfo.connectionStatus then
        match populateNodebByPdu codecs msgType { inventoryName := request.ranName } nodebInfo
            request.payload with
        | .error _ => return ()
        | .ok (nbIdentity, nodebInfo) =>
            match ← RNibDataService.saveNodeb nbIdentity nodebInfo with
            | .error _ => return ()
            | .ok () =>
                if isSuccessSetupResponseMessage msgType then
                  let _ ← RanStatusChangeManager.execute .RAN_CONNECTED nodebInfo
                  return ()
                else return ()
      else return ()

end SetupResponseNotificationHandler

/-- `E2TKeepAliveResponseHandler.Handle` on an unmarshalled payload. -/
def E2TKeepAliveResponseHandler.handle (address : String) : Prog Unit := do
  let _ ← E2TInstancesManager.resetKeepAliveTimestamp address
  return ()

namespace SetupRequestHandler

/-- `validateRequestDetails`. -/
def validateRequestDetails (codecs : Codecs) (request : SetupRequest) : Except Err Unit :=
  if request.ranPort = 0 then .error .requestValidation
  else if request.ranIp = "" ∨ ¬ codecs.isIP request.ranIp ∨ request.ranName = "" then
    .error .requestValidation
  else .ok ()

/-- `getActivityName`. -/
def getActivityName (protocol : E2ApplicationProtocol) : String :=
  if protocol = .X2_SETUP_REQUEST then "X2_SETUP" else "ENDC_SETUP"

/-- `createInitialNodeInfo`: the record of a RAN that is connecting. -/
def createInitialNodeInfo (requestDetails : SetupRequest) (protocol : E2ApplicationProtocol) :
    NodebInfo × NbIdentity :=
  ({ ip := requestDetails.ranIp, port := requestDetails.ranPort,
     connectionStatus := .CONNECTING, e2ApplicationProtocol := protocol,
     ranName := requestDetails.ranName },
   { inventoryName := requestDetails.ranName })

/-- The end that both connecting paths share: associate, then send the setup
request. -/
def associateAndSetup (e2tAddress : String) (nodebInfo : NodebInfo) : Prog (Except Err Unit) := do
  match ← E2TAssociationManager.associateRan e2tAddress nodebInfo with
  | (_, .error err) => return .error err
  | (nodebInfo, .ok ()) => RanSetupManager.executeSetup nodebInfo .CONNECTING

/-- `connectNewRan`. -/
def connectNewRan (request : SetupRequest) (protocol : E2ApplicationProtocol) :
    Prog (Except Err Unit) := do
  match ← E2TInstancesManager.selectE2TInstance with
  | .error err => return .error err
  | .ok e2tAddress =>
      let (nodebInfo, nodebIdentity) := createInitialNodeInfo request protocol
      match ← RNibDataService.saveNodeb nodebIdentity nodebInfo with
      | .error _ => return .error .rnibDb
      | .ok () => associateAndSetup e2tAddress nodebInfo

/-- `connectExistingRanWithAssociatedE2TAddress`. -/
def connectExistingRanWithAssociatedE2TAddress (nodebInfo : NodebInfo) :
    Prog (Except Err Unit) := do
  let status := if nodebInfo.connectionStatus = .CONNECTED then nodebInfo.connectionStatus
    else .CONNECTING
  match ← RNibDataService.updateNodebInfo nodebInfo with
  | .error _ => return .error .rnibDb
  | .ok () => RanSetupManager.executeSetup nodebInfo status

/-- `connectExistingRanWithoutAssociatedE2TAddress`. -/
def connectExistingRanWithoutAssociatedE2TAddress (nodebInfo : NodebInfo) :
    Prog (Except Err Unit) := do
  match ← E2TInstancesManager.selectE2TInstance with
  | .error err =>
      if nodebInfo.connectionStatus = .DISCONNECTED then return .error err
      else
        let _ ← RNibDataService.updateNodebInfo (nodebInfo.setStatus .DISCONNECTED)
        return .error err
  | .ok e2tAddress => associateAndSetup e2tAddress nodebInfo

/-- `Handle`, for either protocol. -/
def handle (codecs : Codecs) (protocol : E2ApplicationProtocol) (setupRequest : SetupRequest) :
    Prog (Except Err Unit) := do
  match validateRequestDetails codecs setupRequest with
  | .error err => return .error err
  | .ok () =>
      match ← RNibDataService.getNodeb setupRequest.ranName with
      | .error .resourceNotFound => connectNewRan setupRequest protocol
      | .error _ => return .error .rnibDb
      | .ok nodebInfo =>
          if nodebInfo.connectionStatus = .SHUTTING_DOWN then
            return .error (.wrongState (getActivityName protocol) nodebInfo.connectionStatus.name)
          else if nodebInfo.associatedE2TInstanceAddress ≠ "" then
            connectExistingRanWithAssociatedE2TAddress nodebInfo
          else connectExistingRanWithoutAssociatedE2TAddress nodebInfo

end SetupRequestHandler

end NearRtRic.E2Manager
