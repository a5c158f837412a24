/-
# The other managers

The functions of `managers/` that stand between the handlers and the registry:
association, shutdown and the keep-alive worker, disconnection, the X2 and ENDC
setup, and the setup responses.

Where the Go code changes the `NodebInfo` it was handed a pointer to and its
caller goes on with it, the function here returns the record with its error.
-/

import NearRtRic.E2Manager.InstancesManager

namespace NearRtRic.E2Manager

open Effect

namespace E2TAssociationManager

/-- The record that `associateRanAndUpdateNodeb` writes: connected to the
instance, or disconnected where the routing manager failed.  Then the address
in the record stays what it was. -/
def associated (e2tAddress : String) (nodebInfo : NodebInfo) : Except Err Unit → NodebInfo
  | .ok () => (nodebInfo.setStatus .CONNECTED).setAssociation e2tAddress
  | .error _ => nodebInfo.setStatus .DISCONNECTED

/-- `associateRanAndUpdateNodeb`: an error of the routing manager hides one of
the store. -/
def associateRanAndUpdateNodeb (e2tAddress : String) (nodebInfo : NodebInfo) :
    Prog (NodebInfo × Except Err Unit) := do
  let rmErr ← RoutingManagerClient.associateRanToE2TInstance e2tAddress nodebInfo.ranName
  let nodebInfo := associated e2tAddress nodebInfo rmErr
  let rNibErr ← RNibDataService.updateNodebInfo nodebInfo
  match rmErr, rNibErr with
  | .error _, _ => return (nodebInfo, .error .routingManager)
  | .ok (), .error _ => return (nodebInfo, .error .rnibDb)
  | .ok (), .ok () => return (nodebInfo, .ok ())

/-- `AssociateRan`: the record of the RAN first, then the list of the instance. -/
def associateRan (e2tAddress : String) (nodebInfo : NodebInfo) :
    Prog (NodebInfo × Except Err Unit) := do
  match ← associateRanAndUpdateNodeb e2tAddress nodebInfo with
  | (nodebInfo, .error err) => return (nodebInfo, .error err)
  | (nodebInfo, .ok ()) =>
      match ← E2TInstancesManager.addRansToInstance e2tAddress [nodebInfo.ranName] with
      | .error _ => return (nodebInfo, .error .rnibDb)
      | .ok () => return (nodebInfo, .ok ())

/-- `DissociateRan`: an error of the routing manager is logged only. -/
def dissociateRan (e2tAddress ranName : String) : Prog (Except Err Unit) := do
  match ← RNibDataService.getNodeb ranName with
  | .error rnibErr => return .error rnibErr
  | .ok nodebInfo =>
      match ← RNibDataService.updateNodebInfo (nodebInfo.setAssociation "") with
      | .error rnibErr => return .error rnibErr
      | .ok () =>
          match ← E2TInstancesManager.removeRanFromInstance ranName e2tAddress with
          | .error err => return .error err
          | .ok () =>
              let _ ← RoutingManagerClient.dissociateRanE2TInstance e2tAddress ranName
              return .ok ()

/-- `RemoveE2tInstance`: an error of the routing manager is logged only. -/
def removeE2tInstance (e2tInstance : E2TInstance) : Prog (Except Err Unit) := do
  let _ ← RoutingManagerClient.deleteE2TInstance e2tInstance.address e2tInstance.associatedRanList
  E2TInstancesManager.removeE2TInstance e2tInstance.address

end E2TAssociationManager

namespace E2TShutdownManager

/-- `isE2tInstanceAlreadyBeingDeleted`, at time `now`. -/
def isE2tInstanceAlreadyBeingDeleted (config : Configuration) (e2tInstance : E2TInstance)
    (now : Int64) : Prop :=
  e2tInstance.state = .ToBeDeleted ∧
    now - e2tInstance.deletionTimestamp ≤ nanoseconds config.e2tInstanceDeletionTimeoutMs

instance (config : Configuration) (e2tInstance : E2TInstance) (now : Int64) :
    Decidable (isE2tInstanceAlreadyBeingDeleted config e2tInstance now) :=
  inferInstanceAs (Decidable (_ ∧ _))

/-- The instance that `markE2tInstanceToBeDeleted` saves. -/
def marked (e2tInstance : E2TInstance) (now : Int64) : E2TInstance :=
  { e2tInstance with state := .ToBeDeleted, deletionTimestamp := now }

/-- The record of a RAN whose instance is gone. -/
def disassociated (nodeb : NodebInfo) : NodebInfo :=
  (nodeb.setAssociation "").setStatus .DISCONNECTED

/-- `clearNodebsAssociation`: a RAN that is not found ends the loop with an
error, any other failed read is skipped. -/
def clearNodebsAssociation : List String → Prog (Except Err Unit)
  | [] => return .ok ()
  | ranName :: ranNamesToBeDissociated => do
      match ← RNibDataService.getNodeb ranName with
      | .error .resourceNotFound => return .error .resourceNotFound
      | .error _ => clearNodebsAssociation ranNamesToBeDissociated
      | .ok nodeb =>
          match ← RNibDataService.updateNodebInfo (disassociated nodeb) with
          | .error err => return .error err
          | .ok () => clearNodebsAssociation ranNamesToBeDissociated

/-- `Shutdown`: mark, clear the association of the listed RANs, remove.  All
three work on the instance it was handed. -/
def shutdown (config : Configuration) (e2tInstance : E2TInstance) : Prog (Except Err Unit) := do
  let now ← Time.now
  if isE2tInstanceAlreadyBeingDeleted config e2tInstance now then return .ok ()
  else
    let e2tInstance := marked e2tInstance (← Time.now)
    match ← RNibDataService.saveE2TInstance e2tInstance with
    | .error err => return .error err
    | .ok () =>
        match ← clearNodebsAssociation e2tInstance.associatedRanList with
        | .error err => return .error err
        | .ok () => E2TAssociationManager.removeE2tInstance e2tInstance

end E2TShutdownManager

namespace E2TKeepAliveWorker

/-- The time-out test of `E2TKeepAliveExpired`. -/
def Expired (config : Configuration) (e2tInstance : E2TInstance) (now : Int64) : Prop :=
  nanoseconds config.keepAliveResponseTimeoutMs < now - e2tInstance.keepAliveTimestamp

instance (config : Configuration) (e2tInstance : E2TInstance) (now : Int64) :
    Decidable (Expired config e2tInstance now) := inferInstanceAs (Decidable (_ < _))

/-- One round of the loop of `E2TKeepAliveExpired`. -/
def shutdownIfExpired (config : Configuration) (e2tInstance : E2TInstance) : Prog Unit := do
  let now ← Time.now
  if Expired config e2tInstance now then
    let _ ← E2TShutdownManager.shutdown config e2tInstance
    return ()
  else return ()

/-- The loop of `E2TKeepAliveExpired` over the instances it read. -/
def shutdownExpired (config : Configuration) : List E2TInstance → Prog Unit
  | [] => return ()
  | e2tInstance :: e2tInstances => do
      shutdownIfExpired config e2tInstance
      shutdownExpired config e2tInstances

/-- `E2TKeepAliveExpired`. -/
def e2TKeepAliveExpired (config : Configuration) : Prog Unit := do
  match ← E2TInstancesManager.getE2TInstancesNoLogs with
  | .error _ => return ()
  | .ok e2tInstances => shutdownExpired config e2tInstances

/-- `Execute`, for so many ticks.  The keep-alive request that each tick sends
first reads and writes nothing of the manager. -/
def execute (config : Configuration) : Nat → Prog Unit
  | 0 => return ()
  | ticks + 1 => do
      e2TKeepAliveExpired config
      execute config ticks

end E2TKeepAliveWorker

namespace RanDisconnectionManager

/-- `DisconnectRan`: a RAN that is shut down stays so, one that is shutting down
is shut down now, and any other is disconnected and leaves its instance. -/
def disconnectRan (inventoryName : String) : Prog (Except Err Unit) := do
  match ← RNibDataService.getNodeb inventoryName with
  | .error err => return .error err
  | .ok nodebInfo =>
      match nodebInfo.connectionStatus with
      | .SHUT_DOWN => return .ok ()
      | .SHUTTING_DOWN =>
          RNibDataService.updateNodebInfo (nodebInfo.setStatus .SHUT_DOWN)
      | _ =>
          match ← RNibDataService.updateNodebInfo (nodebInfo.setStatus .DISCONNECTED) with
          | .error err => return .error err
          | .ok () =>
              E2TAssociationManager.dissociateRan nodebInfo.associatedE2TInstanceAddress
                nodebInfo.ranName

end RanDisconnectionManager

namespace RanSetupManager

/-- `prepareSetupRequest`: the RMR message type and the body of the request. -/
def prepareSetupRequest (nodebInfo : NodebInfo) : Except Err (RmrMessageType × RmrPayload) :=
  let request := RmrPayload.e2Request nodebInfo.ranName nodebInfo.ip (nodebInfo.port % 2 ^ 16)
  match nodebInfo.e2ApplicationProtocol with
  | .X2_SETUP_REQUEST => .ok (.RIC_X2_SETUP_REQ, request)
  | .ENDC_X2_SETUP_REQUEST => .ok (.RIC_ENDC_X2_SETUP_REQ, request)
  | _ => .error .internalError

/-- `ExecuteSetup`. -/
def executeSetup (nodebInfo : NodebInfo) (status : ConnectionStatus) : Prog (Except Err Unit) := do
  match ← RNibDataService.updateNodebInfo (nodebInfo.setStatus status) with
  | .error _ => return .error .rnibDb
  | .ok () =>
      match prepareSetupRequest nodebInfo with
      | .error err => return .error err
      | .ok (msgType, payload) =>
          match ← RmrSender.send { msgType, ranName := nodebInfo.ranName, payload } with
          | .ok () => return .ok ()
          | .error _ =>
              match ← RNibDataService.updateNodebInfo (nodebInfo.setStatus .DISCONNECTED) with
              | .error _ => return .error .rnibDb
              | .ok () => return .error .rmr

end RanSetupManager

namespace SetupResponseManager

variable (codecs : Codecs)

/-- `PopulateNodebByPdu` of `X2SetupResponseManager`. -/
def x2SetupResponse (nbIdentity : NbIdentity) (nodebInfo : NodebInfo) (payload : String) :
    Except Err (NbIdentity × NodebInfo) :=
  (codecs.unpackX2SetupResponse payload).map fun (enbId, enb) =>
    ({ nbIdentity with globalNbId := enbId },
     { nodebInfo with
        globalNbId := enbId, connectionStatus := .CONNECTED, nodeType := .ENB,
        configuration := some (.enb enb) })

/-- `PopulateNodebByPdu` of `EndcSetupResponseManager`. -/
def endcSetupResponse (nbIdentity : NbIdentity) (nodebInfo : NodebInfo) (payload : String) :
    Except Err (NbIdentity × NodebInfo) :=
  (codecs.unpackEndcSetupResponse payload).map fun (gnbId, gnb) =>
    ({ nbIdentity with globalNbId := gnbId },
     { nodebInfo with
        globalNbId := gnbId, connectionStatus := .CONNECTED, nodeType := .GNB,
        configuration := some (.gnb gnb) })

/-- `PopulateNodebByPdu` of the two failure managers. -/
def setupFailure (unpack : String → Except Err String) (failureType : FailureType)
    (nbIdentity : NbIdentity) (nodebInfo : NodebInfo) (payload : String) :
    Except Err (NbIdentity × NodebInfo) :=
  (unpack payload).map fun failureResponse =>
    (nbIdentity,
     { nodebInfo with
        connectionStatus := .CONNECTED_SETUP_FAILED, setupFailure := some failureResponse,
        failureType })

/-- `PopulateNodebByPdu` of `X2SetupFailureResponseManager`. -/
def x2SetupFailureResponse :=
  setupFailure codecs.unpackX2SetupFailure .X2_SETUP_FAILURE

/-- `PopulateNodebByPdu` of `EndcSetupFailureResponseManager`. -/
def endcSetupFailureResponse :=
  setupFailure codecs.unpackEndcSetupFailure .ENDC_X2_SETUP_FAILURE

end SetupResponseManager

/-- `RanStatusChangeManager.Execute`. -/
def RanStatusChangeManager.execute (msgType : RmrMessageType) (nodebInfo : NodebInfo) :
    Prog (Except Err Unit) :=
  RmrSender.send { msgType, ranName := nodebInfo.ranName,
                   payload := .resourceStatus nodebInfo.nodeType }

end NearRtRic.E2Manager
