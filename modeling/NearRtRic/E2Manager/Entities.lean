/-
# The entities of the E2 manager

The records the E2 manager keeps in the RNIB, the radio network information
base: a RAN (`NodebInfo`), its identity (`NbIdentity`) and an E2 termination
instance (`E2TInstance`), with the fields that the handlers read or write.  The
field names are those of the protobuf and JSON entities that `rNibWriter`
stores.

A Go string is a `String`.  A time stamp is the `int64` of
`time.Now().UnixNano()`, so the difference of two of them wraps around.  A nil
list and an empty list are read alike by every handler and are both `[]`; where
a nil pointer matters the field is an `Option`.

`Err` collects the errors that the handlers tell apart: those of the RNIB
packages (`common`), those of `e2managererrors` with their codes and messages,
and the bare `errors.New`.
-/

import Mathlib.Algebra.Group.Nat.Defs
import Mathlib.Logic.Basic

namespace NearRtRic.E2Manager

/-- `entities.ConnectionStatus`. -/
inductive ConnectionStatus
  | UNKNOWN_CONNECTION_STATUS
  | CONNECTED
  | CONNECTING
  | DISCONNECTED
  | CONNECTED_SETUP_FAILED
  | SHUTTING_DOWN
  | SHUT_DOWN
  deriving DecidableEq, Repr

/-- `entities.ConnectionStatus_name`. -/
def ConnectionStatus.name : ConnectionStatus → String
  | UNKNOWN_CONNECTION_STATUS => "UNKNOWN_CONNECTION_STATUS"
  | CONNECTED => "CONNECTED"
  | CONNECTING => "CONNECTING"
  | DISCONNECTED => "DISCONNECTED"
  | CONNECTED_SETUP_FAILED => "CONNECTED_SETUP_FAILED"
  | SHUTTING_DOWN => "SHUTTING_DOWN"
  | SHUT_DOWN => "SHUT_DOWN"

/-- `entities.Node_Type`. -/
inductive NodeType
  | UNKNOWN
  | ENB
  | GNB
  deriving DecidableEq, Repr

/-- `entities.E2ApplicationProtocol`. -/
inductive E2ApplicationProtocol
  | UNKNOWN_E2_APPLICATION_PROTOCOL
  | X2_SETUP_REQUEST
  | ENDC_X2_SETUP_REQUEST
  deriving DecidableEq, Repr

/-- `entities.Failure_Type`. -/
inductive FailureType
  | UNKNOWN_TYPE
  | X2_SETUP_FAILURE
  | ENDC_X2_SETUP_FAILURE
  deriving DecidableEq, Repr

/-- `entities.GlobalNbId`. -/
structure GlobalNbId where
  plmnId : String
  nbId : String
  deriving DecidableEq, Repr

/-- `entities.NbIdentity`: a member of the inventory. -/
structure NbIdentity where
  inventoryName : String
  globalNbId : Option GlobalNbId := none
  deriving DecidableEq, Repr

/-- `entities.RanFunction`. -/
structure RanFunction where
  ranFunctionId : Nat
  ranFunctionDefinition : String
  ranFunctionRevision : Nat
  deriving DecidableEq, Repr

/-- `entities.ServedCellInfo`: an LTE cell, with the fields that index it. -/
structure ServedCellInfo where
  cellId : String
  pci : Nat
  deriving DecidableEq, Repr

/-- `entities.Nr`. -/
inductive NrMode
  | UNKNOWN
  | FDD
  | TDD
  deriving DecidableEq, Repr

/-- A `ChoiceNRMode`; the two kinds of information are opaque to every handler. -/
structure ChoiceNRMode where
  fdd : Option String := none
  tdd : Option String := none
  deriving DecidableEq, Repr

/-- `entities.NrNeighbourInformation`. -/
structure NrNeighbourInformation where
  nrCgi : String := ""
  nrPci : Nat := 0
  nrMode : NrMode := .UNKNOWN
  choiceNrMode : Option ChoiceNRMode := none
  deriving DecidableEq, Repr

/-- `entities.ServedNRCell`: an NR cell.  The first two fields index it; those of its
`ServedNrCellInformation` are read as empty where it has none. -/
structure ServedNRCell where
  cellId : String
  nrPci : Nat
  nrMode : NrMode := .UNKNOWN
  choiceNrMode : Option ChoiceNRMode := none
  servedPlmns : List String := []
  nrNeighbourInfos : List NrNeighbourInformation := []
  deriving DecidableEq, Repr

/-- `entities.Enb`. -/
structure Enb where
  servedCells : List ServedCellInfo := []
  deriving DecidableEq, Repr

/-- `entities.Gnb`. -/
structure Gnb where
  servedNrCells : List ServedNRCell := []
  ranFunctions : List RanFunction := []
  deriving DecidableEq, Repr

/-- The `Configuration` oneof of a `NodebInfo`. -/
inductive NodebConfiguration
  | enb (enb : Enb)
  | gnb (gnb : Gnb)
  deriving DecidableEq, Repr

/-- `entities.NodebInfo`: what the RNIB keeps of a RAN. -/
structure NodebInfo where
  ranName : String
  ip : String := ""
  port : Nat := 0
  e2ApplicationProtocol : E2ApplicationProtocol := .UNKNOWN_E2_APPLICATION_PROTOCOL
  connectionStatus : ConnectionStatus := .UNKNOWN_CONNECTION_STATUS
  globalNbId : Option GlobalNbId := none
  nodeType : NodeType := .UNKNOWN
  configuration : Option NodebConfiguration := none
  failureType : FailureType := .UNKNOWN_TYPE
  /-- The extracted failure response, opaque to every handler. -/
  setupFailure : Option String := none
  associatedE2TInstanceAddress : String := ""
  deriving DecidableEq, Repr

/-- `NodebInfo.GetEnb`: nil unless the node is an eNB. -/
def NodebInfo.getEnb (nb : NodebInfo) : Option Enb :=
  match nb.configuration with
  | some (.enb e) => some e
  | _ => none

/-- `NodebInfo.GetGnb`: nil unless the node is a gNB. -/
def NodebInfo.getGnb (nb : NodebInfo) : Option Gnb :=
  match nb.configuration with
  | some (.gnb g) => some g
  | _ => none

/-- `nodebInfo.ConnectionStatus = status`. -/
def NodebInfo.setStatus (nb : NodebInfo) (status : ConnectionStatus) : NodebInfo :=
  { nb with connectionStatus := status }

/-- `nodebInfo.AssociatedE2TInstanceAddress = e2tAddress`. -/
def NodebInfo.setAssociation (nb : NodebInfo) (e2tAddress : String) : NodebInfo :=
  { nb with associatedE2TInstanceAddress := e2tAddress }

section Setters

variable (nb : NodebInfo) (st : ConnectionStatus) (a : String)

/-- The name of a record whose status is set. -/
@[simp] theorem setStatus_ranName : (nb.setStatus st).ranName = nb.ranName := by
  simp only [NodebInfo.setStatus]

/-- Its status is the one that was set. -/
@[simp] theorem setStatus_status : (nb.setStatus st).connectionStatus = st := by
  simp only [NodebInfo.setStatus]

/-- Its association stays. -/
@[simp] theorem setStatus_association :
    (nb.setStatus st).associatedE2TInstanceAddress = nb.associatedE2TInstanceAddress := by
  simp only [NodebInfo.setStatus]

/-- The name of a record whose association is set. -/
@[simp] theorem setAssociation_ranName : (nb.setAssociation a).ranName = nb.ranName := by
  simp only [NodebInfo.setAssociation]

/-- Its status stays. -/
@[simp] theorem setAssociation_status :
    (nb.setAssociation a).connectionStatus = nb.connectionStatus := by
  simp only [NodebInfo.setAssociation]

/-- Its association is the one that was set. -/
@[simp] theorem setAssociation_association :
    (nb.setAssociation a).associatedE2TInstanceAddress = a := by
  simp only [NodebInfo.setAssociation]

end Setters

/-- `entities.E2TInstanceState`. -/
inductive E2TInstanceState
  | Active
  | ToBeDeleted
  deriving DecidableEq, Repr

/-- `entities.E2TInstance`: what the RNIB keeps of an E2 termination. -/
structure E2TInstance where
  address : String
  podName : String := ""
  associatedRanList : List String := []
  keepAliveTimestamp : Int64 := 0
  state : E2TInstanceState := .Active
  deletionTimestamp : Int64 := Int64.minValue
  deriving DecidableEq, Repr

/-- `entities.NewE2TInstance`, created at `now`. -/
def newE2TInstance (address podName : String) (now : Int64) : E2TInstance where
  address := address
  podName := podName
  keepAliveTimestamp := now

/-- A new instance has the address it is made for. -/
@[simp] theorem newE2TInstance_address (address podName : String) (now : Int64) :
    (newE2TInstance address podName now).address = address := by
  simp only [newE2TInstance]

/-- The errors of the E2 manager and of the RNIB packages below it. -/
inductive Err
  /-- `common.ResourceNotFoundError` -/
  | resourceNotFound
  /-- `common.ValidationError` -/
  | validation
  /-- `common.InternalError`: the store call failed -/
  | internal
  /-- `e2managererrors.ResourceNotFoundError` -/
  | ranNotFound
  /-- `e2managererrors.RnibDbError` -/
  | rnibDb
  /-- `e2managererrors.RoutingManagerError` -/
  | routingManager
  /-- `e2managererrors.RmrError` -/
  | rmr
  /-- `e2managererrors.InternalError` -/
  | internalError
  /-- `e2managererrors.RequestValidationError` -/
  | requestValidation
  /-- `e2managererrors.WrongStateError` -/
  | wrongState (activityName state : String)
  /-- `e2managererrors.E2TInstanceAbsenceError` -/
  | e2tInstanceAbsence
  /-- `errors.New` -/
  | text (message : String)
  deriving DecidableEq, Repr

instance instDecidableEqExcept {ε α : Type} [DecidableEq ε] [DecidableEq α] :
    DecidableEq (Except ε α)
  | .error e, .error e' => decidable_of_iff (e = e') ⟨congrArg _, Except.error.inj⟩
  | .ok a, .ok a' => decidable_of_iff (a = a') ⟨congrArg _, Except.ok.inj⟩
  | .error _, .ok _ => isFalse nofun
  | .ok _, .error _ => isFalse nofun

end NearRtRic.E2Manager
