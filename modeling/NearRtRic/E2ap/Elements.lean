/-
# Information elements

What the E2AP messages of the xApp connector (`xapp-asn/e2ap`) have in common: the ids
and the criticality of their information elements, and the cause of a refusal.  A
message is an array of elements and a list of pointers into it (`Asn.Records`); an
element is read through its id, and the union in it through the member that the id
stands for.
-/

import NearRtRic.Asn.SequenceOf
import NearRtRic.CString.Basic

namespace NearRtRic.E2ap

/-- The `ProtocolIE_ID_id_...` constants in use; `unset` is the zero of `calloc`. -/
inductive ProtocolIE_ID
  | unset
  | Cause
  | RANfunctionID
  | RICaction_Admitted_Item
  | RICactionID
  | RICaction_NotAdmitted_Item
  | RICactions_Admitted
  | RICactions_NotAdmitted
  | RICaction_ToBeSetup_Item
  | RICcallProcessID
  | RICcontrolAckRequest
  | RICcontrolHeader
  | RICcontrolMessage
  | RICcontrolStatus
  | RICindicationHeader
  | RICindicationMessage
  | RICindicationSN
  | RICindicationType
  | RICrequestID
  | RICsubscriptionDetails
  deriving DecidableEq, Repr

/-- `Criticality_t`; `reject` is zero. -/
inductive Criticality
  | reject
  | ignore
  deriving DecidableEq, Repr

/-- `Cause_t`.  The five members of its union are all `long`, and share their place. -/
structure Cause where
  present : Int32 := 0
  choice : Int64 := 0
  deriving DecidableEq, Repr

/-- `Cause_PR_ricRequest`. -/
def Cause_PR_ricRequest : Int32 := 1

/-- `Cause_PR_ricService`. -/
def Cause_PR_ricService : Int32 := 2

/-- `Cause_PR_transport`. -/
def Cause_PR_transport : Int32 := 3

/-- `Cause_PR_protocol`. -/
def Cause_PR_protocol : Int32 := 4

/-- `Cause_PR_misc`. -/
def Cause_PR_misc : Int32 := 5

/-- The cases of each `switch` over a cause. -/
def causes : List Int32 :=
  [Cause_PR_ricService, Cause_PR_transport, Cause_PR_protocol, Cause_PR_misc,
   Cause_PR_ricRequest]

end NearRtRic.E2ap
