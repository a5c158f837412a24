/-
# The control response

`ric_control_response` of `e2ap_control_response.cc` holds both outcomes of a control
request, the acknowledge and the failure.  Its constructor points each message to three
elements; `set_fields` fills these again for every response and never touches the
pointers, so no message is left with elements of an earlier one.

The two sides of the acknowledge do not agree on an id: the control status is written
under the id `RICcontrolStatus` and looked for under the id `Cause`
(`roundTrips_iff_status`).  A failure comes back whole, and a cause outside of the five
kinds is refused.
-/

import NearRtRic.E2ap.Elements

namespace NearRtRic.E2ap

open Asn CString

/-- `ric_control_helper`. -/
structure RicControlHelper where
  req_id : Int64 := 1
  func_id : Int64 := 0
  cause : Int64 := 0
  sub_cause : Int64 := 0
  control_status : Int64 := 1
  call_process_id : Bytes := []
  deriving DecidableEq, Repr

/-- `RICcontrolAcknowledge_IEs__value`. -/
inductive RICcontrolAcknowledgeValue
  | NOTHING
  | RICrequestID (ricRequestorID : Int64)
  | RANfunctionID (id : Int64)
  | RICcallProcessID (octets : Bytes)
  | RICcontrolStatus (status : Int64)
  deriving DecidableEq, Repr

/-- `RICcontrolAcknowledge_IEs_t`. -/
structure RICcontrolAcknowledge_IEs where
  id : ProtocolIE_ID := .unset
  criticality : Criticality := .reject
  value : RICcontrolAcknowledgeValue := .NOTHING
  deriving DecidableEq, Repr

/-- `RICcontrolFailure_IEs__value`. -/
inductive RICcontrolFailureValue
  | NOTHING
  | RICrequestID (ricRequestorID : Int64)
  | RANfunctionID (id : Int64)
  | RICcallProcessID (octets : Bytes)
  | Cause (cause : Cause)
  deriving DecidableEq, Repr

/-- `RICcontrolFailure_IEs_t`. -/
structure RICcontrolFailure_IEs where
  id : ProtocolIE_ID := .unset
  criticality : Criticality := .reject
  value : RICcontrolFailureValue := .NOTHING
  deriving DecidableEq, Repr

/-- `IE_array` and `IE_failure_array`, with the `protocolIEs` of the two messages. -/
structure RicControlResponse where
  acknowledge : Records (Fin 3) RICcontrolAcknowledge_IEs
  failure : Records (Fin 3) RICcontrolFailure_IEs

namespace RicControlResponse

/-- `ric_control_response::ric_control_response`. -/
def new : RicControlResponse where
  acknowledge := ([0, 1, 2] : List (Fin 3)).foldl (fun r i => r.put i {}) { slot _ := {} }
  failure := ([0, 1, 2] : List (Fin 3)).foldl (fun r i => r.put i {}) { slot _ := {} }

/-- `set_fields` of a `SuccessfulOutcome_t`. -/
def setFieldsAcknowledge (o : RicControlResponse) (dinput : RicControlHelper) :
    Bool × RicControlResponse :=
  let r := o.acknowledge
  let r := r.fill 0 { id := .RICrequestID, value := .RICrequestID dinput.req_id }
  let r := r.fill 1 { id := .RANfunctionID, value := .RANfunctionID dinput.func_id }
  let r := r.fill 2
    { id := .RICcontrolStatus, value := .RICcontrolStatus dinput.control_status }
  (true, { o with acknowledge := r })

/-- The union of the cause in an element: zero where it was never written. -/
def causeChoice (ie : RICcontrolFailure_IEs) : Int64 :=
  match ie.value with
  | .Cause cause => cause.choice
  | _ => 0

/-- The `switch (dinput.cause)` of `set_fields`; the cause itself is already written when
the default case gives up. -/
def setCause (old dinput_cause sub_cause : Int64) : Bool × Cause :=
  if dinput_cause ∈ causes.map (·.toInt64) then
    (true, { present := dinput_cause.toInt32, choice := sub_cause })
  else (false, { present := dinput_cause.toInt32, choice := old })

/-- `set_fields` of an `UnsuccessfulOutcome_t`. -/
def setFieldsFailure (o : RicControlResponse) (dinput : RicControlHelper) :
    Bool × RicControlResponse :=
  let r := o.failure
  let r := r.fill 0 { id := .RICrequestID, value := .RICrequestID dinput.req_id }
  let r := r.fill 1 { id := .RANfunctionID, value := .RANfunctionID dinput.func_id }
  let (res, cause) := setCause (causeChoice (r.slot 2)) dinput.cause dinput.sub_cause
  let r := r.fill 2 { id := .Cause, criticality := .ignore, value := .Cause cause }
  (res, { o with failure := r })

/-- The `set_fields` that `encode_e2ap_control_response` calls. -/
def setFields (o : RicControlResponse) (dinput : RicControlHelper) (is_success : Bool) :
    Bool × RicControlResponse :=
  if is_success then setFieldsAcknowledge o dinput else setFieldsFailure o dinput

/-- One round of the loop of `get_fields` over an acknowledge; `none` where the union has
another member than the one that is read. -/
def getFieldAcknowledge (dout : RicControlHelper) (memb : RICcontrolAcknowledge_IEs) :
    Option RicControlHelper :=
  match memb.id, memb.value with
  | .RICcallProcessID, .RICcallProcessID octets => some { dout with call_process_id := octets }
  | .RICrequestID, .RICrequestID ricRequestorID => some { dout with req_id := ricRequestorID }
  | .RANfunctionID, .RANfunctionID id => some { dout with func_id := id }
  | .Cause, .RICcontrolStatus status => some { dout with control_status := status }
  | id, _ =>
      if id ∈ [.RICcallProcessID, .RICrequestID, .RANfunctionID, .Cause] then none else some dout

/-- One round of the loop of `get_fields` over a failure. -/
def getFieldFailure (dout : RicControlHelper) (memb : RICcontrolFailure_IEs) :
    Option RicControlHelper :=
  match memb.id, memb.value with
  | .RICcallProcessID, .RICcallProcessID octets => some { dout with call_process_id := octets }
  | .RICrequestID, .RICrequestID ricRequestorID => some { dout with req_id := ricRequestorID }
  | .RANfunctionID, .RANfunctionID id => some { dout with func_id := id }
  | .Cause, .Cause cause => some
      { dout with
        cause := cause.present.toInt64
        sub_cause :=
          if cause.present.toInt64 ∈ causes.map (·.toInt64) then cause.choice else -1 }
  | id, _ =>
      if id ∈ [.RICcallProcessID, .RICrequestID, .RANfunctionID, .Cause] then none else some dout

/-- `get_fields` of the message that `encode_e2ap_control_response` has just built. -/
def getFields (o : RicControlResponse) (dout : RicControlHelper) (is_success : Bool) :
    Option RicControlHelper :=
  if is_success then o.acknowledge.read.foldlM getFieldAcknowledge dout
  else o.failure.read.foldlM getFieldFailure dout

/-- The object after some responses, of either form. -/
def after (history : List (RicControlHelper × Bool)) : RicControlResponse :=
  history.foldl (fun o x => (setFields o x.1 x.2).2) new

/-! ### The pointers -/

/-- Both messages point to their three elements, in order. -/
structure Pointed (o : RicControlResponse) : Prop where
  acknowledge : o.acknowledge.list.array = [0, 1, 2]
  failure : o.failure.list.array = [0, 1, 2]

/-- The constructor points both messages to their elements. -/
theorem pointed_new : new.Pointed := ⟨rfl, rfl⟩

/-- `set_fields` fills elements and leaves the pointers alone. -/
theorem Pointed.setFields {o : RicControlResponse} (ho : o.Pointed) (dinput : RicControlHelper)
    (is_success : Bool) : (setFields o dinput is_success).2.Pointed := by
  unfold RicControlResponse.setFields
  split
  · exact ⟨ho.acknowledge, ho.failure⟩
  · exact ⟨ho.acknowledge, ho.failure⟩

/-- They point to them after every history. -/
theorem pointed_after (history : List (RicControlHelper × Bool)) : (after history).Pointed := by
  suffices ∀ o : RicControlResponse, o.Pointed →
      (history.foldl (fun o x => (setFields o x.1 x.2).2) o).Pointed from this new pointed_new
  induction history with
  | nil => exact fun o ho => ho
  | cons x history ih => exact fun o ho => ih _ (ho.setFields x.1 x.2)

/-- Three elements that were filled are read in their order. -/
theorem read_fill {R : Type} {r : Records (Fin 3) R} (hr : r.list.array = [0, 1, 2]) (x y z : R) :
    (((r.fill 0 x).fill 1 y).fill 2 z).read = [x, y, z] := by
  change r.list.array.map _ = _
  rw [hr]
  rfl

/-! ### What comes back -/

/-- The acknowledge leaves the control status of the reader as it is. -/
theorem getFields_acknowledge {o : RicControlResponse} (ho : o.Pointed)
    (dinput dout : RicControlHelper) :
    (setFields o dinput true).1 = true ∧
      getFields (setFields o dinput true).2 dout true =
        some { dout with req_id := dinput.req_id, func_id := dinput.func_id } := by
  refine ⟨rfl, ?_⟩
  have hset : setFields o dinput true = setFieldsAcknowledge o dinput := if_pos rfl
  unfold getFields
  rw [if_pos rfl, hset]
  dsimp only [setFieldsAcknowledge]
  rw [read_fill ho.acknowledge]
  rfl

/-- The kinds of causes are of the same number as `long` and as enumeration. -/
theorem toInt64_toInt32_of_mem {cause : Int64} (h : cause ∈ causes.map (·.toInt64)) :
    cause.toInt32.toInt64 = cause := by
  obtain ⟨c, -, rfl⟩ := List.mem_map.1 h
  rw [Int32.toInt32_toInt64]

/-- A failure with a cause of the five kinds comes back with it. -/
theorem getFields_failure {o : RicControlResponse} (ho : o.Pointed)
    {dinput : RicControlHelper} (hcause : dinput.cause ∈ causes.map (·.toInt64))
    (dout : RicControlHelper) :
    (setFields o dinput false).1 = true ∧
      getFields (setFields o dinput false).2 dout false =
        some { dout with
          req_id := dinput.req_id, func_id := dinput.func_id
          cause := dinput.cause, sub_cause := dinput.sub_cause } := by
  have hset : ∀ old, setCause old dinput.cause dinput.sub_cause =
      (true, { present := dinput.cause.toInt32, choice := dinput.sub_cause }) :=
    fun old => if_pos hcause
  unfold setFields setFieldsFailure
  rw [if_neg (by decide)]
  dsimp only
  rw [hset]
  refine ⟨rfl, ?_⟩
  change (Records.read _).foldlM getFieldFailure dout = _
  rw [read_fill ho.failure]
  dsimp only [List.foldlM, getFieldFailure, bind, Option.bind, pure]
  rw [toInt64_toInt32_of_mem hcause, if_pos hcause]

/-- A cause of another kind is refused. -/
theorem setFields_of_illegal (o : RicControlResponse) {dinput : RicControlHelper}
    (hcause : dinput.cause ∉ causes.map (·.toInt64)) : (setFields o dinput false).1 = false := by
  have hset : ∀ old, (setCause old dinput.cause dinput.sub_cause).1 = false := by
    intro old
    unfold setCause
    rw [if_neg hcause]
  exact hset _

/-- The response of `dinput` after the responses of `history`, read into the helper
`dout`: an acknowledge gives back the request, the function and the status, a failure the
request, the function and the cause, and a cause without encoding is refused. -/
def RoundTrips (history : List (RicControlHelper × Bool)) (dinput : RicControlHelper)
    (is_success : Bool) (dout : RicControlHelper) : Prop :=
  let (res, o) := setFields (after history) dinput is_success
  if is_success then
    res = true ∧ ∃ out, getFields o dout true = some out ∧ out.req_id = dinput.req_id ∧
      out.func_id = dinput.func_id ∧ out.control_status = dinput.control_status
  else if dinput.cause ∈ causes.map (·.toInt64) then
    res = true ∧ ∃ out, getFields o dout false = some out ∧ out.req_id = dinput.req_id ∧
      out.func_id = dinput.func_id ∧ out.cause = dinput.cause ∧ out.sub_cause = dinput.sub_cause
  else res = false

/-- **Every failure comes back**, and an acknowledge does where the reader's control status
is that of the response before it looks at the message. -/
theorem roundTrips_iff_status (history : List (RicControlHelper × Bool))
    (dinput : RicControlHelper) (is_success : Bool) (dout : RicControlHelper) :
    RoundTrips history dinput is_success dout ↔
      (is_success = true → dinput.control_status = dout.control_status) := by
  have ho := pointed_after history
  unfold RoundTrips
  cases is_success with
  | true =>
      obtain ⟨hres, hout⟩ := getFields_acknowledge ho dinput dout
      dsimp only
      rw [if_pos rfl, hout]
      constructor
      · rintro ⟨-, out, hsome, -, -, hstatus⟩ -
        obtain rfl := Option.some.inj hsome
        exact hstatus.symm
      · exact fun h => ⟨hres, _, rfl, rfl, rfl, (h rfl).symm⟩
  | false =>
      refine ⟨fun _ => nofun, fun _ => ?_⟩
      dsimp only
      rw [if_neg (by decide)]
      by_cases hcause : dinput.cause ∈ causes.map (·.toInt64)
      · obtain ⟨hres, hout⟩ := getFields_failure ho hcause dout
        rw [if_pos hcause, hout]
        exact ⟨hres, _, rfl, rfl, rfl, rfl, rfl⟩
      · rw [if_neg hcause]
        exact setFields_of_illegal _ hcause

/-- **An accepted control**: the status 0 of the acknowledge comes back as the 1 of a fresh
helper, which stands for a rejected one. -/
theorem not_roundTrips_accepted : ¬ RoundTrips [] { control_status := 0 } true {} := by
  have hread : getFields (setFields (after []) { control_status := 0 } true).2 {} true =
      some {} := by decide
  intro h
  unfold RoundTrips at h
  dsimp only at h
  rw [if_pos rfl, hread] at h
  obtain ⟨-, out, hout, -, -, hstatus⟩ := h
  obtain rfl := Option.some.inj hout
  exact absurd hstatus (by decide)

end RicControlResponse

end NearRtRic.E2ap
