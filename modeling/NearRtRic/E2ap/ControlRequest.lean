/-
# The control request

`ric_control_request` of `e2ap_control.cc` keeps six elements and a list of pointers
into them, and `set_fields` builds one request after another in the same object.  It
empties the list, fills the first four elements, and the last two only where the helper
has an ack request (`control_ack >= 0`) or a call process id: an element that an earlier
request filled stays in the array, but nothing points to it any more.

So a request has the elements of its own helper, whatever the object built before, and
reads back as what was given (`read_after_setFields_after`).
-/

import NearRtRic.E2ap.ControlResponse

namespace NearRtRic.E2ap

open Asn CString

/-- `ric_control_helper` with the fields that a request is made of; no ack request where
`control_ack` is negative, and no call process id where that is empty. -/
structure RicControlRequestHelper extends RicControlHelper where
  control_ack : Int64 := -1
  control_msg : Bytes := []
  control_header : Bytes := []
  deriving DecidableEq, Repr

/-- `RICcontrolRequest_IEs__value`. -/
inductive RICcontrolRequestValue
  | NOTHING
  | RICrequestID (ricRequestorID : Int64)
  | RANfunctionID (id : Int64)
  | RICcontrolHeader (octets : Bytes)
  | RICcontrolMessage (octets : Bytes)
  | RICcontrolAckRequest (ack : Int64)
  | RICcallProcessID (octets : Bytes)
  deriving DecidableEq, Repr

/-- `RICcontrolRequest_IEs_t`. -/
structure RICcontrolRequest_IEs where
  id : ProtocolIE_ID := .unset
  criticality : Criticality := .reject
  value : RICcontrolRequestValue := .NOTHING
  deriving DecidableEq, Repr

/-- `IE_array` and the `protocolIEs` of the message. -/
abbrev RicControlRequest := Records (Fin 6) RICcontrolRequest_IEs

namespace RicControlRequest

/-- `ric_control_request::ric_control_request`. -/
def new : RicControlRequest where
  slot _ := {}

/-- `set_fields`; the return values of `ASN_SEQUENCE_ADD` are ignored. -/
def setFields (o : RicControlRequest) (dinput : RicControlRequestHelper) : RicControlRequest :=
  let o := o.reset
  -- mandatory
  let o := o.put 0 { id := .RICrequestID, value := .RICrequestID dinput.req_id }
  let o := o.put 1 { id := .RANfunctionID, value := .RANfunctionID dinput.func_id }
  let o := o.put 2
    { id := .RICcontrolHeader, value := .RICcontrolHeader dinput.control_header }
  let o := o.put 3 { id := .RICcontrolMessage, value := .RICcontrolMessage dinput.control_msg }
  -- optional
  let o := if 0 ≤ dinput.control_ack then
    o.put 4 { id := .RICcontrolAckRequest, value := .RICcontrolAckRequest dinput.control_ack }
  else o
  if 0 < dinput.call_process_id.length then
    o.put 5 { id := .RICcallProcessID, value := .RICcallProcessID dinput.call_process_id }
  else o

/-- The ids that `get_fields` looks at. -/
def readIds : List ProtocolIE_ID :=
  [.RICcontrolHeader, .RICcontrolMessage, .RICcallProcessID, .RICrequestID, .RANfunctionID,
   .RICcontrolAckRequest]

/-- One round of the loop of `get_fields`; `none` where the union has another member than
the id stands for. -/
def getField (dout : RicControlRequestHelper) (memb : RICcontrolRequest_IEs) :
    Option RicControlRequestHelper :=
  match memb.id, memb.value with
  | .RICcontrolHeader, .RICcontrolHeader octets => some { dout with control_header := octets }
  | .RICcontrolMessage, .RICcontrolMessage octets => some { dout with control_msg := octets }
  | .RICcallProcessID, .RICcallProcessID octets => some { dout with call_process_id := octets }
  | .RICrequestID, .RICrequestID ricRequestorID => some { dout with req_id := ricRequestorID }
  | .RANfunctionID, .RANfunctionID id => some { dout with func_id := id }
  | .RICcontrolAckRequest, .RICcontrolAckRequest ack => some { dout with control_ack := ack }
  | id, _ => if id ∈ readIds then none else some dout

/-- `get_fields`. -/
def getFields (o : RicControlRequest) (dout : RicControlRequestHelper) :
    Option RicControlRequestHelper :=
  o.read.foldlM getField dout

/-- The places that `set_fields` fills, with what it writes to them. -/
def elements (dinput : RicControlRequestHelper) : List (Fin 6 × RICcontrolRequest_IEs) :=
  [(0, { id := .RICrequestID, value := .RICrequestID dinput.req_id }),
   (1, { id := .RANfunctionID, value := .RANfunctionID dinput.func_id }),
   (2, { id := .RICcontrolHeader, value := .RICcontrolHeader dinput.control_header }),
   (3, { id := .RICcontrolMessage, value := .RICcontrolMessage dinput.control_msg })] ++
  ((if 0 ≤ dinput.control_ack then
    [(4, { id := .RICcontrolAckRequest, value := .RICcontrolAckRequest dinput.control_ack })]
  else []) ++
  if 0 < dinput.call_process_id.length then
    [(5, { id := .RICcallProcessID, value := .RICcallProcessID dinput.call_process_id })]
  else [])

/-- `set_fields` puts these elements and no others. -/
theorem setFields_eq (o : RicControlRequest) (dinput : RicControlRequestHelper) :
    setFields o dinput = (elements dinput).foldl (fun o x => o.put x.1 x.2) o.reset := by
  unfold setFields elements
  by_cases hack : 0 ≤ dinput.control_ack
  all_goals
    by_cases hid : 0 < dinput.call_process_id.length
    · simp only [hack, hid, if_true, if_false]
      rfl
    · simp only [hack, hid, if_true, if_false]
      rfl

/-- No place is filled twice. -/
theorem nodup_elements (dinput : RicControlRequestHelper) :
    ((elements dinput).map Prod.fst).Nodup ∧ (elements dinput).length ≤ 6 := by
  unfold elements
  split
  · split
    · exact ⟨show ([0, 1, 2, 3, 4, 5] : List (Fin 6)).Nodup by decide, by simp⟩
    · exact ⟨show ([0, 1, 2, 3, 4] : List (Fin 6)).Nodup by decide, by simp⟩
  · split
    · exact ⟨show ([0, 1, 2, 3, 5] : List (Fin 6)).Nodup by decide, by simp⟩
    · exact ⟨show ([0, 1, 2, 3] : List (Fin 6)).Nodup by decide, by simp⟩

/-- The optional ids are there where they were given. -/
theorem ids_elements (dinput : RicControlRequestHelper) :
    ((elements dinput).map Prod.snd).map (·.id) =
      [.RICrequestID, .RANfunctionID, .RICcontrolHeader, .RICcontrolMessage] ++
        ((if 0 ≤ dinput.control_ack then [.RICcontrolAckRequest] else []) ++
          if 0 < dinput.call_process_id.length then [.RICcallProcessID] else []) := by
  unfold elements
  rw [List.map_map, List.map_append, List.map_append, apply_ite (List.map _),
    apply_ite (List.map _)]
  rfl

/-- The request that `set_fields` builds does not depend on earlier ones. -/
theorem read_setFields {o : RicControlRequest} (ho : o.list.Grown)
    (dinput : RicControlRequestHelper) :
    (setFields o dinput).read = (elements dinput).map Prod.snd ∧
      (setFields o dinput).list.Grown := by
  have hplaces := nodup_elements dinput
  have hlimit : 6 ≤ SequenceOf.limit := by decide
  obtain ⟨hread, -, hgrown⟩ := Records.foldl_put_reset ho hplaces.1
    (Nat.le_trans hplaces.2 hlimit)
  rw [setFields_eq]
  exact ⟨hread, hgrown⟩

/-- The object after some requests. -/
def after (history : List RicControlRequestHelper) : RicControlRequest :=
  history.foldl setFields new

/-- The list has a size that it grows to after every history. -/
theorem grown_after (history : List RicControlRequestHelper) : (after history).list.Grown := by
  suffices ∀ o : RicControlRequest, o.list.Grown → (history.foldl setFields o).list.Grown from
    this new SequenceOf.grown_empty
  induction history with
  | nil => exact fun o ho => ho
  | cons d history ih => exact fun o ho => ih _ (read_setFields ho d).2

/-- What a helper holds after the elements were read into it. -/
theorem foldlM_getField (dinput dout : RicControlRequestHelper) :
    ((elements dinput).map Prod.snd).foldlM getField dout = some { dout with
      req_id := dinput.req_id
      func_id := dinput.func_id
      control_header := dinput.control_header
      control_msg := dinput.control_msg
      control_ack := if 0 ≤ dinput.control_ack then dinput.control_ack else dout.control_ack
      call_process_id := if 0 < dinput.call_process_id.length then dinput.call_process_id
        else dout.call_process_id } := by
  unfold elements
  by_cases hack : 0 ≤ dinput.control_ack
  all_goals
    by_cases hid : 0 < dinput.call_process_id.length
    · simp only [hack, hid, if_true, if_false]
      rfl
    · simp only [hack, hid, if_true, if_false]
      rfl

/-- **A control request is its own**, whatever the object built before: its elements are
those that a fresh object builds, the two optional ones are among them exactly where they
were given, and reading it recovers the helper it was made of, and leaves what was not given
as it was. -/
theorem read_after_setFields_after (history : List RicControlRequestHelper)
    (dinput dout : RicControlRequestHelper) :
    (setFields (after history) dinput).read = (setFields new dinput).read ∧
      (.RICcontrolAckRequest ∈ (setFields (after history) dinput).read.map (·.id) ↔
        0 ≤ dinput.control_ack) ∧
      (.RICcallProcessID ∈ (setFields (after history) dinput).read.map (·.id) ↔
        0 < dinput.call_process_id.length) ∧
      getFields (setFields (after history) dinput) dout = some { dout with
        req_id := dinput.req_id
        func_id := dinput.func_id
        control_header := dinput.control_header
        control_msg := dinput.control_msg
        control_ack := if 0 ≤ dinput.control_ack then dinput.control_ack else dout.control_ack
        call_process_id := if 0 < dinput.call_process_id.length then dinput.call_process_id
          else dout.call_process_id } := by
  have hread := (read_setFields (grown_after history) dinput).1
  have hfresh := (read_setFields (o := new) SequenceOf.grown_empty dinput).1
  refine ⟨hread.trans hfresh.symm, ?_, ?_, ?_⟩
  · rw [hread, ids_elements]
    simp
  · rw [hread, ids_elements]
    simp
  · unfold getFields
    rw [hread]
    exact foldlM_getField dinput dout

end RicControlRequest

end NearRtRic.E2ap
