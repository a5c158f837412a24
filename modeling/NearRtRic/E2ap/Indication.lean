/-
# The RIC indication

`ric_indication` of `e2ap_indication.cc` writes a helper into the eight elements of an
indication and reads one back.  The object is used for one message after another: its
elements keep what was written to them, and `set_fields` starts by emptying the list of
pointers.

The last element is optional, and the branch that writes it takes the buffer of the
indication message instead of that of the call process id (`roundTrips_iff_callProcessID`).
-/

import NearRtRic.E2ap.Elements

namespace NearRtRic.E2ap

open Asn CString

/-- `ric_indication_helper`: buffers with their sizes are byte strings, and the call
process id is absent where it is empty. -/
structure RicIndicationHelper where
  req_id : Int64 := 1
  func_id : Int64 := 0
  action_id : Int64 := 1
  indication_type : Int64 := 0
  indication_sn : Int64 := 0
  indication_msg : Bytes := []
  indication_header : Bytes := []
  call_process_id : Bytes := []
  deriving DecidableEq, Repr

/-- `RICindication_IEs__value`. -/
inductive RICindicationValue
  | NOTHING
  | RICrequestID (ricRequestorID : Int64)
  | RANfunctionID (id : Int64)
  | RICactionID (id : Int64)
  | RICindicationSN (sn : Int64)
  | RICindicationType (type : Int64)
  | RICindicationHeader (octets : Bytes)
  | RICindicationMessage (octets : Bytes)
  | RICcallProcessID (octets : Bytes)
  deriving DecidableEq, Repr

/-- `RICindication_IEs_t`. -/
structure RICindication_IEs where
  id : ProtocolIE_ID := .unset
  criticality : Criticality := .reject
  value : RICindicationValue := .NOTHING
  deriving DecidableEq, Repr

/-- `IE_array` and the `protocolIEs` of the message. -/
abbrev RicIndication := Records (Fin 8) RICindication_IEs

namespace RicIndication

/-- `ric_indication::ric_indication`. -/
def new : RicIndication where
  slot _ := {}

/-- `set_fields`; the return values of `ASN_SEQUENCE_ADD` are ignored. -/
def setFields (o : RicIndication) (dinput : RicIndicationHelper) : RicIndication :=
  let o := o.reset
  let o := o.put 0 { id := .RICrequestID, value := .RICrequestID dinput.req_id }
  let o := o.put 1 { id := .RANfunctionID, value := .RANfunctionID dinput.func_id }
  let o := o.put 2 { id := .RICactionID, value := .RICactionID dinput.action_id }
  let o := o.put 3 { id := .RICindicationSN, value := .RICindicationSN dinput.indication_sn }
  let o := o.put 4
    { id := .RICindicationType, value := .RICindicationType dinput.indication_type }
  let o := o.put 5
    { id := .RICindicationHeader, value := .RICindicationHeader dinput.indication_header }
  let o := o.put 6
    { id := .RICindicationMessage, value := .RICindicationMessage dinput.indication_msg }
  if 0 < dinput.call_process_id.length then
    o.put 7 { id := .RICcallProcessID, value := .RICcallProcessID dinput.indication_msg }
  else o

/-- The ids that `get_fields` looks at. -/
def readIds : List ProtocolIE_ID :=
  [.RICindicationHeader, .RICindicationMessage, .RICrequestID, .RANfunctionID,
   .RICindicationSN, .RICindicationType, .RICactionID, .RICcallProcessID]

/-- One round of the loop of `get_fields`; `none` where the union has another member than
the id stands for. -/
def getField (dout : RicIndicationHelper) (memb : RICindication_IEs) :
    Option RicIndicationHelper :=
  match memb.id, memb.value with
  | .RICindicationHeader, .RICindicationHeader octets =>
      some { dout with indication_header := octets }
  | .RICindicationMessage, .RICindicationMessage octets =>
      some { dout with indication_msg := octets }
  | .RICrequestID, .RICrequestID ricRequestorID => some { dout with req_id := ricRequestorID }
  | .RANfunctionID, .RANfunctionID id => some { dout with func_id := id }
  | .RICindicationSN, .RICindicationSN sn => some { dout with indication_sn := sn }
  | .RICindicationType, .RICindicationType type => some { dout with indication_type := type }
  | .RICactionID, .RICactionID id => some { dout with action_id := id }
  | .RICcallProcessID, .RICcallProcessID octets => some { dout with call_process_id := octets }
  | id, _ => if id ∈ readIds then none else some dout

/-- `get_fields`. -/
def getFields (o : RicIndication) (dout : RicIndicationHelper) : Option RicIndicationHelper :=
  o.read.foldlM getField dout

/-- The places that `set_fields` fills, with what it writes to them. -/
def elements (dinput : RicIndicationHelper) : List (Fin 8 × RICindication_IEs) :=
  [(0, { id := .RICrequestID, value := .RICrequestID dinput.req_id }),
   (1, { id := .RANfunctionID, value := .RANfunctionID dinput.func_id }),
   (2, { id := .RICactionID, value := .RICactionID dinput.action_id }),
   (3, { id := .RICindicationSN, value := .RICindicationSN dinput.indication_sn }),
   (4, { id := .RICindicationType, value := .RICindicationType dinput.indication_type }),
   (5, { id := .RICindicationHeader, value := .RICindicationHeader dinput.indication_header }),
   (6, { id := .RICindicationMessage, value := .RICindicationMessage dinput.indication_msg })] ++
  if 0 < dinput.call_process_id.length then
    [(7, { id := .RICcallProcessID, value := .RICcallProcessID dinput.indication_msg })]
  else []

/-- `set_fields` puts these elements and no others. -/
theorem setFields_eq (o : RicIndication) (dinput : RicIndicationHelper) :
    setFields o dinput = (elements dinput).foldl (fun o x => o.put x.1 x.2) o.reset := by
  unfold setFields elements
  by_cases h : 0 < dinput.call_process_id.length
  · rw [if_pos h, if_pos h]
    rfl
  · rw [if_neg h, if_neg h]
    rfl

/-- The message that `set_fields` builds does not depend on earlier ones. -/
theorem read_setFields {o : RicIndication} (ho : o.list.Grown) (dinput : RicIndicationHelper) :
    (setFields o dinput).read = (elements dinput).map Prod.snd ∧
      (setFields o dinput).list.Grown := by
  have hplaces : ((elements dinput).map Prod.fst).Nodup ∧ (elements dinput).length ≤ 8 := by
    unfold elements
    split
    · exact ⟨show ([0, 1, 2, 3, 4, 5, 6, 7] : List (Fin 8)).Nodup by decide, by simp⟩
    · exact ⟨show ([0, 1, 2, 3, 4, 5, 6] : List (Fin 8)).Nodup by decide, by simp⟩
  have hlimit : 8 ≤ SequenceOf.limit := by decide
  obtain ⟨hread, -, hgrown⟩ := Records.foldl_put_reset ho hplaces.1
    (Nat.le_trans hplaces.2 hlimit)
  rw [setFields_eq]
  exact ⟨hread, hgrown⟩

/-- The object after some messages. -/
def after (history : List RicIndicationHelper) : RicIndication := history.foldl setFields new

/-- The list has a size that it grows to after every history. -/
theorem grown_after (history : List RicIndicationHelper) : (after history).list.Grown := by
  suffices ∀ o : RicIndication, o.list.Grown → (history.foldl setFields o).list.Grown from
    this new SequenceOf.grown_empty
  induction history with
  | nil => exact fun o ho => ho
  | cons d history ih => exact fun o ho => ih _ (read_setFields ho d).2

/-- What a fresh helper holds after the message was read into it. -/
theorem getFields_setFields {o : RicIndication} (ho : o.list.Grown)
    (dinput : RicIndicationHelper) :
    getFields (setFields o dinput) {} = some { dinput with
      call_process_id := if 0 < dinput.call_process_id.length then dinput.indication_msg
        else [] } := by
  unfold getFields
  rw [(read_setFields ho dinput).1]
  unfold elements
  by_cases h : 0 < dinput.call_process_id.length
  · rw [if_pos h, if_pos h]
    rfl
  · rw [if_neg h, if_neg h]
    rfl

/-- The ids of a message with or without a call process id. -/
def ids (dinput : RicIndicationHelper) : List ProtocolIE_ID :=
  [.RICrequestID, .RANfunctionID, .RICactionID, .RICindicationSN, .RICindicationType,
   .RICindicationHeader, .RICindicationMessage] ++
  if dinput.call_process_id = [] then [] else [.RICcallProcessID]

/-- After the messages of `history`, the message of `dinput` has its own elements only,
and reads back as `dinput`. -/
def RoundTrips (history : List RicIndicationHelper) (dinput : RicIndicationHelper) : Prop :=
  (setFields (after history) dinput).read.map (·.id) = ids dinput ∧
    getFields (setFields (after history) dinput) {} = some dinput

/-- **An indication reads back as it was written** exactly where it has no call process id,
or one that is the indication message itself. -/
theorem roundTrips_iff_callProcessID (history : List RicIndicationHelper)
    (dinput : RicIndicationHelper) :
    RoundTrips history dinput ↔
      dinput.call_process_id = [] ∨ dinput.call_process_id = dinput.indication_msg := by
  have hids : (setFields (after history) dinput).read.map (·.id) = ids dinput := by
    rw [(read_setFields (grown_after history) dinput).1]
    unfold elements ids
    by_cases h : dinput.call_process_id = []
    · rw [if_pos h, if_neg (by simp [h])]
      rfl
    · rw [if_neg h, if_pos (List.length_pos_iff.2 h)]
      rfl
  unfold RoundTrips
  rw [getFields_setFields (grown_after history)]
  constructor
  · rintro ⟨-, hout⟩
    have hid := congrArg RicIndicationHelper.call_process_id (Option.some.inj hout)
    dsimp only at hid
    split at hid
    · exact .inr hid.symm
    · exact .inl hid.symm
  · rintro (h | h)
    · refine ⟨hids, congrArg some ?_⟩
      rw [if_neg (by simp [h]), ← h]
    · refine ⟨hids, congrArg some ?_⟩
      have hid : (if 0 < dinput.call_process_id.length then dinput.indication_msg else []) =
          dinput.call_process_id := by
        split
        · exact h.symm
        · rename_i hempty
          exact (List.length_eq_zero_iff.1 (by omega)).symm
      rw [hid]

/-- **A call process id of its own** comes back as the bytes of the message. -/
theorem not_roundTrips_callProcessID :
    ¬ RoundTrips [] { indication_msg := [1, 2], call_process_id := [7] } := by
  unfold RoundTrips
  decide

end RicIndication

end NearRtRic.E2ap
