/-
# The subscription response

`subscription_response` of `subscription_response.cc` writes the actions that a node
admitted and those that it did not into one of two messages.  Both lists point into
arrays of items that the object keeps (`Asn.ItemArray`).

A cause outside of the five kinds ends the writing: `set_fields_success` and
`set_fields_unsuccess` return without a value, before the list is added to the message,
and `encode_e2ap_subscription_response` goes on with what there is.  Whether anybody
notices is up to the codec (`faithful_iff`).
-/

import NearRtRic.Asn.ItemArray
import NearRtRic.E2ap.Elements

namespace NearRtRic.E2ap

open Asn

/-- `ActionResponse`. -/
structure ActionResponse where
  id : Int32
  cause : Int32 := -1
  sub_cause : Int32 := -1
  deriving DecidableEq, Repr

/-- `subscription_response_helper`.  Its constructor leaves the two ids as they happen to
be. -/
structure SubscriptionResponseHelper where
  req_id : Int32
  func_id : Int32
  action_admitted : List ActionResponse := []
  action_not_admitted : List ActionResponse := []
  deriving DecidableEq, Repr

/-- `RICaction_Admitted_ItemIEs_t`. -/
structure RICaction_Admitted_ItemIEs where
  id : ProtocolIE_ID := .unset
  criticality : Criticality := .reject
  ricActionID : Int64 := 0
  deriving DecidableEq, Repr

/-- `RICaction_NotAdmitted_ItemIEs_t`. -/
structure RICaction_NotAdmitted_ItemIEs where
  id : ProtocolIE_ID := .unset
  criticality : Criticality := .reject
  ricActionID : Int64 := 0
  cause : Cause := {}
  deriving DecidableEq, Repr

/-- `RICsubscriptionResponse_IEs__value` and, without the admitted list,
`RICsubscriptionFailure_IEs__value`.  A list is `A` or `N`: pointers in the elements of
the object, items in a message. -/
inductive RICsubscriptionValue (A N : Type)
  | NOTHING
  | RICrequestID (ricRequestorID : Int64)
  | RANfunctionID (id : Int64)
  | RICaction_Admitted_List (list : A)
  | RICaction_NotAdmitted_List (list : N)
  deriving DecidableEq, Repr

/-- `RICsubscriptionResponse_IEs_t` and `RICsubscriptionFailure_IEs_t`. -/
structure RICsubscription_IEs (A N : Type) where
  id : ProtocolIE_ID := .unset
  criticality : Criticality := .reject
  value : RICsubscriptionValue A N := .NOTHING
  deriving DecidableEq, Repr

/-- An element of the object. -/
abbrev ElementIEs := RICsubscription_IEs (SequenceOf Nat) (SequenceOf Nat)

/-- An element as the codec sees it. -/
abbrev MessageIEs :=
  RICsubscription_IEs (List RICaction_Admitted_ItemIEs) (List RICaction_NotAdmitted_ItemIEs)

/-- The outcome that the `E2AP_PDU_t` holds. -/
structure SubscriptionOutcome where
  is_success : Bool
  protocolIEs : List MessageIEs
  deriving DecidableEq, Repr

/-- The check of the constraints, the encoding into the caller's buffer and the decoding;
what was encoded is decoded again. -/
structure OutcomeCodec (W : Type) where
  encode : SubscriptionOutcome → Option W
  decode : W → Option SubscriptionOutcome
  decode_encode : ∀ m w, encode m = some w → decode w = some m

/-- `IE_array` and `IE_Failure_array` with the `protocolIEs` of the two messages, and the
two arrays of items. -/
structure SubscriptionResponse where
  response : Records (Fin 4) ElementIEs
  failure : Records (Fin 3) ElementIEs
  ie_admitted_list : ItemArray RICaction_Admitted_ItemIEs
  ie_not_admitted_list : ItemArray RICaction_NotAdmitted_ItemIEs

namespace SubscriptionResponse

/-- `INITIAL_RESPONSE_LIST_SIZE`. -/
def initialResponseListSize : UInt32 := 4

/-- `subscription_response::subscription_response`. -/
def new : SubscriptionResponse where
  response := { slot _ := {} }
  failure := { slot _ := {} }
  ie_admitted_list := { items _ := {}, size := initialResponseListSize }
  ie_not_admitted_list := { items _ := {}, size := initialResponseListSize }

/-- The list in the union of an element.  The places of an empty list are not kept. -/
def pointers (value : RICsubscriptionValue (SequenceOf Nat) (SequenceOf Nat)) :
    SequenceOf Nat :=
  match value with
  | .RICaction_Admitted_List list => list
  | .RICaction_NotAdmitted_List list => list
  | _ => {}

/-- The item of an admitted action. -/
def admittedItem (action : ActionResponse) : RICaction_Admitted_ItemIEs where
  id := .RICaction_Admitted_Item
  criticality := .ignore
  ricActionID := action.id.toInt64

/-- The item of an action that was not admitted. -/
def notAdmittedItem (action : ActionResponse) : RICaction_NotAdmitted_ItemIEs where
  id := .RICaction_NotAdmitted_Item
  criticality := .ignore
  ricActionID := action.id.toInt64
  cause := { present := action.cause, choice := action.sub_cause.toInt64 }

/-- What the default case of the `switch` leaves: the cause is not written. -/
def illegalItem (old : RICaction_NotAdmitted_ItemIEs) (action : ActionResponse) :
    RICaction_NotAdmitted_ItemIEs :=
  { notAdmittedItem action with cause := old.cause }

/-- The cases of the `switch`. -/
def legalCause (action : ActionResponse) : Bool := action.cause ∈ causes

/-- The loop over the admitted actions. -/
def writeAdmitted :=
  ItemArray.write (fun _ : ActionResponse => true) admittedItem (fun old _ => old)

/-- The loop over the actions that were not admitted. -/
def writeNotAdmitted := ItemArray.write legalCause notAdmittedItem illegalItem

/-- The request id and the function id, with which both messages begin. -/
def requestIEs {A N : Type} (helper : SubscriptionResponseHelper) :
    RICsubscription_IEs A N × RICsubscription_IEs A N :=
  ({ id := .RICrequestID, value := .RICrequestID helper.req_id.toInt64 },
   { id := .RANfunctionID, value := .RANfunctionID helper.func_id.toInt64 })

/-- The union of the admitted actions in `set_fields_success`, and their items. -/
def setAdmitted (o : SubscriptionResponse) (helper : SubscriptionResponseHelper) :
    Option (ItemArray RICaction_Admitted_ItemIEs ×
      RICsubscriptionValue (SequenceOf Nat) (SequenceOf Nat)) :=
  if helper.action_admitted = [] then some (o.ie_admitted_list, .NOTHING)
  else
    (writeAdmitted o.ie_admitted_list {} (pointers (o.response.slot 2).value)
      helper.action_admitted).map fun x => (x.2.1, .RICaction_Admitted_List x.2.2)

/-- `set_fields_success`; `none` for a write beyond an array.  The return values of
`ASN_SEQUENCE_ADD` are ignored. -/
def setFieldsSuccess (o : SubscriptionResponse) (helper : SubscriptionResponseHelper) :
    Option SubscriptionResponse := do
  let ies := o.response.reset
  let ies := ies.put 0 (requestIEs helper).1
  let ies := ies.put 1 (requestIEs helper).2
  let (items, value) ← setAdmitted o helper
  let ies := ies.put 2 { id := .RICactions_Admitted, value }
  if helper.action_not_admitted = [] then
    some { o with response := ies, ie_admitted_list := items }
  else
    let (res, notItems, list) ←
      writeNotAdmitted o.ie_not_admitted_list {} (pointers (o.response.slot 3).value)
        helper.action_not_admitted
    let ie : ElementIEs :=
      { id := .RICactions_NotAdmitted, value := .RICaction_NotAdmitted_List list }
    some { o with
      response := if res then ies.put 3 ie else ies.fill 3 ie
      ie_admitted_list := items
      ie_not_admitted_list := notItems }

local instance neZeroFailureIEs : NeZero 3 := ⟨by decide⟩

/-- `set_fields_unsuccess`. -/
def setFieldsUnsuccess (o : SubscriptionResponse) (helper : SubscriptionResponseHelper) :
    Option SubscriptionResponse := do
  let ies := o.failure.reset
  let ies := ies.put 0 (requestIEs helper).1
  let ies := ies.put 1 (requestIEs helper).2
  if helper.action_not_admitted = [] then
    some { o with failure := ies.put 2 { id := .RICactions_NotAdmitted, value := .NOTHING } }
  else
    let (res, notItems, list) ←
      writeNotAdmitted o.ie_not_admitted_list {} (pointers (o.failure.slot 2).value)
        helper.action_not_admitted
    let ie : ElementIEs :=
      { id := .RICactions_NotAdmitted, value := .RICaction_NotAdmitted_List list }
    some { o with
      failure := if res then ies.put 2 ie else ies.fill 2 ie
      ie_not_admitted_list := notItems }

/-- The union of an element with the items that its list points to. -/
def resolveValue (admitted : ItemArray RICaction_Admitted_ItemIEs)
    (notAdmitted : ItemArray RICaction_NotAdmitted_ItemIEs) :
    RICsubscriptionValue (SequenceOf Nat) (SequenceOf Nat) →
      RICsubscriptionValue (List RICaction_Admitted_ItemIEs) (List RICaction_NotAdmitted_ItemIEs)
  | .NOTHING => .NOTHING
  | .RICrequestID ricRequestorID => .RICrequestID ricRequestorID
  | .RANfunctionID id => .RANfunctionID id
  | .RICaction_Admitted_List list => .RICaction_Admitted_List (list.array.map admitted.items)
  | .RICaction_NotAdmitted_List list =>
      .RICaction_NotAdmitted_List (list.array.map notAdmitted.items)

/-- An element with its items. -/
def resolve (o : SubscriptionResponse) (ie : ElementIEs) : MessageIEs where
  id := ie.id
  criticality := ie.criticality
  value := resolveValue o.ie_admitted_list o.ie_not_admitted_list ie.value

/-- The structure that the codec is given. -/
def outcome (o : SubscriptionResponse) (is_success : Bool) : SubscriptionOutcome where
  is_success
  protocolIEs := (if is_success then o.response.read else o.failure.read).map o.resolve

/-- The outcome of a response is read from its own elements. -/
theorem outcome_success (o : SubscriptionResponse) :
    o.outcome true = { is_success := true, protocolIEs := o.response.read.map o.resolve } := rfl

/-- And that of a failure from the others. -/
theorem outcome_failure (o : SubscriptionResponse) :
    o.outcome false = { is_success := false, protocolIEs := o.failure.read.map o.resolve } := rfl

/-- The `set_fields_...` that `encode_e2ap_subscription_response` calls. -/
def setFields (o : SubscriptionResponse) (helper : SubscriptionResponseHelper)
    (is_success : Bool) : Option SubscriptionResponse :=
  if is_success then setFieldsSuccess o helper else setFieldsUnsuccess o helper

/-- `encode_e2ap_subscription_response`: what was written and the object afterwards; there
is no buffer where it returns `false`. -/
def encode {W : Type} (codec : OutcomeCodec W) (o : SubscriptionResponse)
    (helper : SubscriptionResponseHelper) (is_success : Bool) :
    Option (Option W × SubscriptionResponse) :=
  (setFields o helper is_success).map fun o => (codec.encode (o.outcome is_success), o)

/-- The loop of `get_fields` over the admitted items. -/
def getAdmitted (dout : SubscriptionResponseHelper) (items : List RICaction_Admitted_ItemIEs) :
    SubscriptionResponseHelper :=
  { dout with
    action_admitted :=
      dout.action_admitted ++ items.map fun item => { id := item.ricActionID.toInt32 } }

/-- The loop of `get_fields` over the other items; `false` where an illegal cause ended
it. -/
def getNotAdmitted (dout : SubscriptionResponseHelper) :
    List RICaction_NotAdmitted_ItemIEs → Bool × SubscriptionResponseHelper
  | [] => (true, dout)
  | item :: items =>
      if item.cause.present ∈ causes then
        getNotAdmitted
          { dout with
            action_not_admitted := dout.action_not_admitted ++
              [{ id := item.ricActionID.toInt32
                 cause := item.cause.present
                 sub_cause := item.cause.choice.toInt32 }] } items
      else (false, dout)

/-- One round of the loop of `get_fields` over an `UnsuccessfulOutcome_t`; `none` where the
union has another member than the id stands for, `false` where the function returns.  A
list that was never written is empty. -/
def getFieldUnsuccess (dout : SubscriptionResponseHelper) (memb : MessageIEs) :
    Option (Bool × SubscriptionResponseHelper) :=
  match memb.id, memb.value with
  -- the call of `set_request` is commented out
  | .RICrequestID, .RICrequestID _ => some (true, dout)
  | .RANfunctionID, .RANfunctionID id => some (true, { dout with func_id := id.toInt32 })
  | .RICactions_NotAdmitted, .RICaction_NotAdmitted_List items => some (getNotAdmitted dout items)
  | .RICactions_NotAdmitted, .NOTHING => some (true, dout)
  | id, _ =>
      if id ∈ [.RICrequestID, .RANfunctionID, .RICactions_NotAdmitted] then none
      else some (true, dout)

/-- One round of the loop over a `SuccessfulOutcome_t`, which has a case more. -/
def getFieldSuccess (dout : SubscriptionResponseHelper) (memb : MessageIEs) :
    Option (Bool × SubscriptionResponseHelper) :=
  match memb.id, memb.value with
  | .RICactions_Admitted, .RICaction_Admitted_List items => some (true, getAdmitted dout items)
  | .RICactions_Admitted, .NOTHING => some (true, dout)
  | .RICactions_Admitted, _ => none
  | _, _ => getFieldUnsuccess dout memb

/-- The loop over the elements, which a round can end. -/
def getLoop
    (round : SubscriptionResponseHelper → MessageIEs →
      Option (Bool × SubscriptionResponseHelper)) :
    List MessageIEs → SubscriptionResponseHelper → Option SubscriptionResponseHelper
  | [], dout => some dout
  | memb :: ies, dout =>
      match round dout memb with
      | none => none
      | some (true, dout) => getLoop round ies dout
      | some (false, dout) => some dout

/-- The two `get_fields`. -/
def getFields (m : SubscriptionOutcome) (dout : SubscriptionResponseHelper) :
    Option SubscriptionResponseHelper :=
  getLoop (if m.is_success then getFieldSuccess else getFieldUnsuccess) m.protocolIEs dout

/-- The object after some encodings; `none` where one of them wrote beyond an array. -/
def after (history : List (SubscriptionResponseHelper × Bool)) : Option SubscriptionResponse :=
  history.foldlM (fun o x => setFields o x.1 x.2) new

/-! ### The message that is built -/

/-- The list of the admitted actions, as far as a list goes. -/
def admittedIE (helper : SubscriptionResponseHelper) : MessageIEs where
  id := .RICactions_Admitted
  value :=
    if helper.action_admitted = [] then .NOTHING
    else .RICaction_Admitted_List ((helper.action_admitted.map admittedItem).take SequenceOf.limit)

/-- The list of the other actions, as far as a list goes. -/
def notAdmittedIE (helper : SubscriptionResponseHelper) : MessageIEs where
  id := .RICactions_NotAdmitted
  value :=
    if helper.action_not_admitted = [] then .NOTHING
    else .RICaction_NotAdmitted_List
      ((helper.action_not_admitted.map notAdmittedItem).take SequenceOf.limit)

/-- The message of a helper, without the list of the actions that were not admitted where
one of their causes is illegal. -/
def abridged (helper : SubscriptionResponseHelper) (is_success : Bool) : SubscriptionOutcome where
  is_success
  protocolIEs :=
    [(requestIEs helper).1, (requestIEs helper).2] ++
    (if is_success then
      [admittedIE helper] ++
        if helper.action_not_admitted ≠ [] ∧ helper.action_not_admitted.all legalCause
        then [notAdmittedIE helper] else []
    else if helper.action_not_admitted.all legalCause then [notAdmittedIE helper] else [])

/-- The message that a response comes to. -/
theorem abridged_success (helper : SubscriptionResponseHelper) :
    abridged helper true =
      { is_success := true
        protocolIEs := [(requestIEs helper).1, (requestIEs helper).2, admittedIE helper] ++
          if helper.action_not_admitted ≠ [] ∧ helper.action_not_admitted.all legalCause
          then [notAdmittedIE helper] else [] } := rfl

/-- The message that a failure comes to. -/
theorem abridged_failure (helper : SubscriptionResponseHelper) :
    abridged helper false =
      { is_success := false
        protocolIEs := [(requestIEs helper).1, (requestIEs helper).2] ++
          if helper.action_not_admitted.all legalCause then [notAdmittedIE helper] else [] } := rfl

/-- The arrays have room for what the loops write to them. -/
def Fits (o : SubscriptionResponse) (helper : SubscriptionResponseHelper) (is_success : Bool) :
    Prop :=
  (is_success = true → helper.action_admitted.length ≤
      (o.ie_admitted_list.newSize helper.action_admitted.length).toNat) ∧
    ItemArray.touched legalCause helper.action_not_admitted ≤
      (o.ie_not_admitted_list.newSize helper.action_not_admitted.length).toNat

/-- The lists of a message and of its elements have sizes that they grow to. -/
structure ListsGrown {ι : Type} (r : Records ι ElementIEs) : Prop where
  list : r.list.Grown
  pointers : ∀ i, (pointers (r.slot i).value).Grown

namespace ListsGrown

variable {ι : Type} {r : Records ι ElementIEs} {x : ElementIEs}

/-- To empty the list of a message leaves what it can grow to. -/
theorem reset (h : ListsGrown r) : ListsGrown r.reset := ⟨h.list.reset, h.pointers⟩

variable [DecidableEq ι]

/-- To write an element leaves the sizes in order, if those of its list are. -/
theorem fill (h : ListsGrown r) (i : ι) (hx : (SubscriptionResponse.pointers x.value).Grown) :
    ListsGrown (r.fill i x) := by
  refine ⟨h.list, fun j => ?_⟩
  unfold Records.fill
  dsimp only
  by_cases hj : j = i
  · rw [hj, Function.update_self]
    exact hx
  · rw [Function.update_of_ne hj]
    exact h.pointers j

/-- So does to add it to the list. -/
theorem put (h : ListsGrown r) (i : ι) (hx : (SubscriptionResponse.pointers x.value).Grown) :
    ListsGrown (r.put i x) :=
  ⟨(h.list.push i).2, (h.fill i hx).pointers⟩

end ListsGrown

/-- What holds of the object between two encodings. -/
structure Kept (o : SubscriptionResponse) : Prop where
  response : ListsGrown o.response
  failure : ListsGrown o.failure

/-- The constructor leaves empty lists. -/
theorem kept_new : new.Kept where
  response := ⟨SequenceOf.grown_empty, fun _ => SequenceOf.grown_empty⟩
  failure := ⟨SequenceOf.grown_empty, fun _ => SequenceOf.grown_empty⟩

variable {o o' : SubscriptionResponse} {helper : SubscriptionResponseHelper}

/-- Every admitted action is written. -/
theorem touched_admitted (actions : List ActionResponse) :
    ItemArray.touched (fun _ => true) actions = actions.length :=
  ItemArray.touched_eq_length _ (by simp)

/-- Where the array has room the loop writes all admitted actions, and lists their items in order.
-/
theorem writeAdmitted_of_fits {a : ItemArray RICaction_Admitted_ItemIEs}
    {list : SequenceOf Nat} {actions : List ActionResponse} (hlist : list.Grown)
    (hfits : actions.length ≤ (a.newSize actions.length).toNat) :
    ∃ a' list', writeAdmitted a {} list actions = some (true, a', list') ∧ list'.Grown ∧
      list'.array.map a'.items = (actions.map admittedItem).take SequenceOf.limit := by
  have hall : (actions.all fun _ => true) = true := by simp
  obtain ⟨a', list', hwrite, hgrown, hitems⟩ : ∃ a' list',
      writeAdmitted a {} list actions = some (actions.all fun _ => true, a', list') ∧
        list'.Grown ∧ ((actions.all fun _ => true) = true →
          list'.array.map a'.items = (actions.map admittedItem).take SequenceOf.limit) :=
    ItemArray.write_of_fits hlist (by rwa [touched_admitted])
  exact ⟨a', list', hall ▸ hwrite, hgrown, hitems hall⟩

/-- Where it has room for what is touched, the loop writes the other actions, and says whether all
causes were legal. -/
theorem writeNotAdmitted_of_fits {a : ItemArray RICaction_NotAdmitted_ItemIEs}
    {list : SequenceOf Nat} {actions : List ActionResponse} (hlist : list.Grown)
    (hfits : ItemArray.touched legalCause actions ≤ (a.newSize actions.length).toNat) :
    ∃ a' list', writeNotAdmitted a {} list actions =
        some (actions.all legalCause, a', list') ∧ list'.Grown ∧
      (actions.all legalCause = true →
        list'.array.map a'.items = (actions.map notAdmittedItem).take SequenceOf.limit) :=
  ItemArray.write_of_fits hlist hfits

/-- So the union of the admitted actions holds the list of their items. -/
theorem setAdmitted_of_fits (ho : Kept o)
    (hfits : helper.action_admitted.length ≤
      (o.ie_admitted_list.newSize helper.action_admitted.length).toNat) :
    ∃ items value, setAdmitted o helper = some (items, value) ∧ (pointers value).Grown ∧
      ∀ notAdmitted, resolveValue items notAdmitted value = (admittedIE helper).value := by
  unfold setAdmitted admittedIE
  by_cases hnil : helper.action_admitted = []
  · rw [if_pos hnil]
    refine ⟨_, _, rfl, SequenceOf.grown_empty, fun _ => ?_⟩
    dsimp only
    rw [if_pos hnil]
    rfl
  · obtain ⟨items, list, hwrite, hgrown, hlist⟩ :=
      writeAdmitted_of_fits (ho.response.pointers 2) hfits
    rw [if_neg hnil, hwrite]
    refine ⟨items, .RICaction_Admitted_List list, rfl, hgrown, fun _ => ?_⟩
    dsimp only
    rw [if_neg hnil]
    exact congrArg _ hlist

/-- Where it has none the loop writes beyond the array. -/
theorem setAdmitted_of_not_fits
    (hfits : ¬ helper.action_admitted.length ≤
      (o.ie_admitted_list.newSize helper.action_admitted.length).toNat) :
    setAdmitted o helper = none := by
  have hnil : helper.action_admitted ≠ [] := by
    rintro hnil
    rw [hnil] at hfits
    exact hfits (Nat.zero_le _)
  unfold setAdmitted writeAdmitted
  rw [if_neg hnil, ItemArray.write_of_not_fits (by rw [touched_admitted]; omega)]
  rfl

/-- The list of the actions that were not admitted ends the message, or is left out. -/
theorem read_last {n : Nat} {r : Records (Fin n) ElementIEs} (hr : ListsGrown r) {i : Fin n}
    (hi : i ∉ r.list.array) {ies : List ElementIEs} (hread : r.read = ies)
    (hlen : ies.length ≤ 3) (ie : ElementIEs) (hie : (pointers ie.value).Grown) (res : Bool) :
    (if res then r.put i ie else r.fill i ie).read = ies ++ (if res then [ie] else []) ∧
      ListsGrown (if res then r.put i ie else r.fill i ie) := by
  have hlimit : 4 ≤ SequenceOf.limit := by decide
  cases res with
  | true =>
      rw [if_pos rfl, if_pos rfl, Records.read_put hr.list hi, hread, List.take_of_length_le]
      · exact ⟨rfl, hr.put i hie⟩
      · rw [List.length_append, List.length_singleton]
        omega
  | false =>
      rw [if_neg (by decide), if_neg (by decide), Records.read_fill_of_notMem hi, hread,
        List.append_nil]
      exact ⟨rfl, hr.fill i hie⟩

/-- The element of the admitted actions, with its items, is the one of the message. -/
theorem resolve_admitted {items : ItemArray RICaction_Admitted_ItemIEs}
    {value : RICsubscriptionValue (SequenceOf Nat) (SequenceOf Nat)}
    (hvalue : ∀ notAdmitted, resolveValue items notAdmitted value = (admittedIE helper).value)
    (h : o.ie_admitted_list = items) :
    o.resolve { id := .RICactions_Admitted, value } = admittedIE helper := by
  unfold resolve
  rw [h, hvalue]
  rfl

/-- So is the element of the other actions. -/
theorem resolve_notAdmitted {list : SequenceOf Nat} (hnil : helper.action_not_admitted ≠ [])
    (hlist : list.array.map o.ie_not_admitted_list.items =
      (helper.action_not_admitted.map notAdmittedItem).take SequenceOf.limit) :
    o.resolve { id := .RICactions_NotAdmitted, value := .RICaction_NotAdmitted_List list } =
      notAdmittedIE helper := by
  unfold resolve notAdmittedIE resolveValue
  dsimp only
  rw [if_neg hnil, hlist]

/-- **A response** for which there is room is the abridged message. -/
theorem setFieldsSuccess_of_fits (ho : Kept o) (hfits : Fits o helper true) :
    ∃ o', setFieldsSuccess o helper = some o' ∧ o'.outcome true = abridged helper true ∧
      Kept o' := by
  obtain ⟨items, value, hset, hpointers, hvalue⟩ := setAdmitted_of_fits ho (hfits.1 rfl)
  unfold setFieldsSuccess
  dsimp only
  rw [hset]
  simp only [Option.bind_eq_bind, Option.bind_some]
  -- the three elements that the message has in any case
  set ies := ((o.response.reset.put 0 (requestIEs helper).1).put 1 (requestIEs helper).2).put 2
    { id := .RICactions_Admitted, value }
  have hgrown : ListsGrown ies :=
    ((ho.response.reset.put 0 SequenceOf.grown_empty).put 1 SequenceOf.grown_empty).put 2
      hpointers
  let elements : List (Fin 4 × ElementIEs) :=
    [(0, (requestIEs helper).1), (1, (requestIEs helper).2),
     (2, { id := .RICactions_Admitted, value })]
  have hnodup : (elements.map Prod.fst).Nodup := show ([0, 1, 2] : List (Fin 4)).Nodup by decide
  have hlimit : elements.length ≤ SequenceOf.limit := show 3 ≤ SequenceOf.limit by decide
  obtain ⟨hread, harray, -⟩ : ies.read = elements.map Prod.snd ∧
      ies.list.array = elements.map Prod.fst ∧ ies.list.Grown :=
    Records.foldl_put_reset ho.response.list hnodup hlimit
  have hlast : (3 : Fin 4) ∉ ies.list.array := by
    rw [harray]
    exact show (3 : Fin 4) ∉ [0, 1, 2] by decide
  rw [abridged_success]
  by_cases hnil : helper.action_not_admitted = []
  · rw [if_pos hnil]
    refine ⟨_, rfl, ?_, ⟨hgrown, ho.failure⟩⟩
    rw [outcome_success, hread, if_neg (by simp [hnil])]
    refine congrArg (SubscriptionOutcome.mk true) ?_
    simp only [elements, List.map_cons, List.map_nil]
    rw [resolve_admitted hvalue rfl]
    rfl
  · obtain ⟨notItems, list, hwrite, hlistGrown, hlist⟩ :=
      writeNotAdmitted_of_fits (ho.response.pointers 3) hfits.2
    obtain ⟨hread', hgrown'⟩ := read_last hgrown hlast hread (show 3 ≤ 3 by decide)
      { id := .RICactions_NotAdmitted, value := .RICaction_NotAdmitted_List list } hlistGrown
      (helper.action_not_admitted.all legalCause)
    rw [if_neg hnil, hwrite]
    refine ⟨_, rfl, ?_, ⟨hgrown', ho.failure⟩⟩
    rw [outcome_success]
    refine congrArg (SubscriptionOutcome.mk true) ?_
    dsimp only
    rw [hread']
    simp only [elements, List.map_cons, List.map_nil, List.map_append]
    rw [resolve_admitted hvalue rfl]
    by_cases hall : helper.action_not_admitted.all legalCause = true
    · have hboth : helper.action_not_admitted ≠ [] ∧
          helper.action_not_admitted.all legalCause = true := ⟨hnil, hall⟩
      rw [if_pos hboth]
      simp only [if_pos hall, List.map_singleton]
      rw [resolve_notAdmitted hnil (hlist hall)]
      rfl
    · have hboth : ¬ (helper.action_not_admitted ≠ [] ∧
          helper.action_not_admitted.all legalCause = true) := fun h => hall h.2
      rw [if_neg hboth]
      simp only [if_neg hall]
      rfl

/-- **A failure** for which there is room is the abridged message. -/
theorem setFieldsUnsuccess_of_fits (ho : Kept o) (hfits : Fits o helper false) :
    ∃ o', setFieldsUnsuccess o helper = some o' ∧ o'.outcome false = abridged helper false ∧
      Kept o' := by
  unfold setFieldsUnsuccess
  dsimp only
  set ies := (o.failure.reset.put 0 (requestIEs helper).1).put 1 (requestIEs helper).2
  have hgrown : ListsGrown ies :=
    (ho.failure.reset.put 0 SequenceOf.grown_empty).put 1 SequenceOf.grown_empty
  let elements : List (Fin 3 × ElementIEs) :=
    [(0, (requestIEs helper).1), (1, (requestIEs helper).2)]
  have hnodup : (elements.map Prod.fst).Nodup := show ([0, 1] : List (Fin 3)).Nodup by decide
  have hlimit : elements.length ≤ SequenceOf.limit := show 2 ≤ SequenceOf.limit by decide
  obtain ⟨hread, harray, -⟩ : ies.read = elements.map Prod.snd ∧
      ies.list.array = elements.map Prod.fst ∧ ies.list.Grown :=
    Records.foldl_put_reset ho.failure.list hnodup hlimit
  have hlast : (2 : Fin 3) ∉ ies.list.array := by
    rw [harray]
    exact show (2 : Fin 3) ∉ [0, 1] by decide
  rw [abridged_failure]
  by_cases hnil : helper.action_not_admitted = []
  · obtain ⟨hread', hgrown'⟩ := read_last hgrown hlast hread (show 2 ≤ 3 by decide)
      { id := .RICactions_NotAdmitted } SequenceOf.grown_empty true
    rw [if_pos hnil]
    refine ⟨_, rfl, ?_, ⟨ho.response, hgrown'⟩⟩
    rw [outcome_failure, if_pos (by simp [hnil])]
    refine congrArg (SubscriptionOutcome.mk false) ?_
    have hie : notAdmittedIE helper = { id := .RICactions_NotAdmitted } := by
      unfold notAdmittedIE
      rw [if_pos hnil]
    rw [if_pos rfl] at hread'
    rw [hie]
    exact congrArg _ hread'
  · obtain ⟨notItems, list, hwrite, hlistGrown, hlist⟩ :=
      writeNotAdmitted_of_fits (ho.failure.pointers 2) hfits.2
    obtain ⟨hread', hgrown'⟩ := read_last hgrown hlast hread (show 2 ≤ 3 by decide)
      { id := .RICactions_NotAdmitted, value := .RICaction_NotAdmitted_List list } hlistGrown
      (helper.action_not_admitted.all legalCause)
    rw [if_neg hnil, hwrite]
    refine ⟨_, rfl, ?_, ⟨ho.response, hgrown'⟩⟩
    rw [outcome_failure]
    refine congrArg (SubscriptionOutcome.mk false) ?_
    dsimp only
    rw [hread']
    simp only [elements, List.map_cons, List.map_nil, List.map_append]
    by_cases hall : helper.action_not_admitted.all legalCause = true
    · simp only [if_pos hall, List.map_singleton]
      rw [resolve_notAdmitted hnil (hlist hall)]
      rfl
    · simp only [if_neg hall]
      rfl

/-- Where the arrays have room the object becomes the abridged message, and stays in order. -/
theorem setFields_of_fits (ho : Kept o) {is_success : Bool} (hfits : Fits o helper is_success) :
    ∃ o', setFields o helper is_success = some o' ∧
      o'.outcome is_success = abridged helper is_success ∧ Kept o' := by
  cases is_success with
  | true => exact setFieldsSuccess_of_fits ho hfits
  | false => exact setFieldsUnsuccess_of_fits ho hfits

/-- Without room a loop writes beyond its array. -/
theorem setFields_of_not_fits {is_success : Bool} (hfits : ¬ Fits o helper is_success) :
    setFields o helper is_success = none := by
  have hwrite : ¬ ItemArray.touched legalCause helper.action_not_admitted ≤
      (o.ie_not_admitted_list.newSize helper.action_not_admitted.length).toNat →
      helper.action_not_admitted ≠ [] ∧
        ∀ list, writeNotAdmitted o.ie_not_admitted_list {} list helper.action_not_admitted =
          none := by
    intro h
    refine ⟨fun hnil => ?_, fun list => ItemArray.write_of_not_fits (by omega)⟩
    rw [hnil] at h
    exact h (Nat.zero_le _)
  unfold setFields
  cases is_success with
  | true =>
      rw [if_pos rfl]
      unfold setFieldsSuccess
      dsimp only
      by_cases hadmitted : helper.action_admitted.length ≤
          (o.ie_admitted_list.newSize helper.action_admitted.length).toNat
      · obtain ⟨hnil, hnone⟩ := hwrite fun h => hfits ⟨fun _ => hadmitted, h⟩
        cases setAdmitted o helper with
        | none => rfl
        | some x =>
            simp only [Option.bind_eq_bind, Option.bind_some]
            rw [if_neg hnil, hnone]
            rfl
      · rw [setAdmitted_of_not_fits hadmitted]
        rfl
  | false =>
      obtain ⟨hnil, hnone⟩ := hwrite fun h => hfits ⟨nofun, h⟩
      rw [if_neg (by decide)]
      unfold setFieldsUnsuccess
      dsimp only
      rw [if_neg hnil, hnone]
      rfl

/-- So it is in order after every history. -/
theorem kept_after {history : List (SubscriptionResponseHelper × Bool)}
    (h : after history = some o) : Kept o := by
  suffices ∀ start : SubscriptionResponse, Kept start →
      history.foldlM (fun o x => setFields o x.1 x.2) start = some o → Kept o from
    this new kept_new h
  clear h
  induction history with
  | nil => exact fun start hstart h => Option.some.inj h ▸ hstart
  | cons x history ih =>
      intro start hstart h
      rw [List.foldlM_cons, Option.bind_eq_bind, Option.bind_eq_some_iff] at h
      obtain ⟨o₁, ho₁, h⟩ := h
      by_cases hfits : Fits start x.1 x.2
      · obtain ⟨o₂, hset, -, hkept⟩ := setFields_of_fits hstart hfits
        obtain rfl := Option.some.inj (hset.symm.trans ho₁)
        exact ih _ hkept h
      · rw [setFields_of_not_fits hfits] at ho₁
        exact nomatch ho₁

/-! ### What `get_fields` finds -/

/-- Legal causes are all read back. -/
theorem getNotAdmitted_legal {actions : List ActionResponse}
    (hall : actions.all legalCause = true) (dout : SubscriptionResponseHelper) :
    getNotAdmitted dout (actions.map notAdmittedItem) =
      (true, { dout with action_not_admitted := dout.action_not_admitted ++ actions }) := by
  induction actions generalizing dout with
  | nil => simp [getNotAdmitted]
  | cons action actions ih =>
      obtain ⟨hlegal, hall⟩ : legalCause action = true ∧ actions.all legalCause = true := by
        simpa only [List.all_cons, Bool.and_eq_true] using hall
      have hcause : (notAdmittedItem action).cause.present ∈ causes := of_decide_eq_true hlegal
      rw [List.map_cons, getNotAdmitted, if_pos hcause, ih hall]
      simp [notAdmittedItem]

/-- A round that does not return is followed by the next one. -/
theorem getLoop_cons {round : SubscriptionResponseHelper → MessageIEs →
      Option (Bool × SubscriptionResponseHelper)} {memb : MessageIEs}
    {dout dout' : SubscriptionResponseHelper} (h : round dout memb = some (true, dout'))
    (ies : List MessageIEs) : getLoop round (memb :: ies) dout = getLoop round ies dout' := by
  rw [getLoop, h]

/-- The admitted actions are read back from their element. -/
theorem getFieldSuccess_admittedIE (helper dout : SubscriptionResponseHelper) :
    getFieldSuccess dout (admittedIE helper) = some (true,
      { dout with action_admitted := dout.action_admitted ++
          (helper.action_admitted.take SequenceOf.limit).map fun action =>
            { id := action.id } }) := by
  have hitem : ∀ action : ActionResponse,
      ({ id := (admittedItem action).ricActionID.toInt32 } : ActionResponse) =
        { id := action.id } := by
    intro action
    simp [admittedItem]
  unfold admittedIE
  by_cases hnil : helper.action_admitted = []
  · simp [hnil, getFieldSuccess]
  · rw [if_neg hnil, ← List.map_take]
    simp only [getFieldSuccess, getAdmitted, List.map_map, Function.comp_def, hitem]

/-- So are the others, if their causes are legal. -/
theorem getFieldUnsuccess_notAdmittedIE (hall : helper.action_not_admitted.all legalCause = true)
    (dout : SubscriptionResponseHelper) :
    getFieldUnsuccess dout (notAdmittedIE helper) = some (true,
      { dout with action_not_admitted :=
          dout.action_not_admitted ++ helper.action_not_admitted.take SequenceOf.limit }) := by
  have htake : ((helper.action_not_admitted.take SequenceOf.limit).all legalCause) = true :=
    List.all_eq_true.2 fun a ha => List.all_eq_true.1 hall a (List.mem_of_mem_take ha)
  unfold notAdmittedIE
  by_cases hnil : helper.action_not_admitted = []
  · simp [hnil, getFieldUnsuccess]
  · rw [if_neg hnil, ← List.map_take]
    exact congrArg some (getNotAdmitted_legal htake dout)

/-- What a reader has after a message with the actions of the helper, as far as lists
go. -/
theorem getFields_abridged {is_success : Bool}
    (hall : helper.action_not_admitted.all legalCause = true) (req_id func_id : Int32) :
    getFields (abridged helper is_success) { req_id, func_id } = some
      { req_id
        func_id := helper.func_id
        action_admitted :=
          if is_success then (helper.action_admitted.take SequenceOf.limit).map fun action =>
            { id := action.id }
          else []
        action_not_admitted := helper.action_not_admitted.take SequenceOf.limit } := by
  have hfunc : ∀ dout, getFieldUnsuccess dout (requestIEs helper).2 =
      some (true, { dout with func_id := helper.func_id }) := by
    intro dout
    simp [getFieldUnsuccess, requestIEs]
  have hlast := getFieldUnsuccess_notAdmittedIE hall
  unfold getFields
  cases is_success with
  | false =>
      rw [abridged_failure, if_pos hall]
      change getLoop getFieldUnsuccess [(requestIEs helper).1, (requestIEs helper).2,
        notAdmittedIE helper] _ = _
      rw [getLoop_cons rfl, getLoop_cons (hfunc _), getLoop_cons (hlast _)]
      rfl
  | true =>
      rw [abridged_success]
      have hfunc' : ∀ dout, getFieldSuccess dout (requestIEs helper).2 =
          some (true, { dout with func_id := helper.func_id }) := fun dout => hfunc dout
      change getLoop getFieldSuccess ((requestIEs helper).1 :: (requestIEs helper).2 ::
        admittedIE helper :: ([] ++ _)) _ = _
      rw [getLoop_cons rfl, getLoop_cons (hfunc' _),
        getLoop_cons (getFieldSuccess_admittedIE helper _)]
      by_cases hnil : helper.action_not_admitted = []
      · rw [if_neg (by simp [hnil]), hnil]
        rfl
      · rw [if_pos ⟨hnil, hall⟩, List.nil_append]
        have hlast' : ∀ dout, getFieldSuccess dout (notAdmittedIE helper) = some (true,
            { dout with action_not_admitted :=
                dout.action_not_admitted ++ helper.action_not_admitted.take SequenceOf.limit }) :=
          fun dout => hlast dout
        rw [getLoop_cons (hlast' _)]
        rfl

/-- A reported success means that the actions come back from what was written, and a
cause that cannot be represented is reported as a failure. -/
def Faithful {W : Type} (codec : OutcomeCodec W) (o : SubscriptionResponse)
    (helper : SubscriptionResponseHelper) (is_success : Bool)
    (dout : SubscriptionResponseHelper) : Prop :=
  ∃ report o', encode codec o helper is_success = some (report, o') ∧
    (∀ w, report = some w → ∃ m out, codec.decode w = some m ∧ getFields m dout = some out ∧
      (is_success = true →
        out.action_admitted.map (·.id) = helper.action_admitted.map (·.id)) ∧
      out.action_not_admitted = helper.action_not_admitted) ∧
    (helper.action_not_admitted.all legalCause = false → report = none)

/-- The helper's causes can all be represented, and no list is longer than lists can be. -/
def Complete (helper : SubscriptionResponseHelper) (is_success : Bool) : Prop :=
  helper.action_not_admitted.all legalCause = true ∧
    (is_success = true → helper.action_admitted.length ≤ SequenceOf.limit) ∧
    helper.action_not_admitted.length ≤ SequenceOf.limit

/-- There is room for lists of that length. -/
theorem Complete.fits {is_success : Bool} (h : Complete helper is_success) :
    Fits o helper is_success := by
  obtain ⟨hall, hadmitted, hlen⟩ := h
  refine ⟨fun hs => ItemArray.length_le_newSize _ (hadmitted hs), ?_⟩
  rw [ItemArray.touched_eq_length _ hall]
  exact ItemArray.length_le_newSize _ hlen

/-- **A subscription response is faithful or reported** exactly where its causes can be
represented and its lists are not too long, or where the codec refuses the abridged
message. -/
theorem faithful_iff {W : Type} (codec : OutcomeCodec W)
    (history : List (SubscriptionResponseHelper × Bool)) (helper : SubscriptionResponseHelper)
    (is_success : Bool) (req_id func_id : Int32) (ho : after history = some o) :
    Faithful codec o helper is_success { req_id, func_id } ↔
      Complete helper is_success ∨
        Fits o helper is_success ∧ codec.encode (abridged helper is_success) = none := by
  have hkept := kept_after ho
  have hencode : Fits o helper is_success → ∃ o', encode codec o helper is_success =
      some (codec.encode (abridged helper is_success), o') := by
    intro hfits
    obtain ⟨o', hset, hout, -⟩ := setFields_of_fits hkept hfits
    refine ⟨o', ?_⟩
    unfold encode
    rw [hset, Option.map_some, hout]
  constructor
  · rintro ⟨report, o', henc, hback, hreport⟩
    by_cases hfits : Fits o helper is_success
    · obtain ⟨o'', henc'⟩ := hencode hfits
      obtain ⟨rfl, -⟩ := Prod.mk.inj (Option.some.inj (henc.symm.trans henc'))
      rcases hw : codec.encode (abridged helper is_success) with - | w
      · exact .inr ⟨hfits, rfl⟩
      · left
        rw [hw] at hreport hback
        have hall : helper.action_not_admitted.all legalCause = true :=
          Bool.not_eq_false _ ▸ fun h => nomatch hreport h
        obtain ⟨m, out, hm, hout, hadmitted, hnot⟩ := hback w rfl
        obtain rfl := Option.some.inj ((codec.decode_encode _ _ hw).symm.trans hm)
        obtain rfl := Option.some.inj ((getFields_abridged hall req_id func_id).symm.trans hout)
        have hlen := congrArg List.length hnot
        rw [List.length_take] at hlen
        refine ⟨hall, fun hs => ?_, by omega⟩
        have hlen' := congrArg List.length (hadmitted hs)
        rw [if_pos hs, List.length_map, List.length_map, List.length_map,
          List.length_take] at hlen'
        omega
    · unfold encode at henc
      rw [setFields_of_not_fits hfits] at henc
      exact nomatch henc
  · rintro (hcomplete | ⟨hfits, hnone⟩)
    · obtain ⟨o', henc⟩ := hencode hcomplete.fits
      obtain ⟨hall, hadmitted, hlen⟩ := hcomplete
      refine ⟨_, o', henc, fun w hw => ?_, fun h => ?_⟩
      · refine ⟨_, _, codec.decode_encode _ _ hw, getFields_abridged hall req_id func_id,
          fun hs => ?_, List.take_of_length_le hlen⟩
        dsimp only
        rw [if_pos hs, List.take_of_length_le (hadmitted hs), List.map_map]
        rfl
      · rw [hall] at h
        exact nomatch h
    · obtain ⟨o', henc⟩ := hencode hfits
      refine ⟨_, o', henc, fun w hw => ?_, fun _ => hnone⟩
      rw [hnone] at hw
      exact nomatch hw

/-- A codec that refuses nothing. -/
def plainCodec : OutcomeCodec SubscriptionOutcome where
  encode := some
  decode := some
  decode_encode _ _ := Eq.symm

/-- A response with one action of either kind is faithful under any codec. -/
theorem faithful_iff_new :
    after [] = some new ∧
      Faithful plainCodec new
        { req_id := 1, func_id := 2, action_admitted := [{ id := 1 }]
          action_not_admitted := [{ id := 2, cause := 1, sub_cause := 0 }] } true
        { req_id := 0, func_id := 0 } :=
  ⟨rfl, (faithful_iff plainCodec [] _ true 0 0 rfl).2 (.inl ⟨by decide, by decide, by decide⟩)⟩

/-- **A cause of no kind**: the list with the action is left out, and the codec gets the
rest. -/
theorem not_faithful_illegalCause :
    ¬ Faithful plainCodec new
      { req_id := 1, func_id := 2, action_admitted := [{ id := 1 }]
        action_not_admitted := [{ id := 2, cause := 9, sub_cause := 0 }] } true
      { req_id := 0, func_id := 0 } := by
  rintro ⟨report, o', henc, -, hreport⟩
  rw [hreport (by decide)] at henc
  have hnone : (encode _ _ _ _).map Prod.fst = some none := congrArg (Option.map Prod.fst) henc
  exact absurd hnone (by decide)

end SubscriptionResponse

end NearRtRic.E2ap
