/-
# The subscription request

`subscription_request` of `subscription_request.cc` writes a helper into three elements,
the last of which points to one item for each action.  The items are an array of their
own that is allocated anew when there are more actions than it has places, and each of
them owns a record for the subsequent action.

The reader takes over an item only where it has no such record, and the writer gives one
to every item; the request id is not read at all.  So what comes back is a request
without actions, under the id that the reader had before
(`roundTrips_iff_noActions`).
-/

import NearRtRic.E2ap.Elements

namespace NearRtRic.E2ap

open Asn CString

/-- `octet_helper`: the bytes behind the reference, and the size that was set. -/
structure OctetHelper where
  ref : Bytes := []
  size : UInt64 := 0
  deriving DecidableEq, Repr

/-- `Action`; `type` and `next_action` are absent from most requests. -/
structure Action where
  id : Int32
  type : Int32
  is_def : Bool := false
  action_definition : OctetHelper := {}
  is_subs_act : Bool := false
  next_action : Int32 := 0
  deriving DecidableEq, Repr

/-- `subscription_helper`.  Its constructor leaves the two ids as they happen to be. -/
structure SubscriptionHelper where
  req_id : Int32
  func_id : Int32
  event_def : OctetHelper := {}
  action_ref : List Action := []
  deriving DecidableEq, Repr

namespace SubscriptionHelper

/-- `get_event_def_size`, whose type is `int`. -/
def getEventDefSize (helper : SubscriptionHelper) : Int32 :=
  helper.event_def.size.toUInt32.toInt32

/-- `add_action` without a definition. -/
def addAction (helper : SubscriptionHelper) (id type : Int32) : SubscriptionHelper :=
  { helper with action_ref := helper.action_ref ++ [{ id, type }] }

end SubscriptionHelper

/-- `OCTET_STRING_t`. -/
structure OCTET_STRING where
  buf : Bytes
  size : UInt64
  deriving DecidableEq, Repr

/-- `RICaction_ToBeSetup_ItemIEs_t`, with the record of the subsequent action that it points
to. -/
structure RICaction_ToBeSetup_ItemIEs where
  id : ProtocolIE_ID := .unset
  criticality : Criticality := .reject
  ricActionID : Int64 := 0
  ricActionType : Int64 := 0
  ricSubsequentAction : Option Int64
  deriving DecidableEq, Repr

/-- `RICsubscriptionRequest_IEs__value`; the list of the details points into the array of
items. -/
inductive RICsubscriptionRequestValue
  | NOTHING
  | RICrequestID (ricRequestorID : Int64)
  | RANfunctionID (id : Int64)
  | RICsubscriptionDetails (ricEventTriggerDefinition : OCTET_STRING)
      (ricAction_ToBeSetup_List : SequenceOf Nat)
  deriving DecidableEq, Repr

/-- `RICsubscriptionRequest_IEs_t`. -/
structure RICsubscriptionRequest_IEs where
  id : ProtocolIE_ID := .unset
  criticality : Criticality := .reject
  value : RICsubscriptionRequestValue := .NOTHING
  deriving DecidableEq, Repr

/-- `IE_array` with the `protocolIEs` of the message, `action_array` and its size. -/
structure SubscriptionRequest where
  protocolIEs : Records (Fin 3) RICsubscriptionRequest_IEs
  action_array : Nat → RICaction_ToBeSetup_ItemIEs
  action_array_size : UInt32

namespace SubscriptionRequest

/-- The items after an allocation: each has a record for its subsequent action. -/
def freshItems : Nat → RICaction_ToBeSetup_ItemIEs := fun _ => { ricSubsequentAction := some 0 }

/-- `INITIAL_REQUEST_LIST_SIZE`. -/
def initialRequestListSize : UInt32 := 4

/-- `subscription_request::subscription_request`. -/
def new : SubscriptionRequest where
  protocolIEs := { slot _ := {} }
  action_array := freshItems
  action_array_size := initialRequestListSize

/-- The list in the element of the details, empty where the element was never written. -/
def detailsList (ie : RICsubscriptionRequest_IEs) : SequenceOf Nat :=
  match ie.value with
  | .RICsubscriptionDetails _ list => list
  | _ => {}

/-- The resize of `set_fields`: the size is an `unsigned int`. -/
def resize (o : SubscriptionRequest) (n : Nat) : SubscriptionRequest :=
  if o.action_array_size.toNat < n then
    { o with action_array := freshItems, action_array_size := UInt32.ofNat (2 * n) }
  else o

/-- An action is written to an item; `none` where the item has no record for the
subsequent action. -/
def setItem (item : RICaction_ToBeSetup_ItemIEs) (action : Action) :
    Option RICaction_ToBeSetup_ItemIEs :=
  item.ricSubsequentAction.map fun _ =>
    { id := .RICaction_ToBeSetup_Item
      criticality := .ignore
      ricActionID := action.id.toInt64
      ricActionType := action.type.toInt64
      ricSubsequentAction := some action.next_action.toInt64 }

/-- The loop of `set_fields` from the index `i` on: `false` where the list takes no more,
`none` where an item is beyond the array. -/
def addActions (size i : Nat) :
    List Action → (Nat → RICaction_ToBeSetup_ItemIEs) → SequenceOf Nat →
      Option (Bool × (Nat → RICaction_ToBeSetup_ItemIEs) × SequenceOf Nat)
  | [], items, list => some (true, items, list)
  | action :: actions, items, list =>
      if i < size then do
        let item ← setItem (items i) action
        let items := Function.update items i item
        match list.add i with
        | none => some (false, items, list)
        | some list => addActions size (i + 1) actions items list
      else none

local instance neZeroRequestIEs : NeZero 3 := ⟨by decide⟩

/-- `set_fields`; `none` for a failing assertion and for a write beyond the array. -/
def setFields (o : SubscriptionRequest) (helper : SubscriptionHelper) :
    Option (Bool × SubscriptionRequest) := do
  let ies := o.protocolIEs.reset
  let ies ← ies.putChecked 0
    { id := .RICrequestID, value := .RICrequestID helper.req_id.toInt64 }
  let ies ← ies.putChecked 1
    { id := .RANfunctionID, value := .RANfunctionID helper.func_id.toInt64 }
  let ricEventTriggerDefinition : OCTET_STRING :=
    { buf := helper.event_def.ref, size := helper.getEventDefSize.toInt64.toUInt64 }
  let o := o.resize helper.action_ref.length
  let list := (detailsList (ies.slot 2)).reset
  let (res, items, list) ←
    addActions o.action_array_size.toNat 0 helper.action_ref o.action_array list
  let ie : RICsubscriptionRequest_IEs :=
    { id := .RICsubscriptionDetails
      value := .RICsubscriptionDetails ricEventTriggerDefinition list }
  if res then
    let ies ← ies.putChecked 2 ie
    some (true, { o with protocolIEs := ies, action_array := items })
  else some (false, { o with protocolIEs := ies.fill 2 ie, action_array := items })

/-- One round of the inner loop of `get_fields`: an item with a subsequent action is
passed over. -/
def getAction (items : Nat → RICaction_ToBeSetup_ItemIEs) (dout : SubscriptionHelper)
    (index : Nat) : SubscriptionHelper :=
  match (items index).ricSubsequentAction with
  | none => dout.addAction (items index).ricActionID.toInt32 (items index).ricActionType.toInt32
  | some _ => dout

/-- One round of the loop of `get_fields`; `none` where the union has another member than
the id stands for. -/
def getField (items : Nat → RICaction_ToBeSetup_ItemIEs) (dout : SubscriptionHelper)
    (memb : RICsubscriptionRequest_IEs) : Option SubscriptionHelper :=
  match memb.id, memb.value with
  -- the call of `set_request` is commented out
  | .RICrequestID, .RICrequestID _ => some dout
  | .RANfunctionID, .RANfunctionID id => some { dout with func_id := id.toInt32 }
  | .RICsubscriptionDetails, .RICsubscriptionDetails eventDef list =>
      some (list.array.foldl (getAction items)
        { dout with event_def := { ref := eventDef.buf, size := eventDef.size } })
  | id, _ =>
      if id ∈ [.RICrequestID, .RANfunctionID, .RICsubscriptionDetails] then none else some dout

/-- `get_fields`. -/
def getFields (o : SubscriptionRequest) (dout : SubscriptionHelper) : Option SubscriptionHelper :=
  o.protocolIEs.read.foldlM (getField o.action_array) dout

/-- The object after some requests; `none` where one of them came to no end. -/
def after (history : List SubscriptionHelper) : Option SubscriptionRequest :=
  history.foldlM (fun o helper => (setFields o helper).map Prod.snd) new

/-! ### What `set_fields` leaves behind -/

/-- The first two elements of the message, written after the list of the message was
emptied. -/
def ids (o : SubscriptionRequest) (helper : SubscriptionHelper) :
    Records (Fin 3) RICsubscriptionRequest_IEs :=
  (o.protocolIEs.reset.put 0
    { id := .RICrequestID, value := .RICrequestID helper.req_id.toInt64 }).put 1
    { id := .RANfunctionID, value := .RANfunctionID helper.func_id.toInt64 }

/-- The third element. -/
def details (helper : SubscriptionHelper) (list : SequenceOf Nat) : RICsubscriptionRequest_IEs where
  id := .RICsubscriptionDetails
  value := .RICsubscriptionDetails
    { buf := helper.event_def.ref, size := helper.getEventDefSize.toInt64.toUInt64 } list

/-- What holds of the object between two requests: the list of the message has one of the
sizes that it grows to, and each item has a record for its subsequent action. -/
structure Kept (o : SubscriptionRequest) : Prop where
  grown : o.protocolIEs.list.Grown
  allocated : ∀ i, (o.action_array i).ricSubsequentAction ≠ none

variable {o : SubscriptionRequest}

/-- The constructor leaves an empty list. -/
theorem kept_new : new.Kept := ⟨SequenceOf.grown_empty, nofun⟩

/-- To resize the array of the actions keeps what holds between two encodings. -/
theorem Kept.resize (ho : o.Kept) (n : Nat) : (o.resize n).Kept := by
  unfold SubscriptionRequest.resize
  split
  · exact ⟨ho.grown, nofun⟩
  · exact ho

/-- The message has two elements after the first two writes. -/
theorem Kept.ids (ho : o.Kept) (helper : SubscriptionHelper) :
    (ids o helper).list.Grown ∧ (ids o helper).list.array.length ≤ 2 := by
  have hfirst := ho.grown.reset.push (0 : Fin 3)
  have hlen := ho.grown.reset.length_push_le (0 : Fin 3)
  have hlen' := hfirst.2.length_push_le (1 : Fin 3)
  have hnil : o.protocolIEs.list.reset.array.length = 0 := rfl
  refine ⟨(hfirst.2.push (1 : Fin 3)).2, ?_⟩
  change ((o.protocolIEs.list.reset.push 0).push 1).array.length ≤ 2
  omega

/-- No assertion of `set_fields` fails: what it does is what its loop does. -/
theorem setFields_eq (ho : o.Kept) (helper : SubscriptionHelper) :
    setFields o helper =
      (addActions (o.resize helper.action_ref.length).action_array_size.toNat 0
        helper.action_ref (o.resize helper.action_ref.length).action_array
        (detailsList (o.protocolIEs.slot 2)).reset).map fun x =>
          (x.1, { o.resize helper.action_ref.length with
            protocolIEs :=
              if x.1 then (ids o helper).put 2 (details helper x.2.2)
              else (ids o helper).fill 2 (details helper x.2.2)
            action_array := x.2.1 }) := by
  have hlimit : 2 < SequenceOf.limit := by decide
  have hids := ho.ids helper
  have hfirst := ho.grown.reset.push (0 : Fin 3)
  have hlen := ho.grown.reset.length_push_le (0 : Fin 3)
  have hnil : o.protocolIEs.list.reset.array.length = 0 := rfl
  have hslot : (ids o helper).slot 2 = o.protocolIEs.slot 2 := rfl
  unfold setFields
  dsimp only
  rw [Records.putChecked_of_lt (r := o.protocolIEs.reset) ho.grown.reset (by
    change o.protocolIEs.list.reset.array.length < _
    omega)]
  simp only [Option.bind_eq_bind, Option.bind_some]
  rw [Records.putChecked_of_lt hfirst.2 (by
    change (o.protocolIEs.list.reset.push 0).array.length < _
    omega)]
  simp only [Option.bind_some]
  change (addActions _ 0 _ _ (detailsList ((ids o helper).slot 2)).reset).bind _ = _
  rw [hslot]
  generalize addActions (o.resize helper.action_ref.length).action_array_size.toNat 0 _ _ _ = r
  rcases r with - | ⟨res, items, list⟩
  · rfl
  · cases res with
    | false => rfl
    | true =>
        change ((ids o helper).putChecked 2 (details helper list)).bind _ = _
        rw [Records.putChecked_of_lt hids.1 (by omega)]
        rfl

/-- The loop leaves each item with its record. -/
theorem allocated_addActions {size i : Nat} {actions : List Action}
    {items items' : Nat → RICaction_ToBeSetup_ItemIEs} {list list' : SequenceOf Nat} {res : Bool}
    (hitems : ∀ i, (items i).ricSubsequentAction ≠ none)
    (h : addActions size i actions items list = some (res, items', list')) :
    ∀ i, (items' i).ricSubsequentAction ≠ none := by
  induction actions generalizing i items list with
  | nil =>
      obtain ⟨-, rfl, -⟩ : res = true ∧ items = items' ∧ list = list' := by
        simpa [addActions, eq_comm] using h
      exact hitems
  | cons action actions ih =>
      unfold addActions at h
      split at h
      · rw [Option.bind_eq_bind, Option.bind_eq_some_iff] at h
        obtain ⟨item, hitem, h⟩ := h
        have hupdate : ∀ j, (Function.update items i item j).ricSubsequentAction ≠ none := by
          intro j
          by_cases hj : j = i
          · subst hj
            rw [Function.update_self]
            obtain ⟨_, -, rfl⟩ := Option.map_eq_some_iff.1 hitem
            exact nofun
          · rw [Function.update_of_ne hj]
            exact hitems j
        dsimp only at h
        split at h
        · simp only [Option.some.injEq, Prod.mk.injEq] at h
          obtain ⟨-, rfl, -⟩ := h
          exact hupdate
        · exact ih hupdate h
      · exact nomatch h

/-- So does an encoding. -/
theorem Kept.setFields (ho : o.Kept) {helper : SubscriptionHelper} {res : Bool}
    {o' : SubscriptionRequest} (h : setFields o helper = some (res, o')) : o'.Kept := by
  rw [setFields_eq ho, Option.map_eq_some_iff] at h
  obtain ⟨⟨res', items, list⟩, hadd, hpair⟩ := h
  obtain ⟨-, rfl⟩ := Prod.mk.inj hpair
  refine ⟨?_, allocated_addActions (ho.resize _).allocated hadd⟩
  dsimp only
  split
  · exact ((ho.ids helper).1.push 2).2
  · exact (ho.ids helper).1

/-- So it holds after every history. -/
theorem kept_after {history : List SubscriptionHelper} (h : after history = some o) : o.Kept := by
  suffices ∀ start : SubscriptionRequest, start.Kept →
      history.foldlM (fun o helper => (setFields o helper).map Prod.snd) start = some o →
      o.Kept from this new kept_new h
  clear h
  induction history with
  | nil => exact fun start hstart h => Option.some.inj h ▸ hstart
  | cons helper history ih =>
      intro start hstart h
      rw [List.foldlM_cons, Option.bind_eq_bind, Option.bind_eq_some_iff] at h
      obtain ⟨o', ho', h⟩ := h
      obtain ⟨⟨res, _⟩, hset, rfl⟩ := Option.map_eq_some_iff.1 ho'
      exact ih _ (hstart.setFields hset) h

/-! ### What `get_fields` finds -/

/-- No item is taken over. -/
theorem foldl_getAction (ho : o.Kept) (indices : List Nat) (dout : SubscriptionHelper) :
    indices.foldl (getAction o.action_array) dout = dout := by
  induction indices with
  | nil => rfl
  | cons i indices ih =>
      have hskip : getAction o.action_array dout i = dout := by
        unfold getAction
        split
        · rename_i hnone
          exact absurd hnone (ho.allocated i)
        · rfl
      rw [List.foldl_cons, hskip, ih]

/-- What is read back refers to no action. -/
theorem action_ref_getField (ho : o.Kept) {dout out : SubscriptionHelper}
    {memb : RICsubscriptionRequest_IEs} (h : getField o.action_array dout memb = some out) :
    out.action_ref = dout.action_ref := by
  unfold getField at h
  split at h
  · obtain rfl := Option.some.inj h
    rfl
  · obtain rfl := Option.some.inj h
    rfl
  · rw [foldl_getAction ho] at h
    obtain rfl := Option.some.inj h
    rfl
  · split at h
    · exact nomatch h
    · obtain rfl := Option.some.inj h
      rfl

/-- The actions of the reader stay as they are, whatever the message holds. -/
theorem action_ref_getFields (ho : o.Kept) {dout out : SubscriptionHelper}
    (h : getFields o dout = some out) : out.action_ref = dout.action_ref := by
  unfold getFields at h
  generalize o.protocolIEs.read = ies at h
  induction ies generalizing dout with
  | nil =>
      obtain rfl := Option.some.inj h
      rfl
  | cons memb ies ih =>
      rw [List.foldlM_cons, Option.bind_eq_bind, Option.bind_eq_some_iff] at h
      obtain ⟨mid, hmid, h⟩ := h
      exact (ih h).trans (action_ref_getField ho hmid)

/-- The three elements of a message that was built are read in their order. -/
theorem read_put_details (ho : o.Kept) (helper : SubscriptionHelper) (list : SequenceOf Nat) :
    ((ids o helper).put 2 (details helper list)).read =
      [{ id := .RICrequestID, value := .RICrequestID helper.req_id.toInt64 },
       { id := .RANfunctionID, value := .RANfunctionID helper.func_id.toInt64 },
       details helper list] := by
  let items : List (Fin 3 × RICsubscriptionRequest_IEs) :=
    [(0, { id := .RICrequestID, value := .RICrequestID helper.req_id.toInt64 }),
     (1, { id := .RANfunctionID, value := .RANfunctionID helper.func_id.toInt64 }),
     (2, details helper list)]
  have hnodup : (items.map Prod.fst).Nodup := show ([0, 1, 2] : List (Fin 3)).Nodup by decide
  exact (Records.foldl_put_reset ho.grown hnodup (show 3 ≤ SequenceOf.limit by decide)).1

/-- What is read of a message without an illegal item: the function and the event. -/
theorem getFields_of_setFields (ho : o.Kept) {helper : SubscriptionHelper}
    {o' : SubscriptionRequest} (h : setFields o helper = some (true, o'))
    (dout : SubscriptionHelper) :
    getFields o' dout = some { dout with
      func_id := helper.func_id
      event_def := { ref := helper.event_def.ref
                     size := helper.getEventDefSize.toInt64.toUInt64 } } := by
  have ho' := ho.setFields h
  rw [setFields_eq ho, Option.map_eq_some_iff] at h
  obtain ⟨⟨res, items, list⟩, -, hpair⟩ := h
  obtain ⟨rfl, rfl⟩ := Prod.mk.inj hpair
  unfold getFields
  dsimp only
  rw [if_pos rfl, read_put_details ho]
  have hfold := fun dout => foldl_getAction ho' list.array dout
  dsimp only at hfold
  simp only [List.foldlM_cons, List.foldlM_nil, getField, details, hfold, Int32.toInt32_toInt64,
    Option.bind_eq_bind, Option.bind_some, Option.pure_def]

/-- A request without actions is always built. -/
theorem setFields_nil (ho : o.Kept) {helper : SubscriptionHelper} (h : helper.action_ref = []) :
    ∃ o', setFields o helper = some (true, o') := by
  rw [setFields_eq ho, h]
  exact ⟨_, rfl⟩

/-- The size of the event definition survives the detour through `int` at both ends of
its range. -/
theorem toUInt64_getEventDefSize (helper : SubscriptionHelper) :
    helper.getEventDefSize.toInt64.toUInt64 = helper.event_def.size ↔
      helper.event_def.size.toNat < 2 ^ 31 ∨ 2 ^ 64 - 2 ^ 31 ≤ helper.event_def.size.toNat := by
  have hextend : helper.getEventDefSize.toInt64.toUInt64.toNat =
      (BitVec.signExtend 64 (BitVec.setWidth 32 helper.event_def.size.toBitVec)).toNat := rfl
  have hlt := helper.event_def.size.toNat_lt
  rw [← UInt64.toNat_inj, hextend, BitVec.toNat_signExtend, BitVec.msb_eq_decide]
  simp only [BitVec.toNat_setWidth, UInt64.toNat_toBitVec, decide_eq_true_eq]
  split <;> omega

/-- The request is built and reads back, into `dout`, as it was given. -/
def RoundTrips (o : SubscriptionRequest) (helper dout : SubscriptionHelper) : Prop :=
  ∃ o', setFields o helper = some (true, o') ∧ getFields o' dout = some helper

/-- **A request comes back** exactly where it has no actions, an event definition whose
size is an `int`, and the request id that the fresh helper happens to have. -/
theorem roundTrips_iff_noActions (history : List SubscriptionHelper)
    (helper : SubscriptionHelper) (req_id func_id : Int32) (ho : after history = some o) :
    RoundTrips o helper { req_id, func_id } ↔
      helper.action_ref = [] ∧ req_id = helper.req_id ∧
        (helper.event_def.size.toNat < 2 ^ 31 ∨
          2 ^ 64 - 2 ^ 31 ≤ helper.event_def.size.toNat) := by
  have hkept := kept_after ho
  rw [← toUInt64_getEventDefSize]
  constructor
  · rintro ⟨o', hset, hget⟩
    have hout := hget.symm.trans (getFields_of_setFields hkept hset _)
    obtain hout := Option.some.inj hout
    exact ⟨congrArg SubscriptionHelper.action_ref hout,
      (congrArg SubscriptionHelper.req_id hout).symm,
      (congrArg (fun h => h.event_def.size) hout).symm⟩
  · rintro ⟨hactions, hid, hsize⟩
    obtain ⟨o', hset⟩ := setFields_nil hkept hactions
    refine ⟨o', hset, ?_⟩
    rw [getFields_of_setFields hkept hset, hid, hsize, ← hactions]

/-- A request without actions, read into a helper with its id. -/
theorem roundTrips_iff_noActions_new :
    after [] = some new ∧
      RoundTrips new { req_id := 1, func_id := 2 } { req_id := 1, func_id := 0 } :=
  ⟨rfl, (roundTrips_iff_noActions [] _ 1 0 rfl).2 ⟨rfl, rfl, .inl (by decide)⟩⟩

/-- **One action** is lost, even where the request id happens to agree. -/
theorem not_roundTrips_oneAction :
    ¬ RoundTrips new { req_id := 1, func_id := 2, action_ref := [{ id := 0, type := 1 }] }
      { req_id := 1, func_id := 0 } := by
  rintro ⟨o', hset, hget⟩
  have hactions := action_ref_getFields (kept_new.setFields hset) hget
  exact absurd hactions (by decide)

end SubscriptionRequest

end NearRtRic.E2ap
