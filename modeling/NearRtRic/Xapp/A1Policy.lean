/-
# A1 policy requests

`a1_policy_handler` in `msgs_proc.cc` parses the payload of an `A1_POLICY_REQ`, reads three
members of it, and answers a request to create a policy of type 1: the request without its
`operation`, with `handler_id` and `status` added, is printed over the payload.

The members are read with getters for a type that nobody has checked, and the answer is
copied without a look at the size of the buffer (`answersOrLeavesAlone_iff`).
`rapidjson` is a parameter; a payload need not end in a NUL, so there are bytes behind it.
-/

import NearRtRic.CString.Basic
import NearRtRic.Index.Members

namespace NearRtRic.Xapp

open CString Index

/-- `rapidjson::Value`, where an object keeps its members in order and may have two of one
name.  A number that is no `int` is its text. -/
inductive Json
  | null
  | bool (b : Bool)
  | int (n : Int32)
  | number (text : Bytes)
  | string (s : Bytes)
  | array (elements : List Json)
  | object (members : List (Bytes × Json))

namespace Json

/-- `Pointer::Get` for a path of one name. -/
def get (name : Bytes) : Json → Option Json
  | .object members => findMember name members
  | _ => none

/-- `GetString` as it is put in a `std::string`; `none` where it asserts. -/
def getString : Json → Option Bytes
  | .string s => some (visible s)
  | _ => none

/-- `GetInt`; `none` where it asserts. -/
def getInt : Json → Option Int32
  | .int n => some n
  | _ => none

/-- `AddMember` of a string. -/
def addMember (name s : Bytes) : Json → Json
  | .object members => .object (members ++ [(name, .string s)])
  | json => json

/-- `RemoveMember`. -/
def removeMember (name : Bytes) : Json → Json
  | .object members => .object (Index.removeMember name members)
  | json => json

end Json

/-- The parser and the compact `Writer`, which escapes NULs. -/
structure Rapidjson where
  Parse : Bytes → Option Json
  print : Json → {text : Bytes // 0 ∉ text}

/-- `a1_policy_helper`. -/
structure A1PolicyHelper where
  operation : Bytes := []
  policy_type_id : Bytes := []
  policy_instance_id : Bytes := []
  handler_id : Bytes := []
  status : Bytes := []
  deriving DecidableEq, Repr

/-- `"/operation"`. -/
def OPERATION : Bytes := ascii "operation"

/-- `"/policy_type_id"`. -/
def POLICY_TYPE_ID : Bytes := ascii "policy_type_id"

/-- `"/policy_instance_id"`. -/
def POLICY_INSTANCE_ID : Bytes := ascii "policy_instance_id"

/-- `"handler_id"`. -/
def HANDLER_ID : Bytes := ascii "handler_id"

/-- `"status"`. -/
def STATUS : Bytes := ascii "status"

/-- What a call leaves: its result, the document it printed, the memory from `message` on, the
length of the message, and the helper. -/
structure A1Outcome where
  res : Bool
  printed : Option Json
  memory : Bytes
  message_len : Int
  helper : A1PolicyHelper

/-- The document that is printed for a request. -/
def answerTo (handler_id status : Bytes) (doc : Json) : Json :=
  ((doc.addMember HANDLER_ID handler_id).addMember STATUS status).removeMember OPERATION

/-- `a1_policy_handler`; `none` where an assertion fails. -/
def a1PolicyHandler (rapidjson : Rapidjson) (memory : Bytes) (message_len : Int)
    (helper : A1PolicyHelper) : Option A1Outcome :=
  let refused (helper : A1PolicyHelper) : A1Outcome :=
    { res := false, printed := none, memory, message_len, helper }
  match rapidjson.Parse (visible memory) with
  | none => some (refused helper)
  | some doc =>
      match doc.get OPERATION with
      | none => some (refused helper)
      | some ref1 => ref1.getString.bind fun operation =>
          let helper := { helper with operation }
          match doc.get POLICY_TYPE_ID with
          | none => some (refused helper)
          | some ref2 => ref2.getInt.bind fun n =>
              let helper := { helper with policy_type_id := ascii (toString n.toInt) }
              match doc.get POLICY_INSTANCE_ID with
              | none => some (refused helper)
              | some ref => ref.getString.map fun policy_instance_id =>
                  let helper := { helper with policy_instance_id }
                  if helper.policy_type_id = ascii "1" ∧ helper.operation = ascii "CREATE" then
                    let helper := { helper with status := ascii "OK" }
                    let doc := answerTo helper.handler_id helper.status doc
                    let text := (rapidjson.print doc).val
                    { res := true, printed := some doc, memory := strncpy text memory,
                      message_len := text.length, helper }
                  else refused helper

/-- The members of an answer, in any order. -/
def IsAnswer (handler_id : Bytes) (request answer : List (Bytes × Json)) : Prop :=
  answer.Perm (request.filter (·.1 ≠ OPERATION) ++
    [(HANDLER_ID, .string handler_id), (STATUS, .string (ascii "OK"))])

/-- A request is answered or left alone: no assertion fails; a call that returns false leaves
the payload and its length, and one that returns true leaves at the start of the payload the
text of the answer to the request. -/
def AnswersOrLeavesAlone (rapidjson : Rapidjson) (payload behind : Bytes) (message_len : Int)
    (helper : A1PolicyHelper) : Prop :=
  ∃ o, a1PolicyHandler rapidjson (payload ++ behind) message_len helper = some o ∧
    (o.res = false → o.memory.take payload.length = payload ∧ o.message_len = message_len) ∧
    (o.res = true → o.message_len ≤ payload.length ∧
      ∃ request answer, rapidjson.Parse (visible (payload ++ behind)) = some (.object request) ∧
        IsAnswer helper.handler_id request answer ∧ o.printed = some (.object answer) ∧
        o.memory.take o.message_len.toNat = (rapidjson.print (.object answer)).val)

/-- The members that are read have the types they are read with. -/
def WellTyped (doc : Json) : Prop :=
  ∀ operation, doc.get OPERATION = some operation → operation.getString.isSome ∧
    ∀ typeId, doc.get POLICY_TYPE_ID = some typeId → typeId.getInt.isSome ∧
      ∀ instanceId, doc.get POLICY_INSTANCE_ID = some instanceId → instanceId.getString.isSome

/-- A request to create an instance of policy type 1. -/
def Creates (doc : Json) : Prop :=
  (doc.get OPERATION).bind Json.getString = some (ascii "CREATE") ∧
    ((doc.get POLICY_TYPE_ID).bind Json.getInt).map (fun n => ascii (toString n.toInt)) =
      some (ascii "1") ∧
    (doc.get POLICY_INSTANCE_ID).isSome

/-- The request has one `operation`, and its answer is not longer than `capacity`. -/
def AnswerFits (rapidjson : Rapidjson) (handler_id : Bytes) (capacity : Nat) (doc : Json) : Prop :=
  ∃ request, doc = .object request ∧ (named OPERATION request).length = 1 ∧
    (rapidjson.print (answerTo handler_id (ascii "OK") doc)).val.length ≤ capacity

variable {rapidjson : Rapidjson} {payload behind handler_id : Bytes} {message_len : Int}
  {helper : A1PolicyHelper} {doc : Json} {request : List (Bytes × Json)}

/-- Without a document, nothing is done. -/
theorem a1PolicyHandler_of_parse_none {memory : Bytes}
    (h : rapidjson.Parse (visible memory) = none) :
    a1PolicyHandler rapidjson memory message_len helper =
      some { res := false, printed := none, memory, message_len, helper } := by
  unfold a1PolicyHandler
  rw [h]

/-- What is done with a document: an assertion fails, it is answered, or it is left alone. -/
theorem a1PolicyHandler_of_parse {memory : Bytes}
    (h : rapidjson.Parse (visible memory) = some doc) :
    (¬ WellTyped doc ∧ a1PolicyHandler rapidjson memory message_len helper = none) ∨
    (WellTyped doc ∧ Creates doc ∧ ∃ helper',
      a1PolicyHandler rapidjson memory message_len helper = some {
        res := true
        printed := some (answerTo helper.handler_id (ascii "OK") doc)
        memory := strncpy (rapidjson.print (answerTo helper.handler_id (ascii "OK") doc)).val memory
        message_len := (rapidjson.print (answerTo helper.handler_id (ascii "OK") doc)).val.length
        helper := helper' }) ∨
    (WellTyped doc ∧ ¬ Creates doc ∧ ∃ helper',
      a1PolicyHandler rapidjson memory message_len helper =
        some { res := false, printed := none, memory, message_len, helper := helper' }) := by
  unfold a1PolicyHandler
  rw [h]
  dsimp only
  cases hop : doc.get OPERATION with
  | none => exact .inr (.inr ⟨by simp [WellTyped, hop], by simp [Creates, hop], helper, rfl⟩)
  | some ref1 =>
  cases hstring : ref1.getString with
  | none => exact .inl ⟨by simp [WellTyped, hop, hstring], by simp [hstring]⟩
  | some operation =>
  cases hty : doc.get POLICY_TYPE_ID with
  | none =>
      refine .inr (.inr ⟨?_, by simp [Creates, hty], _, by simp [hstring]; rfl⟩)
      simp [WellTyped, hop, hstring, hty]
  | some ref2 =>
  cases hint : ref2.getInt with
  | none =>
      refine .inl ⟨?_, by simp [hstring, hint]⟩
      simp [WellTyped, hop, hty, hint]
  | some n =>
  cases hinst : doc.get POLICY_INSTANCE_ID with
  | none =>
      refine .inr (.inr ⟨?_, by simp [Creates, hinst], _, by simp [hstring, hint]; rfl⟩)
      simp [WellTyped, hop, hstring, hty, hint, hinst]
  | some ref =>
  cases hid : ref.getString with
  | none =>
      refine .inl ⟨?_, by simp [hstring, hint, hid]⟩
      simp [WellTyped, hop, hty, hinst, hid]
  | some policy_instance_id =>
      have htyped : WellTyped doc := by
        simp [WellTyped, hop, hstring, hty, hint, hinst, hid]
      have hcreates : Creates doc ↔
          operation = ascii "CREATE" ∧ ascii (toString n.toInt) = ascii "1" := by
        simp [Creates, hop, hstring, hty, hint, hinst]
      dsimp only
      rw [hstring, Option.bind_some, hint, Option.bind_some, hid, Option.map_some]
      by_cases hcreate : ascii (toString n.toInt) = ascii "1" ∧ operation = ascii "CREATE"
      · rw [if_pos hcreate]
        exact .inr (.inl ⟨htyped, hcreates.2 hcreate.symm, _, rfl⟩)
      · rw [if_neg hcreate]
        exact .inr (.inr ⟨htyped, fun hc => hcreate (hcreates.1 hc).symm, _, rfl⟩)

/-- The text of an answer is at the start of the memory it was copied to. -/
theorem take_strncpy_text (text : {text : Bytes // 0 ∉ text}) (memory : Bytes) :
    (strncpy text.val memory).take text.val.length = text.val := by
  unfold strncpy
  rw [visible_eq_self text.property, Nat.sub_self, List.replicate_zero, List.append_nil,
    List.take_left]

/-- The printed document is an answer exactly where the request has one `operation`. -/
theorem isAnswer_iff (h : (named OPERATION request) ≠ []) :
    (∃ answer, IsAnswer handler_id request answer ∧
      answerTo handler_id (ascii "OK") (.object request) = .object answer) ↔
      (named OPERATION request).length = 1 := by
  have hhandler : HANDLER_ID ≠ OPERATION := by decide +kernel
  have hstatus : STATUS ≠ OPERATION := by decide +kernel
  let added : List (Bytes × Json) :=
    [(HANDLER_ID, .string handler_id), (STATUS, .string (ascii "OK"))]
  have hnamed : named OPERATION (request ++ added) = named OPERATION request := by
    unfold named
    rw [List.filter_append]
    simp [added, hhandler, hstatus]
  have hfilter : (request ++ added).filter (·.1 ≠ OPERATION) =
      request.filter (·.1 ≠ OPERATION) ++ added := by
    have hadded : added.filter (·.1 ≠ OPERATION) = added := by
      simp [added, hhandler, hstatus]
    rw [List.filter_append, hadded]
  have hanswer : answerTo handler_id (ascii "OK") (.object request) =
      .object (Index.removeMember OPERATION (request ++ added)) := by
    show Json.object (Index.removeMember OPERATION ((request ++ [_]) ++ [_])) = _
    rw [List.append_assoc]
    rfl
  have hiff := removeMember_perm_filter_iff (hnamed ▸ h : named OPERATION (request ++ added) ≠ [])
  rw [hnamed, hfilter] at hiff
  rw [← hiff, hanswer]
  constructor
  · rintro ⟨answer, hperm, heq⟩
    rwa [Json.object.inj heq]
  · intro hperm
    exact ⟨_, hperm, rfl⟩

/-- **A policy request is answered or left alone** exactly where the members that are read have
the types they are read with, and a request that is answered has one `operation` and a buffer
with room for the answer. -/
theorem answersOrLeavesAlone_iff (rapidjson : Rapidjson) (payload behind : Bytes)
    (message_len : Int) (helper : A1PolicyHelper) :
    AnswersOrLeavesAlone rapidjson payload behind message_len helper ↔
      ∀ doc, rapidjson.Parse (visible (payload ++ behind)) = some doc →
        WellTyped doc ∧
          (Creates doc → AnswerFits rapidjson helper.handler_id payload.length doc) := by
  unfold AnswersOrLeavesAlone
  cases hparse : rapidjson.Parse (visible (payload ++ behind)) with
  | none =>
      refine iff_of_true ⟨_, a1PolicyHandler_of_parse_none hparse, ?_, nofun⟩ nofun
      exact fun _ => ⟨List.take_left, rfl⟩
  | some doc =>
      rcases a1PolicyHandler_of_parse hparse with
        ⟨hw, hnone⟩ | ⟨hw, hcreates, helper', hsome⟩ | ⟨hw, hcreates, helper', hsome⟩
      · refine iff_of_false ?_ fun h => hw (h doc rfl).1
        rintro ⟨o, ho, -⟩
        rw [hnone] at ho
        cases ho
      · have hrequest : ∃ request, doc = .object request ∧ named OPERATION request ≠ [] := by
          match doc, hcreates.1 with
          | .object request, hop =>
              obtain ⟨op, hop, -⟩ := Option.bind_eq_some_iff.1 hop
              have hmem := exists_mem_of_findMember hop
              exact ⟨request, rfl, List.ne_nil_of_mem (List.mem_filter.2 ⟨hmem, by simp⟩)⟩
        obtain ⟨request, rfl, hne⟩ := hrequest
        constructor
        · rintro ⟨o, ho, -, htrue⟩ _ ⟨⟩
          obtain rfl := Option.some.inj (hsome.symm.trans ho)
          obtain ⟨hlen, request', answer, hdoc, hanswer, hprinted, -⟩ := htrue rfl
          obtain rfl := Json.object.inj (Option.some.inj hdoc)
          have hone := (isAnswer_iff hne).1 ⟨answer, hanswer, Option.some.inj hprinted⟩
          exact ⟨hw, fun _ => ⟨request, rfl, hone, Int.ofNat_le.1 hlen⟩⟩
        · intro h
          obtain ⟨request', hdoc, hone, hlen⟩ := (h _ rfl).2 hcreates
          obtain rfl := Json.object.inj hdoc
          obtain ⟨answer, hanswer, hprinted⟩ := (isAnswer_iff hne).2 hone
          refine ⟨_, hsome, nofun, fun _ => ⟨Int.ofNat_le.2 hlen, request, answer, rfl, hanswer,
            congrArg some hprinted, ?_⟩⟩
          dsimp only
          rw [Int.toNat_natCast, hprinted]
          exact take_strncpy_text ..
      · refine iff_of_true ⟨_, hsome, fun _ => ⟨List.take_left, rfl⟩, nofun⟩ ?_
        rintro _ ⟨⟩
        exact ⟨hw, fun hc => absurd hc hcreates⟩

/-- A request whose operation is a number. -/
def untypedRequest : Bytes := ascii "\x7b\"operation\":1\x7d"

/-- A request to create an instance of policy type 1. -/
def createRequest : Bytes := ascii
  "\x7b\"operation\":\"CREATE\",\"policy_type_id\":1,\"policy_instance_id\":\"p\"\x7d"

/-- What is parsed of these two, and the text of the answer to the second from the handler
`hw`. -/
def twoRequests : Rapidjson where
  Parse text :=
    if text = untypedRequest then some (.object [(OPERATION, .int 1)])
    else if text = createRequest then
      some (.object [(OPERATION, .string (ascii "CREATE")), (POLICY_TYPE_ID, .int 1),
        (POLICY_INSTANCE_ID, .string (ascii "p"))])
    else none
  print _ := ⟨ascii ("\x7b\"status\":\"OK\",\"policy_type_id\":1,\"policy_instance_id\":\"p\"," ++
    "\"handler_id\":\"hw\"\x7d"), by decide +kernel⟩

/-- **A number for the operation** trips an assertion, and **an answer longer than its
request** goes past a payload of the request's length. -/
theorem not_answersOrLeavesAlone :
    ¬ AnswersOrLeavesAlone twoRequests untypedRequest [0] 15 {} ∧
      ¬ AnswersOrLeavesAlone twoRequests createRequest [0] 66 { handler_id := ascii "hw" } := by
  constructor
  · rintro ⟨o, ho, -⟩
    have hnone : (a1PolicyHandler twoRequests (untypedRequest ++ [0]) 15 {}).isNone = true := by
      decide +kernel
    rw [ho] at hnone
    cases hnone
  · rintro ⟨o, ho, -, htrue⟩
    have hlen : (a1PolicyHandler twoRequests (createRequest ++ [0]) 66
        { handler_id := ascii "hw" }).map (fun o => (o.res, decide (o.message_len ≤ 66))) =
          some (true, false) := by
      decide +kernel
    have hpayload : createRequest.length = 66 := by decide +kernel
    rw [ho, Option.map_some] at hlen
    obtain ⟨hres, hlong⟩ := Prod.mk.inj (Option.some.inj hlen)
    have hle := (htrue hres).1
    rw [hpayload] at hle
    exact absurd hle (of_decide_eq_false hlong)

end NearRtRic.Xapp
