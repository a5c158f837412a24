/-
# The function definitions of a setup request

`collectSetupAndServiceUpdate_RequestData` fills a vector with the XML encodings of the
RAN function definitions in a setup request, and `buildXmlData` puts the entries into
the XML rendering of the request.  The two walk over the same items, but the vector is
cleared at each list (`RAN_Function_list_To_Vector`) and gets no entry for an item of
another id or for a definition that does not encode or does not fit the buffer.
Nothing writes the NUL that ends an entry: the text ends at the first one that the
stack happens to hold behind it.

`replaced_iff` is the condition under which each definition is replaced by its own
encoding.  The names in the request are handled as in `Listener` (`collectIes_setup`).
-/

import NearRtRic.E2Term.BuildXml
import NearRtRic.E2Term.SetupName

namespace NearRtRic.E2Term

open CString Termination Xml Xml.Node

/-- `RECEIVE_SCTP_BUFFER_SIZE * 2`, the size of the buffers for XML. -/
def xmlBufferSize : Nat := 128 * 1024 * 2

/-- `asn_decode` and `asn_encode_to_buffer` of `E2SM_gNB_NRT_RANfunction_Definition`, where
`none` is for a failure.  A NUL in a string is written as `<nul/>`. -/
structure DefinitionCodec (D : Type) where
  decode : Bytes → Option D
  xer : D → Option Bytes
  xer_no_nul : ∀ {d text}, xer d = some text → 0 ∉ text

/-- The XML encoding of a definition. -/
def DefinitionCodec.encoding {D : Type} (codec : DefinitionCodec D) (definition : Bytes) :
    Option Bytes := (codec.decode definition).bind codec.xer

/-- `RANfunction_ItemIEs`. -/
inductive RanFunctionItemIe where
  | ranFunctionItem (ranFunctionDefinition : Bytes)
  /-- Another id, or another value. -/
  | other
  deriving DecidableEq, Repr

/-- `E2setupRequestIEs`. -/
inductive SetupRequestIe where
  | globalE2nodeID (id : GlobalE2nodeID)
  | ranFunctionsAdded (list : List RanFunctionItemIe)
  | ranFunctionsModified (list : List RanFunctionItemIe)
  /-- Another id, or another value. -/
  | other
  deriving DecidableEq, Repr

/-- What the two vectors and the name fields hold. -/
structure RequestData where
  setup : Setup
  ranFunctionsAdded : List Bytes := []
  ranFunctionsModified : List Bytes := []

section

variable {D : Type} (codec : DefinitionCodec D) (p : Nat)

/-- `RAN_Function_list_To_Vector`.  `xml_buffer j` is what the stack holds from the start of
the buffer on when item `j` is reached. -/
def ranFunctionListToVector : (Nat → Bytes) → List RanFunctionItemIe → Option (List Bytes)
  | _, [] => some []
  | xml_buffer, .other :: list => ranFunctionListToVector (fun j => xml_buffer (j + 1)) list
  | xml_buffer, .ranFunctionItem definition :: list =>
      match codec.decode definition with
      | none => none
      | some ranFunDef =>
          match codec.xer ranFunDef with
          | none => ranFunctionListToVector (fun j => xml_buffer (j + 1)) list
          | some text =>
              if text.length ≤ xmlBufferSize then
                (ranFunctionListToVector (fun j => xml_buffer (j + 1)) list).map
                  (visible (memcpy text (xml_buffer 0)) :: ·)
              else ranFunctionListToVector (fun j => xml_buffer (j + 1)) list

/-- The loop body of `collectSetupAndServiceUpdate_RequestData`.  `none` is for a return
with -1. -/
def collectIe (xml_buffer : Nat → Bytes) (r : RequestData) : SetupRequestIe → Option RequestData
  | .globalE2nodeID id =>
      (buildRanName r.setup.enodbName id).map fun b =>
        let message := memcpy (visible b) r.setup.message
        { r with setup := ⟨b, message, r.setup.sctpMap.insert (visible message) p⟩ }
  | .ranFunctionsAdded list =>
      (ranFunctionListToVector codec xml_buffer list).map fun v => { r with ranFunctionsAdded := v }
  | .ranFunctionsModified list =>
      (ranFunctionListToVector codec xml_buffer list).map fun v =>
        { r with ranFunctionsModified := v }
  | .other => some r

/-- The loop, and whether it ran to its end.  `stack i j` is what the stack holds from the
start of `xml_buffer` on at item `j` of element `i`. -/
def collectRequestIes : (Nat → Nat → Bytes) → RequestData → List SetupRequestIe →
    RequestData × Bool
  | _, r, [] => (r, true)
  | stack, r, ie :: ies =>
      match collectIe codec p (stack 0) r ie with
      | none => (r, false)
      | some r => collectRequestIes (fun i => stack (i + 1)) r ies

/-- `collectSetupAndServiceUpdate_RequestData`, both vectors being empty. -/
def collectRequestData (s : Termination) (cu : ConnectedCU) (stack : Nat → Nat → Bytes)
    (ies : List SetupRequestIe) : RequestData × Bool :=
  collectRequestIes codec p stack { setup := ⟨[], cu.enodbName, s.sctpMap⟩ } ies

end

/-! ### The names in the request -/

variable {D : Type} {codec : DefinitionCodec D} {p : Nat}

/-- The definition of an item decodes. -/
def RanFunctionItemIe.decodes (codec : DefinitionCodec D) : RanFunctionItemIe → Bool
  | ranFunctionItem definition => (codec.decode definition).isSome
  | other => true

/-- The list is come through if all its items decode. -/
theorem isSome_ranFunctionListToVector (xml_buffer : Nat → Bytes)
    (list : List RanFunctionItemIe) :
    (ranFunctionListToVector codec xml_buffer list).isSome =
      list.all (RanFunctionItemIe.decodes codec) := by
  induction list generalizing xml_buffer with
  | nil => rfl
  | cons item list ih =>
      rw [List.all_cons]
      cases item with
      | other => rw [ranFunctionListToVector, ih, RanFunctionItemIe.decodes, Bool.true_and]
      | ranFunctionItem definition =>
          rw [ranFunctionListToVector, RanFunctionItemIe.decodes]
          cases codec.decode definition with
          | none => rfl
          | some ranFunDef =>
              rw [Option.isSome_some, Bool.true_and]
              dsimp only
              cases codec.xer ranFunDef with
              | none => exact ih _
              | some text =>
                  dsimp only
                  split
                  · rw [Option.isSome_map, ih]
                  · exact ih _

/-- What the listener's model keeps of an element. -/
def SetupRequestIe.summary (codec : DefinitionCodec D) : SetupRequestIe → SetupIe
  | globalE2nodeID id => .globalE2nodeID id
  | ranFunctionsAdded list => .ranFunctions (list.all (RanFunctionItemIe.decodes codec))
  | ranFunctionsModified list => .ranFunctions (list.all (RanFunctionItemIe.decodes codec))
  | other => .other

/-- **The names, the map and the result** are those of the listener's model. -/
theorem collectIes_setup (stack : Nat → Nat → Bytes) (r : RequestData)
    (ies : List SetupRequestIe) :
    collectIes p r.setup (ies.map (SetupRequestIe.summary codec)) =
      ((collectRequestIes codec p stack r ies).1.setup,
        (collectRequestIes codec p stack r ies).2) := by
  induction ies generalizing stack r with
  | nil => rfl
  | cons ie ies ih =>
      rw [List.map_cons, collectRequestIes]
      cases ie with
      | globalE2nodeID id =>
          rw [SetupRequestIe.summary, collectIes, collectIe]
          cases buildRanName r.setup.enodbName id with
          | none => rfl
          | some b => exact ih _ { r with setup := _ }
      | ranFunctionsAdded list =>
          rw [SetupRequestIe.summary, collectIes, collectIe,
            ← isSome_ranFunctionListToVector (stack 0)]
          cases ranFunctionListToVector codec (stack 0) list with
          | none => rfl
          | some v => exact ih _ { r with ranFunctionsAdded := v }
      | ranFunctionsModified list =>
          rw [SetupRequestIe.summary, collectIes, collectIe,
            ← isSome_ranFunctionListToVector (stack 0)]
          cases ranFunctionListToVector codec (stack 0) list with
          | none => rfl
          | some v => exact ih _ { r with ranFunctionsModified := v }
      | other => exact ih _ r

/-! ### The vector of a list -/

def RanFunctionItemIe.definition : RanFunctionItemIe → Option Bytes
  | ranFunctionItem definition => some definition
  | other => none

/-- The XML encoding of an item's definition. -/
def RanFunctionItemIe.encoding (codec : DefinitionCodec D) (item : RanFunctionItemIe) :
    Option Bytes := item.definition.bind codec.encoding

/-- The entry for an item, if it gets one. -/
def RanFunctionItemIe.entry (codec : DefinitionCodec D) (xml_buffer : Bytes)
    (item : RanFunctionItemIe) : Option Bytes :=
  ((item.encoding codec).filter (·.length ≤ xmlBufferSize)).map fun text =>
    visible (memcpy text xml_buffer)

/-- The first item has the first buffer, if it is printed. -/
theorem ranFunctionListToVector_cons {xml_buffer : Nat → Bytes} {item : RanFunctionItemIe}
    {list : List RanFunctionItemIe} {v : List Bytes}
    (h : ranFunctionListToVector codec xml_buffer (item :: list) = some v) :
    ∃ v', ranFunctionListToVector codec (fun j => xml_buffer (j + 1)) list = some v' ∧
      v = (item.entry codec (xml_buffer 0)).toList ++ v' := by
  cases item with
  | other => exact ⟨v, h, rfl⟩
  | ranFunctionItem definition =>
      rw [ranFunctionListToVector] at h
      unfold RanFunctionItemIe.entry RanFunctionItemIe.encoding RanFunctionItemIe.definition
        DefinitionCodec.encoding
      dsimp only [Option.bind_some]
      cases hdecode : codec.decode definition with
      | none =>
          rw [hdecode] at h
          cases h
      | some ranFunDef =>
          rw [hdecode] at h
          dsimp only at h
          rw [Option.bind_some]
          cases hxer : codec.xer ranFunDef with
          | none =>
              rw [hxer] at h
              exact ⟨v, h, rfl⟩
          | some text =>
              rw [hxer] at h
              dsimp only at h
              rw [Option.filter_some]
              by_cases hsize : text.length ≤ xmlBufferSize
              · rw [if_pos hsize] at h
                obtain ⟨v', hv', rfl⟩ := Option.map_eq_some_iff.1 h
                exact ⟨v', hv', by simp [hsize]⟩
              · rw [if_neg hsize] at h
                exact ⟨v, h, by simp [hsize]⟩

/-- The entry of an item is its encoding. -/
def RanFunctionItemIe.Kept (codec : DefinitionCodec D) (xml_buffer : Bytes)
    (item : RanFunctionItemIe) : Prop :=
  ∃ text, item.encoding codec = some text ∧ text.length ≤ xmlBufferSize ∧
    xml_buffer.getD text.length 0 = 0

/-- What is printed of a definition has no NUL. -/
theorem encoding_no_nul {item : RanFunctionItemIe} {text : Bytes}
    (h : item.encoding codec = some text) : 0 ∉ text := by
  obtain ⟨definition, -, h⟩ := Option.bind_eq_some_iff.1 h
  obtain ⟨ranFunDef, -, h⟩ := Option.bind_eq_some_iff.1 h
  exact codec.xer_no_nul h

/-- An entry is the encoding exactly if a NUL is behind it. -/
theorem kept_iff {item : RanFunctionItemIe} {xml_buffer : Bytes} :
    item.Kept codec xml_buffer ↔
      ∃ text, item.entry codec xml_buffer = some text ∧ item.encoding codec = some text := by
  unfold RanFunctionItemIe.Kept RanFunctionItemIe.entry
  constructor
  · rintro ⟨text, htext, hsize, hzero⟩
    refine ⟨text, ?_, htext⟩
    rw [htext, Option.filter_some, if_pos (by simpa using hsize), Option.map_some,
      (visible_memcpy_iff (encoding_no_nul htext) _).2 hzero]
  · rintro ⟨text, hentry, htext⟩
    rw [htext] at hentry
    obtain ⟨text', hfilter, hvisible⟩ := Option.map_eq_some_iff.1 hentry
    obtain ⟨heq, hsize⟩ := Option.filter_eq_some_iff.1 hfilter
    obtain rfl := Option.some.inj heq
    exact ⟨text, htext, by simpa using hsize,
      (visible_memcpy_iff (encoding_no_nul htext) _).1 hvisible⟩

/-- There are no more entries than items. -/
theorem length_ranFunctionListToVector_le {xml_buffer : Nat → Bytes}
    {list : List RanFunctionItemIe} {v : List Bytes}
    (h : ranFunctionListToVector codec xml_buffer list = some v) : v.length ≤ list.length := by
  induction list generalizing xml_buffer v with
  | nil =>
      obtain rfl := Option.some.inj h
      exact le_rfl
  | cons item list ih =>
      obtain ⟨v', hv', rfl⟩ := ranFunctionListToVector_cons h
      have hrest := ih hv'
      have hentry := Option.length_toList_le (o := item.entry codec (xml_buffer 0))
      rw [List.length_append, List.length_cons]
      omega

/-- The definitions in some items. -/
def definitions (list : List RanFunctionItemIe) : List Bytes :=
  list.filterMap RanFunctionItemIe.definition

/-- A vector that is as long as its list has an entry for the first item. -/
theorem ranFunctionListToVector_cons_of_length_le {xml_buffer : Nat → Bytes}
    {item : RanFunctionItemIe} {list : List RanFunctionItemIe} {v : List Bytes}
    (h : ranFunctionListToVector codec xml_buffer (item :: list) = some v)
    (hlen : (item :: list).length ≤ v.length) :
    ∃ definition text v', item.definition = some definition ∧
      item.entry codec (xml_buffer 0) = some text ∧
      ranFunctionListToVector codec (fun j => xml_buffer (j + 1)) list = some v' ∧
      v = text :: v' ∧ list.length ≤ v'.length := by
  obtain ⟨v', hv', rfl⟩ := ranFunctionListToVector_cons h
  have hle := length_ranFunctionListToVector_le hv'
  rw [List.length_append, List.length_cons] at hlen
  cases hentry : item.entry codec (xml_buffer 0) with
  | none =>
      rw [hentry, Option.toList_none, List.length_nil] at hlen
      omega
  | some text =>
      rw [hentry, Option.toList_some, List.length_singleton] at hlen
      obtain ⟨_, hfilter, -⟩ := Option.map_eq_some_iff.1 hentry
      obtain ⟨hencoding, -⟩ := Option.filter_eq_some_iff.1 hfilter
      obtain ⟨definition, hdefinition, -⟩ := Option.bind_eq_some_iff.1 hencoding
      exact ⟨definition, text, v', hdefinition, rfl, hv', rfl, by omega⟩

/-- **When a vector has the encodings of all the items in a list.** -/
theorem encodings_iff_kept {xml_buffer : Nat → Bytes} {list : List RanFunctionItemIe}
    {v : List Bytes} (h : ranFunctionListToVector codec xml_buffer list = some v) :
    list.length ≤ v.length ∧
        List.Forall₂ (fun d text => codec.encoding d = some text) (definitions list) v ↔
      ∀ (j : Nat) (item : RanFunctionItemIe), list[j]? = some item →
        item.Kept codec (xml_buffer j) := by
  induction list generalizing xml_buffer v with
  | nil =>
      obtain rfl := Option.some.inj h
      exact ⟨fun _ _ _ hitem => absurd hitem nofun, fun _ => ⟨le_rfl, .nil⟩⟩
  | cons item list ih =>
      have hsplit : (∀ (j : Nat) (item' : RanFunctionItemIe), (item :: list)[j]? = some item' →
            item'.Kept codec (xml_buffer j)) ↔
          item.Kept codec (xml_buffer 0) ∧ ∀ (j : Nat) (item' : RanFunctionItemIe),
            list[j]? = some item' → item'.Kept codec (xml_buffer (j + 1)) := by
        rw [← Nat.and_forall_add_one]
        simp only [List.getElem?_cons_zero, Option.some.injEq, forall_eq', List.getElem?_cons_succ]
      rw [hsplit, kept_iff]
      constructor
      · rintro ⟨hlen, hall⟩
        obtain ⟨d, text, v', hd, hentry, hv', rfl, hle⟩ :=
          ranFunctionListToVector_cons_of_length_le h hlen
        rw [definitions, List.filterMap_cons_some hd] at hall
        obtain ⟨hfirst, hrest⟩ := List.forall₂_cons.1 hall
        refine ⟨⟨text, hentry, ?_⟩, (ih hv').1 ⟨hle, hrest⟩⟩
        rw [RanFunctionItemIe.encoding, hd, Option.bind_some]
        exact hfirst
      · rintro ⟨⟨text, hentry, hencoding⟩, hkept⟩
        obtain ⟨v', hv', rfl⟩ := ranFunctionListToVector_cons h
        obtain ⟨hlen, hrest⟩ := (ih hv').2 hkept
        obtain ⟨d, hd, hfirst⟩ := Option.bind_eq_some_iff.1 hencoding
        rw [hentry, definitions, List.filterMap_cons_some hd]
        exact ⟨Nat.succ_le_succ hlen, .cons hfirst hrest⟩

/-- A list that is as long as its vector has definitions only. -/
theorem isSome_definition {xml_buffer : Nat → Bytes} {list : List RanFunctionItemIe}
    {v : List Bytes} (h : ranFunctionListToVector codec xml_buffer list = some v)
    (hlen : list.length ≤ v.length) : ∀ item ∈ list, item.definition.isSome := by
  induction list generalizing xml_buffer v with
  | nil => exact fun _ hmem => absurd hmem List.not_mem_nil
  | cons item list ih =>
      obtain ⟨d, text, v', hd, -, hv', rfl, hle⟩ :=
        ranFunctionListToVector_cons_of_length_le h hlen
      refine List.forall_mem_cons.2 ⟨?_, ih hv' hle⟩
      rw [hd]
      rfl

/-! ### The vector of a request -/

/-- The items of an element that go into the vector. -/
def SetupRequestIe.items : SetupRequestIe → List RanFunctionItemIe
  | ranFunctionsAdded list => list
  | _ => []

/-- The other elements leave the vector as it is. -/
theorem added_collectIe {xml_buffer : Nat → Bytes} {r r' : RequestData} {ie : SetupRequestIe}
    (hie : ∀ list, ie ≠ .ranFunctionsAdded list)
    (h : collectIe codec p xml_buffer r ie = some r') :
    r'.ranFunctionsAdded = r.ranFunctionsAdded := by
  cases ie with
  | globalE2nodeID id =>
      obtain ⟨b, -, rfl⟩ := Option.map_eq_some_iff.1 h
      rfl
  | ranFunctionsAdded list => exact absurd rfl (hie list)
  | ranFunctionsModified list =>
      obtain ⟨v, -, rfl⟩ := Option.map_eq_some_iff.1 h
      rfl
  | other =>
      obtain rfl := Option.some.inj h
      rfl

/-- Other IEs add no functions. -/
theorem added_collectRequestIes {ies : List SetupRequestIe}
    (hies : ∀ list, .ranFunctionsAdded list ∉ ies) (stack : Nat → Nat → Bytes) (r : RequestData) :
    (collectRequestIes codec p stack r ies).1.ranFunctionsAdded = r.ranFunctionsAdded := by
  induction ies generalizing stack r with
  | nil => rfl
  | cons ie ies ih =>
      rw [collectRequestIes]
      cases hie : collectIe codec p (stack 0) r ie with
      | none => rfl
      | some r' =>
          have hne : ∀ list, ie ≠ .ranFunctionsAdded list := by
            rintro list rfl
            exact hies list List.mem_cons_self
          exact (ih (fun list hmem => hies list (List.mem_cons_of_mem _ hmem)) _ r').trans
            (added_collectIe hne hie)

/-- **The vector is that of the last list.** -/
theorem added_of_last {before after : List SetupRequestIe} {list : List RanFunctionItemIe}
    (hafter : ∀ list, .ranFunctionsAdded list ∉ after) {stack : Nat → Nat → Bytes}
    {r r' : RequestData} (h : collectRequestIes codec p stack r
      (before ++ .ranFunctionsAdded list :: after) = (r', true)) :
    ranFunctionListToVector codec (stack before.length) list = some r'.ranFunctionsAdded := by
  induction before generalizing stack r with
  | nil =>
      rw [List.nil_append, collectRequestIes, collectIe] at h
      cases hv : ranFunctionListToVector codec (stack 0) list with
      | none =>
          rw [hv] at h
          cases h
      | some v =>
          rw [hv, Option.map_some] at h
          dsimp only at h
          have hadded := @added_collectRequestIes D codec p after hafter (fun i => stack (i + 1))
            { r with ranFunctionsAdded := v }
          rw [h] at hadded
          exact congrArg some hadded.symm
  | cons ie before ih =>
      rw [List.cons_append, collectRequestIes] at h
      cases hie : collectIe codec p (stack 0) r ie with
      | none =>
          rw [hie] at h
          cases h
      | some r₁ =>
          rw [hie] at h
          exact ih h

/-- A request without a list, or up to its last one. -/
theorem exists_last (ies : List SetupRequestIe) : (∀ list, .ranFunctionsAdded list ∉ ies) ∨
    ∃ before list after, ies = before ++ .ranFunctionsAdded list :: after ∧
      ∀ list, .ranFunctionsAdded list ∉ after := by
  induction ies with
  | nil => exact .inl fun _ => List.not_mem_nil
  | cons ie ies ih =>
      rcases ih with hnone | ⟨before, list, after, rfl, hafter⟩
      · cases ie with
        | ranFunctionsAdded list => exact .inr ⟨[], list, ies, rfl, hnone⟩
        | globalE2nodeID _ | ranFunctionsModified _ | other =>
            refine .inl fun list hmem => hnone list ?_
            simpa using hmem
      · exact .inr ⟨ie :: before, list, after, rfl, hafter⟩

/-- They have no items. -/
theorem items_eq_nil {ies : List SetupRequestIe} (h : ∀ list, .ranFunctionsAdded list ∉ ies) :
    ies.flatMap SetupRequestIe.items = [] := by
  rw [List.flatMap_eq_nil_iff]
  intro ie hie
  cases ie with
  | ranFunctionsAdded list => exact absurd hie (h list)
  | globalE2nodeID _ | ranFunctionsModified _ | other => rfl

/-! ### The rendering of a request -/

/-- A list item as its item shows: a definition is in its element. -/
def RanFunctionItemIe.ShowsAs (item : RanFunctionItemIe) (n1 : XmlNode) : Prop :=
  item.definition.isSome → (definitionOf n1).isSome

/-- The document is a rendering of the request: there is an element for each of its
elements, with a list item for each item in the order of the list. -/
def Renders (doc : XmlNode) (ies : List SetupRequestIe) : Prop :=
  List.Forall₂ (fun ie tool => List.Forall₂ RanFunctionItemIe.ShowsAs ie.items (ieContainers tool))
    ies (messageIes "E2setupRequest" "E2setupRequestIEs" doc)

/-- A rendered document shows the items of the IEs in order. -/
theorem Renders.containers {doc : XmlNode} {ies : List SetupRequestIe} (h : Renders doc ies) :
    List.Forall₂ RanFunctionItemIe.ShowsAs (ies.flatMap SetupRequestIe.items)
      (containers "E2setupRequest" "E2setupRequestIEs" doc) :=
  List.rel_flatMap h fun _ _ hie => hie

/-- Each element `ranFunctionDefinition` has the encoding of its definition for content. -/
def HasEncodings (codec : DefinitionCodec D) (ies : List SetupRequestIe) (doc : XmlNode) : Prop :=
  List.Forall₂ (fun definition element => ∃ text, codec.encoding definition = some text ∧
      element.children = [pcdata text])
    (definitions (ies.flatMap SetupRequestIe.items))
    (definitionElements "E2setupRequest" "E2setupRequestIEs" doc)

/-- The vector is aligned with the request.  Only the last list has items, and each of them has a
definition that encodes to a text which fits the buffer and has a NUL behind it there. -/
def Aligned (codec : DefinitionCodec D) (stack : Nat → Nat → Bytes) (ies : List SetupRequestIe) :
    Prop :=
  ∀ before list after, ies = before ++ .ranFunctionsAdded list :: after →
    (∀ list, .ranFunctionsAdded list ∉ after) → before.flatMap SetupRequestIe.items = [] ∧
      ∀ (j : Nat) (item : RanFunctionItemIe), list[j]? = some item →
        item.Kept codec (stack before.length j)

/-- Where there are as many entries as items, the contents are the entries. -/
theorem hasEncodings_filled {doc : XmlNode} {ies : List SetupRequestIe} {v : List Bytes}
    (hdoc : Renders doc ies)
    (hlen : (ies.flatMap SetupRequestIe.items).length = v.length)
    (hdef : ∀ item ∈ ies.flatMap SetupRequestIe.items, item.definition.isSome) :
    HasEncodings codec ies (filled "E2setupRequest" "E2setupRequestIEs" v doc) ↔
      List.Forall₂ (fun d text => codec.encoding d = some text)
        (definitions (ies.flatMap SetupRequestIe.items)) v := by
  have hcontainers := hdoc.containers
  have hlength := hcontainers.length_eq.symm.trans hlen
  have helements : ∀ n1 ∈ containers "E2setupRequest" "E2setupRequestIEs" doc,
      (definitionOf n1).isSome := by
    clear hlength hlen
    generalize ies.flatMap SetupRequestIe.items = items at hcontainers hdef
    generalize containers "E2setupRequest" "E2setupRequestIEs" doc = cs at hcontainers
    induction hcontainers with
    | nil => exact fun _ hmem => absurd hmem List.not_mem_nil
    | cons hshows _ ih =>
        rintro n1 hmem
        rcases List.mem_cons.1 hmem with rfl | hmem
        · exact hshows (hdef _ List.mem_cons_self)
        · exact ih (fun item h => hdef item (List.mem_cons_of_mem _ h)) n1 hmem
  have hchildren := definitions_filled hlength helements
  have hcontent : HasEncodings codec ies (filled "E2setupRequest" "E2setupRequestIEs" v doc) ↔
      List.Forall₂ (fun definition content => ∃ text, codec.encoding definition = some text ∧
          content = [pcdata text])
        (definitions (ies.flatMap SetupRequestIe.items))
        ((definitionElements "E2setupRequest" "E2setupRequestIEs"
          (filled "E2setupRequest" "E2setupRequestIEs" v doc)).map children) := by
    rw [List.forall₂_map_right_iff]
    rfl
  rw [hcontent, hchildren, List.forall₂_map_right_iff]
  have hentry : ∀ (d text : Bytes), (∃ text', codec.encoding d = some text' ∧
      ([pcdata text] : List XmlNode) = [pcdata text']) ↔ codec.encoding d = some text := by
    intro d text
    constructor
    · rintro ⟨text', hencoding, heq⟩
      injection heq with heq
      injection heq with heq
      rw [heq]
      exact hencoding
    · exact fun h => ⟨text, h, rfl⟩
  simp only [hentry]

/-- The two loops on a request with a list. -/
theorem rewritten_iff {before after : List SetupRequestIe} {list : List RanFunctionItemIe}
    (hafter : ∀ list, .ranFunctionsAdded list ∉ after) {stack : Nat → Nat → Bytes}
    {r r' : RequestData} {doc : XmlNode} (hcollect : collectRequestIes codec p stack r
      (before ++ .ranFunctionsAdded list :: after) = (r', true))
    (hdoc : Renders doc (before ++ .ranFunctionsAdded list :: after)) :
    (∃ doc', rewritten "E2setupRequest" "E2setupRequestIEs" r'.ranFunctionsAdded doc = some doc' ∧
        HasEncodings codec (before ++ .ranFunctionsAdded list :: after) doc') ↔
      before.flatMap SetupRequestIe.items = [] ∧
        ∀ (j : Nat) (item : RanFunctionItemIe), list[j]? = some item →
          item.Kept codec (stack before.length j) := by
  have hv := added_of_last hafter hcollect
  have hle := length_ranFunctionListToVector_le hv
  have hitems : (before ++ .ranFunctionsAdded list :: after).flatMap SetupRequestIe.items =
      before.flatMap SetupRequestIe.items ++ list := by
    rw [List.flatMap_append, List.flatMap_cons, items_eq_nil hafter, List.append_nil]
    rfl
  have hlength := hdoc.containers.length_eq
  rw [hitems, List.length_append] at hlength
  have hfilled : before.flatMap SetupRequestIe.items = [] →
      list.length ≤ r'.ranFunctionsAdded.length →
        (HasEncodings codec (before ++ .ranFunctionsAdded list :: after)
            (filled "E2setupRequest" "E2setupRequestIEs" r'.ranFunctionsAdded doc) ↔
          List.Forall₂ (fun d text => codec.encoding d = some text) (definitions list)
            r'.ranFunctionsAdded) := by
    intro hbefore hlen
    have h := @hasEncodings_filled D codec doc _ r'.ranFunctionsAdded hdoc
    rw [hitems, hbefore, List.nil_append] at h
    exact h (le_antisymm hlen hle) (isSome_definition hv hlen)
  rw [rewritten_eq, ← hlength, ← encodings_iff_kept hv]
  constructor
  · rintro ⟨doc', hdoc', hencodings⟩
    split at hdoc'
    · rename_i hlen
      obtain rfl := Option.some.inj hdoc'
      have hbefore : before.flatMap SetupRequestIe.items = [] :=
        List.eq_nil_of_length_eq_zero (by omega)
      have hlist : list.length ≤ r'.ranFunctionsAdded.length := by omega
      exact ⟨hbefore, hlist, (hfilled hbefore hlist).1 hencodings⟩
    · cases hdoc'
  · rintro ⟨hbefore, hlist, hencodings⟩
    rw [hbefore, List.length_nil, Nat.zero_add, if_pos hlist]
    exact ⟨_, rfl, (hfilled hbefore hlist).2 hencodings⟩

/-- Without a list there are no items and no entries. -/
theorem rewritten_of_no_list {ies : List SetupRequestIe}
    (hies : ∀ list, .ranFunctionsAdded list ∉ ies) {stack : Nat → Nat → Bytes} {s : Setup}
    {r : RequestData} {doc : XmlNode}
    (hcollect : collectRequestIes codec p stack { setup := s } ies = (r, true))
    (hdoc : Renders doc ies) :
    ∃ doc', rewritten "E2setupRequest" "E2setupRequestIEs" r.ranFunctionsAdded doc = some doc' ∧
      HasEncodings codec ies doc' := by
  have hv := @added_collectRequestIes D codec p ies hies stack { setup := s }
  rw [hcollect] at hv
  have hnil : r.ranFunctionsAdded = [] := hv
  have hitems := items_eq_nil hies
  have hlength := hdoc.containers.length_eq
  rw [hitems, List.length_nil] at hlength
  rw [hnil, rewritten_eq, ← hlength, if_pos (Nat.zero_le _)]
  refine ⟨_, rfl, (hasEncodings_filled hdoc ?_ ?_).2 ?_⟩
  · rw [hitems]
    rfl
  · rw [hitems]
    exact fun _ hmem => absurd hmem List.not_mem_nil
  · rw [hitems]
    exact .nil

/-- **When each definition is replaced by its encoding.** -/
theorem replaced_iff (codec : DefinitionCodec D) (pugi : Pugi) (s : Termination) (cu : ConnectedCU)
    (stack : Nat → Nat → Bytes) {ies : List SetupRequestIe} {r : RequestData}
    (hcollect : collectRequestData codec p s cu stack ies = (r, true)) {buffer : Memory}
    {size : Nat} {doc : XmlNode} (hload : pugi.load_buffer (buffer.bytes.take size) = some doc)
    (hdoc : Renders doc ies) :
    (∃ doc', rewritten "E2setupRequest" "E2setupRequestIEs" r.ranFunctionsAdded doc = some doc' ∧
        buildXmlData pugi "E2setupRequest" "E2setupRequestIEs" r.ranFunctionsAdded buffer size =
          some (buffer.write 0 (pugi.print doc'), 0) ∧ HasEncodings codec ies doc') ↔
      Aligned codec stack ies := by
  have hbuild : (∃ doc', rewritten "E2setupRequest" "E2setupRequestIEs" r.ranFunctionsAdded doc =
        some doc' ∧ buildXmlData pugi "E2setupRequest" "E2setupRequestIEs" r.ranFunctionsAdded
          buffer size = some (buffer.write 0 (pugi.print doc'), 0) ∧ HasEncodings codec ies doc') ↔
      ∃ doc', rewritten "E2setupRequest" "E2setupRequestIEs" r.ranFunctionsAdded doc = some doc' ∧
        HasEncodings codec ies doc' := by
    refine exists_congr fun doc' => and_congr_right fun hdoc' => ?_
    have hprint : buildXmlData pugi "E2setupRequest" "E2setupRequestIEs" r.ranFunctionsAdded
        buffer size = some (buffer.write 0 (pugi.print doc'), 0) := by
      rw [buildXmlData, hload]
      dsimp only
      rw [hdoc', Option.map_some]
    exact and_iff_right hprint
  rw [hbuild]
  constructor
  · rintro h before list after rfl hafter
    exact (rewritten_iff hafter hcollect hdoc).1 h
  · intro h
    rcases exists_last ies with hnone | ⟨before, list, after, rfl, hafter⟩
    · exact rewritten_of_no_list hnone hcollect hdoc
    · exact (rewritten_iff hafter hcollect hdoc).2 (h before list after rfl hafter)

/-- A definition with the names `A` and `B` and the OID `1`.  The bytes are made up, in place
of those of its packed encoding; nothing depends on them. -/
def oneDefinition : Bytes := [0, 0, 0, 0x41, 0, 0, 0, 0x31, 0, 0, 0x42]

/-- The text of a definition with these names. -/
def encodingOf (oid : Bytes) : Bytes :=
  [utf8 "<E2SM-gNB-NRT-RANfunction-Definition>\n    <ranFunction-Name>\n",
    utf8 "        <ranFunction-ShortName>A</ranFunction-ShortName>\n",
    utf8 "        <ranFunction-E2SM-OID>", oid, utf8 "</ranFunction-E2SM-OID>\n",
    utf8 "        <ranFunction-Description>B</ranFunction-Description>\n",
    utf8 "    </ranFunction-Name>\n</E2SM-gNB-NRT-RANfunction-Definition>\n"].flatten

/-- A stand-in for the codec, which knows that definition only. -/
def oneCodec : DefinitionCodec Unit where
  decode b := if b = oneDefinition then some () else none
  xer _ := some (encodingOf [0x31])
  xer_no_nul h := by
    obtain rfl := Option.some.inj h
    decide +kernel

def oneList : SetupRequestIe := .ranFunctionsAdded [.ranFunctionItem oneDefinition]

def oneListXml : XmlNode := addedXml [itemXml (utf8 "00 00 00 41 00 00 00 31 00 00 42")]

/-- The identity of a gNB, and its element, of which nothing is read. -/
def gNBIe : SetupRequestIe := .globalE2nodeID (gNBId [0xb5, 0xc6, 0x77])

def gNBXml : XmlNode := element "E2setupRequestIEs" [leaf "id" "3"]

def peer : ConnectedCU := ⟨ascii "10.0.3.1", 36422, [], false⟩

/-- The request of a peer, where the stack is zeroed. -/
def oneCollected (ies : List SetupRequestIe) : RequestData × Bool :=
  collectRequestData oneCodec 0 start peer (fun _ _ => []) ies

/-- A collection that was come through. -/
theorem oneCollected_eq {ies : List SetupRequestIe} (h : (oneCollected ies).2 = true) :
    oneCollected ies = ((oneCollected ies).1, true) := by rw [← h]

/-- A request with one definition. -/
theorem replaced_iff_one : (oneCollected [gNBIe, oneList]).2 = true ∧
    ∃ doc', rewritten "E2setupRequest" "E2setupRequestIEs"
        (oneCollected [gNBIe, oneList]).1.ranFunctionsAdded (setupXml [gNBXml, oneListXml]) =
          some doc' ∧
      buildXmlData (Pugi.compact (setupXml [gNBXml, oneListXml])) "E2setupRequest"
          "E2setupRequestIEs" (oneCollected [gNBIe, oneList]).1.ranFunctionsAdded
          ⟨compact (setupXml [gNBXml, oneListXml]), 0⟩
          (compact (setupXml [gNBXml, oneListXml])).length =
        some (Memory.write 0 (compact doc') ⟨compact (setupXml [gNBXml, oneListXml]), 0⟩, 0) ∧
      HasEncodings oneCodec [gNBIe, oneList] doc' := by
  have hcollect : (oneCollected [gNBIe, oneList]).2 = true := by decide +kernel
  have hdoc : Renders (setupXml [gNBXml, oneListXml]) [gNBIe, oneList] :=
    .cons .nil (.cons (.cons (fun _ => rfl) .nil) .nil)
  have haligned : Aligned oneCodec (fun _ _ => []) [gNBIe, oneList] := by
    rintro before list after h hafter
    obtain ⟨rfl, rfl⟩ : before = [gNBIe] ∧ list = [.ranFunctionItem oneDefinition] := by
      rcases before with _ | ⟨ie, _ | ⟨ie', before⟩⟩
      · cases h
      · injection h with hie h
        injection h with hlist h
        injection hlist with hlist
        exact ⟨by rw [hie], hlist.symm⟩
      · simp [oneList] at h
    refine ⟨rfl, fun j item hitem => ?_⟩
    rcases j with _ | j
    · obtain rfl := Option.some.inj hitem
      exact ⟨encodingOf [0x31], by decide +kernel, by decide +kernel, rfl⟩
    · cases hitem
  exact ⟨hcollect, (@replaced_iff Unit 0 oneCodec (Pugi.compact (setupXml [gNBXml, oneListXml]))
    start peer (fun _ _ => []) _ _ (oneCollected_eq hcollect)
    ⟨compact (setupXml [gNBXml, oneListXml]), 0⟩
    (compact (setupXml [gNBXml, oneListXml])).length _ (Pugi.load_compact _) hdoc).2 haligned⟩

/-- **With two lists the walk throws**: the vector has the entries of the second only. -/
theorem not_replaced : ¬ ∀ (D : Type) (codec : DefinitionCodec D) (pugi : Pugi) (p : Nat)
    (s : Termination) (cu : ConnectedCU) (stack : Nat → Nat → Bytes) (ies : List SetupRequestIe)
    (r : RequestData) (buffer : Memory) (size : Nat) (doc : XmlNode),
    collectRequestData codec p s cu stack ies = (r, true) →
    pugi.load_buffer (buffer.bytes.take size) = some doc → Renders doc ies →
      ∃ doc', rewritten "E2setupRequest" "E2setupRequestIEs" r.ranFunctionsAdded doc = some doc' ∧
        buildXmlData pugi "E2setupRequest" "E2setupRequestIEs" r.ranFunctionsAdded buffer size =
          some (buffer.write 0 (pugi.print doc'), 0) ∧ HasEncodings codec ies doc' := by
  intro hall
  have hcollect : (oneCollected [gNBIe, oneList, oneList]).2 = true := by decide +kernel
  have hdoc : Renders (setupXml [gNBXml, oneListXml, oneListXml]) [gNBIe, oneList, oneList] :=
    .cons .nil (.cons (.cons (fun _ => rfl) .nil) (.cons (.cons (fun _ => rfl) .nil) .nil))
  obtain ⟨doc', hdoc', -, -⟩ := hall Unit oneCodec
    (Pugi.compact (setupXml [gNBXml, oneListXml, oneListXml])) 0 start peer (fun _ _ => [])
    [gNBIe, oneList, oneList] _ ⟨compact (setupXml [gNBXml, oneListXml, oneListXml]), 0⟩
    (compact (setupXml [gNBXml, oneListXml, oneListXml])).length _
    (oneCollected_eq hcollect) (Pugi.load_compact _) hdoc
  have hnone : (rewritten "E2setupRequest" "E2setupRequestIEs"
      (oneCollected [gNBIe, oneList, oneList]).1.ranFunctionsAdded
      (setupXml [gNBXml, oneListXml, oneListXml])).isSome = false := by decide +kernel
  rw [hdoc'] at hnone
  cases hnone

end NearRtRic.E2Term
