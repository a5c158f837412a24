/-
# The rewriting of a setup request

`buildXmlData` in `BuildXml.h` parses the XML rendering of a setup request and walks
over the list items of every element with the id 10, `RANfunctionsAdded`.  In each it
replaces the content of `ranFunctionDefinition` by the next entry of a vector.  The
index into the vector goes on over all the lists, and it moves also where an item has
no such element.  What is printed of the tree is copied over the rendering.

The parser and the printer are not part of the repository (`Pugi`).  The walk is an
action on the tree: `rewritten_eq` says that it throws exactly where there are more
items than entries, and `definitions_filled` what it leaves otherwise.
-/

import NearRtRic.CString.Basic
import NearRtRic.Xml.Supply

namespace NearRtRic.E2Term

open CString Xml Xml.Node

/-- The nodes of pugixml. -/
abbrev XmlNode := Node String Bytes

/-- `load_buffer` and `print` of pugixml, whose texts are C strings.  The document is an
element whose children are those of the document. -/
structure Pugi where
  load_buffer : Bytes → Option XmlNode
  print : XmlNode → Bytes
  print_no_nul : ∀ doc, 0 ∉ print doc

/-! ### The walk -/

section

variable {m : Type → Type} [Applicative m]

/-- `remove_children`, and `val` as the only child.  On a null node both do nothing. -/
def replaceDefinition (n1 : XmlNode) (val : Bytes) : XmlNode :=
  n1.update ["value", "RANfunction-Item", "ranFunctionDefinition"] (setText val)

/-- An element of the message, where `next` is `RANfunctionsAdded.at(index++)`. -/
def replaceIe (next : m Bytes) (tool : XmlNode) : m XmlNode :=
  match tool.child "id" with
  | none => pure tool
  | some node =>
      if node.childValue = some (ascii "10") then
        atPath ["value", "RANfunctions-List"] (onChildren (onNamed "ProtocolIE-SingleContainer"
          fun n1 => replaceDefinition n1 <$> next)) tool
      else pure tool

/-- The loop over the elements of the message. -/
def replaceDefinitions (messageName ieName : String) (next : m Bytes) (doc : XmlNode) : m XmlNode :=
  atPath ["E2AP-PDU", "initiatingMessage", "value", messageName, "protocolIEs"]
    (onChildren (onNamed ieName (replaceIe next))) doc

end

/-- The tree after the loop.  `none` is for `std::out_of_range`. -/
def rewritten (messageName ieName : String) (ranFunctionsAdded : List Bytes) (doc : XmlNode) :
    Option XmlNode :=
  ((replaceDefinitions messageName ieName (takeAt ranFunctionsAdded) doc).run 0).map Prod.fst

/-- `buildXmlData`, with what it returns.  `none` is for an exception. -/
def buildXmlData (pugi : Pugi) (messageName ieName : String) (ranFunctionsAdded : List Bytes)
    (buffer : Memory) (size : Nat) : Option (Memory × Int) :=
  match pugi.load_buffer (buffer.bytes.take size) with
  | none => some (buffer, -1)
  | some doc =>
      (rewritten messageName ieName ranFunctionsAdded doc).map fun doc =>
        (buffer.write 0 (pugi.print doc), 0)

/-! ### The items of a document -/

/-- The id of an element is the one of `RANfunctionsAdded`. -/
def isAdded (tool : XmlNode) : Bool :=
  (tool.child "id").bind childValue = some (ascii "10")

/-- The list items of an element of the message. -/
def ieContainers (tool : XmlNode) : List XmlNode :=
  if isAdded tool then
    (tool.descend ["value", "RANfunctions-List"]).elim [] fun list =>
      named "ProtocolIE-SingleContainer" list.children
  else []

/-- The elements of a message. -/
def messageIes (messageName ieName : String) (doc : XmlNode) : List XmlNode :=
  (doc.descend ["E2AP-PDU", "initiatingMessage", "value", messageName, "protocolIEs"]).elim []
    fun ies => named ieName ies.children

/-- The list items of a message, in document order. -/
def containers (messageName ieName : String) (doc : XmlNode) : List XmlNode :=
  (messageIes messageName ieName doc).flatMap ieContainers

/-- The element `ranFunctionDefinition` of a list item. -/
def definitionOf (n1 : XmlNode) : Option XmlNode :=
  n1.descend ["value", "RANfunction-Item", "ranFunctionDefinition"]

/-- The document with the entries of a vector in its list items. -/
def filled (messageName ieName : String) (ranFunctionsAdded : List Bytes) (doc : XmlNode) :
    XmlNode :=
  (replaceDefinitions messageName ieName Supply.next doc).result ranFunctionsAdded

/-- The definition of an item is replaced under its name. -/
theorem name_replaceDefinition (n1 : XmlNode) (val : Bytes) :
    (replaceDefinition n1 val).name = n1.name := name_update_cons _ _ n1

/-- It reads as the new one, if there was one. -/
theorem definitionOf_replaceDefinition (n1 : XmlNode) (val : Bytes) :
    definitionOf (replaceDefinition n1 val) = (definitionOf n1).map (setText val) :=
  descend_update (name_setText val) _ n1

/-- For one item one definition is taken from the supply. -/
theorem updates_replaceDefinition : Updates replaceDefinition (fun n1 : XmlNode => [n1])
    fun n1 => replaceDefinition n1 <$> Supply.next where
  count _ := rfl
  targets n1 vs h := by
    cases vs with
    | nil => cases h
    | cons v vs => rfl

/-- The item keeps its name. -/
theorem keepsName_replaceDefinition :
    KeepsName fun n1 => replaceDefinition n1 <$> Supply.next :=
  fun n1 _ => name_replaceDefinition n1 _

/-- The walk over the list of an element. -/
def replaceList (tool : XmlNode) : Supply Bytes XmlNode :=
  atPath ["value", "RANfunctions-List"] (onChildren (onNamed "ProtocolIE-SingleContainer"
    fun n1 => replaceDefinition n1 <$> Supply.next)) tool

/-- What is done to the children leaves the name. -/
theorem keepsName_onChildren (f : List XmlNode → Supply Bytes (List XmlNode)) :
    KeepsName (onChildren f) := by
  intro x vs
  cases x <;> rfl

/-- So does the replacement in a list. -/
theorem keepsName_replaceList : KeepsName replaceList :=
  (keepsName_onChildren _).atPath _

/-- A list of added functions is one afterwards. -/
theorem isAdded_replaceList (tool : XmlNode) (vs : List Bytes) :
    isAdded ((replaceList tool).result vs) = isAdded tool := by
  unfold isAdded replaceList
  rw [child_result_atPath (keepsName_onChildren _) (by decide)]

/-- The IE is searched by its id, and its list replaced. -/
theorem replaceIe_eq : replaceIe Supply.next = fun tool : XmlNode =>
    if isAdded tool then replaceList tool else pure tool := by
  funext tool
  unfold replaceIe isAdded
  cases tool.child "id" with
  | none => rfl
  | some node => simp [replaceList]

/-- The items of the list are updated in order. -/
theorem updates_replaceIe : Updates replaceDefinition ieContainers (replaceIe Supply.next) := by
  have hlist := ((updates_replaceDefinition.onNamed keepsName_replaceDefinition
    "ProtocolIE-SingleContainer").onChildren rfl).atPath (keepsName_onChildren _)
      ["value", "RANfunctions-List"]
  have hite := hlist.ite isAdded_replaceList
  simp only [List.flatMap_singleton'] at hite
  rw [replaceIe_eq]
  exact hite

/-- The IE keeps its name. -/
theorem keepsName_replaceIe : KeepsName (replaceIe Supply.next) := by
  rw [replaceIe_eq]
  intro tool vs
  dsimp only
  split
  · exact keepsName_replaceList tool vs
  · rfl

/-- In the whole document the items of the added functions are updated, in order. -/
theorem updates_replaceDefinitions (messageName ieName : String) :
    Updates replaceDefinition (containers messageName ieName)
      (replaceDefinitions messageName ieName Supply.next) := by
  have hies := ((updates_replaceIe.onNamed keepsName_replaceIe ieName).onChildren rfl).atPath
    (keepsName_onChildren _) ["E2AP-PDU", "initiatingMessage", "value", messageName, "protocolIEs"]
  have hcontainers : containers messageName ieName = fun doc =>
      (doc.descend ["E2AP-PDU", "initiatingMessage", "value", messageName, "protocolIEs"]).elim []
        fun ies => (named ieName ies.children).flatMap ieContainers := by
    funext doc
    unfold containers messageIes
    cases doc.descend ["E2AP-PDU", "initiatingMessage", "value", messageName, "protocolIEs"] <;> rfl
  rw [hcontainers]
  exact hies

/-! ### What the walk leaves -/

variable (messageName ieName : String) (ranFunctionsAdded : List Bytes)

/-- **When the walk throws**, and what it is otherwise. -/
theorem rewritten_eq (doc : XmlNode) : rewritten messageName ieName ranFunctionsAdded doc =
    if (containers messageName ieName doc).length ≤ ranFunctionsAdded.length
      then some (filled messageName ieName ranFunctionsAdded doc) else none := by
  have hrel := takes_relates ranFunctionsAdded
  have hitem := takes_takeAt ranFunctionsAdded
  have hie : ∀ tool, Takes ranFunctionsAdded XmlNode (replaceIe (takeAt ranFunctionsAdded) tool)
      (replaceIe Supply.next tool) := by
    intro tool
    unfold replaceIe
    cases tool.child "id" with
    | none => exact hrel.pure tool
    | some node =>
        dsimp only
        split
        · exact hrel.atPath (hrel.onChildren (hrel.onNamed (fun n1 => hrel.map _ hitem) _)) _ tool
        · exact hrel.pure tool
  have hwalk : Takes ranFunctionsAdded XmlNode
      (replaceDefinitions messageName ieName (takeAt ranFunctionsAdded) doc)
      (replaceDefinitions messageName ieName Supply.next doc) :=
    hrel.atPath (hrel.onChildren (hrel.onNamed hie ieName)) _ doc
  rw [rewritten, run_zero_of_takes hwalk, (updates_replaceDefinitions messageName ieName).count doc]
  rfl

variable {messageName ieName ranFunctionsAdded} {doc : XmlNode}

/-- With enough definitions each item has its own. -/
theorem containers_filled
    (h : (containers messageName ieName doc).length ≤ ranFunctionsAdded.length) :
    containers messageName ieName (filled messageName ieName ranFunctionsAdded doc) =
      List.zipWith replaceDefinition (containers messageName ieName doc) ranFunctionsAdded :=
  (updates_replaceDefinitions messageName ieName).targets doc ranFunctionsAdded h

/-- The elements `ranFunctionDefinition` of a message, in document order. -/
def definitionElements (messageName ieName : String) (doc : XmlNode) : List XmlNode :=
  (containers messageName ieName doc).filterMap definitionOf

/-- **The content of the elements afterwards**, where every item has one and a text. -/
theorem definitions_filled
    (h : (containers messageName ieName doc).length = ranFunctionsAdded.length)
    (hdef : ∀ n1 ∈ containers messageName ieName doc, (definitionOf n1).isSome) :
    (definitionElements messageName ieName
        (filled messageName ieName ranFunctionsAdded doc)).map children =
      ranFunctionsAdded.map fun val => [pcdata val] := by
  rw [definitionElements, containers_filled h.le]
  generalize containers messageName ieName doc = cs at h hdef
  induction cs generalizing ranFunctionsAdded with
  | nil =>
      obtain rfl := List.eq_nil_of_length_eq_zero h.symm
      rfl
  | cons n1 cs ih =>
      cases ranFunctionsAdded with
      | nil => cases h
      | cons val vals =>
          obtain ⟨d, hd⟩ := Option.isSome_iff_exists.1 (hdef n1 List.mem_cons_self)
          have hname : d.name = some "ranFunctionDefinition" :=
            @name_of_descend _ _ _ ["value", "RANfunction-Item"] _ _ _ hd
          have hfirst : definitionOf (replaceDefinition n1 val) = some (d.setText val) := by
            rw [definitionOf_replaceDefinition, hd, Option.map_some]
          rw [List.zipWith_cons_cons, List.filterMap_cons_some hfirst, List.map_cons,
            List.map_cons, children_setText hname,
            ih (Nat.succ.inj h) fun n hn => hdef n (List.mem_cons_of_mem _ hn)]

/-! ### Documents -/

def utf8 (s : String) : Bytes := s.toUTF8.data.toList

/-- The text of a character. -/
def escape (c : UInt8) : Bytes :=
  if c = 38 then utf8 "&amp;" else if c = 60 then utf8 "&lt;" else if c = 62 then utf8 "&gt;"
  else [c]

mutual

/-- The text of a tree without white space, with a text behind it. -/
def compactBefore : XmlNode → Bytes → Bytes
  | .element n xs, rest =>
      if n = "" then compactAllBefore xs rest
      else utf8 "<" ++ (visible (utf8 n) ++ (utf8 ">" ++ compactAllBefore xs
        (utf8 "</" ++ (visible (utf8 n) ++ (utf8 ">" ++ rest)))))
  | .pcdata t, rest => (visible t).flatMap escape ++ rest

def compactAllBefore : List XmlNode → Bytes → Bytes
  | [], rest => rest
  | x :: xs, rest => compactBefore x (compactAllBefore xs rest)

end

def compact (doc : XmlNode) : Bytes := compactBefore doc []

/-- What is written for a character has no NUL. -/
theorem zero_notMem_escape {c : UInt8} (h : 0 ≠ c) : 0 ∉ escape c := by
  unfold escape
  split
  · decide
  · split
    · decide
    · split
      · decide
      · exact fun hmem => h (List.mem_singleton.1 hmem)

mutual

/-- Nor has what is written for a node. -/
theorem zero_notMem_compactBefore : ∀ (x : XmlNode) {rest : Bytes}, 0 ∉ rest →
    0 ∉ compactBefore x rest
  | .element n xs, rest, h => by
      have hname := zero_notMem_visible (utf8 n)
      have htags : 0 ∉ utf8 "<" ∧ 0 ∉ utf8 ">" ∧ 0 ∉ utf8 "</" := by decide
      have hclose : 0 ∉ utf8 "</" ++ (visible (utf8 n) ++ (utf8 ">" ++ rest)) := by
        simp only [List.mem_append, not_or]
        exact ⟨htags.2.2, hname, htags.2.1, h⟩
      rw [compactBefore]
      split
      · exact zero_notMem_compactAllBefore xs h
      · rw [List.mem_append, List.mem_append, List.mem_append, not_or, not_or, not_or]
        exact ⟨htags.1, hname, htags.2.1, zero_notMem_compactAllBefore xs hclose⟩
  | .pcdata t, rest, h => by
      rw [compactBefore, List.mem_append, List.mem_flatMap]
      rintro (⟨c, hc, hmem⟩ | hmem)
      · have hne : 0 ≠ c := by
          rintro rfl
          exact zero_notMem_visible t hc
        exact zero_notMem_escape hne hmem
      · exact h hmem

/-- Nor what is written for several. -/
theorem zero_notMem_compactAllBefore : ∀ (xs : List XmlNode) {rest : Bytes}, 0 ∉ rest →
    0 ∉ compactAllBefore xs rest
  | [], _, h => h
  | x :: xs, _, h => zero_notMem_compactBefore x (zero_notMem_compactAllBefore xs h)

end

/-- So the text of a document has none. -/
theorem zero_notMem_compact (doc : XmlNode) : 0 ∉ compact doc :=
  zero_notMem_compactBefore doc List.not_mem_nil

/-- A stand-in for the library in examples: it parses the text of one document, and prints
without white space, where the library puts every element on a line of its own.  So the
lengths in examples are not those of the library's texts. -/
def Pugi.compact (doc : XmlNode) : Pugi where
  load_buffer b := if b = E2Term.compact doc then some doc else none
  print := E2Term.compact
  print_no_nul := zero_notMem_compact

/-- And the parser of the example loads it back. -/
theorem Pugi.load_compact (doc : XmlNode) : (Pugi.compact doc).load_buffer
    ((E2Term.compact doc).take (E2Term.compact doc).length) = some doc := by
  rw [List.take_length]
  exact if_pos rfl

def leaf (n s : String) : XmlNode := element n [pcdata (utf8 s)]

/-- An item of a list, with its definition in hexadecimal. -/
def itemXml (ranFunctionDefinition : Bytes) : XmlNode :=
  element "ProtocolIE-SingleContainer" [leaf "id" "8",
    element "value" [element "RANfunction-Item" [leaf "ranFunctionID" "2",
      element "ranFunctionDefinition" [pcdata ranFunctionDefinition],
      leaf "ranFunctionRevision" "1"]]]

/-- `RANfunctionsAdded`. -/
def addedXml (list : List XmlNode) : XmlNode :=
  element "E2setupRequestIEs" [leaf "id" "10", element "value" [element "RANfunctions-List" list]]

/-- A setup request. -/
def setupXml (ies : List XmlNode) : XmlNode :=
  element "" [element "E2AP-PDU" [element "initiatingMessage" [leaf "procedureCode" "1",
    element "value" [element "E2setupRequest" [element "protocolIEs" ies]]]]]

end NearRtRic.E2Term
