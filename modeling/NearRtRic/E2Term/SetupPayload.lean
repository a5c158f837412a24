/-
# The payload of a setup request

`buildAndsendSetupRequest` renders a setup request as XML in a buffer on the stack, has
`buildXmlData` replace the function definitions, which copies the new text over the old
one in the same buffer, and prints the buffer as a C string behind the address of the
termination.

The NUL that ends the rendering is where the old text ends.  A new text that is shorter
leaves the end of the old one behind itself, and one that is longer takes the NUL with
it.  `payload_exact_iff` is the condition under which the payload is the new text and
nothing is written past the buffer.
-/

import NearRtRic.E2Term.RanFunctions

namespace NearRtRic.E2Term

open CString Xml Xml.Node

/-- What `asn_encode_to_buffer` writes for a request, which has no NUL in it. -/
structure Rendering where
  text : Bytes
  no_nul : 0 ∉ text

/-- The fields of `sctp_params_t` that go into the message. -/
structure SctpParams where
  myIP : Bytes
  rmrPort : UInt16

/-- `"%s:%d|"`. -/
def SctpParams.address (params : SctpParams) : Bytes :=
  visible params.myIP ++ ascii ":" ++ ascii (toString params.rmrPort.toNat) ++ ascii "|"

/-- The message of type `RIC_E2_SETUP_REQ` as it is given to `rmr_send_msg`. -/
structure SetupMessage where
  len : Nat
  payload : Bytes
  meid : Bytes

/-- The bytes that are sent. -/
def SetupMessage.sent (rmrMsg : SetupMessage) : Bytes := rmrMsg.payload.take rmrMsg.len

/-- What becomes of a request. -/
inductive SetupOutcome where
  /-- `std::out_of_range`. -/
  | throws
  | dropped
  | sends (rmrMsg : SetupMessage) (buffer : Memory)

/-- `buildAndsendSetupRequest`.  `stack` is what memory holds from the start of `buffer` on, and
`payload` what the message holds.  No `rendering` is for a request that does not encode. -/
def buildAndsendSetupRequest (pugi : Pugi) (params : SctpParams) (enodbName : Bytes)
    (rendering : Option Rendering) (repValues : List Bytes) (stack payload : Bytes) :
    SetupOutcome :=
  match rendering with
  | none => .dropped
  | some er =>
      if er.text.length ≤ xmlBufferSize then
        let buffer : Memory := ((⟨stack, 0⟩ : Memory).write 0 er.text).write er.text.length [0]
        match buildXmlData pugi "E2setupRequest" "E2setupRequestIEs" repValues buffer
            er.text.length with
        | none => .throws
        | some (buffer, _) =>
            let text := params.address ++ visible buffer.bytes
            .sends ⟨text.length, snprintf xmlBufferSize text payload, visible enodbName⟩ buffer
      else .dropped

/-- The payload is the address and the rewritten document, of that length, and nothing was
written past the buffer. -/
def SetupOutcome.Exact (pugi : Pugi) (params : SctpParams) (repValues : List Bytes)
    (doc : XmlNode) : SetupOutcome → Prop
  | sends rmrMsg buffer =>
      ∃ doc', rewritten "E2setupRequest" "E2setupRequestIEs" repValues doc = some doc' ∧
        rmrMsg.sent = params.address ++ pugi.print doc' ∧
        rmrMsg.len = (params.address ++ pugi.print doc').length ∧
        buffer.written ≤ xmlBufferSize
  | _ => False

/-- There is an entry for each item, the old text leaves room for its NUL and the new one for
its address too, and the new one is as long as the old one or longer, with a NUL from before
behind it. -/
structure PayloadFits (pugi : Pugi) (params : SctpParams) (text : Bytes) (repValues : List Bytes)
    (stack : Bytes) (doc : XmlNode) : Prop where
  entries : (containers "E2setupRequest" "E2setupRequestIEs" doc).length ≤ repValues.length
  old : text.length < xmlBufferSize
  new : (params.address ++
    pugi.print (filled "E2setupRequest" "E2setupRequestIEs" repValues doc)).length < xmlBufferSize
  nul : (pugi.print (filled "E2setupRequest" "E2setupRequestIEs" repValues doc)).length =
      text.length ∨
    text.length < (pugi.print (filled "E2setupRequest" "E2setupRequestIEs" repValues doc)).length ∧
      stack.getD (pugi.print
        (filled "E2setupRequest" "E2setupRequestIEs" repValues doc)).length 0 = 0

/-- The address has no NUL. -/
theorem zero_notMem_address (params : SctpParams) : 0 ∉ params.address := by
  have hip := zero_notMem_visible params.myIP
  have hport := zero_notMem_ascii_toString params.rmrPort.toNat
  have hcolon : 0 ∉ ascii ":" ∧ 0 ∉ ascii "|" := by decide
  unfold SctpParams.address
  simp only [List.mem_append, not_or]
  exact ⟨⟨⟨hip, hcolon.1⟩, hport⟩, hcolon.2⟩

/-- **The buffer shows the new text exactly if it ends with a NUL there.** -/
theorem visible_rewritten_iff {old new : Bytes} (hold : 0 ∉ old) (hnew : 0 ∉ new) (b : Bytes) :
    visible (memcpy new (old ++ 0 :: b.drop (old.length + 1))) = new ↔
      new.length = old.length ∨ old.length < new.length ∧ b.getD new.length 0 = 0 := by
  rw [visible_memcpy_iff hnew]
  rcases Nat.lt_trichotomy new.length old.length with hlt | heq | hgt
  · -- the byte is one of the old text
    have hget : (old ++ 0 :: b.drop (old.length + 1)).getD new.length 0 = old[new.length] := by
      rw [List.getD_eq_getElem?_getD, List.getElem?_append_left hlt, List.getElem?_eq_getElem hlt,
        Option.getD_some]
    have hne : old[new.length] ≠ 0 := fun h => hold (h ▸ List.getElem_mem hlt)
    rw [hget]
    exact iff_of_false hne (by omega)
  · have hget : (old ++ 0 :: b.drop (old.length + 1)).getD new.length 0 = 0 := by
      rw [heq, List.getD_eq_getElem?_getD, List.getElem?_append_right le_rfl, Nat.sub_self]
      rfl
    exact iff_of_true hget (.inl heq)
  · obtain ⟨k, hk⟩ : ∃ k, new.length = old.length + 1 + k :=
      ⟨new.length - (old.length + 1), by omega⟩
    have hget : (old ++ 0 :: b.drop (old.length + 1)).getD new.length 0 = b.getD new.length 0 := by
      have hindex : old.length + 1 + k - old.length = k + 1 := by omega
      rw [hk, List.getD_eq_getElem?_getD, List.getElem?_append_right (by omega), hindex,
        List.getElem?_cons_succ, List.getElem?_drop, List.getD_eq_getElem?_getD]
    rw [hget]
    constructor
    · exact fun h => .inr ⟨hgt, h⟩
    · rintro (h | h)
      · omega
      · exact h.2

/-- **A printed text is sent as it is exactly if it fits.** -/
theorem sent_eq_iff {address shown new payload : Bytes} (haddress : 0 ∉ address) (hnew : 0 ∉ new) :
    (snprintf xmlBufferSize (address ++ shown) payload).take (address ++ shown).length =
        address ++ new ↔ shown = new ∧ (address ++ new).length < xmlBufferSize := by
  rcases take_snprintf (by decide : 0 < xmlBufferSize) (address ++ shown) payload with
    ⟨htake, hlt⟩ | ⟨hzero, hle⟩
  · rw [htake, List.append_cancel_left_eq]
    constructor
    · rintro rfl
      exact ⟨rfl, hlt⟩
    · exact fun h => h.1
  · constructor
    · intro heq
      rw [heq, List.mem_append] at hzero
      exact (hzero.elim haddress hnew).elim
    · rintro ⟨rfl, hlt⟩
      omega

/-- What is sent where the rendering loads and there is an entry for each item. -/
theorem buildAndsendSetupRequest_eq (pugi : Pugi) (params : SctpParams) (enodbName : Bytes)
    (rendering : Rendering) {repValues : List Bytes} (stack payload : Bytes) {doc : XmlNode}
    (hsize : rendering.text.length ≤ xmlBufferSize)
    (hload : pugi.load_buffer rendering.text = some doc) :
    buildAndsendSetupRequest pugi params enodbName (some rendering) repValues stack payload =
      match rewritten "E2setupRequest" "E2setupRequestIEs" repValues doc with
      | none => .throws
      | some doc =>
          let text := params.address ++ visible (memcpy (pugi.print doc)
            (rendering.text ++ 0 :: stack.drop (rendering.text.length + 1)))
          .sends ⟨text.length, snprintf xmlBufferSize text payload, visible enodbName⟩
            (Memory.write 0 (pugi.print doc) (Memory.write rendering.text.length [0]
              (Memory.write 0 rendering.text ⟨stack, 0⟩))) := by
  have hbytes := bytes_write_nul rendering.text ⟨stack, 0⟩
  unfold buildAndsendSetupRequest
  dsimp only
  rw [if_pos hsize, buildXmlData, hbytes, List.take_left, hload]
  dsimp only
  cases rewritten "E2setupRequest" "E2setupRequestIEs" repValues doc with
  | none => rfl
  | some doc =>
      dsimp only [Option.map_some]
      rw [bytes_write_zero, hbytes]

/-- **What is sent is exact** if there is room, and the new text ends with a NUL. -/
theorem exact_sends_iff (pugi : Pugi) (params : SctpParams) (enodbName : Bytes)
    (rendering : Rendering) {repValues : List Bytes} (stack payload : Bytes) {doc doc' : XmlNode}
    (hsize : rendering.text.length ≤ xmlBufferSize)
    (hload : pugi.load_buffer rendering.text = some doc)
    (hdoc' : rewritten "E2setupRequest" "E2setupRequestIEs" repValues doc = some doc') :
    (buildAndsendSetupRequest pugi params enodbName (some rendering) repValues stack payload).Exact
        pugi params repValues doc ↔
      rendering.text.length < xmlBufferSize ∧
        (params.address ++ pugi.print doc').length < xmlBufferSize ∧
          ((pugi.print doc').length = rendering.text.length ∨
            rendering.text.length < (pugi.print doc').length ∧
              stack.getD (pugi.print doc').length 0 = 0) := by
  have hshown := visible_rewritten_iff rendering.no_nul (pugi.print_no_nul doc') stack
  have hsent := @sent_eq_iff params.address (visible (memcpy (pugi.print doc')
      (rendering.text ++ 0 :: stack.drop (rendering.text.length + 1)))) (pugi.print doc') payload
    (zero_notMem_address params) (pugi.print_no_nul doc')
  have hwritten : (Memory.write 0 (pugi.print doc') (Memory.write rendering.text.length [0]
      (Memory.write 0 rendering.text ⟨stack, 0⟩))).written =
      max (rendering.text.length + 1) (pugi.print doc').length := by
    simp only [Memory.write, List.length_singleton]
    omega
  rw [buildAndsendSetupRequest_eq pugi params enodbName rendering stack payload hsize hload, hdoc',
    ← hshown]
  dsimp only [SetupOutcome.Exact]
  rw [hdoc', hwritten]
  constructor
  · rintro ⟨doc'', hdoc'', hpayload, -, hend⟩
    obtain rfl := Option.some.inj hdoc''
    obtain ⟨hvisible, hroom⟩ := hsent.1 hpayload
    exact ⟨by omega, hroom, hvisible⟩
  · rintro ⟨hold, hroom, hvisible⟩
    have hlength := hroom
    rw [List.length_append] at hlength
    refine ⟨doc', rfl, hsent.2 ⟨hvisible, hroom⟩, ?_, by omega⟩
    rw [hvisible]

/-- **When the payload of a setup request is exact.** -/
theorem payload_exact_iff (pugi : Pugi) (params : SctpParams) (enodbName : Bytes)
    (rendering : Rendering) (repValues : List Bytes) (stack payload : Bytes) {doc : XmlNode}
    (hsize : rendering.text.length ≤ xmlBufferSize)
    (hload : pugi.load_buffer rendering.text = some doc) :
    (buildAndsendSetupRequest pugi params enodbName (some rendering) repValues stack payload).Exact
        pugi params repValues doc ↔ PayloadFits pugi params rendering.text repValues stack doc := by
  have hrewritten := rewritten_eq "E2setupRequest" "E2setupRequestIEs" repValues doc
  by_cases hentries : (containers "E2setupRequest" "E2setupRequestIEs" doc).length ≤
      repValues.length
  · rw [if_pos hentries] at hrewritten
    rw [exact_sends_iff pugi params enodbName rendering stack payload hsize hload hrewritten]
    constructor
    · rintro ⟨hold, hroom, hnul⟩
      exact ⟨hentries, hold, hroom, hnul⟩
    · exact fun h => ⟨h.old, h.new, h.nul⟩
  · rw [if_neg hentries] at hrewritten
    rw [buildAndsendSetupRequest_eq pugi params enodbName rendering stack payload hsize hload,
      hrewritten]
    exact iff_of_false (fun h => h) fun h => hentries h.entries

/-- The rendering of a document. -/
def renderingOf (doc : XmlNode) : Rendering := ⟨compact doc, zero_notMem_compact doc⟩

/-- The example's parser loads back what was printed. -/
theorem load_renderingOf (doc : XmlNode) :
    (Pugi.compact doc).load_buffer (renderingOf doc).text = some doc := if_pos rfl

def termination : SctpParams := ⟨ascii "10.0.2.10", 38000⟩

/-- The request of a peer with one definition, where the stack is zeroed. -/
theorem payload_exact_iff_one :
    (buildAndsendSetupRequest (Pugi.compact (setupXml [gNBXml, oneListXml])) termination
        (ascii "gnb:208-092-b5c677") (some (renderingOf (setupXml [gNBXml, oneListXml])))
        [encodingOf [0x31]] [] []).Exact
      (Pugi.compact (setupXml [gNBXml, oneListXml])) termination [encodingOf [0x31]]
      (setupXml [gNBXml, oneListXml]) := by
  have hold : (renderingOf (setupXml [gNBXml, oneListXml])).text.length = 594 := by decide +kernel
  have hnew : (compact (filled "E2setupRequest" "E2setupRequestIEs" [encodingOf [0x31]]
      (setupXml [gNBXml, oneListXml]))).length = 919 := by decide +kernel
  have hentries : (containers "E2setupRequest" "E2setupRequestIEs"
      (setupXml [gNBXml, oneListXml])).length = 1 := rfl
  have hload := load_renderingOf (setupXml [gNBXml, oneListXml])
  have haddress : termination.address.length = 16 := by decide +kernel
  -- the unifier is not to evaluate the document
  generalize setupXml [gNBXml, oneListXml] = doc at hold hnew hentries hload ⊢
  refine (payload_exact_iff _ _ _ _ _ _ _ (hold.trans_le (by decide)) hload).2 ?_
  constructor
  · exact hentries.le
  · exact hold.trans_lt (by decide)
  · rw [List.length_append, haddress]
    exact (congrArg (16 + ·) hnew).trans_lt (by decide)
  · rw [hold]
    exact .inr ⟨(by decide : 594 < 919).trans_eq hnew.symm, rfl⟩

/-- A definition whose OID has 200 digits, in hexadecimal (again made-up bytes: what counts is
that a digit takes three characters here and one in the text of the definition). -/
def longXml : XmlNode :=
  setupXml [gNBXml, addedXml [itemXml (utf8 "00 00 00 41 00 00 C7" ++
    (List.replicate 200 (utf8 " 31")).flatten ++ utf8 " 00 00 42")]]

/-- **A shorter document is followed by the end of the old one.** -/
theorem not_payload_exact : ¬ ∀ (pugi : Pugi) (params : SctpParams) (enodbName : Bytes)
    (rendering : Rendering) (repValues : List Bytes) (stack payload : Bytes) (doc : XmlNode),
    rendering.text.length ≤ xmlBufferSize → pugi.load_buffer rendering.text = some doc →
      (buildAndsendSetupRequest pugi params enodbName (some rendering) repValues stack
        payload).Exact pugi params repValues doc := by
  intro hall
  have hold : (renderingOf longXml).text.length = 1191 := by decide +kernel
  have hnew : (rewritten "E2setupRequest" "E2setupRequestIEs"
      [encodingOf (List.replicate 200 0x31)] longXml).map (fun doc => (compact doc).length) =
        some 1118 := by decide +kernel
  have hload := load_renderingOf longXml
  generalize longXml = doc at hold hload hnew
  obtain ⟨doc', hdoc', hprint⟩ := Option.map_eq_some_iff.1 hnew
  have hsize : (renderingOf doc).text.length ≤ xmlBufferSize := hold.trans_le (by decide)
  obtain ⟨-, -, hnul⟩ := (exact_sends_iff (Pugi.compact doc) termination [] (renderingOf doc) [] []
    hsize hload hdoc').1 (hall _ _ _ _ _ _ _ _ hsize hload)
  have hlength : ((Pugi.compact doc).print doc').length = 1118 := hprint
  rw [hold, hlength] at hnul
  omega

end NearRtRic.E2Term
