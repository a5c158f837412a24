/-
# The RAN name of a Global E2 node ID

`BuildRunName.h` writes the RAN name of an E2 setup into a character buffer in
place: `translatePlmnId` prints the kind of the node and its PLMN,
`translateBitStringToChar` then appends a dash and the hexadecimal digits of the
node ID.  The second copies its text back without the NUL that ends it, so what
the buffer held behind that place shows again.

`ranName` is the name an identity has on its own: what is written into a cleared
buffer.  `buildRanName_nil` describes that buffer, `ranName_spec` the name: it is
not empty, has no NUL in it and does not begin like the `host:` keys of the
same map.
-/

import NearRtRic.CString.Basic

namespace NearRtRic.E2Term

open CString

/-- A PLMN identity: the three octets of `plmn_id.buf`. -/
structure PlmnId where
  octet0 : UInt8
  octet1 : UInt8
  octet2 : UInt8
  deriving DecidableEq, Repr

/-- `GlobalE2node_ID`: the choice of the node kind, with the octets of the bit
string its ID is in.  A gNB or en-gNB may carry an ID choice that is not known. -/
inductive GlobalE2nodeID where
  | gNB (plmn : PlmnId) (gnb_id : Option Bytes)
  | en_gNB (plmn : PlmnId) (gNB_ID : Option Bytes)
  | ng_eNB_macroID (plmn : PlmnId) (enb_ID : Bytes)
  | ng_eNB_shortmacroID (plmn : PlmnId) (enb_ID : Bytes)
  | ng_eNB_longmacroID (plmn : PlmnId) (enb_ID : Bytes)
  | eNB_macroID (plmn : PlmnId) (eNB_ID : Bytes)
  | eNB_homeID (plmn : PlmnId) (eNB_ID : Bytes)
  | eNB_shortmacroID (plmn : PlmnId) (eNB_ID : Bytes)
  | eNB_longmacroID (plmn : PlmnId) (eNB_ID : Bytes)
  /-- Present, but of none of the kinds. -/
  | nothing
  deriving DecidableEq, Repr

/-! ### The buffer functions -/

/-- The low and the high half of an octet. -/
def lo (b : UInt8) : Nat := b.toNat % 16

def hi (b : UInt8) : Nat := b.toNat / 16

/-- `%1d` of a half octet. -/
def dec (n : Nat) : Bytes :=
  if n < 10 then [UInt8.ofNat (48 + n)] else [49, UInt8.ofNat (38 + n)]

/-- `%1x` of a half octet. -/
def hex (n : Nat) : Bytes := if n < 10 then [UInt8.ofNat (48 + n)] else [UInt8.ofNat (87 + n)]

/-- The text that `translatePlmnId` prints. -/
def plmnText (data : PlmnId) (type : Bytes) : Bytes :=
  let mcc := dec (lo data.octet0) ++ dec (hi data.octet0) ++ dec (lo data.octet1)
  let mnc12 := dec (lo data.octet2) ++ dec (hi data.octet2)
  let mnc3 := hi data.octet1
  type ++ mcc ++ ascii "-" ++ (if mnc3 ≠ 15 then mnc12 ++ dec mnc3 else ascii "0" ++ mnc12)

/-- `translatePlmnId`: at most 19 characters and a NUL. -/
def translatePlmnId (plmnId : Bytes) (data : PlmnId) (type : Bytes) : Bytes :=
  snprintf 20 (plmnText data type) plmnId

/-- One `snprintf(buffer, 256, "%s…", ranName)` and the copy back, which leaves the NUL out. -/
def append (ranName text : Bytes) : Bytes := memcpy (visible ranName ++ text) ranName

/-- `translateBitStringToChar`: a dash, then two digits for each octet. -/
def translateBitStringToChar (ranName data : Bytes) : Bytes :=
  data.foldl (fun r b => append (append r (hex (hi b))) (hex (lo b))) (append ranName (ascii "-"))

/-- `buildRanName`: the buffer afterwards, `none` for the result `-1`. -/
def buildRanName (ranName : Bytes) : GlobalE2nodeID → Option Bytes
  | .gNB plmn gnb_id =>
      let r := translatePlmnId ranName plmn (ascii "gnb:")
      some (gnb_id.elim r (translateBitStringToChar r))
  | .en_gNB plmn gNB_ID =>
      let r := translatePlmnId ranName plmn (ascii "en-gnb:")
      some (gNB_ID.elim r (translateBitStringToChar r))
  | .ng_eNB_macroID plmn data =>
      some (translateBitStringToChar (translatePlmnId ranName plmn (ascii "ng-enB-macro:")) data)
  | .ng_eNB_shortmacroID plmn data =>
      some (translateBitStringToChar
        (translatePlmnId ranName plmn (ascii "ng-enB-shortmacro:")) data)
  | .ng_eNB_longmacroID plmn data =>
      some (translateBitStringToChar
        (translatePlmnId ranName plmn (ascii "ng-enB-longmacro:")) data)
  | .eNB_macroID plmn data =>
      some (translateBitStringToChar (translatePlmnId ranName plmn (ascii "enB-macro:")) data)
  | .eNB_homeID plmn data =>
      some (translateBitStringToChar (translatePlmnId ranName plmn (ascii "enB-home:")) data)
  | .eNB_shortmacroID plmn data =>
      some (translateBitStringToChar (translatePlmnId ranName plmn (ascii "enB-shortmacro:")) data)
  | .eNB_longmacroID plmn data =>
      some (translateBitStringToChar (translatePlmnId ranName plmn (ascii "enB-longmacro:")) data)
  | .nothing => none

/-- The RAN name of an identity, `none` if it is unusable. -/
def ranName (id : GlobalE2nodeID) : Option Bytes := (buildRanName [] id).map visible

/-- Nothing but the NUL that ends the text lies behind it. -/
def Clean (b : Bytes) : Prop := b = visible b ∨ b = visible b ++ [0]

/-- A usable name: not empty, without NUL, and not of the form `h…`. -/
structure IsName (n : Bytes) : Prop where
  no_nul : 0 ∉ n
  ne_nil : n ≠ []
  head_ne : n.head? ≠ some 104

/-- A text without a NUL is clean. -/
theorem Clean.of_no_nul {n : Bytes} (h : 0 ∉ n) : Clean n := Or.inl (visible_eq_self h).symm

/-- So is one with a NUL behind it. -/
theorem Clean.terminated {n : Bytes} (h : 0 ∉ n) : Clean (n ++ [0]) := by
  refine Or.inr ?_
  rw [visible_append h]
  simp [visible_cons]

/-- Copying a text over a clean buffer that shows no more than the text. -/
theorem visible_memcpy {n old : Bytes} (h : 0 ∉ n) (hold : Clean old)
    (hlen : (visible old).length ≤ n.length) : visible (memcpy n old) = n := by
  rw [memcpy, visible_append h]
  rcases hold with hold | hold
  · rw [hold, List.drop_eq_nil_of_le hlen, visible_nil, List.append_nil]
  · rw [hold, List.drop_append, List.drop_eq_nil_of_le hlen, List.nil_append]
    have hdrop : visible (List.drop (n.length - (visible old).length) [0]) = [] := by
      cases n.length - (visible old).length with
      | zero => rfl
      | succ k => simp
    rw [hdrop, List.append_nil]

/-! ### The name on a cleared buffer -/

/-- A decimal digit is printed without a NUL. -/
theorem zero_notMem_dec {n : Nat} (h : n < 16) : (0 : UInt8) ∉ dec n := by
  revert n
  decide

/-- So is a hexadecimal one. -/
theorem zero_notMem_hex {n : Nat} (h : n < 16) : (0 : UInt8) ∉ hex n := by
  revert n
  decide

/-- Half an octet is below 16. -/
theorem lo_lt (b : UInt8) : lo b < 16 := Nat.mod_lt _ (by decide)

/-- So is the other half. -/
theorem hi_lt (b : UInt8) : hi b < 16 := by
  have := b.toNat_lt
  unfold hi
  omega

/-- The text of a PLMN has no NUL. -/
theorem zero_notMem_plmnText {data : PlmnId} {type : Bytes} (h : 0 ∉ type) :
    0 ∉ plmnText data type := by
  have hlo := fun b => zero_notMem_dec (lo_lt b)
  have hhi := fun b => zero_notMem_dec (hi_lt b)
  unfold plmnText
  dsimp only
  split
  · simp [h, hlo, hhi, show (0 : UInt8) ∉ ascii "-" by decide]
  · simp [h, hlo, hhi, show (0 : UInt8) ∉ ascii "-" by decide,
      show (0 : UInt8) ∉ ascii "0" by decide]

/-- A hexadecimal digit is one character. -/
theorem length_hex (n : Nat) : (hex n).length = 1 := by
  unfold hex
  split <;> rfl

/-- The two digits of each octet. -/
def hexDigits (data : Bytes) : Bytes := data.flatMap fun b => hex (hi b) ++ hex (lo b)

/-- The text of a bit string has no NUL. -/
theorem zero_notMem_hexDigits (data : Bytes) : 0 ∉ hexDigits data := by
  intro h
  obtain ⟨b, -, hb⟩ := List.mem_flatMap.1 h
  rcases List.mem_append.1 hb with hb | hb
  · exact zero_notMem_hex (hi_lt b) hb
  · exact zero_notMem_hex (lo_lt b) hb

/-- Appending to a text with NULs behind it. -/
theorem append_zeros {r : Bytes} (h : 0 ∉ r) (text : Bytes) (k : Nat) :
    append (r ++ List.replicate k 0) text = r ++ text ++ List.replicate (k - text.length) 0 := by
  rw [append, visible_append_zeros h, memcpy, List.length_append, List.drop_append,
    List.drop_eq_nil_of_le (by omega), List.nil_append, Nat.add_sub_cancel_left,
    List.drop_replicate]

/-- The digits stand behind the dash, one octet after the other. -/
theorem translateBitStringToChar_zeros {text : Bytes} (h : 0 ∉ text) (data : Bytes) (k : Nat) :
    translateBitStringToChar (text ++ List.replicate k 0) data =
      text ++ ascii "-" ++ hexDigits data ++ List.replicate (k - 1 - 2 * data.length) 0 := by
  have hloop : ∀ (data r : Bytes) (k : Nat), 0 ∉ r →
      data.foldl (fun r b => append (append r (hex (hi b))) (hex (lo b)))
        (r ++ List.replicate k 0) =
          r ++ hexDigits data ++ List.replicate (k - 2 * data.length) 0 := by
    intro data
    induction data with
    | nil =>
        intro r k _
        rw [hexDigits, List.flatMap_nil, List.append_nil]
        rfl
    | cons b data ih =>
        intro r k hr
        have hr₁ : 0 ∉ r ++ hex (hi b) := by simp [hr, zero_notMem_hex (hi_lt b)]
        have hr₂ : 0 ∉ r ++ hex (hi b) ++ hex (lo b) := by
          rw [List.mem_append, not_or]
          exact ⟨hr₁, zero_notMem_hex (lo_lt b)⟩
        have hk : k - 1 - 1 - 2 * data.length = k - 2 * (b :: data).length := by
          rw [List.length_cons]
          omega
        rw [List.foldl_cons, append_zeros hr, length_hex, append_zeros hr₁, length_hex,
          ih _ _ hr₂, hk, hexDigits, hexDigits, List.flatMap_cons]
        simp only [List.append_assoc]
  have htext : (0 : UInt8) ∉ text ++ ascii "-" := by
    simp [h, show (0 : UInt8) ∉ ascii "-" by decide]
  rw [translateBitStringToChar, append_zeros h, hloop data _ _ htext]
  rfl

/-- Where one NUL ends the text, the dash takes its place. -/
theorem translateBitStringToChar_eq {text : Bytes} (h : 0 ∉ text) (data : Bytes) :
    translateBitStringToChar (text ++ [0]) data = text ++ ascii "-" ++ hexDigits data ∧
    0 ∉ translateBitStringToChar (text ++ [0]) data := by
  have heq : translateBitStringToChar (text ++ [0]) data = text ++ ascii "-" ++ hexDigits data := by
    have hzeros := translateBitStringToChar_zeros h data 1
    rwa [Nat.sub_self, Nat.zero_sub, List.replicate_zero, List.append_nil] at hzeros
  refine ⟨heq, ?_⟩
  rw [heq]
  simp [h, zero_notMem_hexDigits, show (0 : UInt8) ∉ ascii "-" by decide]

/-- What every kind of identity is written by: the kind, the PLMN, and the digits of
the ID where it has one. -/
theorem name_of_parts {type : Bytes} (h : 0 ∉ type) {c : UInt8} (hc : type.head? = some c)
    (hc₁ : c ≠ 104) (plmn : PlmnId) (id : Option Bytes) {b : Bytes}
    (hb : id.elim (translatePlmnId [] plmn type)
      (translateBitStringToChar (translatePlmnId [] plmn type)) = b) :
    Clean b ∧ IsName (visible b) := by
  obtain ⟨rest, rfl⟩ : ∃ rest, type = c :: rest := by
    cases type with
    | nil => cases hc
    | cons d rest => exact ⟨rest, by rw [Option.some.inj hc]⟩
  -- the printed text keeps the first character of the kind
  obtain ⟨text, htext, hnul, hhead⟩ : ∃ text, translatePlmnId [] plmn (c :: rest) = text ++ [0] ∧
      0 ∉ text ∧ text.head? = some c := by
    refine ⟨(plmnText plmn (c :: rest)).take 19, ?_, ?_, ?_⟩
    · exact memcpy_of_length_le (Nat.zero_le _)
    · exact fun hmem => zero_notMem_plmnText h (List.mem_of_mem_take hmem)
    · rw [List.head?_take, if_neg (by decide)]
      rfl
  have hname : ∀ {n : Bytes}, 0 ∉ n → n.head? = some c → IsName n := by
    refine fun hn hh => ⟨hn, ?_, ?_⟩
    · rintro rfl
      cases hh
    · rw [hh]
      exact fun heq => hc₁ (Option.some.inj heq)
  rw [htext] at hb
  cases id with
  | none =>
      obtain rfl : text ++ [0] = b := hb
      have hvis : visible (text ++ [0]) = text := by
        rw [visible_append hnul]
        simp [visible_cons]
      rw [hvis]
      exact ⟨Clean.terminated hnul, hname hnul hhead⟩
  | some data =>
      obtain rfl : translateBitStringToChar (text ++ [0]) data = b := hb
      obtain ⟨heq, hno⟩ := translateBitStringToChar_eq hnul data
      rw [visible_eq_self hno]
      refine ⟨Clean.of_no_nul hno, hname hno ?_⟩
      rw [heq, List.append_assoc, List.head?_append, hhead]
      rfl

/-- **The buffer a usable identity leaves**, if it was clear: the name, ended by at
most one NUL. -/
theorem buildRanName_nil {id : GlobalE2nodeID} {b : Bytes} (h : buildRanName [] id = some b) :
    Clean b ∧ IsName (visible b) := by
  cases id with
  | gNB plmn gnb_id =>
      exact name_of_parts (by decide) (c := 103) rfl (by decide) plmn gnb_id (Option.some.inj h)
  | en_gNB plmn gNB_ID =>
      exact name_of_parts (by decide) (c := 101) rfl (by decide) plmn gNB_ID (Option.some.inj h)
  | ng_eNB_macroID plmn data | ng_eNB_shortmacroID plmn data | ng_eNB_longmacroID plmn data =>
      exact name_of_parts (by decide) (c := 110) rfl (by decide) plmn (some data)
        (Option.some.inj h)
  | eNB_macroID plmn data | eNB_homeID plmn data | eNB_shortmacroID plmn data
  | eNB_longmacroID plmn data =>
      exact name_of_parts (by decide) (c := 101) rfl (by decide) plmn (some data)
        (Option.some.inj h)
  | nothing => cases h

/-- A RAN name is usable as a key. -/
theorem ranName_spec {id : GlobalE2nodeID} {n : Bytes} (h : ranName id = some n) : IsName n := by
  obtain ⟨b, hb, rfl⟩ := Option.map_eq_some_iff.1 h
  exact (buildRanName_nil hb).2

/-- Whether an identity is usable does not depend on the buffer. -/
theorem buildRanName_eq_none {id : GlobalE2nodeID} (b : Bytes) :
    buildRanName b id = none ↔ ranName id = none := by
  cases id <;> simp [buildRanName, ranName]

example : ranName (.gNB ⟨0x02, 0xf8, 0x29⟩ (some [0xb5, 0xc6, 0x7])) =
    some (ascii "gnb:208-092-b5c607") := by decide

end NearRtRic.E2Term
