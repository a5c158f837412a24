/-
# Which identities share a RAN name

The name of a node is the kind, the digits of the PLMN and the digits of the ID, and it is
the key of the node in `sctpMap` and its meid towards the E2 manager and the xApps.  The
ID is printed as a whole, the PLMN is not: `translatePlmnId` prints kind and PLMN with an
`snprintf` of 20 bytes, so that a long kind leaves no room for some of its digits, and it
prints an MNC of two digits as three with a 0 in front.

`differ_iff` says when two identities of one kind that differ have different names: when
their octets differ, or the digits of the PLMN that are printed.
-/

import NearRtRic.E2Term.RanName

namespace NearRtRic.E2Term

open CString

/-- The kinds of a Global E2 node ID. -/
inductive Kind where
  | gNB
  | en_gNB
  | ng_eNB_macroID
  | ng_eNB_shortmacroID
  | ng_eNB_longmacroID
  | eNB_macroID
  | eNB_homeID
  | eNB_shortmacroID
  | eNB_longmacroID
  deriving DecidableEq, Repr

/-- The identity of a node of a kind. -/
def Kind.identity (plmn : PlmnId) (data : Bytes) : Kind → GlobalE2nodeID
  | gNB => .gNB plmn (some data)
  | en_gNB => .en_gNB plmn (some data)
  | ng_eNB_macroID => .ng_eNB_macroID plmn data
  | ng_eNB_shortmacroID => .ng_eNB_shortmacroID plmn data
  | ng_eNB_longmacroID => .ng_eNB_longmacroID plmn data
  | eNB_macroID => .eNB_macroID plmn data
  | eNB_homeID => .eNB_homeID plmn data
  | eNB_shortmacroID => .eNB_shortmacroID plmn data
  | eNB_longmacroID => .eNB_longmacroID plmn data

/-- What its name begins with. -/
def Kind.type : Kind → Bytes
  | gNB => ascii "gnb:"
  | en_gNB => ascii "en-gnb:"
  | ng_eNB_macroID => ascii "ng-enB-macro:"
  | ng_eNB_shortmacroID => ascii "ng-enB-shortmacro:"
  | ng_eNB_longmacroID => ascii "ng-enB-longmacro:"
  | eNB_macroID => ascii "enB-macro:"
  | eNB_homeID => ascii "enB-home:"
  | eNB_shortmacroID => ascii "enB-shortmacro:"
  | eNB_longmacroID => ascii "enB-longmacro:"

/-- How many of the six printed digits of the PLMN there is room for. -/
def Kind.printedDigits : Kind → Nat
  | gNB | en_gNB | eNB_macroID | eNB_homeID => 6
  | eNB_shortmacroID => 3
  | eNB_longmacroID => 4
  | ng_eNB_macroID => 5
  | ng_eNB_shortmacroID => 1
  | ng_eNB_longmacroID => 2

/-- Well-formed BCD: three digits of MCC, three of MNC or two and the filler F. -/
structure PlmnId.WellFormed (data : PlmnId) : Prop where
  mcc : lo data.octet0 < 10 ∧ hi data.octet0 < 10 ∧ lo data.octet1 < 10
  mnc12 : lo data.octet2 < 10 ∧ hi data.octet2 < 10
  mnc3 : hi data.octet1 < 10 ∨ hi data.octet1 = 15

/-- The digits of the MCC. -/
def PlmnId.mcc (data : PlmnId) : List Nat := [lo data.octet0, hi data.octet0, lo data.octet1]

/-- The digits of the MNC as they are printed. -/
def PlmnId.mnc (data : PlmnId) : List Nat :=
  if hi data.octet1 ≠ 15 then [lo data.octet2, hi data.octet2, hi data.octet1]
  else [0, lo data.octet2, hi data.octet2]

/-- The digits that the name of a node has. -/
def Kind.printed (k : Kind) (data : PlmnId) : List Nat :=
  (data.mcc ++ data.mnc).take k.printedDigits

/-- Bit `i` of the octets of a bit string. -/
def bit (data : Bytes) (i : Nat) : Bool := (data.getD (i / 8) 0).toNat.testBit (7 - i % 8)

/-- Two identities of one kind, with IDs of `bits` bits, differ in the PLMN or in a bit. -/
def Differ (bits : Nat) (plmn plmn' : PlmnId) (data data' : Bytes) : Prop :=
  plmn ≠ plmn' ∨ ∃ i < bits, bit data i ≠ bit data' i

/-- The name that `buildRanName` writes into a zeroed buffer. -/
def nameOf (k : Kind) (plmn : PlmnId) (data : Bytes) : Option Bytes :=
  (buildRanName (List.replicate 64 0) (k.identity plmn data)).map visible

/-! ### The name in parts -/

/-- The name of an identity is its type, its PLMN and its bit string. -/
theorem buildRanName_identity (k : Kind) (b : Bytes) (plmn : PlmnId) (data : Bytes) :
    buildRanName b (k.identity plmn data) =
      some (translateBitStringToChar (translatePlmnId b plmn k.type) data) := by
  cases k <;> rfl

/-- The types have no NUL. -/
theorem zero_notMem_type (k : Kind) : 0 ∉ k.type := by
  cases k <;> decide

/-- **The name**, in a zeroed buffer of any size. -/
theorem visible_buildRanName (k : Kind) (n : Nat) (plmn : PlmnId) (data : Bytes) :
    (buildRanName (List.replicate n 0) (k.identity plmn data)).map visible =
      some ((plmnText plmn k.type).take 19 ++ ascii "-" ++ hexDigits data) := by
  have htext : 0 ∉ (plmnText plmn k.type).take 19 := fun h =>
    zero_notMem_plmnText (zero_notMem_type k) (List.mem_of_mem_take h)
  have hname : 0 ∉ (plmnText plmn k.type).take 19 ++ ascii "-" ++ hexDigits data := by
    simp [htext, zero_notMem_hexDigits, show (0 : UInt8) ∉ ascii "-" by decide]
  obtain ⟨m, hm⟩ := snprintf_zeros 20 (plmnText plmn k.type) n
  rw [buildRanName_identity, translatePlmnId, hm, translateBitStringToChar_zeros htext,
    Option.map_some, visible_append_zeros hname]

/-! ### What the parts decide -/

/-- Texts of the same lengths are equal in both parts. -/
theorem append_eq_iff {α : Type} {a a' b b' : List α} (h : a.length = a'.length) :
    a ++ b = a' ++ b' ↔ a = a' ∧ b = b' := by
  constructor
  · exact fun heq => List.append_inj heq h
  · rintro ⟨rfl, rfl⟩
    rfl

/-- The character of a digit. -/
def digit (n : Nat) : UInt8 := UInt8.ofNat (48 + n)

/-- A decimal digit is printed as one character. -/
theorem dec_of_lt {n : Nat} (h : n < 10) : dec n = [digit n] := if_pos h

/-- Two decimal digits are printed the same only if they are. -/
theorem digit_inj : ∀ n < 10, ∀ m < 10, digit n = digit m ↔ n = m := by decide

/-- So are two hexadecimal ones. -/
theorem hex_inj : ∀ n < 16, ∀ m < 16, hex n = hex m ↔ n = m := by decide

/-- And lists of them. -/
theorem map_digit_inj {l l' : List Nat} (hl : ∀ d ∈ l, d < 10) (hl' : ∀ d ∈ l', d < 10) :
    l.map digit = l'.map digit ↔ l = l' := by
  induction l generalizing l' with
  | nil => simp [eq_comm]
  | cons d l ih =>
      cases l' with
      | nil => simp
      | cons d' l' =>
          rw [List.forall_mem_cons] at hl hl'
          rw [List.map_cons, List.map_cons, List.cons.injEq, List.cons.injEq,
            digit_inj d hl.1 d' hl'.1, ih hl.2 hl'.2]

/-- An octet is given by its halves. -/
theorem octet_inj {b b' : UInt8} : hi b = hi b' ∧ lo b = lo b' ↔ b = b' := by
  constructor
  · rintro ⟨hhi, hlo⟩
    unfold hi at hhi
    unfold lo at hlo
    rw [← UInt8.toNat_inj]
    omega
  · rintro rfl
    exact ⟨rfl, rfl⟩

/-- The digits of the ID are those of its octets. -/
theorem hexDigits_inj {data data' : Bytes} (h : data.length = data'.length) :
    hexDigits data = hexDigits data' ↔ data = data' := by
  induction data generalizing data' with
  | nil =>
      obtain rfl := List.eq_nil_of_length_eq_zero h.symm
      simp
  | cons b data ih =>
      cases data' with
      | nil => cases h
      | cons b' data' =>
          have hrest := ih (Nat.succ.inj h)
          have hoctet : hex (hi b) ++ hex (lo b) = hex (hi b') ++ hex (lo b') ↔ b = b' := by
            rw [append_eq_iff (by simp only [length_hex]), hex_inj _ (hi_lt b) _ (hi_lt b'),
              hex_inj _ (lo_lt b) _ (lo_lt b'), octet_inj]
          unfold hexDigits at hrest ⊢
          rw [List.flatMap_cons, List.flatMap_cons,
            append_eq_iff (by simp only [List.length_append, length_hex]), hrest, hoctet,
            List.cons.injEq]

/-- The text of a well-formed PLMN. -/
theorem plmnText_of_wellFormed {data : PlmnId} (h : data.WellFormed) (type : Bytes) :
    plmnText data type = type ++ (data.mcc.map digit ++ 45 :: data.mnc.map digit) := by
  obtain ⟨⟨h₁, h₂, h₃⟩, ⟨h₄, h₅⟩, h₆⟩ := h
  unfold plmnText PlmnId.mnc PlmnId.mcc
  dsimp only
  rw [dec_of_lt h₁, dec_of_lt h₂, dec_of_lt h₃, dec_of_lt h₄, dec_of_lt h₅]
  split
  · rename_i hmnc
    rw [dec_of_lt (h₆.resolve_right hmnc)]
    simp [ascii]
  · simp [ascii, digit]

/-- The digits of a well-formed PLMN are decimal. -/
theorem PlmnId.WellFormed.digits {data : PlmnId} (h : data.WellFormed) :
    (∀ d ∈ data.mcc, d < 10) ∧ ∀ d ∈ data.mnc, d < 10 := by
  obtain ⟨⟨h₁, h₂, h₃⟩, ⟨h₄, h₅⟩, h₆⟩ := h
  refine ⟨by simp [PlmnId.mcc, h₁, h₂, h₃], ?_⟩
  unfold PlmnId.mnc
  split
  · rename_i hmnc
    simp [h₄, h₅, h₆.resolve_right hmnc]
  · simp [h₄, h₅]

/-- A country code has three digits. -/
theorem length_mcc (data : PlmnId) : data.mcc.length = 3 := rfl

/-- A network code has two or three. -/
theorem length_mnc (data : PlmnId) : data.mnc.length = 3 := by
  unfold PlmnId.mnc
  split <;> rfl

/-- The first `m` characters behind the kind: the dash is one of them from the fourth on. -/
theorem take_text_iff {plmn plmn' : PlmnId} (h : plmn.WellFormed) (h' : plmn'.WellFormed)
    (m : Nat) :
    (plmn.mcc.map digit ++ 45 :: plmn.mnc.map digit).take m =
        (plmn'.mcc.map digit ++ 45 :: plmn'.mnc.map digit).take m ↔
      (plmn.mcc ++ plmn.mnc).take (if m ≤ 3 then m else m - 1) =
        (plmn'.mcc ++ plmn'.mnc).take (if m ≤ 3 then m else m - 1) := by
  have htake : ∀ {l : List Nat}, (∀ d ∈ l, d < 10) → ∀ j, ∀ d ∈ l.take j, d < 10 :=
    fun hl j d hd => hl d (List.mem_of_mem_take hd)
  split
  · rename_i hm
    rw [List.take_append_of_le_length (by simpa [length_mcc] using hm),
      List.take_append_of_le_length (by simpa [length_mcc] using hm),
      List.take_append_of_le_length (by simpa [length_mcc] using hm),
      List.take_append_of_le_length (by simpa [length_mcc] using hm), ← List.map_take,
      ← List.map_take, map_digit_inj (htake h.digits.1 m) (htake h'.digits.1 m)]
  · rename_i hm
    obtain ⟨j, rfl⟩ : ∃ j, m = 3 + (j + 1) := ⟨m - 4, by omega⟩
    have hpred : 3 + (j + 1) - 1 = 3 + j := by omega
    have hsplit : ∀ {α : Type} (a b : List α) (i : Nat), a.length = 3 →
        (a ++ b).take (3 + i) = a ++ b.take i := by
      intro α a b i ha
      rw [← ha, List.take_length_add_append]
    have hlen : ∀ plmn : PlmnId, (plmn.mcc.map digit).length = 3 := fun _ => rfl
    rw [hpred, hsplit _ _ _ (hlen plmn), hsplit _ _ _ (hlen plmn'),
      hsplit _ _ _ (length_mcc plmn), hsplit _ _ _ (length_mcc plmn'),
      append_eq_iff ((hlen plmn).trans (hlen plmn').symm),
      append_eq_iff ((length_mcc plmn).trans (length_mcc plmn').symm), List.take_succ_cons,
      List.take_succ_cons, List.cons.injEq, ← List.map_take, ← List.map_take,
      map_digit_inj h.digits.1 h'.digits.1,
      map_digit_inj (htake h.digits.2 j) (htake h'.digits.2 j), eq_self_iff_true, true_and]

/-- The room behind the kind. -/
theorem take_printedDigits (k : Kind) {l : List Nat} (hl : l.length = 6) :
    l.take (if 19 - k.type.length ≤ 3 then 19 - k.type.length else 19 - k.type.length - 1) =
      l.take k.printedDigits := by
  rw [List.take_eq_take_iff, hl]
  cases k <;> decide

/-- **What the printed part of kind and PLMN decides.** -/
theorem take_plmnText_iff {plmn plmn' : PlmnId} (h : plmn.WellFormed) (h' : plmn'.WellFormed)
    (k : Kind) : (plmnText plmn k.type).take 19 = (plmnText plmn' k.type).take 19 ↔
      k.printed plmn = k.printed plmn' := by
  have hlen : ∀ plmn : PlmnId, (plmn.mcc ++ plmn.mnc).length = 6 := fun plmn => by
    rw [List.length_append, length_mcc, length_mnc]
  have hkind : k.type.length ≤ 19 := by
    cases k <;> decide
  obtain ⟨m, hm⟩ : ∃ m, 19 = k.type.length + m := ⟨19 - k.type.length, by omega⟩
  have hm' : 19 - k.type.length = m := by omega
  rw [plmnText_of_wellFormed h, plmnText_of_wellFormed h', hm, List.take_length_add_append,
    List.take_length_add_append, List.append_cancel_left_eq, take_text_iff h h', ← hm',
    take_printedDigits k (hlen plmn), take_printedDigits k (hlen plmn')]
  rfl

/-! ### The names of two nodes -/

/-- **When two nodes of one kind have the same name.** -/
theorem nameOf_eq_iff {plmn plmn' : PlmnId} (h : plmn.WellFormed) (h' : plmn'.WellFormed)
    (k : Kind) {data data' : Bytes} (hlen : data.length = data'.length) :
    nameOf k plmn data = nameOf k plmn' data' ↔
      data = data' ∧ k.printed plmn = k.printed plmn' := by
  have htext : ∀ {plmn : PlmnId}, plmn.WellFormed →
      ((plmnText plmn k.type).take 19 ++ ascii "-").length =
        min 19 (k.type.length + 7) + 1 := by
    intro plmn h
    rw [plmnText_of_wellFormed h]
    simp [length_mcc, length_mnc, ascii]
  unfold nameOf
  rw [visible_buildRanName, visible_buildRanName, Option.some.injEq,
    append_eq_iff ((htext h).trans (htext h').symm), List.append_cancel_right_eq,
    take_plmnText_iff h h', hexDigits_inj hlen, and_comm]

/-- **When two nodes that differ have different names.** -/
theorem differ_iff {plmn plmn' : PlmnId} (h : plmn.WellFormed) (h' : plmn'.WellFormed)
    (k : Kind) (bits : Nat) {data data' : Bytes} (hdata : data.length = (bits + 7) / 8)
    (hdata' : data'.length = (bits + 7) / 8) :
    (Differ bits plmn plmn' data data' → nameOf k plmn data ≠ nameOf k plmn' data') ↔
      (Differ bits plmn plmn' data data' → data ≠ data' ∨ k.printed plmn ≠ k.printed plmn') := by
  rw [Ne, nameOf_eq_iff h h' k (hdata.trans hdata'.symm), not_and_or]

/-- Two gNBs in one PLMN. -/
theorem differ_iff_gNB :
    nameOf .gNB ⟨0x02, 0xf8, 0x29⟩ [0xb5, 0xc6, 0x77, 0x88] ≠
      nameOf .gNB ⟨0x02, 0xf8, 0x29⟩ [0xb5, 0xc6, 0x77, 0x80] :=
  (differ_iff ⟨by decide, by decide, by decide⟩ ⟨by decide, by decide, by decide⟩ .gNB 29
    rfl rfl).2 (fun _ => .inl (by decide)) (.inr ⟨28, by decide, by decide⟩)

/-- **Two short macro ng-eNBs of different PLMNs have one name**, which holds one digit of
the PLMN. -/
theorem not_differ : ¬ ∀ (k : Kind) (bits : Nat) (plmn plmn' : PlmnId) (data data' : Bytes),
    plmn.WellFormed → plmn'.WellFormed → data.length = (bits + 7) / 8 →
      data'.length = (bits + 7) / 8 → Differ bits plmn plmn' data data' →
        nameOf k plmn data ≠ nameOf k plmn' data' := by
  intro hall
  refine hall .ng_eNB_shortmacroID 18 ⟨0x02, 0xf8, 0x29⟩ ⟨0x22, 0xf6, 0x01⟩ [0xb5, 0xc6, 0x40]
    [0xb5, 0xc6, 0x40] ⟨by decide, by decide, by decide⟩ ⟨by decide, by decide, by decide⟩ rfl rfl
    (.inl (by decide)) ?_
  decide

example : nameOf .gNB ⟨0x13, 0xf0, 0x41⟩ [0xb5] = nameOf .gNB ⟨0x13, 0x40, 0x10⟩ [0xb5] := by
  decide

end NearRtRic.E2Term
