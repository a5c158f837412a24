/-
# Cell identities as text

`ParseNRCGI` in `msgs_proc.cc` prints the PLMN of a cell and its 36 bits one half of a byte
at a time, each as a decimal number of which the next one leaves the first digit: a half
byte from ten on reads as `1`.

Its arrays are a byte or more too short for what `itoa10` and it write, which for the
arrays alone is undefined (`ParseNRCGI` of `NearRtRic.Xapp.Decoded`).  Here every array is
followed by bytes that belong to nobody, such as those to which an allocator rounds up:
`distinguishes_iff` is for any number of them, and none is the case of before
(`parseNRCGIBefore_nil`).
-/

import NearRtRic.Xapp.Total

namespace NearRtRic.Xapp

open CString

/-- `ParsePLMNIdentity`, with some bytes behind `temp` and behind `PlmnID`. -/
def parsePLMNIdentityBefore (behind data : Bytes) : Option (Option Bytes) :=
  if data.length ≠ 3 then some none
  else
    (printFrom 0 (halves data) (List.replicate 6 0 ++ behind)).map fun temp =>
      some ((if (halves data).getD 3 0 = 15 then temp.take 3 ++ (temp.take 6).drop 4 ++ [0, 0]
        else temp.take 6 ++ [0]) ++ behind)

/-- `ParseNRCGI`, with some bytes behind its arrays. -/
def parseNRCGIBefore (behind : Bytes) (nRCGI : NRCGI) : Option (Option Bytes) :=
  (parsePLMNIdentityBefore behind nRCGI.pLMN_Identity).bind fun CellID =>
    CellID.bind fun CellID =>
      if nRCGI.nRCellIdentity.length ≠ 5 then some none
      else
        (printFrom 0 (halves (nRCGI.nRCellIdentity.take 4) ++
          [(nRCGI.nRCellIdentity.getD 4 0).toNat / 2 ^ nRCGI.bits_unused])
          (List.replicate 10 0 ++ behind)).bind fun temp =>
            (store (visible CellID).length (temp.take 9 ++ [0]) CellID).map some

/-- The half bytes of a PLMN that are printed: in the fourth place, `F` stands for a digit that
is not there. -/
def plmnHalves (data : Bytes) : List Nat :=
  if (halves data).getD 3 0 = 15 then (halves data).take 3 ++ (halves data).drop 4
  else halves data

/-- The nine half bytes of a cell's 36 bits. -/
def cellHalves (nRCGI : NRCGI) : List Nat :=
  halves (nRCGI.nRCellIdentity.take 4) ++
    [(nRCGI.nRCellIdentity.getD 4 0).toNat / 2 ^ nRCGI.bits_unused]

/-- The first decimal digit of a half byte. -/
def firstDigit (value : Nat) : Nat := if value < 10 then value else 1

/-- The bit string of a cell: five bytes, the last four bits unused. -/
structure NRCGI.Sized (nRCGI : NRCGI) : Prop where
  length : nRCGI.nRCellIdentity.length = 5
  unused : nRCGI.bits_unused = 4

/-- Different strings are returned for two cells. -/
def Distinguishes (behind : Bytes) (a b : NRCGI) : Prop :=
  ∃ s t, parseNRCGIBefore behind a = some (some s) ∧ parseNRCGIBefore behind b = some (some t) ∧
    visible s ≠ visible t

/-- There is room behind `PlmnID`, which has seven bytes, for the digits of the cell, nine and a
NUL, after those of the PLMN. -/
def HasRoom (behind : Bytes) (nRCGI : NRCGI) : Prop :=
  (plmnHalves nRCGI.pLMN_Identity).length + 3 ≤ behind.length

/-- The first digits differ somewhere. -/
def DigitsDiffer (a b : NRCGI) : Prop :=
  (plmnHalves a.pLMN_Identity ++ cellHalves a).map firstDigit ≠
    (plmnHalves b.pLMN_Identity ++ cellHalves b).map firstDigit

variable {behind : Bytes} {a b nRCGI : NRCGI}

/-! ### Printing -/

/-- The character of a digit. -/
def digitChar (value : Nat) : UInt8 := UInt8.ofNat (48 + firstDigit value)

/-- A half byte is printed as its first digit, and at most one more, and a NUL. -/
theorem itoa10_eq {value : Nat} (h : value < 16) :
    ∃ rest, itoa10 value = digitChar value :: rest ∧ rest.length ≤ 2 := by
  have hall : ∀ n : Fin 16, (itoa10 n).head? = some (digitChar n) ∧
      (itoa10 n).tail.length ≤ 2 := by decide +kernel
  obtain ⟨hhead, htail⟩ := hall ⟨value, h⟩
  exact ⟨(itoa10 value).tail, (List.cons_head?_tail hhead).symm, htail⟩

/-- The first byte that was stored, and what lies before it. -/
theorem take_of_store_cons {off : Nat} {c : UInt8} {rest b b' : Bytes}
    (h : store off (c :: rest) b = some b') :
    off + 1 + rest.length ≤ b.length ∧ b'.take (off + 1) = b.take off ++ [c] := by
  unfold store at h
  split at h
  · rename_i hle
    rw [List.length_cons] at hle
    have hoff : (b.take off).length = off := by
      rw [List.length_take]
      omega
    refine ⟨by omega, ?_⟩
    rw [← Option.some.inj h, List.take_append, List.take_take, hoff, memcpy]
    have hmin : min (off + 1) off = off := by omega
    have hone : off + 1 - off = 1 := by omega
    rw [hmin, hone]
    rfl
  · cases h

/-- Of the numbers that are printed, the first digits are left. -/
theorem take_printFrom {values : List Nat} {i : Nat} {temp temp' : Bytes}
    (hvalues : ∀ v ∈ values, v < 16) (h : printFrom i values temp = some temp') :
    temp'.length = temp.length ∧
      temp'.take (i + values.length) = temp.take i ++ values.map digitChar := by
  induction values generalizing i temp with
  | nil =>
      obtain rfl := Option.some.inj h
      simp
  | cons value values ih =>
      obtain ⟨temp₁, hstore, hrest⟩ := Option.bind_eq_some_iff.1 h
      have hlen := length_of_store hstore
      obtain ⟨rest, hitoa, -⟩ := itoa10_eq (hvalues value (List.mem_cons_self ..))
      rw [hitoa] at hstore
      obtain ⟨-, hfirst⟩ := take_of_store_cons hstore
      obtain ⟨hlen', htake⟩ := ih (fun v hv => hvalues v (List.mem_cons_of_mem _ hv)) hrest
      refine ⟨hlen'.trans hlen, ?_⟩
      rw [List.length_cons, Nat.add_comm values.length 1, ← Nat.add_assoc, htake, hfirst,
        List.append_assoc]
      rfl

/-- Two bytes behind the last digit are enough. -/
theorem exists_printFrom {values : List Nat} {i : Nat} {temp : Bytes}
    (hvalues : ∀ v ∈ values, v < 16) (hroom : i + values.length + 2 ≤ temp.length) :
    ∃ temp', printFrom i values temp = some temp' := by
  induction values generalizing i temp with
  | nil => exact ⟨temp, rfl⟩
  | cons value values ih =>
      rw [List.length_cons] at hroom
      obtain ⟨rest, hitoa, hrest⟩ := itoa10_eq (hvalues value (List.mem_cons_self ..))
      have hfits : i + (itoa10 value).length ≤ temp.length := by
        rw [hitoa, List.length_cons]
        omega
      obtain ⟨temp₁, hstore⟩ : ∃ temp₁, store i (itoa10 value) temp = some temp₁ := by
        unfold store
        rw [if_pos hfits]
        exact ⟨_, rfl⟩
      have hlen := length_of_store hstore
      have hroom₁ : i + 1 + values.length + 2 ≤ temp₁.length := by omega
      obtain ⟨temp', hprint⟩ := ih (fun v hv => hvalues v (List.mem_cons_of_mem _ hv)) hroom₁
      exact ⟨temp', by rw [printFrom, hstore, Option.bind_some, hprint]⟩

/-- Half a byte is below 16. -/
theorem lt_of_mem_halves {data : Bytes} {v : Nat} (h : v ∈ halves data) : v < 16 := by
  obtain ⟨c, -, hc⟩ := List.mem_flatMap.1 h
  have hlt := c.toNat_lt
  simp only [List.mem_cons, List.not_mem_nil, or_false] at hc
  rcases hc with rfl | rfl
  · omega
  · omega

/-- A byte has two halves. -/
theorem length_halves (data : Bytes) : (halves data).length = 2 * data.length := by
  induction data with
  | nil => rfl
  | cons c data ih =>
      have hcons : halves (c :: data) = [c.toNat / 16, c.toNat % 16] ++ halves data := rfl
      rw [hcons, List.length_append, ih, List.length_cons]
      simp only [List.length_cons, List.length_nil]
      omega

/-- The first digit of a number is one. -/
theorem firstDigit_lt (value : Nat) : firstDigit value < 10 := by
  unfold firstDigit
  split
  · assumption
  · omega

/-- Digits are printed without a NUL. -/
theorem zero_notMem_map_digitChar (l : List Nat) : 0 ∉ l.map digitChar := by
  intro h
  obtain ⟨v, -, hv⟩ := List.mem_map.1 h
  have hall : ∀ d : Fin 10, UInt8.ofNat (48 + d) ≠ 0 := by decide
  exact hall ⟨firstDigit v, firstDigit_lt v⟩ hv

/-- The characters of digits tell the digits apart. -/
theorem map_digitChar_inj {l l' : List Nat} :
    l.map digitChar = l'.map digitChar ↔ l.map firstDigit = l'.map firstDigit := by
  have hback : ∀ v, (digitChar v).toNat - 48 = firstDigit v := by
    intro v
    have hall : ∀ d : Fin 10, (UInt8.ofNat (48 + d)).toNat - 48 = d := by decide
    exact hall ⟨firstDigit v, firstDigit_lt v⟩
  constructor
  · intro h
    have hmap := congrArg (List.map fun c : UInt8 => c.toNat - 48) h
    rw [List.map_map, List.map_map] at hmap
    have hfun : (fun c : UInt8 => c.toNat - 48) ∘ digitChar = firstDigit := funext hback
    rwa [hfun] at hmap
  · intro h
    have hmap := congrArg (List.map fun d => UInt8.ofNat (48 + d)) h
    rwa [List.map_map, List.map_map] at hmap

/-! ### The two texts -/

/-- The PLMN as it is printed. -/
theorem parsePLMNIdentityBefore_eq (pLMN_Identity : PLMN_Identity)
    {r : Option Bytes} (h : parsePLMNIdentityBefore behind pLMN_Identity = some r) :
    ∃ CellID, r = some CellID ∧ CellID.length = 7 + behind.length ∧
      visible CellID = (plmnHalves pLMN_Identity).map digitChar := by
  obtain ⟨data, hdata⟩ := pLMN_Identity
  have hhalves : (halves data).length = 6 := by
    rw [length_halves, hdata]
  unfold parsePLMNIdentityBefore at h
  rw [if_neg (not_not.2 hdata)] at h
  obtain ⟨temp, hprint, rfl⟩ := Option.map_eq_some_iff.1 h
  obtain ⟨hlen, htake⟩ := take_printFrom (fun v hv => lt_of_mem_halves hv) hprint
  rw [hhalves, Nat.zero_add, List.take_zero, List.nil_append] at htake
  rw [List.length_append, List.length_replicate] at hlen
  refine ⟨_, rfl, ?_, ?_⟩
  · split
    all_goals
      simp only [List.length_append, List.length_take, List.length_drop, List.length_cons,
        List.length_nil]
      omega
  · unfold plmnHalves
    dsimp only
    split
    · have htake3 : temp.take 3 = ((halves data).take 3).map digitChar := by
        have h3 := congrArg (List.take 3) htake
        rwa [List.take_take, ← List.map_take] at h3
      rw [htake, htake3, ← List.map_drop, ← List.map_append, List.append_assoc]
      exact visible_of_notMem_append (zero_notMem_map_digitChar _) _
    · rw [htake, List.append_assoc]
      exact visible_of_notMem_append (zero_notMem_map_digitChar _) _

/-- A PLMN has five or six digits. -/
theorem length_plmnHalves (pLMN_Identity : PLMN_Identity) :
    5 ≤ (plmnHalves pLMN_Identity).length ∧ (plmnHalves pLMN_Identity).length ≤ 6 := by
  have hhalves : (halves pLMN_Identity).length = 6 := by
    rw [length_halves, pLMN_Identity.property]
  unfold plmnHalves
  split
  · rw [List.length_append, List.length_take, List.length_drop]
    omega
  · omega

/-- A cell id of its size has nine halves. -/
theorem cellHalves_sized (h : nRCGI.Sized) :
    (cellHalves nRCGI).length = 9 ∧ ∀ v ∈ cellHalves nRCGI, v < 16 := by
  unfold cellHalves
  rw [h.unused]
  constructor
  · rw [List.length_append, length_halves, List.length_take, h.length]
    rfl
  · intro v hv
    rcases List.mem_append.1 hv with hv | hv
    · exact lt_of_mem_halves hv
    · have hlt := (nRCGI.nRCellIdentity.getD 4 0).toNat_lt
      rw [List.mem_singleton.1 hv]
      omega

/-- A cell that is printed has room, and reads as the first digits of its half bytes. -/
theorem parseNRCGIBefore_eq (hsized : nRCGI.Sized) {s : Bytes}
    (h : parseNRCGIBefore behind nRCGI = some (some s)) :
    HasRoom behind nRCGI ∧ visible s =
      (plmnHalves nRCGI.pLMN_Identity ++ cellHalves nRCGI).map digitChar := by
  obtain ⟨r, hplmn, h⟩ := Option.bind_eq_some_iff.1 h
  obtain ⟨CellID, rfl, hlen, hvisible⟩ := parsePLMNIdentityBefore_eq _ hplmn
  obtain ⟨hcells, hlt⟩ := cellHalves_sized hsized
  rw [Option.bind_some, if_neg (not_not.2 hsized.length)] at h
  obtain ⟨temp, hprint, h⟩ := Option.bind_eq_some_iff.1 h
  obtain ⟨CellID', hstore, hs⟩ := Option.map_eq_some_iff.1 h
  obtain rfl := Option.some.inj hs
  obtain ⟨-, htake⟩ := take_printFrom hlt hprint
  change temp.take (0 + (cellHalves nRCGI).length) = _ ++ (cellHalves nRCGI).map digitChar at htake
  rw [hcells, Nat.zero_add, List.take_zero, List.nil_append] at htake
  have hoff : (visible CellID).length = (plmnHalves nRCGI.pLMN_Identity).length := by
    rw [hvisible, List.length_map]
  have hprefix : CellID.take (visible CellID).length = visible CellID :=
    List.prefix_iff_eq_take.1 (List.takeWhile_prefix _) |>.symm
  unfold store at hstore
  split at hstore
  · rename_i hfits
    rw [List.length_append, List.length_singleton, htake, List.length_map, hcells, hoff,
      hlen] at hfits
    refine ⟨by unfold HasRoom; omega, ?_⟩
    rw [← Option.some.inj hstore, hprefix, hvisible, memcpy, htake, List.append_assoc,
      ← List.append_assoc, ← List.map_append]
    exact visible_of_notMem_append (zero_notMem_map_digitChar _) _
  · cases hstore

/-- With room, a cell is printed. -/
theorem exists_parseNRCGIBefore (hsized : nRCGI.Sized) (hroom : HasRoom behind nRCGI) :
    ∃ s, parseNRCGIBefore behind nRCGI = some (some s) := by
  have hplmnLen := length_plmnHalves nRCGI.pLMN_Identity
  obtain ⟨hcells, hlt⟩ := cellHalves_sized hsized
  unfold HasRoom at hroom
  obtain ⟨r, hplmn⟩ : ∃ r, parsePLMNIdentityBefore behind nRCGI.pLMN_Identity = some r := by
    have hhalves : (halves nRCGI.pLMN_Identity).length = 6 := by
      rw [length_halves, nRCGI.pLMN_Identity.property]
    have hfits : 0 + (halves nRCGI.pLMN_Identity).length + 2 ≤
        (List.replicate 6 0 ++ behind).length := by
      rw [List.length_append, List.length_replicate]
      omega
    obtain ⟨temp, hprint⟩ := exists_printFrom (fun v hv => lt_of_mem_halves hv) hfits
    unfold parsePLMNIdentityBefore
    rw [if_neg (not_not.2 nRCGI.pLMN_Identity.property), hprint]
    exact ⟨_, rfl⟩
  obtain ⟨CellID, rfl, hlen, hvisible⟩ := parsePLMNIdentityBefore_eq _ hplmn
  have htemp : 0 + (cellHalves nRCGI).length + 2 ≤ (List.replicate 10 0 ++ behind).length := by
    rw [List.length_append, List.length_replicate]
    omega
  obtain ⟨temp, hprint⟩ := exists_printFrom hlt htemp
  obtain ⟨-, htake⟩ := take_printFrom hlt hprint
  rw [hcells, Nat.zero_add, List.take_zero, List.nil_append] at htake
  have hfits : (visible CellID).length + (temp.take 9 ++ [0]).length ≤ CellID.length := by
    rw [hvisible, htake, List.length_append, List.length_map, List.length_map, hcells, hlen,
      List.length_singleton]
    omega
  unfold parseNRCGIBefore
  change printFrom 0 (halves (nRCGI.nRCellIdentity.take 4) ++
    [(nRCGI.nRCellIdentity.getD 4 0).toNat / 2 ^ nRCGI.bits_unused])
    (List.replicate 10 0 ++ behind) = some temp at hprint
  rw [hplmn, Option.bind_some, Option.bind_some, if_neg (not_not.2 hsized.length), hprint,
    Option.bind_some]
  unfold store
  rw [if_pos hfits]
  exact ⟨_, rfl⟩

/-- Without bytes behind the arrays, a PLMN is parsed as in `ParsePLMNIdentity`. -/
theorem parsePLMNIdentityBefore_nil (pLMN_Identity : PLMN_Identity) :
    parsePLMNIdentityBefore [] pLMN_Identity = ParsePLMNIdentity pLMN_Identity := by
  obtain ⟨data, hdata⟩ := pLMN_Identity
  unfold parsePLMNIdentityBefore ParsePLMNIdentity
  rw [if_neg (not_not.2 hdata), if_neg (not_not.2 hdata), List.append_nil]
  refine Option.map_congr fun temp hprint => ?_
  have hlen := (take_printFrom (fun v hv => lt_of_mem_halves hv) hprint).1
  rw [List.length_replicate] at hlen
  rw [List.take_of_length_le (Nat.le_of_eq hlen), List.append_nil]

/-- Nor is a cell parsed otherwise than in `ParseNRCGI`. -/
theorem parseNRCGIBefore_nil (nRCGI : NRCGI) : parseNRCGIBefore [] nRCGI = ParseNRCGI nRCGI := by
  unfold parseNRCGIBefore ParseNRCGI
  rw [parsePLMNIdentityBefore_nil, List.append_nil]

/-- **Two cells are told apart** exactly where there is room for both and the first digits of
their half bytes differ. -/
theorem distinguishes_iff (ha : a.Sized) (hb : b.Sized) :
    Distinguishes behind a b ↔
      (HasRoom behind a ∧ HasRoom behind b) ∧ DigitsDiffer a b := by
  constructor
  · rintro ⟨s, t, hs, ht, hne⟩
    obtain ⟨hrooma, hsa⟩ := parseNRCGIBefore_eq ha hs
    obtain ⟨hroomb, htb⟩ := parseNRCGIBefore_eq hb ht
    refine ⟨⟨hrooma, hroomb⟩, fun heq => hne ?_⟩
    rw [hsa, htb]
    exact map_digitChar_inj.2 heq
  · rintro ⟨⟨hrooma, hroomb⟩, hdiffer⟩
    obtain ⟨s, hs⟩ := exists_parseNRCGIBefore ha hrooma
    obtain ⟨t, ht⟩ := exists_parseNRCGIBefore hb hroomb
    refine ⟨s, t, hs, ht, fun heq => hdiffer (map_digitChar_inj.1 ?_)⟩
    rw [← (parseNRCGIBefore_eq ha hs).2, ← (parseNRCGIBefore_eq hb ht).2, heq]

/-- A cell of the PLMN `131014`, by the last of its half bytes. -/
def cellEnding (last : UInt8) : NRCGI where
  pLMN_Identity := ⟨[0x13, 0x10, 0x14], rfl⟩
  nRCellIdentity := [0, 0, 0, 0, last <<< 4]
  bits_unused := 4

/-- The cells that end in 0 and in 2 are told apart. -/
theorem distinguishes_zero_two :
    Distinguishes (List.replicate 9 0) (cellEnding 0) (cellEnding 2) := by
  refine (distinguishes_iff ⟨rfl, rfl⟩ ⟨rfl, rfl⟩).2 ⟨⟨?_, ?_⟩, ?_⟩
  · unfold HasRoom
    decide
  · unfold HasRoom
    decide
  · unfold DigitsDiffer
    decide

/-- **Ten and eleven** are the same cell in text, whether there is room or not. -/
theorem not_distinguishes_ten_eleven :
    ¬ Distinguishes (List.replicate 17 0) (cellEnding 10) (cellEnding 11) ∧
      ¬ Distinguishes [] (cellEnding 10) (cellEnding 11) := by
  have hnot : ∀ behind, ¬ Distinguishes behind (cellEnding 10) (cellEnding 11) := by
    rintro behind ⟨s, t, hs, ht, hne⟩
    refine hne ?_
    rw [(parseNRCGIBefore_eq ⟨rfl, rfl⟩ hs).2, (parseNRCGIBefore_eq ⟨rfl, rfl⟩ ht).2]
    decide
  exact ⟨hnot _, hnot _⟩

end NearRtRic.Xapp
