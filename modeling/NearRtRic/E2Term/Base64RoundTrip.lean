/-
# What base64 text says

The text that `encode` makes is of the right form (`text_form`), and `decode` reads the
bytes back from it, whatever the last group is (`decodeLoop_text`).  The decoder takes the
length of the text as an `int`, though the encoder reports it as a `long`: a source of more
than a gigabyte and a half is encoded, and cannot be decoded
(`roundTrips_iff_length`).
-/

import NearRtRic.E2Term.Base64
import Mathlib.Tactic.IntervalCases

namespace NearRtRic.E2Term.Base64

open CString

/-! ## Six bits -/

/-- Bytes with the same bits are equal. -/
theorem eq_of_bits {x y : UInt8} (h : ∀ i < 8, x.toBitVec.getLsbD i = y.toBitVec.getLsbD i) :
    x = y :=
  UInt8.toBitVec_inj.1 (BitVec.eq_of_getLsbD_eq h)

/-- Without its two upper bits a byte is an index of the table. -/
theorem lt_of_shiftRight_six {x : UInt8} (hx : x >>> 6 = 0) : x < 64 := by
  have h := congrArg UInt8.toNat hx
  rw [UInt8.toNat_shiftRight] at h
  change x.toNat >>> 6 = 0 at h
  rw [Nat.shiftRight_eq_div_pow] at h
  rw [UInt8.lt_iff_toNat_lt]
  change x.toNat < 64
  omega

/-- The four characters of a group stand for numbers below 64. -/
theorem sextets_lt (a b : UInt8) :
    a >>> 2 < 64 ∧ (a &&& 0x03) <<< 4 < 64 ∧ (a &&& 0x03) <<< 4 ||| b >>> 4 < 64 ∧
      (a &&& 0x0f) <<< 2 < 64 ∧ (a &&& 0x0f) <<< 2 ||| b >>> 6 < 64 ∧ a &&& 0x3f < 64 := by
  refine ⟨?_, ?_, ?_, ?_, ?_, ?_⟩
  all_goals
    refine lt_of_shiftRight_six (eq_of_bits fun i hi => ?_)
    interval_cases i <;> simp

/-- The first byte of a group. -/
theorem join_first (a b : UInt8) :
    (a >>> 2) <<< 2 ||| ((a &&& 0x03) <<< 4 ||| b >>> 4) >>> 4 = a := by
  refine eq_of_bits fun i hi => ?_
  interval_cases i <;> simp

/-- The second byte of a group. -/
theorem join_second (a b c : UInt8) :
    ((a &&& 0x03) <<< 4 ||| b >>> 4) <<< 4 ||| ((b &&& 0x0f) <<< 2 ||| c >>> 6) >>> 2 = b := by
  refine eq_of_bits fun i hi => ?_
  interval_cases i <;> simp

/-- The third byte of a group. -/
theorem join_third (b c : UInt8) :
    ((b &&& 0x0f) <<< 2 ||| c >>> 6) <<< 6 ||| c &&& 0x3f = c := by
  refine eq_of_bits fun i hi => ?_
  interval_cases i <;> simp

/-- A last group of one byte is one whose second byte is zero. -/
theorem sextet_one (a : UInt8) : (a &&& 0x03) <<< 4 = (a &&& 0x03) <<< 4 ||| (0 : UInt8) >>> 4 := by
  simp

/-- A last group of two bytes is one whose third byte is zero. -/
theorem sextet_two (b : UInt8) : (b &&& 0x0f) <<< 2 = (b &&& 0x0f) <<< 2 ||| (0 : UInt8) >>> 6 := by
  simp

/-- A character of the table stands for its index, and is no padding. -/
theorem tableAt_spec (i : UInt8) (hi : i < 64) :
    invAt (tableAt i) = i ∧ tableAt i ≠ pad ∧ tableAt i ∈ base64_table := by
  have hall : ∀ n : Fin 64, invAt (tableAt (UInt8.ofNat n)) = UInt8.ofNat n ∧
      tableAt (UInt8.ofNat n) ≠ pad ∧ tableAt (UInt8.ofNat n) ∈ base64_table := by
    decide +kernel
  have h := hall ⟨i.toNat, UInt8.lt_iff_toNat_lt.1 hi⟩
  rwa [UInt8.ofNat_toNat] at h

/-- The padding is read as zero. -/
theorem invAt_pad : invAt pad = 0 := by decide +kernel

/-! ## The form of a text -/

/-- Text for `n` bytes: characters of the table, and an `=` for each byte that the last group
lacks. -/
def TextForm (n : Nat) (t : Bytes) : Prop :=
  t.length = textLength n ∧
    ∃ body, t = body ++ List.replicate ((3 - n % 3) % 3) pad ∧ ∀ c ∈ body, c ∈ base64_table

/-- The text of `x` is of the form for its length. -/
theorem text_form (x : Bytes) : TextForm x.length (text x) := by
  refine ⟨length_text x, ?_⟩
  induction x using text.induct with
  | case1 => exact ⟨[], rfl, by simp⟩
  | case2 a =>
      have h := sextets_lt a 0
      refine ⟨[tableAt (a >>> 2), tableAt ((a &&& 0x03) <<< 4)], rfl, ?_⟩
      simp only [List.mem_cons, List.not_mem_nil, or_false]
      rintro c (rfl | rfl)
      · exact (tableAt_spec _ h.1).2.2
      · exact (tableAt_spec _ h.2.1).2.2
  | case3 a b =>
      have ha := sextets_lt a b
      have hb := sextets_lt b 0
      refine ⟨[tableAt (a >>> 2), tableAt ((a &&& 0x03) <<< 4 ||| b >>> 4),
        tableAt ((b &&& 0x0f) <<< 2)], rfl, ?_⟩
      simp only [List.mem_cons, List.not_mem_nil, or_false]
      rintro c (rfl | rfl | rfl)
      · exact (tableAt_spec _ ha.1).2.2
      · exact (tableAt_spec _ ha.2.2.1).2.2
      · exact (tableAt_spec _ hb.2.2.2.1).2.2
  | case4 a b c rest ih =>
      obtain ⟨body, htext, hbody⟩ := ih
      have ha := sextets_lt a b
      have hb := sextets_lt b c
      have hc := sextets_lt c 0
      have hmod : (a :: b :: c :: rest).length % 3 = rest.length % 3 := by
        simp only [List.length_cons]
        omega
      refine ⟨[tableAt (a >>> 2), tableAt ((a &&& 0x03) <<< 4 ||| b >>> 4),
        tableAt ((b &&& 0x0f) <<< 2 ||| c >>> 6), tableAt (c &&& 0x3f)] ++ body, ?_, ?_⟩
      · rw [text, hmod, htext, List.append_assoc]
      · simp only [List.mem_append, List.mem_cons, List.not_mem_nil, or_false]
        rintro d ((rfl | rfl | rfl | rfl) | hd)
        · exact (tableAt_spec _ ha.1).2.2
        · exact (tableAt_spec _ ha.2.2.1).2.2
        · exact (tableAt_spec _ hb.2.2.2.2.1).2.2
        · exact (tableAt_spec _ hc.2.2.2.2.2).2.2
        · exact hbody d hd

/-- All characters of a text are valid. -/
theorem countValid_text (x : Bytes) : countValid (text x) = textLength x.length := by
  obtain ⟨hlen, body, htext, hbody⟩ := text_form x
  rw [← hlen]
  refine List.countP_eq_length.2 fun c hc => ?_
  rw [htext] at hc
  rcases List.mem_append.1 hc with hc | hc
  · have hall : ∀ c ∈ base64_table, invAt c ≠ 0x80 := by decide +kernel
    exact decide_eq_true (hall c (hbody c hc))
  · rw [List.eq_of_mem_replicate hc, invAt_pad]
    rfl

/-! ## Reading a text -/

section

variable {done src : Bytes} {pos : Cursor} {block : List UInt8} {s s0 s1 s2 s3 : UInt8}

/-- No character of the table is read as invalid. -/
theorem invAt_tableAt_ne (hs : s < 64) : invAt (tableAt s) ≠ 0x80 := by
  rw [(tableAt_spec s hs).1]
  rintro rfl
  exact absurd hs (by decide)

/-- A character of the table goes into the group. -/
theorem decodeLoop_tableAt {padding : Nat} (hs : s < 64) (hblock : block.length < 3) :
    decodeLoop (tableAt s :: src) pos block padding =
      decodeLoop src pos (block ++ [s]) padding := by
  rw [decodeLoop_keep (invAt_tableAt_ne hs) hblock, if_neg (tableAt_spec s hs).2.1,
    (tableAt_spec s hs).1]

/-- The first half of a group. -/
theorem decodeLoop_half (h0 : s0 < 64) (h1 : s1 < 64) :
    decodeLoop (tableAt s0 :: tableAt s1 :: src) pos [] 0 = decodeLoop src pos [s0, s1] 0 := by
  rw [decodeLoop_tableAt h0 (by simp), decodeLoop_tableAt h1 (by simp)]
  rfl

/-- A group without padding. -/
theorem decodeLoop_full (h0 : s0 < 64) (h1 : s1 < 64) (h2 : s2 < 64) (h3 : s3 < 64) :
    decodeLoop (tableAt s0 :: tableAt s1 :: tableAt s2 :: tableAt s3 :: src) (.passed done) [] 0 =
      decodeLoop src (.passed (done ++
        [s0 <<< 2 ||| s1 >>> 4, s1 <<< 4 ||| s2 >>> 2, s2 <<< 6 ||| s3])) [] 0 := by
  rw [decodeLoop_half h0 h1, decodeLoop_tableAt h2 (by simp)]
  show decodeLoop _ _ [s0, s1, s2] 0 = _
  rw [decodeLoop_group (invAt_tableAt_ne h3), if_neg (tableAt_spec s3 h3).2.1,
    (tableAt_spec s3 h3).1, putBlock_over]
  rfl

/-- A group with one `=`. -/
theorem decodeLoop_two (h0 : s0 < 64) (h1 : s1 < 64) (h2 : s2 < 64) :
    decodeLoop (tableAt s0 :: tableAt s1 :: tableAt s2 :: pad :: src) (.passed done) [] 0 =
      (true, (Cursor.passed (done ++
        [s0 <<< 2 ||| s1 >>> 4, s1 <<< 4 ||| s2 >>> 2, s2 <<< 6 ||| 0])).back 1) := by
  have hpad : invAt pad ≠ 0x80 := by
    rw [invAt_pad]
    decide
  rw [decodeLoop_half h0 h1, decodeLoop_tableAt h2 (by simp)]
  show decodeLoop _ _ [s0, s1, s2] 0 = _
  rw [decodeLoop_group hpad, invAt_pad, putBlock_over]
  rfl

/-- A group with two. -/
theorem decodeLoop_one (h0 : s0 < 64) (h1 : s1 < 64) :
    decodeLoop (tableAt s0 :: tableAt s1 :: pad :: pad :: src) (.passed done) [] 0 =
      (true, (Cursor.passed (done ++
        [s0 <<< 2 ||| s1 >>> 4, s1 <<< 4 ||| (0 : UInt8) >>> 2,
          (0 : UInt8) <<< 6 ||| 0])).back 2) := by
  have hpad : invAt pad ≠ 0x80 := by
    rw [invAt_pad]
    decide
  rw [decodeLoop_half h0 h1, decodeLoop_keep hpad (by simp), invAt_pad]
  show decodeLoop _ _ [s0, s1, 0] 1 = _
  rw [decodeLoop_group hpad, invAt_pad, putBlock_over]
  rfl

end

/-- The pointer of `decode` after it read the text of `x`: `junk` are the bytes of the last
group that it stepped back over. -/
theorem decodeLoop_text (x done : Bytes) :
    ∃ junk : Bytes, x.length + junk.length = 3 * ((x.length + 2) / 3) ∧
      decodeLoop (text x) (.passed done) [] 0 =
        (true, (Cursor.passed (done ++ x ++ junk)).back junk.length) := by
  induction x using text.induct generalizing done with
  | case1 =>
      refine ⟨[], rfl, ?_⟩
      rw [List.append_nil, List.append_nil]
      rfl
  | case2 a =>
      obtain ⟨h0, h1, -⟩ := sextets_lt a 0
      refine ⟨[((a &&& 0x03) <<< 4) <<< 4 ||| (0 : UInt8) >>> 2, (0 : UInt8) <<< 6 ||| 0],
        by simp, ?_⟩
      rw [text, decodeLoop_one h0 h1, List.append_assoc]
      nth_rewrite 1 [sextet_one a]
      rw [join_first]
      rfl
  | case3 a b =>
      obtain ⟨h0, -, h1, -⟩ := sextets_lt a b
      obtain ⟨-, -, -, h2, -⟩ := sextets_lt b 0
      refine ⟨[((b &&& 0x0f) <<< 2) <<< 6 ||| 0], by simp, ?_⟩
      rw [text, decodeLoop_two h0 h1 h2, List.append_assoc, join_first]
      nth_rewrite 1 [sextet_two b]
      rw [join_second]
      rfl
  | case4 a b c rest ih =>
      obtain ⟨h0, -, h1, -⟩ := sextets_lt a b
      obtain ⟨-, -, -, -, h2, -⟩ := sextets_lt b c
      obtain ⟨-, -, -, -, -, h3⟩ := sextets_lt c 0
      obtain ⟨junk, hjunk, hloop⟩ := ih (done ++ [a, b, c])
      refine ⟨junk, ?_, ?_⟩
      · simp only [List.length_cons]
        omega
      · show decodeLoop (tableAt _ :: tableAt _ :: tableAt _ :: tableAt _ :: text rest) _ _ _ = _
        rw [decodeLoop_full h0 h1 h2 h3, join_first, join_second, join_third, hloop,
          List.append_assoc done]
        rfl

/-! ## There and back -/

/-- A pointer to a buffer. -/
def memory (b : Bytes) : Nat → UInt8 := fun i => b.getD i 0

/-- Of a buffer as many bytes are read as the length says. -/
theorem bytesAt_memory {b : Bytes} {srcLen : Int32} (h : srcLen.toNatClampNeg ≤ b.length) :
    bytesAt (memory b) srcLen = b.take srcLen.toNatClampNeg := by
  refine List.ext_getElem ?_ fun i hi _ => ?_
  · rw [length_bytesAt, List.length_take]
    omega
  · rw [length_bytesAt] at hi
    simp only [bytesAt, memory, List.getElem_map, List.getElem_range, List.getElem_take]
    exact List.getD_eq_getElem _ _ (by omega)

/-- `base64::encode` of a byte string into a buffer. -/
def encodeInto (x dst : Bytes) : Returned :=
  encode (some (memory x)) (Int32.ofNat x.length) true (Int64.ofNat dst.length)

/-- `base64::decode` of the start of a buffer into another one; the length is passed as an
`int`. -/
def decodeInto (src : Bytes) (srcLen : Int64) (dst : Bytes) : Returned :=
  decode (memory src) srcLen.toInt32 true (Int64.ofNat dst.length)

/-- Encoded into any buffer with room for it and a NUL, `x` is a text of the right form and
length. -/
def Encodes (x : Bytes) : Prop :=
  ∀ dst : Bytes, dst.length < 2 ^ 63 → textLength x.length < dst.length →
    (encodeInto x dst).ret = 0 ∧ (encodeInto x dst).dstLen.toInt = textLength x.length ∧
      TextForm x.length (((encodeInto x dst).dst.apply dst).take (textLength x.length))

/-- Decoded into any buffer with room for its groups, that text is `x` again. -/
def Decodes (x : Bytes) : Prop :=
  ∀ dst back : Bytes, dst.length < 2 ^ 63 → textLength x.length < dst.length →
    back.length < 2 ^ 63 → 3 * ((x.length + 2) / 3) ≤ back.length →
    let e := encodeInto x dst
    let d := decodeInto (e.dst.apply dst) e.dstLen back
    d.ret = 0 ∧ (d.dst.apply back).take x.length = x ∧ d.dst.pos = x.length

/-- The check of `encode` asks for less than the text takes, also where it overflows. -/
theorem lengthsPass_of_room {n m : Nat} (hn : 0 < n) (hlt : n < 2 ^ 31) (hm : m < 2 ^ 63)
    (hroom : textLength n < m) : LengthsPass (Int32.ofNat n) (Int64.ofNat m) := by
  have hsrc : (Int32.ofNat n).toInt = n := Int32.toInt_ofNat_of_lt hlt
  have hdst : (Int64.ofNat m).toInt = m := Int64.toInt_ofNat_of_lt hm
  unfold LengthsPass
  rw [Int64.le_iff_toInt_le, Int32.le_iff_toInt_le, Int64.lt_iff_toInt_lt,
    Int32.toInt_toInt64, hsrc, hdst]
  constructor
  · show ¬ ((m : Int) ≤ 0 ∨ (n : Int) ≤ 0)
    omega
  · have hmul : (Int32.ofNat n * 4).toInt ≤ 4 * n := by
      rw [Int32.toInt_mul, hsrc]
      show ((n : Int) * 4).bmod (2 ^ 32) ≤ 4 * n
      rw [Int.bmod_def]
      split
      · omega
      · omega
    have hdiv : (Int32.ofNat n * 4 / 3).toInt ≤ textLength n := by
      rw [Int32.toInt_div_of_ne_right _ _ (by decide)]
      show (Int32.ofNat n * 4).toInt.tdiv 3 ≤ textLength n
      unfold textLength
      rcases Int.le_total 0 (Int32.ofNat n * 4).toInt with h | h
      · rw [Int.tdiv_eq_ediv_of_nonneg h]
        omega
      · have hneg := Int.tdiv_nonneg (Int.neg_nonneg.2 h) (show (0 : Int) ≤ 3 by decide)
        rw [Int.neg_tdiv] at hneg
        omega
    omega

/-- With room for the text and its NUL, `encode` writes both and reports the length of the text. -/
theorem encodeInto_eq {x dst : Bytes} (hx : x ≠ []) (hlt : x.length < 2 ^ 31)
    (hdst : dst.length < 2 ^ 63) (hroom : textLength x.length < dst.length) :
    (encodeInto x dst).ret = 0 ∧
      (encodeInto x dst).dstLen = Int64.ofNat (textLength x.length) ∧
      (encodeInto x dst).dst.apply dst = memcpy (text x ++ [0]) dst := by
  have hlen : (Int32.ofNat x.length).toNatClampNeg = x.length :=
    Int32.toNatClampNeg_ofNat_of_lt hlt
  have hbytes : bytesAt (memory x) (Int32.ofNat x.length) = x := by
    rw [bytesAt_memory (Nat.le_of_eq hlen), hlen, List.take_length]
  have haccepts : EncodeAccepts (some (memory x)) (Int32.ofNat x.length) true
      (Int64.ofNat dst.length) :=
    ⟨lengthsPass_of_room (List.length_pos_iff.2 hx) hlt hdst hroom, rfl, rfl⟩
  have hfits : (text x ++ [0]).length ≤ dst.length := by
    rw [List.length_append, List.length_singleton, length_text]
    omega
  unfold encodeInto
  rw [encode_of_accepts haccepts, hbytes, length_text]
  refine ⟨rfl, rfl, ?_⟩
  unfold Cursor.apply
  rw [Cursor.writes_poke_passed]
  exact Cursor.apply_passed hfits

/-- What was written begins with the text. -/
theorem take_encoded {x dst : Bytes} :
    (memcpy (text x ++ [0]) dst).take (textLength x.length) = text x := by
  unfold memcpy
  rw [List.append_assoc, ← length_text, List.take_left]

/-- All bytes are encoded whose number is an `int`. -/
theorem encodes_of_length {x : Bytes} (hx : x ≠ []) (hlt : x.length < 2 ^ 31) :
    Encodes x := by
  intro dst hdst hroom
  obtain ⟨hret, hlen, happly⟩ := encodeInto_eq hx hlt hdst hroom
  refine ⟨hret, ?_, ?_⟩
  · rw [hlen, Int64.toInt_ofNat_of_lt (by omega)]
  · rw [happly, take_encoded]
    exact text_form x

/-- The length of a text as the `int` that `decode` gets. -/
theorem toNatClampNeg_textLength {n : Nat} (hn : n < 2 ^ 31) :
    (Int64.ofNat (textLength n)).toInt32.toNatClampNeg =
      if textLength n < 2 ^ 31 then textLength n else 0 := by
  have hle : textLength n < 2 ^ 32 := by
    unfold textLength
    omega
  rw [← Int32.toNat_toInt, Int64.toInt_toInt32, Int64.toInt_ofNat_of_lt (by omega),
    Int.bmod_def]
  split
  · rw [if_pos (by omega)]
    omega
  · rw [if_neg (by omega)]
    omega

/-- A text whose length is no `int` is rejected: the length became negative. -/
theorem not_decodes_of_length {x : Bytes} (hx : x ≠ []) (hlt : x.length < 2 ^ 31)
    (hlong : ¬ textLength x.length < 2 ^ 31) : ¬ Decodes x := by
  intro h
  have hle : textLength x.length < 2 ^ 32 := by
    unfold textLength
    omega
  have hdst : (List.replicate (textLength x.length + 1) (0 : UInt8)).length =
      textLength x.length + 1 := List.length_replicate
  have hback : (List.replicate (3 * ((x.length + 2) / 3)) (0 : UInt8)).length =
      3 * ((x.length + 2) / 3) := List.length_replicate
  obtain ⟨hret, -⟩ := h (List.replicate (textLength x.length + 1) 0)
    (List.replicate (3 * ((x.length + 2) / 3)) 0) (by omega) (by omega) (by omega) (by omega)
  have hlen : (encodeInto x (List.replicate (textLength x.length + 1) 0)).dstLen = _ :=
    (encodeInto_eq hx hlt (by omega) (by omega)).2.1
  unfold decodeInto at hret
  rw [hlen] at hret
  have hclamp := toNatClampNeg_textLength hlt
  rw [if_neg hlong] at hclamp
  have hrejects : ∀ (src : Nat → UInt8) (dst : Bool) (dstLen : Int64), ¬ DecodeAccepts
      (bytesAt src (Int64.ofNat (textLength x.length)).toInt32)
      (Int64.ofNat (textLength x.length)).toInt32 dst dstLen := by
    rintro src dst dstLen ⟨-, -, hcount⟩
    have hnil : bytesAt src (Int64.ofNat (textLength x.length)).toInt32 = [] :=
      List.eq_nil_of_length_eq_zero (by rw [length_bytesAt, hclamp])
    rw [hnil] at hcount
    exact hcount (.inl rfl)
  rw [decode, if_neg (hrejects _ _ _)] at hret
  exact absurd (show (-1 : Int32) = 0 from hret) (by decide)

section

variable {x dst back : Bytes} (hlt : x.length < 2 ^ 31) (hshort : textLength x.length < 2 ^ 31)
include hlt hshort

/-- The bytes that `decode` is given are the text. -/
theorem bytesAt_encoded : bytesAt (memory (memcpy (text x ++ [0]) dst))
    (Int64.ofNat (textLength x.length)).toInt32 = text x := by
  have hclamp := toNatClampNeg_textLength hlt
  rw [if_pos hshort] at hclamp
  rw [bytesAt_memory, hclamp, take_encoded]
  rw [hclamp, ← length_text]
  unfold memcpy
  rw [List.append_assoc, List.length_append]
  omega

/-- They are accepted where there is room for their groups. -/
theorem decodeAccepts_text (hx : x ≠ []) (hback : back.length < 2 ^ 63)
    (hgroups : 3 * ((x.length + 2) / 3) ≤ back.length) :
    DecodeAccepts (text x) (Int64.ofNat (textLength x.length)).toInt32 true
      (Int64.ofNat back.length) := by
  have hclamp := toNatClampNeg_textLength hlt
  rw [if_pos hshort] at hclamp
  have hpos : 0 < x.length := List.length_pos_iff.2 hx
  have hnonneg : 0 ≤ (Int64.ofNat (textLength x.length)).toInt32.toInt := by
    rw [← Int32.toNat_toInt] at hclamp
    unfold textLength at hclamp ⊢
    omega
  unfold DecodeAccepts
  rw [Int64.lt_iff_toInt_lt, Int32.toInt_toInt64, toInt_div_four_mul_three hnonneg, hclamp,
    Int64.toInt_ofNat_of_lt hback, countValid_text, ← Int64.toInt_inj,
    Int64.toInt_ofNat_of_lt hback, Int64.toInt_zero]
  unfold textLength
  refine ⟨?_, rfl, ?_⟩
  · omega
  · omega

end

/-- Their text is decoded if its length is an `int`, too. -/
theorem decodes_of_length {x : Bytes} (hx : x ≠ []) (hlt : x.length < 2 ^ 31)
    (hshort : textLength x.length < 2 ^ 31) : Decodes x := by
  intro dst back hdst hroom hback hgroups
  obtain ⟨-, hlen, happly⟩ := encodeInto_eq hx hlt hdst hroom
  dsimp only
  rw [happly, hlen]
  obtain ⟨junk, hjunk, hloop⟩ := decodeLoop_text x []
  rw [Cursor.passed_nil, List.nil_append] at hloop
  have hdecode : decodeInto (memcpy (text x ++ [0]) dst) (Int64.ofNat (textLength x.length))
      back = ⟨0, (Cursor.passed (x ++ junk)).back junk.length,
        Int64.ofNat ((Cursor.passed (x ++ junk)).back junk.length).pos⟩ := by
    unfold decodeInto
    rw [decode, bytesAt_encoded hlt hshort,
      if_pos (decodeAccepts_text hlt hshort hx hback hgroups), hloop]
    rfl
  rw [hdecode]
  refine ⟨rfl, ?_, ?_⟩
  · have hfits : (x ++ junk).length ≤ back.length := by
      rw [List.length_append]
      omega
    have hover := Cursor.apply_passed hfits
    show ((Cursor.passed (x ++ junk)).apply back).take x.length = x
    rw [hover, memcpy, List.append_assoc, List.take_left]
  · show (x ++ junk).length - junk.length = x.length
    rw [List.length_append]
    omega

/-- **The round trip of base64**: every byte string whose length is an `int` is encoded, and
exactly those with a text whose length is an `int` are decoded again. -/
theorem roundTrips_iff_length {x : Bytes} (hx : x ≠ []) (hlt : x.length < 2 ^ 31) :
    Encodes x ∧ (Decodes x ↔ textLength x.length < 2 ^ 31) := by
  refine ⟨encodes_of_length hx hlt, ?_, ?_⟩
  · intro h
    by_contra hlong
    exact not_decodes_of_length hx hlt hlong h
  · exact decodes_of_length hx hlt

/-- Three bytes make the round trip. -/
theorem roundTrips_three : Encodes [77, 97, 110] ∧ Decodes [77, 97, 110] := by
  have h := roundTrips_iff_length (show [77, 97, 110] ≠ [] by simp) (by decide)
  exact ⟨h.1, h.2.2 (by decide)⟩

/-- **A text of two gigabytes** has a length that is no `int`. -/
theorem not_decodes_gigabytes : ¬ Decodes (List.replicate 1610612734 0) := by
  have hlen : (List.replicate 1610612734 (0 : UInt8)).length = 1610612734 :=
    List.length_replicate
  refine not_decodes_of_length ?_ ?_ ?_
  · intro h
    rw [h] at hlen
    exact absurd hlen (by decide)
  · omega
  · rw [hlen]
    decide

end NearRtRic.E2Term.Base64
