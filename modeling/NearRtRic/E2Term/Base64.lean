/-
# Base64

`base64::encode` and `base64::decode` of `base64.cpp`, which the tracing of E2 messages
uses.  Both get a pointer and an `int` for the source and a pointer and a `long` for the
destination, check these, and then store through a pointer that moves over the
destination (`CString.Cursor`).

The encoder turns three bytes into four characters, fills up the last group with `=` and
ends the text with a NUL.  The decoder skips characters that are no base64, and stops at the
first group with an `=` in it.
-/

import NearRtRic.CString.Cursor
import Mathlib.Data.List.Basic

namespace NearRtRic.E2Term.Base64

open CString

/-- `base64_table` without its NUL. -/
def base64_table : Bytes := ascii "ABCDEFGHIJKLMNOPQRSTUVWXYZabcdefghijklmnopqrstuvwxyz0123456789+/"

/-- `'='`. -/
def pad : UInt8 := 61

/-- `base64_table[i]`. -/
def tableAt (i : UInt8) : UInt8 := base64_table.getD i.toNat 0

/-- What a call returns, the stores it made, and its `dstLen` afterwards. -/
structure Returned where
  ret : Int32
  dst : Cursor
  dstLen : Int64
  deriving DecidableEq, Repr

/-- The bytes that a source pointer and a length stand for. -/
def bytesAt (src : Nat → UInt8) (srcLen : Int32) : Bytes :=
  (List.range srcLen.toNatClampNeg).map src

/-- The loop of `encode`, with the bytes it leaves. -/
def encodeLoop : Cursor → Bytes → Cursor × Bytes
  | pos, a :: b :: c :: rest =>
      let pos := pos.put (tableAt (a >>> 2))
      let pos := pos.put (tableAt ((a &&& 0x03) <<< 4 ||| b >>> 4))
      let pos := pos.put (tableAt ((b &&& 0x0f) <<< 2 ||| c >>> 6))
      let pos := pos.put (tableAt (c &&& 0x3f))
      encodeLoop pos rest
  | pos, rest => (pos, rest)

/-- The last group of `encode`. -/
def encodeTail (pos : Cursor) : Bytes → Cursor
  | [] => pos
  | a :: rest =>
      let pos := pos.put (tableAt (a >>> 2))
      let pos := match rest with
        | [] => (pos.put (tableAt ((a &&& 0x03) <<< 4))).put pad
        | b :: _ =>
            let pos := pos.put (tableAt ((a &&& 0x03) <<< 4 ||| b >>> 4))
            pos.put (tableAt ((b &&& 0x0f) <<< 2))
      pos.put pad

/-- The checks of `encode` on the lengths; `srcLen * 4` is an `int` and wraps. -/
def LengthsPass (srcLen : Int32) (dstLen : Int64) : Prop :=
  ¬ (dstLen ≤ 0 ∨ srcLen ≤ 0) ∧ ¬ dstLen < (srcLen * 4 / 3).toInt64

/-- The checks of `encode`. -/
def EncodeAccepts (src : Option (Nat → UInt8)) (srcLen : Int32) (dst : Bool) (dstLen : Int64) :
    Prop :=
  LengthsPass srcLen dstLen ∧ dst = true ∧ src.isSome

instance (src : Option (Nat → UInt8)) (srcLen : Int32) (dst : Bool) (dstLen : Int64) :
    Decidable (EncodeAccepts src srcLen dst dstLen) := by
  unfold EncodeAccepts LengthsPass
  infer_instance

/-- `base64::encode`; a source of `none` is the null pointer, and `dst` tells whether there
is a destination. -/
def encode (src : Option (Nat → UInt8)) (srcLen : Int32) (dst : Bool) (dstLen : Int64) :
    Returned :=
  match src with
  | some memory =>
      if EncodeAccepts src srcLen dst dstLen then
        let (pos, rest) := encodeLoop {} (bytesAt memory srcLen)
        let pos := encodeTail pos rest
        ⟨0, pos.poke 0, Int64.ofNat pos.pos⟩
      else ⟨-1, {}, dstLen⟩
  | none => ⟨-1, {}, dstLen⟩

/-- `inv_table`, filled as `decode` does. -/
def inv_table : Bytes :=
  (base64_table.zipIdx.foldl (fun t x => t.set x.1.toNat (UInt8.ofNat x.2))
    (List.replicate 256 0x80)).set pad.toNat 0

/-- `inv_table[c]`. -/
def invAt (c : UInt8) : UInt8 := inv_table.getD c.toNat 0

/-- The three stores of a group of `decode`. -/
def putBlock (pos : Cursor) (b0 b1 b2 b3 : UInt8) : Cursor :=
  let pos := pos.put (b0 <<< 2 ||| b1 >>> 4)
  let pos := pos.put (b1 <<< 4 ||| b2 >>> 2)
  pos.put (b2 <<< 6 ||| b3)

/-- The loop of `decode`: `block` is what it holds of the current group.  The pointer where
it ends, and whether `decode` goes on to return `0`. -/
def decodeLoop : Bytes → Cursor → List UInt8 → Nat → Bool × Cursor
  | [], pos, _, _ => (true, pos)
  | c :: src, pos, block, padding =>
      let tmp := invAt c
      if tmp = 0x80 then decodeLoop src pos block padding
      else
        let padding := if c = pad then padding + 1 else padding
        match block with
        | [b0, b1, b2] =>
            let pos := putBlock pos b0 b1 b2 tmp
            if padding = 0 then decodeLoop src pos [] padding
            else if padding = 1 then (true, pos.back 1)
            else if padding = 2 then (true, pos.back 2)
            else (false, pos)
        | block => decodeLoop src pos (block ++ [tmp]) padding

/-- The first loop of `decode`. -/
def countValid (src : Bytes) : Nat := src.countP (invAt · ≠ 0x80)

/-- The checks of `decode` that come before its first store. -/
def DecodeAccepts (src : Bytes) (srcLen : Int32) (dst : Bool) (dstLen : Int64) : Prop :=
  ¬ (dstLen = 0 ∨ dstLen < (srcLen / 4 * 3).toInt64) ∧ dst = true ∧
    ¬ (countValid src = 0 ∨ countValid src % 4 ≠ 0)

instance (src : Bytes) (srcLen : Int32) (dst : Bool) (dstLen : Int64) :
    Decidable (DecodeAccepts src srcLen dst dstLen) := by
  unfold DecodeAccepts
  infer_instance

/-- `base64::decode`; its `dstLen` is a copy that the caller does not see. -/
def decode (src : Nat → UInt8) (srcLen : Int32) (dst : Bool) (dstLen : Int64) : Returned :=
  if DecodeAccepts (bytesAt src srcLen) srcLen dst dstLen then
    let (ok, pos) := decodeLoop (bytesAt src srcLen) {} [] 0
    if ok then ⟨0, pos, Int64.ofNat pos.pos⟩ else ⟨-1, pos, dstLen⟩
  else ⟨-1, {}, dstLen⟩

/-! ## What the encoder writes -/

/-- The text that `encode` makes of some bytes. -/
def text : Bytes → Bytes
  | [] => []
  | [a] => [tableAt (a >>> 2), tableAt ((a &&& 0x03) <<< 4), pad, pad]
  | [a, b] =>
      [tableAt (a >>> 2), tableAt ((a &&& 0x03) <<< 4 ||| b >>> 4),
       tableAt ((b &&& 0x0f) <<< 2), pad]
  | a :: b :: c :: rest =>
      [tableAt (a >>> 2), tableAt ((a &&& 0x03) <<< 4 ||| b >>> 4),
       tableAt ((b &&& 0x0f) <<< 2 ||| c >>> 6), tableAt (c &&& 0x3f)] ++ text rest

/-- The length of the text of `n` bytes. -/
def textLength (n : Nat) : Nat := 4 * ((n + 2) / 3)

/-- Every group of three bytes, the last one filled up, is four characters. -/
theorem length_text (x : Bytes) : (text x).length = textLength x.length := by
  unfold textLength
  induction x using text.induct with
  | case1 => rfl
  | case2 a => simp [text]
  | case3 a b => simp [text]
  | case4 a b c rest ih =>
      rw [text, List.length_append, ih]
      simp only [List.length_cons, List.length_nil]
      omega

/-- The loop and the tail write the text behind what is there. -/
theorem encode_text (done x : Bytes) :
    encodeTail (encodeLoop (.passed done) x).1 (encodeLoop (.passed done) x).2 =
      .passed (done ++ text x) := by
  induction x using text.induct generalizing done with
  | case1 => simp [encodeLoop, encodeTail, text]
  | case2 a => simp [encodeLoop, encodeTail, text]
  | case3 a b => simp [encodeLoop, encodeTail, text]
  | case4 a b c rest ih =>
      have h := ih (done ++ [tableAt (a >>> 2)] ++
        [tableAt ((a &&& 0x03) <<< 4 ||| b >>> 4)] ++
        [tableAt ((b &&& 0x0f) <<< 2 ||| c >>> 6)] ++ [tableAt (c &&& 0x3f)])
      simp only [encodeLoop, Cursor.put_passed, text]
      rw [h]
      simp

/-- An accepted call stores the text and its NUL, from the start of the destination on. -/
theorem encode_of_accepts {src : Nat → UInt8} {srcLen : Int32} {dst : Bool} {dstLen : Int64}
    (h : EncodeAccepts (some src) srcLen dst dstLen) :
    encode (some src) srcLen dst dstLen =
      ⟨0, (Cursor.passed (text (bytesAt src srcLen))).poke 0,
        Int64.ofNat (text (bytesAt src srcLen)).length⟩ := by
  have htext := encode_text [] (bytesAt src srcLen)
  rw [List.nil_append, Cursor.passed_nil] at htext
  rw [encode, if_pos h]
  dsimp only
  rw [htext, Cursor.pos_passed]

/-! ## Where the stores go -/

/-- As many bytes as the length says, none if it is negative. -/
theorem length_bytesAt (src : Nat → UInt8) (srcLen : Int32) :
    (bytesAt src srcLen).length = srcLen.toNatClampNeg := by
  unfold bytesAt
  rw [List.length_map, List.length_range]

/-- **The places that `encode` writes**: those of the text and its NUL. -/
theorem encode_within_iff {src : Nat → UInt8} {srcLen : Int32} {dst : Bool} {dstLen : Int64}
    (h : EncodeAccepts (some src) srcLen dst dstLen) :
    (encode (some src) srcLen dst dstLen).dst.Within dstLen.toInt ↔
      (textLength srcLen.toNatClampNeg : Int) < dstLen.toInt := by
  have hpos : 0 ≤ dstLen.toInt := by
    have hpos := h.1.1
    rw [not_or, Int64.le_iff_toInt_le] at hpos
    have := hpos.1
    rw [Int64.toInt_zero] at this
    omega
  have hlen := length_text (bytesAt src srcLen)
  rw [length_bytesAt] at hlen
  obtain ⟨n, hn⟩ := Int.eq_ofNat_of_zero_le hpos
  have hwrites : (encode (some src) srcLen dst dstLen).dst.writes =
      (Cursor.passed (text (bytesAt src srcLen) ++ [0])).writes := by
    rw [encode_of_accepts h]
    exact Cursor.writes_poke_passed ..
  have hover : (Cursor.passed (text (bytesAt src srcLen) ++ [0])).Within (n : Int) ↔ _ :=
    Cursor.within_passed
  rw [List.length_append, List.length_singleton, hlen] at hover
  unfold Cursor.Within at hover ⊢
  rw [hwrites, hn, hover]
  omega

section decodeLoop

variable {c : UInt8} {src : Bytes} {pos : Cursor} {block : List UInt8} {padding : Nat}

/-- A character that is no base64 is skipped. -/
theorem decodeLoop_skip (hc : invAt c = 0x80) :
    decodeLoop (c :: src) pos block padding = decodeLoop src pos block padding := by
  rw [decodeLoop, if_pos hc]

/-- The first three characters of a group are kept. -/
theorem decodeLoop_keep (hc : invAt c ≠ 0x80) (hblock : block.length < 3) :
    decodeLoop (c :: src) pos block padding =
      decodeLoop src pos (block ++ [invAt c]) (if c = pad then padding + 1 else padding) := by
  rw [decodeLoop, if_neg hc]
  match block, hblock with
  | [], _ => rfl
  | [_], _ => rfl
  | [_, _], _ => rfl
  | _ :: _ :: _ :: _, h => exact absurd h (by simp)

/-- The fourth character ends a group. -/
theorem decodeLoop_group (hc : invAt c ≠ 0x80) (b0 b1 b2 : UInt8) :
    decodeLoop (c :: src) pos [b0, b1, b2] padding =
      let padding := if c = pad then padding + 1 else padding
      let pos := putBlock pos b0 b1 b2 (invAt c)
      if padding = 0 then decodeLoop src pos [] padding
      else if padding = 1 then (true, pos.back 1)
      else if padding = 2 then (true, pos.back 2)
      else (false, pos) := by
  rw [decodeLoop, if_neg hc]

/-- A group of four characters makes three bytes. -/
theorem putBlock_over (done : Bytes) (b0 b1 b2 b3 : UInt8) :
    putBlock (.passed done) b0 b1 b2 b3 =
      .passed (done ++ [b0 <<< 2 ||| b1 >>> 4, b1 <<< 4 ||| b2 >>> 2, b2 <<< 6 ||| b3]) := by
  unfold putBlock
  dsimp only
  rw [Cursor.put_passed, Cursor.put_passed, Cursor.put_passed, List.append_assoc, List.append_assoc]
  rfl

/-- The loop stores three bytes for every four characters, one after another. -/
theorem writes_decodeLoop (src done : Bytes) (block : List UInt8) (padding : Nat)
    (hblock : block.length ≤ 3) :
    ∃ bytes : Bytes,
      (decodeLoop src (.passed done) block padding).2.writes = (Cursor.passed bytes).writes ∧
        bytes.length ≤ done.length + 3 * ((block.length + countValid src) / 4) := by
  induction src generalizing done block padding with
  | nil => exact ⟨done, rfl, by omega⟩
  | cons c src ih =>
      have hcount : countValid (c :: src) =
          countValid src + if invAt c ≠ 0x80 then 1 else 0 := by
        unfold countValid
        rw [List.countP_cons]
        simp
      by_cases hc : invAt c = 0x80
      · rw [decodeLoop_skip hc, hcount, if_neg (by simp [hc])]
        exact ih done block padding hblock
      rw [hcount, if_pos hc]
      by_cases hkeep : block.length < 3
      · obtain ⟨bytes, hwrites, hlen⟩ := ih done (block ++ [invAt c])
          (if c = pad then padding + 1 else padding) (by simp; omega)
        rw [decodeLoop_keep hc hkeep]
        refine ⟨bytes, hwrites, ?_⟩
        rw [List.length_append, List.length_singleton] at hlen
        omega
      · have hlength : block.length = 3 := by omega
        obtain ⟨b0, b1, b2, rfl⟩ := List.length_eq_three.1 hlength
        rw [decodeLoop_group hc, putBlock_over]
        generalize (if c = pad then padding + 1 else padding) = padding
        dsimp only
        generalize hgroup : [b0 <<< 2 ||| b1 >>> 4, b1 <<< 4 ||| b2 >>> 2, b2 <<< 6 ||| invAt c] =
          group
        have hlen : (done ++ group).length = done.length + 3 := by
          rw [← hgroup, List.length_append]
          rfl
        split
        · obtain ⟨bytes, hwrites, hle⟩ := ih (done ++ group) [] padding (by simp)
          refine ⟨bytes, hwrites, ?_⟩
          rw [hlen, List.length_nil] at hle
          omega
        · refine ⟨done ++ group, ?_, by omega⟩
          split
          · rfl
          · split
            · rfl
            · rfl

end decodeLoop

/-- A quarter of a source length that is not negative is computed without overflow. -/
theorem toInt_div_four_mul_three {srcLen : Int32} (h : 0 ≤ srcLen.toInt) :
    (srcLen / 4 * 3).toInt = (3 * (srcLen.toNatClampNeg / 4) : Nat) := by
  obtain ⟨n, hn⟩ := Int.eq_ofNat_of_zero_le h
  have hlt := srcLen.toInt_lt
  have hclamp : srcLen.toNatClampNeg = n := by
    rw [← Int32.toNat_toInt, hn]
    rfl
  have hdiv : (srcLen / 4).toInt = ((n / 4 : Nat) : Int) := by
    rw [Int32.toInt_div, hn]
    show (((n : Int).tdiv ((4 : Nat) : Int)).bmod (2 ^ 32) : Int) = _
    rw [← Int.ofNat_tdiv, Int.bmod_eq_of_le (by omega) (by omega)]
  rw [Int32.toInt_mul, hdiv, hclamp]
  show (((n / 4 : Nat) : Int) * 3).bmod (2 ^ 32) = _
  rw [Int.bmod_eq_of_le (by omega) (by omega)]
  omega

/-- **`decode` stays within its destination** for all lengths: it has checked that every four
characters find three bytes. -/
theorem decode_within (src : Nat → UInt8) (srcLen : Int32) (dst : Bool) (dstLen : Int64) :
    (decode src srcLen dst dstLen).dst.Within dstLen.toInt := by
  unfold decode
  split
  · rename_i haccepts
    obtain ⟨hlen, -, hcount⟩ := haccepts
    obtain ⟨bytes, hwrites, hle⟩ :=
      writes_decodeLoop (bytesAt src srcLen) [] [] 0 (Nat.zero_le _)
    rw [Cursor.passed_nil] at hwrites
    have hvalid : countValid (bytesAt src srcLen) ≤ srcLen.toNatClampNeg := by
      rw [← length_bytesAt src srcLen]
      exact List.countP_le_length
    have hpos : 0 < srcLen.toNatClampNeg := by omega
    rw [← Int32.toNat_toInt] at hpos
    rw [not_or, Int64.lt_iff_toInt_lt, Int32.toInt_toInt64,
      toInt_div_four_mul_three (by omega)] at hlen
    have hlen := hlen.2
    have hroom : (bytes.length : Int) ≤ dstLen.toInt := by
      dsimp only [List.length_nil] at hle
      omega
    have hwithin : (decodeLoop (bytesAt src srcLen) {} [] 0).2.Within dstLen.toInt := by
      obtain ⟨n, hn⟩ := Int.eq_ofNat_of_zero_le (a := dstLen.toInt) (by omega)
      have hover := (Cursor.within_passed (n := n)).2 (show bytes.length ≤ n by omega)
      unfold Cursor.Within at hover ⊢
      rw [hwrites, hn]
      exact hover
    dsimp only
    split
    · exact hwithin
    · exact hwithin
  · exact fun w hw => absurd hw List.not_mem_nil

/-- What `encode` and `decode` have to keep to for a source and a destination of these
lengths: a call they accept stores only in the destination. -/
def StaysWithin (srcLen : Int32) (dstLen : Int64) : Prop :=
  (∀ src dst, EncodeAccepts src srcLen dst dstLen →
    (encode src srcLen dst dstLen).dst.Within dstLen.toInt) ∧
  ∀ src dst, DecodeAccepts (bytesAt src srcLen) srcLen dst dstLen →
    (decode src srcLen dst dstLen).dst.Within dstLen.toInt

/-- **Base64 stays within its destination** exactly where `encode` rejects the lengths, or the
destination has room for the text and the NUL behind it. -/
theorem staysWithin_iff_room (srcLen : Int32) (dstLen : Int64) :
    StaysWithin srcLen dstLen ↔ (LengthsPass srcLen dstLen →
      (textLength srcLen.toNatClampNeg : Int) < dstLen.toInt) := by
  constructor
  · rintro ⟨hencode, -⟩ hpass
    have haccepts : EncodeAccepts (some fun _ => 0) srcLen true dstLen := ⟨hpass, rfl, rfl⟩
    exact (encode_within_iff haccepts).1 (hencode _ _ haccepts)
  · intro hroom
    constructor
    · rintro (_ | src) dst haccepts
      · exact absurd haccepts.2.2 (by simp)
      · exact (encode_within_iff haccepts).2 (hroom haccepts.1)
    · exact fun src dst _ => decode_within src srcLen dst dstLen

/-- **The text fits, its NUL does not**: three bytes and room for four characters. -/
theorem not_staysWithin_three_four : ¬ StaysWithin 3 4 := by
  rintro ⟨hencode, -⟩
  have haccepts : EncodeAccepts (some fun _ => 0) 3 true 4 := by decide
  have hlast : (4, 0) ∈ (encode (some fun _ => 0) 3 true 4).dst.writes := by decide +kernel
  have hwithin := hencode _ _ haccepts _ hlast
  exact absurd hwithin (by decide)

/-- `sizeof(message.base64Data)`, twice `RECEIVE_SCTP_BUFFER_SIZE`. -/
def base64DataSize : Int64 := 262144

/-- `buildJsonMessage` has room for every message that fits the buffer it was received in. -/
theorem buildJsonMessage_within {src : Nat → UInt8} {asnLength : Int32}
    (hlen : asnLength.toInt ≤ 131072) :
    (encode (some src) asnLength true base64DataSize).dst.Within base64DataSize.toInt := by
  by_cases haccepts : EncodeAccepts (some src) asnLength true base64DataSize
  · rw [encode_within_iff haccepts]
    have hsize : base64DataSize.toInt = 262144 := rfl
    rw [hsize, ← Int32.toNat_toInt, textLength]
    omega
  · rw [encode, if_neg haccepts]
    exact fun w hw => absurd hw List.not_mem_nil

end NearRtRic.E2Term.Base64
