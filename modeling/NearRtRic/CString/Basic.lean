/-
# C strings in byte buffers

A buffer is a list of bytes, and the functions of `string.h` see of it what comes
before its first NUL (`visible`); the byte after the end of a buffer is taken to
be NUL, the terminator that its owner keeps there.

`strncmp_eq_zero_iff` says what a comparison of two buffers of one length over
that length decides: not that they are equal, but that they agree up to the first
NUL.
-/

import Mathlib.Data.List.GetD
import Mathlib.Data.List.TakeWhile
import Mathlib.Tactic.Ring

namespace NearRtRic.CString

/-- The bytes of a buffer. -/
abbrev Bytes := List UInt8

/-- What a C string function sees of a buffer. -/
def visible (b : Bytes) : Bytes := b.takeWhile (· ≠ 0)

/-- `strncmp`: at most `n` bytes, and none after a NUL. -/
def strncmp : Bytes → Bytes → Nat → Int
  | _, _, 0 => 0
  | a, b, n + 1 =>
      if a.headD 0 ≠ b.headD 0 then (a.headD 0).toNat - (b.headD 0).toNat
      else if a.headD 0 = 0 then 0
      else strncmp a.tail b.tail n

/-- `memcpy` of `src` to the start of a buffer: what lies behind stays. -/
def memcpy (src b : Bytes) : Bytes := src ++ b.drop src.length

/-- `snprintf` of a text into the first `size` bytes of a buffer: the text is cut
to leave room for the NUL that ends it. -/
def snprintf (size : Nat) (text b : Bytes) : Bytes := memcpy (text.take (size - 1) ++ [0]) b

/-- Memory from the start of a buffer on, and how far it was written: one past the last
byte. -/
structure Memory where
  bytes : Bytes
  written : Nat := 0

/-- Bytes copied to a place in memory, of which what lies before is initialised. -/
def Memory.write (off : Nat) (src : Bytes) (b : Memory) : Memory where
  bytes := b.bytes.take off ++ memcpy src (b.bytes.drop off)
  written := max b.written (off + src.length)

/-- Bytes stored from a place in a buffer on, if there is room for them. -/
def store (off : Nat) (src b : Bytes) : Option Bytes :=
  if off + src.length ≤ b.length then some (b.take off ++ memcpy src (b.drop off)) else none

/-- The bytes of an ASCII literal. -/
def ascii (s : String) : Bytes := s.toList.map fun c => UInt8.ofNat c.toNat

/-- ASCII lower case. -/
def lower (c : UInt8) : UInt8 := if 65 ≤ c ∧ c ≤ 90 then c + 32 else c

/-- `!strcasecmp`: the visible parts agree but for case. -/
def strcaseeq (a b : Bytes) : Bool := (visible a).map lower = (visible b).map lower

/-- `isspace`. -/
def isspace (c : UInt8) : Bool := c = 32 || (9 ≤ c && c ≤ 13)

/-- `isdigit`. -/
def isdigit (c : UInt8) : Bool := 48 ≤ c && c ≤ 57

/-- `strncpy` of a source of `n` bytes: the copy ends with its first NUL, the rest of the `n`
bytes is filled with NULs. -/
def strncpy (src b : Bytes) : Bytes :=
  visible src ++ List.replicate (src.length - (visible src).length) 0 ++ b.drop src.length

/-- The number that `n` and the digits at the start of a buffer make. -/
def digitsFrom : Nat → Bytes → Nat
  | n, [] => n
  | n, c :: b => if isdigit c then digitsFrom (10 * n + (c.toNat - 48)) b else n

/-- The number at the start of a buffer, if it starts with a digit. -/
def leadingNumber (b : Bytes) : Option Nat :=
  if isdigit (b.headD 0) then some (digitsFrom 0 b) else none

/-- Whether a text has a minus sign, and the text behind its sign. -/
def unsign : Bytes → Bool × Bytes
  | [] => (false, [])
  | c :: b => if c = 45 then (true, b) else if c = 43 then (false, b) else (false, c :: b)

/-- `strtol` in base 10: spaces, a sign, digits.  `none` is for text without a number, which
`atoi` takes for 0 and `stoi` throws on; the numbers here are too short to overflow. -/
def strtol (b : Bytes) : Option Int :=
  (leadingNumber (unsign (b.dropWhile isspace)).2).map fun n : Nat =>
    if (unsign (b.dropWhile isspace)).1 then -(n : Int) else n

/-- What is left behind the number that `strtol` reads. -/
def numberEnd (b : Bytes) : Bytes := (unsign (b.dropWhile isspace)).2.dropWhile isdigit

/-- Nothing is seen of an empty buffer. -/
@[simp] theorem visible_nil : visible [] = [] := rfl

/-- A NUL ends what is seen, every other byte is part of it. -/
theorem visible_cons (c : UInt8) (b : Bytes) :
    visible (c :: b) = if c = 0 then [] else c :: visible b := by
  unfold visible
  rw [List.takeWhile_cons]
  by_cases hc : c = 0 <;> simp [hc]

/-- A buffer without a NUL is visible as a whole. -/
theorem visible_eq_self {b : Bytes} (h : 0 ∉ b) : visible b = b := by
  refine List.takeWhile_eq_self_iff.2 fun c hc => ?_
  have : c ≠ 0 := fun h0 => h (h0 ▸ hc)
  simpa using this

/-- What is seen has no NUL. -/
theorem zero_notMem_visible (b : Bytes) : 0 ∉ visible b := by
  intro h
  have := List.mem_takeWhile_imp h
  simp at this

/-- No more is seen than what lies before a NUL. -/
theorem length_visible_append_zero_le (a b : Bytes) :
    (visible (a ++ 0 :: b)).length ≤ a.length := by
  induction a with
  | nil => exact Nat.le_refl _
  | cons c a ih =>
      rw [List.cons_append, visible_cons]
      split
      · exact Nat.zero_le _
      · exact Nat.succ_le_succ ih

/-- Nothing is seen from a NUL on that was written. -/
theorem length_visible_set_zero_le {b : Bytes} {k : Nat} (h : k < b.length) :
    (visible (b.set k 0)).length ≤ k := by
  have hle := length_visible_append_zero_le (b.take k) (b.drop (k + 1))
  rw [List.length_take_of_le (Nat.le_of_lt h)] at hle
  rwa [List.set_eq_take_append_cons_drop, if_pos h]

/-- Text before the first NUL, and what is seen of the rest. -/
theorem visible_append {a : Bytes} (h : 0 ∉ a) (b : Bytes) : visible (a ++ b) = a ++ visible b := by
  induction a with
  | nil => rfl
  | cons c a ih =>
      rw [List.mem_cons, not_or] at h
      rw [List.cons_append, visible_cons, if_neg (Ne.symm h.1), ih h.2, List.cons_append]

/-- Nothing is seen exactly where the first byte is a NUL, or there is none. -/
theorem visible_eq_nil_iff {b : Bytes} : visible b = [] ↔ b.getD 0 0 = 0 := by
  cases b with
  | nil => simp
  | cons c b =>
      rw [visible_cons, List.getD_cons_zero]
      split <;> simp_all

/-- The bytes before the end of what is seen are part of it. -/
theorem getD_mem_visible {b : Bytes} {i : Nat} (h : i < (visible b).length) :
    b.getD i 0 ∈ visible b := by
  obtain ⟨rest, hrest⟩ : visible b <+: b := List.takeWhile_prefix _
  have hget : (visible b ++ rest).getD i 0 = (visible b)[i] := by
    rw [List.getD_eq_getElem?_getD, List.getElem?_append_left h, List.getElem?_eq_getElem h,
      Option.getD_some]
  rw [hrest] at hget
  rw [hget]
  exact List.getElem_mem h

/-- Copying no less than what is there replaces it. -/
theorem memcpy_of_length_le {src b : Bytes} (h : b.length ≤ src.length) : memcpy src b = src := by
  rw [memcpy, List.drop_eq_nil_of_le h, List.append_nil]

/-- A copy makes the buffer no shorter than its source. -/
theorem length_memcpy (src b : Bytes) : (memcpy src b).length = max src.length b.length := by
  rw [memcpy, List.length_append, List.length_drop]
  omega

/-- To store bytes leaves the length as it is. -/
theorem length_of_store {off : Nat} {src b b' : Bytes} (h : store off src b = some b') :
    b'.length = b.length := by
  unfold store at h
  split at h
  · rw [← Option.some.inj h, List.length_append, length_memcpy, List.length_take,
      List.length_drop]
    omega
  · cases h

/-- The first bytes decide where they differ, or are both the end. -/
theorem strncmp_cons_cons (a b : UInt8) (as bs : Bytes) (n : Nat) :
    strncmp (a :: as) (b :: bs) (n + 1) =
      if a ≠ b then (a.toNat : Int) - b.toNat else if a = 0 then 0 else strncmp as bs n := rfl

/-- **What `strncmp` over the whole of two buffers decides.** -/
theorem strncmp_eq_zero_iff {a b : Bytes} (h : a.length = b.length) :
    strncmp a b a.length = 0 ↔ visible a = visible b := by
  induction a generalizing b with
  | nil =>
      obtain rfl := List.eq_nil_of_length_eq_zero h.symm
      simp [strncmp]
  | cons x as ih =>
      cases b with
      | nil => cases h
      | cons y bs =>
          have hlen : as.length = bs.length := Nat.succ.inj h
          rw [List.length_cons, strncmp_cons_cons, visible_cons, visible_cons]
          by_cases hxy : x = y
          · subst hxy
            rw [if_neg (not_not.2 rfl)]
            split
            · exact ⟨fun _ => rfl, fun _ => rfl⟩
            · rw [ih hlen, List.cons_inj_right]
          · have hne : (x.toNat : Int) - y.toNat ≠ 0 := by
              have := UInt8.toNat_inj.not.2 hxy
              omega
            rw [if_pos hxy]
            refine ⟨fun h0 => absurd h0 hne, fun hvis => absurd ?_ hxy⟩
            -- where the first bytes differ, one of them is visible
            split at hvis <;> split at hvis
            · rename_i hx hy
              rw [hx, hy]
            · cases hvis
            · cases hvis
            · exact (List.cons.inj hvis).1

/-! ### Copies and numbers -/

/-- Bytes without a NUL are seen up to the first one behind them. -/
theorem visible_of_notMem_append {a : Bytes} (h : 0 ∉ a) (b : Bytes) :
    visible (a ++ 0 :: b) = a := by
  rw [visible_append h, visible_cons, if_pos rfl, List.append_nil]

/-- Zeros behind such bytes add nothing. -/
theorem visible_append_zeros {a : Bytes} (h : 0 ∉ a) (k : Nat) :
    visible (a ++ List.replicate k 0) = a := by
  cases k with
  | zero => rw [List.replicate_zero, List.append_nil, visible_eq_self h]
  | succ k => rw [List.replicate_succ, visible_of_notMem_append h]

/-- Printing into a zeroed buffer leaves the text, and at least one NUL behind it. -/
theorem snprintf_zeros (size : Nat) (text : Bytes) (n : Nat) : ∃ k,
    snprintf size text (List.replicate n 0) =
      text.take (size - 1) ++ List.replicate (k + 1) 0 := by
  refine ⟨n - (text.take (size - 1) ++ [0]).length, ?_⟩
  rw [snprintf, memcpy, List.drop_replicate, List.append_assoc, List.replicate_succ]
  rfl

/-- A copy shows what of the source is visible, and if that is all of it, what lies behind. -/
theorem visible_strncpy (src b : Bytes) : visible (strncpy src b) =
    if 0 ∈ src then visible src else src ++ visible (b.drop src.length) := by
  unfold strncpy
  by_cases h : 0 ∈ src
  · rw [if_pos h]
    have hlt : (visible src).length < src.length := by
      refine lt_of_le_of_ne (List.takeWhile_prefix _).length_le fun heq => ?_
      have hself : visible src = src := (List.takeWhile_prefix _).eq_of_length heq
      rw [← hself] at h
      exact zero_notMem_visible src h
    obtain ⟨n, hn⟩ : ∃ n, src.length - (visible src).length = n + 1 :=
      ⟨src.length - (visible src).length - 1, by omega⟩
    rw [hn, List.replicate_succ, List.append_assoc, List.cons_append]
    exact visible_of_notMem_append (zero_notMem_visible src) _
  · rw [if_neg h, visible_eq_self h, Nat.sub_self, List.replicate_zero, List.append_nil,
      visible_append h]

/-- The bytes of a source as they are copied: behind the first NUL there are only NULs. -/
theorem getD_visible_append_zeros (src : Bytes) (p : Nat) :
    (visible src ++ List.replicate (src.length - (visible src).length) 0).getD p 0 =
      if 0 ∈ src.take p then 0 else src.getD p 0 := by
  induction src generalizing p with
  | nil => simp
  | cons c src ih =>
      rw [visible_cons]
      by_cases hc : c = 0
      · rw [if_pos hc, List.nil_append, List.getD_eq_getElem?_getD,
          List.getElem?_getD_replicate_default_eq]
        cases p with
        | zero => exact hc.symm
        | succ p => rw [if_pos (by simp [hc])]
      · rw [if_neg hc, List.cons_append, List.length_cons, List.length_cons,
          Nat.add_sub_add_right]
        cases p with
        | zero => rfl
        | succ p =>
            rw [List.getD_cons_succ, List.getD_cons_succ, ih, List.take_succ_cons]
            simp [Ne.symm hc]

/-- A copy, byte by byte. -/
theorem getD_strncpy (src b : Bytes) (p : Nat) : (strncpy src b).getD p 0 =
    if p < src.length then (if 0 ∈ src.take p then 0 else src.getD p 0) else b.getD p 0 := by
  have hle : (visible src).length ≤ src.length := (List.takeWhile_prefix _).length_le
  have hlen : (visible src ++ List.replicate (src.length - (visible src).length) 0).length =
      src.length := by
    rw [List.length_append, List.length_replicate]
    omega
  unfold strncpy
  by_cases hp : p < src.length
  · rw [if_pos hp, ← getD_visible_append_zeros, List.getD_append _ _ _ _ (by omega)]
  · rw [if_neg hp, List.getD_append_right _ _ _ _ (by omega), hlen, List.getD_eq_getElem?_getD,
      List.getElem?_drop, List.getD_eq_getElem?_getD, Nat.add_sub_cancel' (by omega)]

/-- `strncpy` makes the buffer no shorter than its source. -/
theorem length_strncpy (src b : Bytes) : (strncpy src b).length = max src.length b.length := by
  have hle : (visible src).length ≤ src.length := (List.takeWhile_prefix _).length_le
  unfold strncpy
  simp only [List.length_append, List.length_replicate, List.length_drop]
  omega

/-- A digit is no sign. -/
theorem unsign_cons_of_isdigit {d : UInt8} (h : isdigit d) (b : Bytes) :
    unsign (d :: b) = (false, d :: b) := by
  have h45 : d ≠ 45 := by
    rintro rfl
    exact absurd h (by decide)
  have h43 : d ≠ 43 := by
    rintro rfl
    exact absurd h (by decide)
  rw [unsign, if_neg h45, if_neg h43]

/-- A digit is no space. -/
theorem isspace_eq_false_of_isdigit {c : UInt8} (h : isdigit c) : isspace c = false := by
  unfold isdigit at h
  unfold isspace
  simp only [Bool.and_eq_true, decide_eq_true_eq, UInt8.le_iff_toNat_le] at h
  simp only [Bool.or_eq_false_iff, Bool.and_eq_false_iff, decide_eq_false_iff_not,
    UInt8.le_iff_toNat_le]
  have hlow : 48 ≤ c.toNat := h.1
  refine ⟨?_, .inr ?_⟩
  · rintro rfl
    exact absurd hlow (by decide)
  · have h13 : (13 : UInt8).toNat = 13 := rfl
    omega

/-- The number of two texts in a row, the first of digits only. -/
theorem digitsFrom_append_of_isdigit {b : Bytes} (h : ∀ c ∈ b, isdigit c) (n : Nat) (r : Bytes) :
    digitsFrom n (b ++ r) = digitsFrom (digitsFrom n b) r := by
  induction b generalizing n with
  | nil => rfl
  | cons c b ih =>
      have hc := h c List.mem_cons_self
      rw [List.cons_append, digitsFrom, if_pos hc, digitsFrom, if_pos hc,
        ih fun d hd => h d (List.mem_cons_of_mem c hd)]

/-- Behind a number that has ended nothing is read. -/
theorem digitsFrom_append {b : Bytes} (h : b.dropWhile isdigit ≠ []) (n : Nat) (r : Bytes) :
    digitsFrom n (b ++ r) = digitsFrom n b := by
  induction b generalizing n with
  | nil => exact absurd rfl h
  | cons c b ih =>
      rw [List.cons_append, digitsFrom, digitsFrom]
      by_cases hc : isdigit c
      · rw [if_pos hc, if_pos hc]
        rw [List.dropWhile_cons, if_pos hc] at h
        exact ih h _
      · rw [if_neg hc, if_neg hc]

/-- The sign is at the start, whatever follows. -/
theorem unsign_append {b : Bytes} (h : b ≠ []) (r : Bytes) :
    unsign (b ++ r) = ((unsign b).1, (unsign b).2 ++ r) := by
  cases b with
  | nil => exact absurd rfl h
  | cons c b =>
      rw [List.cons_append, unsign, unsign]
      split
      · rfl
      · split
        · rfl
        · rfl

/-- Where some byte stays, what follows it stays too. -/
theorem dropWhile_append_of_ne_nil {p : UInt8 → Bool} {b : Bytes} (h : b.dropWhile p ≠ [])
    (r : Bytes) : (b ++ r).dropWhile p = b.dropWhile p ++ r := by
  rw [List.dropWhile_append, if_neg]
  simpa using h

/-- **A number that has ended is read the same whatever follows.** -/
theorem strtol_append {b : Bytes} (h : numberEnd b ≠ []) (r : Bytes) :
    strtol (b ++ r) = strtol b := by
  have hsign : b.dropWhile isspace ≠ [] := by
    intro hnil
    rw [numberEnd, hnil] at h
    exact h rfl
  have hdigits : (unsign (b.dropWhile isspace)).2 ≠ [] := by
    intro hnil
    rw [numberEnd, hnil] at h
    exact h rfl
  have hlead : leadingNumber ((unsign (b.dropWhile isspace)).2 ++ r) =
      leadingNumber (unsign (b.dropWhile isspace)).2 := by
    obtain ⟨c, t, ht⟩ := List.exists_cons_of_ne_nil hdigits
    unfold leadingNumber
    rw [digitsFrom_append h, ht]
    rfl
  unfold strtol
  rw [dropWhile_append_of_ne_nil hsign, unsign_append hsign, hlead]

/-- A text with a NUL in it has an end to its number. -/
theorem numberEnd_ne_nil_of_mem {b : Bytes} (h : 0 ∈ b) : numberEnd b ≠ [] := by
  have hdrop : ∀ {p : UInt8 → Bool} {b : Bytes}, p 0 = false → 0 ∈ b → 0 ∈ b.dropWhile p := by
    intro p b hp hb
    induction b with
    | nil => cases hb
    | cons c b ih =>
        rw [List.dropWhile_cons]
        split
        · rename_i hc
          rcases List.mem_cons.1 hb with rfl | hb
          · rw [hp] at hc
            cases hc
          · exact ih hb
        · exact hb
  have hunsign : ∀ {b : Bytes}, 0 ∈ b → 0 ∈ (unsign b).2 := by
    intro b hb
    cases b with
    | nil => cases hb
    | cons c b =>
        have htail : ∀ {d : UInt8}, c = d → 0 ≠ d → 0 ∈ b := by
          rintro d rfl hd
          exact (List.mem_cons.1 hb).resolve_left hd
        rw [unsign]
        split
        · rename_i hc
          exact htail hc (by decide)
        · split
          · rename_i hc
            exact htail hc (by decide)
          · exact hb
  exact List.ne_nil_of_mem (hdrop rfl (hunsign (hdrop rfl h)))

/-- A number is below the power of ten that its digits allow. -/
theorem digitsFrom_lt (n : Nat) (b : Bytes) : digitsFrom n b < (n + 1) * 10 ^ b.length := by
  induction b generalizing n with
  | nil => simp [digitsFrom]
  | cons c b ih =>
      rw [digitsFrom, List.length_cons, Nat.pow_succ]
      split
      · rename_i hc
        unfold isdigit at hc
        simp only [Bool.and_eq_true, decide_eq_true_eq, UInt8.le_iff_toNat_le] at hc
        have h57 : (57 : UInt8).toNat = 57 := rfl
        have hval : 10 * n + (c.toNat - 48) + 1 ≤ 10 * (n + 1) := by omega
        calc digitsFrom (10 * n + (c.toNat - 48)) b
            < (10 * n + (c.toNat - 48) + 1) * 10 ^ b.length := ih _
          _ ≤ 10 * (n + 1) * 10 ^ b.length := Nat.mul_le_mul_right _ hval
          _ = (n + 1) * (10 ^ b.length * 10) := by ring
      · have hpos : 0 < 10 ^ b.length := Nat.pow_pos (by decide)
        have hle : (n + 1) * 1 ≤ (n + 1) * (10 ^ b.length * 10) :=
          Nat.mul_le_mul_left _ (by omega)
        omega

/-- **A number that has not ended goes on with the digits that follow.** -/
theorem strtol_append_digits {b ds : Bytes} (h : numberEnd b = []) (hds : ∀ c ∈ ds, isdigit c)
    (hne : ds ≠ []) : strtol (b ++ ds) =
      some (if (unsign (b.dropWhile isspace)).1
        then -(digitsFrom (digitsFrom 0 (unsign (b.dropWhile isspace)).2) ds : Int)
        else digitsFrom (digitsFrom 0 (unsign (b.dropWhile isspace)).2) ds) := by
  obtain ⟨d, ds', rfl⟩ := List.exists_cons_of_ne_nil hne
  have hd : isdigit d := hds d List.mem_cons_self
  have hspace : (b ++ d :: ds').dropWhile isspace = b.dropWhile isspace ++ d :: ds' := by
    rw [List.dropWhile_append]
    split
    · rename_i hnil
      rw [List.isEmpty_iff.1 hnil, List.dropWhile_cons, isspace_eq_false_of_isdigit hd]
      rfl
    · rfl
  have hsign : unsign (b.dropWhile isspace ++ d :: ds') =
      ((unsign (b.dropWhile isspace)).1, (unsign (b.dropWhile isspace)).2 ++ d :: ds') := by
    by_cases hnil : b.dropWhile isspace = []
    · rw [hnil, List.nil_append, unsign_cons_of_isdigit hd]
      rfl
    · exact unsign_append hnil _
  have hdigits : ∀ c ∈ (unsign (b.dropWhile isspace)).2, isdigit c :=
    List.dropWhile_eq_nil_iff.1 h
  have hhead : isdigit (((unsign (b.dropWhile isspace)).2 ++ d :: ds').headD 0) := by
    cases ht : (unsign (b.dropWhile isspace)).2 with
    | nil => exact hd
    | cons c t => exact hdigits c (ht ▸ List.mem_cons_self)
  unfold strtol
  rw [hspace, hsign]
  dsimp only
  unfold leadingNumber
  rw [if_pos hhead, digitsFrom_append_of_isdigit hdigits]
  rfl

/-- **A number is read from its first digit on**, as far as digits follow. -/
theorem strtol_of_isdigit {b : Bytes} (hb : ∀ c ∈ b, isdigit c) (hne : b ≠ []) (r : Bytes) :
    strtol (b ++ r) = some (digitsFrom (digitsFrom 0 b) r : Int) := by
  rw [← digitsFrom_append_of_isdigit hb]
  obtain ⟨d, b, rfl⟩ := List.exists_cons_of_ne_nil hne
  have hd : isdigit d := hb d List.mem_cons_self
  have hspace : (d :: (b ++ r)).dropWhile isspace = d :: (b ++ r) := by
    rw [List.dropWhile_cons, isspace_eq_false_of_isdigit hd]
    rfl
  unfold strtol
  rw [List.cons_append, hspace, unsign_cons_of_isdigit hd]
  dsimp only
  unfold leadingNumber
  rw [List.headD_cons, if_pos hd]
  rfl

/-- Without its sign a text is no longer. -/
theorem length_unsign_le (b : Bytes) : (unsign b).2.length ≤ b.length := by
  cases b with
  | nil => exact le_refl _
  | cons c b =>
      rw [unsign]
      split
      · exact Nat.le_succ _
      · split
        · exact Nat.le_succ _
        · exact le_refl _

/-- Ones make more than zeros. -/
theorem digitsFrom_zeros_add_le {a b c : Nat} (h : a + c ≤ b) (n : Nat) :
    digitsFrom a (List.replicate n 48) + (c + n) ≤ digitsFrom b (List.replicate n 49) := by
  induction n generalizing a b c with
  | zero => exact h
  | succ n ih =>
      have hzero : digitsFrom a (List.replicate (n + 1) 48) =
          digitsFrom (10 * a) (List.replicate n 48) := rfl
      have hone : digitsFrom b (List.replicate (n + 1) 49) =
          digitsFrom (10 * b + 1) (List.replicate n 49) := rfl
      have hstep : 10 * a + (c + 1) ≤ 10 * b + 1 := by omega
      have hrest := ih hstep
      rw [hzero, hone]
      omega

/-- **A number that has not ended** is not the same before zeros and before ones. -/
theorem strtol_zeros_ne_ones {b : Bytes} (h : numberEnd b = []) {n : Nat} (hn : 0 < n) :
    ∃ x y : Int, strtol (b ++ List.replicate n 48) = some x ∧
      strtol (b ++ List.replicate n 49) = some y ∧ x ≠ y ∧
        x.natAbs < 10 ^ (b.length + n) ∧ y.natAbs < 10 ^ (b.length + n) := by
  set t := (unsign (b.dropWhile isspace)).2 with ht
  have hlen : t.length ≤ b.length :=
    (length_unsign_le _).trans (List.dropWhile_suffix isspace).length_le
  have hread : ∀ d : UInt8, isdigit d → strtol (b ++ List.replicate n d) =
      some (if (unsign (b.dropWhile isspace)).1
        then -(digitsFrom (digitsFrom 0 t) (List.replicate n d) : Int)
        else digitsFrom (digitsFrom 0 t) (List.replicate n d)) := by
    intro d hd
    refine strtol_append_digits h (fun c hc => ?_) ?_
    · rw [List.eq_of_mem_replicate hc]
      exact hd
    · exact List.ne_nil_of_length_pos (List.length_replicate ▸ hn)
  have hbound : ∀ d : UInt8,
      digitsFrom (digitsFrom 0 t) (List.replicate n d) < 10 ^ (b.length + n) := by
    intro d
    have hrest := digitsFrom_lt (digitsFrom 0 t) (List.replicate n d)
    have hfirst : digitsFrom 0 t + 1 ≤ 10 ^ b.length := by
      have hlt := digitsFrom_lt 0 t
      have hpow : 10 ^ t.length ≤ 10 ^ b.length := Nat.pow_le_pow_right (by decide) hlen
      omega
    rw [List.length_replicate] at hrest
    calc digitsFrom (digitsFrom 0 t) (List.replicate n d)
        < (digitsFrom 0 t + 1) * 10 ^ n := hrest
      _ ≤ 10 ^ b.length * 10 ^ n := Nat.mul_le_mul_right _ hfirst
      _ = 10 ^ (b.length + n) := (Nat.pow_add ..).symm
  have hne := digitsFrom_zeros_add_le (c := 0) (Nat.le_refl (digitsFrom 0 t)) n
  have hzeros := hbound 48
  have hones := hbound 49
  refine ⟨_, _, hread 48 (by decide), hread 49 (by decide), ?_, ?_, ?_⟩
  · split <;> omega
  · split <;> omega
  · split <;> omega

/-! ### Printing -/

/-- A printed number is made of digits. -/
theorem zero_notMem_ascii_toString (n : Nat) : 0 ∉ ascii (toString n) := by
  intro h
  obtain ⟨c, hc, h0⟩ := List.mem_map.1 h
  have hdigits : (toString n).toList = Nat.toDigits 10 n := by simp
  rw [hdigits] at hc
  have hdigit := Nat.isDigit_of_mem_toDigits (by decide) (by decide) hc
  have hlow : 48 ≤ c.toNat ∧ c.toNat ≤ 57 := by
    simpa [Char.isDigit, UInt32.le_iff_toNat_le] using hdigit
  have hzero := congrArg UInt8.toNat h0
  rw [UInt8.toNat_ofNat', UInt8.toNat_zero] at hzero
  omega

/-- What is read of the number of bytes that `snprintf` returns is the text it was given, if
that fits with its NUL and otherwise something with a NUL in it. -/
theorem take_snprintf {size : Nat} (hsize : 0 < size) (text b : Bytes) :
    (snprintf size text b).take text.length = text ∧ text.length < size ∨
      0 ∈ (snprintf size text b).take text.length ∧ size ≤ text.length := by
  unfold snprintf memcpy
  rcases Nat.lt_or_ge text.length size with hlt | hge
  · refine .inl ⟨?_, hlt⟩
    have htext : text.take (size - 1) = text := List.take_of_length_le (by omega)
    rw [htext, List.append_assoc, List.take_left]
  · refine .inr ⟨?_, hge⟩
    obtain ⟨k, hk⟩ : ∃ k, text.length - (size - 1) = k + 1 := ⟨text.length - size, by omega⟩
    have hlen : (text.take (size - 1)).length = size - 1 := by
      rw [List.length_take]
      omega
    rw [List.append_assoc, List.take_append, hlen, hk, List.singleton_append, List.take_succ_cons]
    simp

/-- To write at the start is a copy to the start. -/
theorem bytes_write_zero (src : Bytes) (b : Memory) :
    (b.write 0 src).bytes = memcpy src b.bytes := rfl

/-- A text and a NUL behind it. -/
theorem bytes_write_nul (text : Bytes) (b : Memory) :
    ((b.write 0 text).write text.length [0]).bytes =
      text ++ 0 :: b.bytes.drop (text.length + 1) := by
  rw [Memory.write, bytes_write_zero]
  simp [memcpy]

end NearRtRic.CString
