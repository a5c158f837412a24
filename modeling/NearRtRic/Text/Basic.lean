/-
# Fields and numerals in text

Text is a list of characters.  `split` is Python's `str.split` for a separator of any
length (for a single character it is `List.splitOn`): what it cuts can be joined again
(`intercalate_split`), and what was joined is cut again where no field has the first
character of the separator (`split_intercalate`).

`decimal` is `std::to_string` of an integer and `parseInt` Python's `int` of a text: the
digits and the blanks of Unicode count, and a numeral may be too long.  `parseInt_decimal`
is the round trip; the way back is not unique, and `length_decimal_le` says that the
numeral of `decimal` is the shortest.
-/

import Mathlib.Data.List.Basic
import Mathlib.Data.Nat.Basic
import Mathlib.Algebra.Order.BigOperators.Group.List
import Mathlib.Tactic.Ring

namespace NearRtRic.Text

abbrev Chars := List Char

/-- The characters of a literal, without its encoding. -/
theorem toList_eq {s : String} {l : Chars} (h : s = String.ofList l) : s.toList = l := by
  rw [h, String.toList_ofList]

/-! ### Splitting -/

/-- The fields of the rest of a text: `skip` characters of a separator are still to pass, and
`field` is the current field, reversed. -/
def splitFrom (sep : Chars) : Nat → Chars → Chars → List Chars
  | _, field, [] => [field.reverse]
  | skip + 1, field, _ :: s => splitFrom sep skip field s
  | 0, field, c :: s =>
      if sep.isPrefixOf (c :: s) then field.reverse :: splitFrom sep (sep.length - 1) [] s
      else splitFrom sep 0 (c :: field) s

/-- `s.split(sep)`: the leftmost occurrences of the separator that do not overlap. -/
def split (sep s : Chars) : List Chars := splitFrom sep 0 [] s

variable {sep s field : Chars} {skip : Nat}

/-- There is a field at least. -/
theorem splitFrom_ne_nil : splitFrom sep skip field s ≠ [] := by
  induction s generalizing skip field with
  | nil =>
      cases skip with
      | zero => exact List.cons_ne_nil _ _
      | succ skip => exact List.cons_ne_nil _ _
  | cons c s ih =>
      cases skip with
      | succ skip => exact ih
      | zero =>
          unfold splitFrom
          split
          · exact List.cons_ne_nil _ _
          · exact ih

/-- The fields joined again. -/
theorem intercalate_splitFrom (hsep : sep ≠ []) :
    sep.intercalate (splitFrom sep skip field s) = field.reverse ++ s.drop skip := by
  induction s generalizing skip field with
  | nil =>
      cases skip with
      | zero => simp [splitFrom]
      | succ skip => simp [splitFrom]
  | cons c s ih =>
      cases skip with
      | succ skip => exact ih
      | zero =>
          unfold splitFrom
          split
          · rename_i hstart
            obtain ⟨rest, hrest⟩ := List.isPrefixOf_iff_prefix.1 hstart
            rw [List.intercalate_cons_of_ne_nil splitFrom_ne_nil, ih, List.drop_zero, ← hrest,
              List.reverse_nil, List.nil_append, List.append_assoc]
            congr 2
            obtain ⟨d, sep, rfl⟩ := List.exists_cons_of_ne_nil hsep
            obtain rfl := (List.cons.inj hrest).2
            exact List.drop_left
          · rw [ih]
            simp

/-- Joined again the fields are the text. -/
theorem intercalate_split (hsep : sep ≠ []) (s : Chars) : sep.intercalate (split sep s) = s :=
  intercalate_splitFrom hsep

/-- The first field is not preceded by a separator, each of the others is. -/
theorem intercalate_cons (sep field : Chars) (fields : List Chars) :
    sep.intercalate (field :: fields) = field ++ fields.flatMap (sep ++ ·) := by
  induction fields generalizing field with
  | nil => simp
  | cons f fields ih =>
      rw [List.intercalate_cons_cons, ih, List.flatMap_cons, List.append_assoc, List.append_assoc]

/-- A character is one of the separator or of a field. -/
theorem mem_intercalate {c : Char} {fields : List Chars} (h : c ∈ sep.intercalate fields) :
    c ∈ sep ∨ ∃ f ∈ fields, c ∈ f := by
  cases fields with
  | nil => cases h
  | cons f fields =>
      rw [intercalate_cons, List.mem_append, List.mem_flatMap] at h
      rcases h with h | ⟨g, hg, h⟩
      · exact .inr ⟨f, List.mem_cons_self, h⟩
      · rcases List.mem_append.1 h with h | h
        · exact .inl h
        · exact .inr ⟨g, List.mem_cons_of_mem f hg, h⟩

/-- What the separators and the fields behind the first come to. -/
theorem length_split_tail_le (hsep : sep ≠ []) (s : Chars) :
    ((split sep s).tail.map fun f => sep.length + f.length).sum ≤ s.length := by
  obtain ⟨head, tail, hsplit⟩ := List.exists_cons_of_ne_nil (splitFrom_ne_nil :
    splitFrom sep 0 [] s ≠ [])
  have hjoin : sep.intercalate (split sep s) = s := intercalate_split hsep s
  rw [show split sep s = head :: tail from hsplit] at hjoin ⊢
  rw [intercalate_cons] at hjoin
  rw [← hjoin, List.length_append, List.length_flatMap, List.tail_cons]
  simp only [List.length_append]
  omega

/-- What is to be skipped is skipped. -/
theorem splitFrom_append (hskip : s.length = skip) (t : Chars) :
    splitFrom sep skip field (s ++ t) = splitFrom sep 0 field t := by
  induction s generalizing skip with
  | nil =>
      subst hskip
      rfl
  | cons c s ih =>
      subst hskip
      exact ih rfl

/-- A field without the first character of the separator, up to the end or to a separator. -/
theorem splitFrom_field {c : Char} {p : Chars} (hp : c ∉ p) :
    splitFrom (c :: sep) 0 field p = [field.reverse ++ p] ∧ ∀ t,
      splitFrom (c :: sep) 0 field (p ++ (c :: sep ++ t)) =
        (field.reverse ++ p) :: splitFrom (c :: sep) 0 [] t := by
  induction p generalizing field with
  | nil =>
      refine ⟨by simp [splitFrom], fun t => ?_⟩
      rw [List.nil_append, List.append_nil, List.cons_append, splitFrom, if_pos, List.length_cons,
        Nat.add_sub_cancel, splitFrom_append rfl]
      exact List.isPrefixOf_iff_prefix.2 ⟨t, rfl⟩
  | cons d p ih =>
      obtain ⟨hcd, hp⟩ := not_or.1 (List.mem_cons.not.1 hp)
      have hstart : ∀ t, ¬ (c :: sep).isPrefixOf (d :: t) := by
        intro t ht
        exact hcd (List.cons_prefix_cons.1 (List.isPrefixOf_iff_prefix.1 ht)).1
      have hfield : splitFrom (c :: sep) 0 (d :: field) p = [(d :: field).reverse ++ p] ∧ ∀ t,
          splitFrom (c :: sep) 0 (d :: field) (p ++ (c :: sep ++ t)) =
            ((d :: field).reverse ++ p) :: splitFrom (c :: sep) 0 [] t := ih hp
      obtain ⟨hend, hsep⟩ := hfield
      refine ⟨?_, fun t => ?_⟩
      · rw [splitFrom, if_neg (hstart _), hend]
        simp
      · rw [List.cons_append, splitFrom, if_neg (hstart _), hsep]
        simp

/-- **Fields that do not have the first character of the separator are found again.** -/
theorem split_intercalate {c : Char} {fields : List Chars} (hfields : ∀ f ∈ fields, c ∉ f)
    (hne : fields ≠ []) : split (c :: sep) ((c :: sep).intercalate fields) = fields := by
  induction fields with
  | nil => exact absurd rfl hne
  | cons f fields ih =>
      have hf : c ∉ f := hfields f List.mem_cons_self
      cases fields with
      | nil =>
          rw [List.intercalate_singleton]
          exact (splitFrom_field hf).1
      | cons g fields =>
          rw [List.intercalate_cons_cons, List.append_assoc]
          refine ((splitFrom_field hf).2 _).trans ?_
          rw [List.reverse_nil, List.nil_append]
          exact congrArg (f :: ·) (ih (fun g hg => hfields g (List.mem_cons_of_mem f hg))
            (List.cons_ne_nil _ _))

/-! ### Numerals -/

/-- `std::to_string` of an integer. -/
def decimal : Int → Chars
  | .ofNat n => Nat.toDigits 10 n
  | .negSucc n => '-' :: Nat.toDigits 10 (n + 1)

/-- The zeros of the decimal digits of Unicode 14; the other nine are behind each. -/
def decimalZeros : List Nat :=
  [0x30, 0x660, 0x6f0, 0x7c0, 0x966, 0x9e6, 0xa66, 0xae6, 0xb66, 0xbe6, 0xc66, 0xce6, 0xd66,
    0xde6, 0xe50, 0xed0, 0xf20, 0x1040, 0x1090, 0x17e0, 0x1810, 0x1946, 0x19d0, 0x1a80, 0x1a90,
    0x1b50, 0x1bb0, 0x1c40, 0x1c50, 0xa620, 0xa8d0, 0xa900, 0xa9d0, 0xa9f0, 0xaa50, 0xabf0,
    0xff10, 0x104a0, 0x10d30, 0x11066, 0x110f0, 0x11136, 0x111d0, 0x112f0, 0x11450, 0x114d0,
    0x11650, 0x116c0, 0x11730, 0x118e0, 0x11950, 0x11c50, 0x11d50, 0x11da0, 0x16a60, 0x16ac0,
    0x16b50, 0x1d7ce, 0x1d7d8, 0x1d7e2, 0x1d7ec, 0x1d7f6, 0x1e140, 0x1e2f0, 0x1e950, 0x1fbf0]

/-- The value of a decimal digit: `Py_UNICODE_TODECIMAL`. -/
def digitValue (c : Char) : Option Nat :=
  (decimalZeros.find? fun z => z ≤ c.toNat && c.toNat ≤ z + 9).map fun z => c.toNat - z

/-- `\d` of a regular expression, and `str.isdecimal`. -/
def isDecimal (c : Char) : Bool := (digitValue c).isSome

/-- What `int` passes over at the ends: the blanks of C, and those of Unicode that are not
ASCII. -/
def isSpace (c : Char) : Bool :=
  c = ' ' || (9 ≤ c.toNat && c.toNat ≤ 13) || (0x2000 ≤ c.toNat && c.toNat ≤ 0x200a) ||
    [0x85, 0xa0, 0x1680, 0x2028, 0x2029, 0x202f, 0x205f, 0x3000].contains c.toNat

def trim (s : Chars) : Chars := ((s.dropWhile isSpace).reverse.dropWhile isSpace).reverse

/-- The digits behind those that came to `n`; an underscore may stand before a digit. -/
def parseDigits : Nat → Chars → Option Nat
  | n, [] => some n
  | n, c :: s =>
      match digitValue c with
      | some d => parseDigits (10 * n + d) s
      | none => if c = '_' ∧ isDecimal (s.headD ' ') then parseDigits n s else none

/-- A numeral without a sign, with so many digits at most; `0` is no limit. -/
def parseNat (max_str_digits : Nat) : Chars → Option Nat
  | [] => none
  | c :: s =>
      if isDecimal c ∧ (max_str_digits = 0 ∨ (c :: s).countP isDecimal ≤ max_str_digits) then
        parseDigits 0 (c :: s)
      else none

/-- `int(s)`, `none` being a `ValueError`; `max_str_digits` is what
`sys.get_int_max_str_digits()` returns. -/
def parseInt (max_str_digits : Nat) (s : Chars) : Option Int :=
  match trim s with
  | '-' :: t => (parseNat max_str_digits t).map fun n : Nat => -(n : Int)
  | '+' :: t => (parseNat max_str_digits t).map fun n : Nat => (n : Int)
  | t => (parseNat max_str_digits t).map fun n : Nat => (n : Int)

/-- The numeral of a natural number is its digits. -/
theorem decimal_natCast (n : Nat) : decimal n = Nat.toDigits 10 n := rfl

/-- What a numeral consists of. -/
theorem mem_decimal {z : Int} {c : Char} (h : c ∈ decimal z) : c = '-' ∨ c.isDigit := by
  cases z with
  | ofNat n => exact .inr (Nat.isDigit_of_mem_toDigits (by decide) (by decide) h)
  | negSucc n =>
      rcases List.mem_cons.1 h with rfl | h
      · exact .inl rfl
      · exact .inr (Nat.isDigit_of_mem_toDigits (by decide) (by decide) h)

/-- A number is written with digits and a sign. -/
theorem notMem_decimal {z : Int} {c : Char} (hc : ¬ c.isDigit) (hsign : c ≠ '-') :
    c ∉ decimal z := by
  intro h
  rcases mem_decimal h with h | h
  · exact hsign h
  · exact hc h

/-- A text without blanks is not trimmed. -/
theorem trim_eq_self {s : Chars} (h : ∀ c ∈ s, isSpace c = false) : trim s = s := by
  have hdrop : ∀ {s : Chars}, (∀ c ∈ s, isSpace c = false) → s.dropWhile isSpace = s := by
    intro s h
    cases s with
    | nil => rfl
    | cons c s => rw [List.dropWhile_cons, h c List.mem_cons_self, if_neg (by decide)]
  unfold trim
  rw [hdrop h, hdrop fun c hc => h c (List.mem_reverse.1 hc), List.reverse_reverse]

/-- Trimming makes no text longer. -/
theorem length_trim_le (s : Chars) : (trim s).length ≤ s.length := by
  have hdrop : ∀ s : Chars, (s.dropWhile isSpace).length ≤ s.length := fun s =>
    (List.dropWhile_suffix _).length_le
  unfold trim
  rw [List.length_reverse]
  refine (hdrop _).trans ?_
  rw [List.length_reverse]
  exact hdrop s

/-- The codes of the ASCII digits. -/
theorem toNat_of_isDigit {c : Char} (h : c.isDigit) : 48 ≤ c.toNat ∧ c.toNat ≤ 57 := by
  rw [Char.isDigit, Bool.and_eq_true, decide_eq_true_eq, decide_eq_true_eq] at h
  exact h

/-- An ASCII digit counts from `0`. -/
theorem digitValue_of_isDigit {c : Char} (h : c.isDigit) :
    digitValue c = some (c.toNat - '0'.toNat) := by
  obtain ⟨hlow, hhigh⟩ := toNat_of_isDigit h
  have hfirst : decimalZeros.find? (fun z => z ≤ c.toNat && c.toNat ≤ z + 9) = some 0x30 := by
    refine List.find?_cons_of_pos ?_
    rw [Bool.and_eq_true, decide_eq_true_eq, decide_eq_true_eq]
    exact ⟨hlow, hhigh⟩
  unfold digitValue
  rw [hfirst]
  rfl

/-- A digit is worth nine at most. -/
theorem digitValue_le {c : Char} {d : Nat} (h : digitValue c = some d) : d ≤ 9 := by
  obtain ⟨z, hz, rfl⟩ := Option.map_eq_some_iff.1 h
  have hrange := List.find?_some hz
  rw [Bool.and_eq_true, decide_eq_true_eq, decide_eq_true_eq] at hrange
  omega

/-- The digits of ASCII are decimal. -/
theorem isDecimal_of_isDigit {c : Char} (h : c.isDigit) : isDecimal c = true := by
  rw [isDecimal, digitValue_of_isDigit h]
  rfl

/-- ASCII digits come to the number that they are the digits of. -/
theorem parseDigits_of_isDigit {s : Chars} (h : ∀ c ∈ s, c.isDigit) (n : Nat) :
    parseDigits n s = some (Nat.ofDigitChars 10 s n) := by
  induction s generalizing n with
  | nil => rfl
  | cons c s ih =>
      unfold parseDigits
      rw [digitValue_of_isDigit (h c List.mem_cons_self)]
      dsimp only
      rw [ih fun d hd => h d (List.mem_cons_of_mem c hd), Nat.ofDigitChars_cons]

/-- The digits of a number are read back, if there are not too many of them. -/
theorem parseNat_toDigits {max_str_digits n : Nat}
    (hmax : max_str_digits = 0 ∨ (Nat.toDigits 10 n).length ≤ max_str_digits) :
    parseNat max_str_digits (Nat.toDigits 10 n) = some n := by
  have hdigit : ∀ c ∈ Nat.toDigits 10 n, c.isDigit := fun c hc =>
    Nat.isDigit_of_mem_toDigits (by decide) (by decide) hc
  have hcount : (Nat.toDigits 10 n).countP isDecimal = (Nat.toDigits 10 n).length :=
    List.countP_eq_length.2 fun c hc => isDecimal_of_isDigit (hdigit c hc)
  obtain ⟨c, s, hcs⟩ := List.exists_cons_of_ne_nil (Nat.toDigits_ne_nil (n := n) (b := 10))
  have hparse := parseDigits_of_isDigit hdigit 0
  rw [Nat.ofDigitChars_ten_toDigits, hcs] at hparse
  rw [← hcount, hcs] at hmax
  rw [hcs] at hdigit ⊢
  unfold parseNat
  dsimp only
  rw [if_pos ⟨isDecimal_of_isDigit (hdigit c List.mem_cons_self), hmax⟩, hparse]

/-- They are no spaces. -/
theorem isSpace_eq_false_of_isDigit {c : Char} (h : c.isDigit) : isSpace c = false := by
  obtain ⟨hlow, hhigh⟩ := toNat_of_isDigit h
  have hne : c ≠ ' ' := by
    rintro rfl
    exact absurd hlow (by decide)
  unfold isSpace
  simp only [Bool.or_eq_false_iff, Bool.and_eq_false_iff, decide_eq_false_iff_not,
    List.contains_eq_mem, List.mem_cons, List.not_mem_nil, or_false]
  exact ⟨⟨⟨hne, .inr (by omega)⟩, .inl (by omega)⟩, by omega⟩

/-- **A numeral is read back**, if it does not have too many digits. -/
theorem parseInt_decimal {max_str_digits : Nat} {z : Int}
    (hmax : max_str_digits = 0 ∨ (Nat.toDigits 10 z.natAbs).length ≤ max_str_digits) :
    parseInt max_str_digits (decimal z) = some z := by
  have htrim : trim (decimal z) = decimal z := by
    refine trim_eq_self fun c hc => ?_
    rcases mem_decimal hc with rfl | hc
    · rfl
    · exact isSpace_eq_false_of_isDigit hc
  unfold parseInt
  rw [htrim]
  cases z with
  | ofNat n =>
      have hhead : ∀ c s, Nat.toDigits 10 n = c :: s → c.isDigit := fun c s hcs =>
        Nat.isDigit_of_mem_toDigits (by decide) (by decide) (hcs ▸ List.mem_cons_self)
      have hparse : parseNat max_str_digits (Nat.toDigits 10 n) = some n := parseNat_toDigits hmax
      unfold decimal
      dsimp only
      split
      · rename_i hcs
        exact absurd (hhead _ _ hcs) (by decide)
      · rename_i hcs
        exact absurd (hhead _ _ hcs) (by decide)
      · rw [hparse]
        rfl
  | negSucc n =>
      have hparse : parseNat max_str_digits (Nat.toDigits 10 (n + 1)) = some (n + 1) :=
        parseNat_toDigits hmax
      exact congrArg (Option.map fun k : Nat => -(k : Int)) hparse

/-- No two numbers are written the same. -/
theorem decimal_injective : Function.Injective decimal := by
  intro z z' h
  have hparse : parseInt 0 (decimal z') = some z' := parseInt_decimal (.inl rfl)
  rw [← h, parseInt_decimal (.inl rfl)] at hparse
  exact Option.some.inj hparse

/-- The digits bound the value. -/
theorem lt_of_parseDigits {s : Chars} {n m : Nat} (h : parseDigits n s = some m) :
    m < (n + 1) * 10 ^ s.length := by
  induction s generalizing n with
  | nil =>
      obtain rfl := Option.some.inj h
      simp
  | cons c s ih =>
      unfold parseDigits at h
      rw [List.length_cons, Nat.pow_succ]
      split at h
      · rename_i d hd
        have hle := digitValue_le hd
        calc m < (10 * n + d + 1) * 10 ^ s.length := ih h
          _ ≤ (10 * (n + 1)) * 10 ^ s.length := Nat.mul_le_mul_right _ (by omega)
          _ = (n + 1) * (10 ^ s.length * 10) := by ring
      · split at h
        · calc m < (n + 1) * 10 ^ s.length := ih h
            _ ≤ (n + 1) * (10 ^ s.length * 10) := Nat.mul_le_mul_left _ (by omega)
        · cases h

/-- A numeral without a sign has as many characters as its number has digits, or more. -/
theorem length_toDigits_le_of_parseNat {max_str_digits n : Nat} {s : Chars}
    (h : parseNat max_str_digits s = some n) :
    (Nat.toDigits 10 n).length ≤ s.length := by
  cases s with
  | nil => cases h
  | cons c s =>
      unfold parseNat at h
      dsimp only at h
      split at h
      · have hlt := lt_of_parseDigits h
        rw [Nat.zero_add, Nat.one_mul] at hlt
        exact (Nat.length_toDigits_le_iff (by decide) (by simp)).2 hlt
      · cases h

/-- **No text of a number is shorter than its numeral.** -/
theorem length_decimal_le {max_str_digits : Nat} {s : Chars} {z : Int}
    (h : parseInt max_str_digits s = some z) :
    (decimal z).length ≤ s.length := by
  refine le_trans ?_ (length_trim_le s)
  unfold parseInt at h
  split at h
  · rename_i t ht
    obtain ⟨n, hn, rfl⟩ := Option.map_eq_some_iff.1 h
    have hlen := length_toDigits_le_of_parseNat hn
    rw [ht, List.length_cons]
    cases n with
    | zero =>
        have h1 : (decimal (-((0 : Nat) : Int))).length = 1 := rfl
        omega
    | succ n =>
        have h1 : decimal (-((n + 1 : Nat) : Int)) = '-' :: Nat.toDigits 10 (n + 1) := rfl
        rw [h1, List.length_cons]
        omega
  · rename_i t ht
    obtain ⟨n, hn, rfl⟩ := Option.map_eq_some_iff.1 h
    have hlen := length_toDigits_le_of_parseNat hn
    rw [ht, List.length_cons, decimal_natCast]
    omega
  · obtain ⟨n, hn, rfl⟩ := Option.map_eq_some_iff.1 h
    exact length_toDigits_le_of_parseNat hn

end NearRtRic.Text
