/-
# The id of a UE

The id of a UE is copied over those of the UEs before it and read as a number; neither
`strncpy` nor the code behind it ends the copy with a NUL.  So an id of fewer than five
digits is read on into what the last longer ids left in the buffer, or into the zeros
that it was declared with (`leftDigits`).

`imsi_eq_iff` says which reports have the number of their item: those for which nothing
is left to read on, and those for which it does not matter because everything is zero.
-/

import NearRtRic.Xapp.Independence
import Mathlib.Data.List.Induction

namespace NearRtRic.Xapp

open CString

/-- The number that digits stand for. -/
def decimalValue (ds : Bytes) : Nat := ds.foldl (fun n c => 10 * n + (c.toNat - 48)) 0

/-- What is at a place of `strUEID` after some ids: the byte of the last that reached it, or
NUL where that had ended before, and a zero where none did. -/
def leftAt (ids : List Bytes) (p : Nat) : UInt8 :=
  match ids.reverse.find? (fun id => p < id.length) with
  | some id => if 0 ∈ id.take p then 0 else id.getD p 0
  | none => strUEID_init.getD p 0

/-- The digits behind the first `n` places. -/
def leftDigits (ids : List Bytes) (n : Nat) : Bytes :=
  ((List.range' n (5 - n)).map (leftAt ids)).takeWhile isdigit

/-! ### What is left in the buffer -/

/-- What is at a place behind some ids. -/
theorem getD_copyAll (ids : List Bytes) (p : Nat) :
    (copyAll ids strUEID_init).getD p 0 = leftAt ids p := by
  induction ids using List.reverseRecOn with
  | nil => rfl
  | append_singleton ids id ih =>
      unfold leftAt
      rw [copyAll_append_singleton, getD_strncpy, ih, List.reverse_concat, List.find?_cons]
      by_cases hp : p < id.length
      · rw [if_pos hp, decide_eq_true hp]
      · rw [if_neg hp, decide_eq_false hp]
        rfl

/-- Digits are seen, since a NUL is none. -/
theorem takeWhile_isdigit_visible (b : Bytes) :
    (visible b).takeWhile isdigit = b.takeWhile isdigit := by
  induction b with
  | nil => rfl
  | cons c b ih =>
      rw [visible_cons]
      by_cases hc : c = 0
      · rw [if_pos hc, hc]
        rfl
      · rw [if_neg hc, List.takeWhile_cons, List.takeWhile_cons, ih]

/-- The digits that are read on are those left behind. -/
theorem takeWhile_drop_copyAll {ids : List Bytes} (h : EndsAtFive (copyAll ids strUEID_init))
    {n : Nat} (hn : n ≤ 5) :
    (visible ((copyAll ids strUEID_init).drop n)).takeWhile isdigit = leftDigits ids n := by
  obtain ⟨five, hfive, heq⟩ := h
  have hleft : (List.range' n (5 - n)).map (leftAt ids) = five.drop n := by
    refine List.ext_getElem (by simp [hfive]) fun k hk hk' => ?_
    rw [List.length_map, List.length_range'] at hk
    have hfive' : n + k < five.length := by omega
    rw [List.getElem_map, List.getElem_range', ← getD_copyAll, heq, Nat.one_mul,
      List.getD_append _ _ _ _ hfive', List.getD_eq_getElem _ _ hfive', List.getElem_drop]
  unfold leftDigits
  rw [hleft, takeWhile_isdigit_visible, heq, List.drop_append_of_le_length (by omega),
    List.takeWhile_append]
  split
  · rename_i hall
    have hall' := (List.takeWhile_prefix isdigit).eq_of_length hall
    rw [hall']
    exact List.append_nil _
  · rfl

/-! ### Numbers -/

/-- A number is read from the digits only. -/
theorem digitsFrom_takeWhile (n : Nat) (b : Bytes) :
    digitsFrom n (b.takeWhile isdigit) = digitsFrom n b := by
  induction b generalizing n with
  | nil => rfl
  | cons c b ih =>
      rw [List.takeWhile_cons]
      by_cases hc : isdigit c
      · rw [if_pos hc, digitsFrom, if_pos hc, digitsFrom, if_pos hc, ih]
      · rw [if_neg hc]
        simp [digitsFrom, hc]

/-- Digits behind a number move it to the left. -/
theorem digitsFrom_of_isdigit {ds : Bytes} (h : ∀ c ∈ ds, isdigit c) (n : Nat) :
    digitsFrom n ds = n * 10 ^ ds.length + decimalValue ds := by
  have hfold : ∀ n, digitsFrom n ds = ds.foldl (fun n c => 10 * n + (c.toNat - 48)) n := by
    induction ds with
    | nil => exact fun n => rfl
    | cons c ds ih =>
        intro n
        rw [digitsFrom, if_pos (h c List.mem_cons_self), List.foldl_cons]
        exact ih (fun d hd => h d (List.mem_cons_of_mem c hd)) _
  have hmove : ∀ m, ds.foldl (fun n c => 10 * n + (c.toNat - 48)) (n + m) =
      n * 10 ^ ds.length + ds.foldl (fun n c => 10 * n + (c.toNat - 48)) m := by
    clear hfold h
    induction ds generalizing n with
    | nil => simp
    | cons c ds ih =>
        intro m
        have hstep : 10 * (n + m) + (c.toNat - 48) = 10 * n + (10 * m + (c.toNat - 48)) := by ring
        rw [List.foldl_cons, List.foldl_cons, hstep, ih, List.length_cons, Nat.pow_succ]
        ring
  rw [hfold]
  exact hmove 0

/-- Digits make a number below the power of ten. -/
theorem decimalValue_lt {ds : Bytes} (h : ∀ c ∈ ds, isdigit c) :
    decimalValue ds < 10 ^ ds.length := by
  have hlt := digitsFrom_lt 0 ds
  rw [digitsFrom_of_isdigit h] at hlt
  omega

/-- **What is read of the buffer**: the digits of the id, and those left behind it. -/
theorem intUEID_strncpy_copyAll {ids : List Bytes} (h : EndsAtFive (copyAll ids strUEID_init))
    {id : Bytes} (hdigits : ∀ c ∈ id, isdigit c) (hne : id ≠ []) (hlen : id.length ≤ 5) :
    intUEID (strncpy id (copyAll ids strUEID_init)) =
      decimalValue id * 10 ^ (leftDigits ids id.length).length +
        decimalValue (leftDigits ids id.length) := by
  have hzero : 0 ∉ id := fun h0 => absurd (hdigits 0 h0) (by decide)
  have hleft : ∀ c ∈ leftDigits ids id.length, isdigit c :=
    fun c hc => List.mem_takeWhile_imp hc
  have hleftLen : (leftDigits ids id.length).length ≤ 5 - id.length :=
    (List.takeWhile_prefix _).length_le.trans (by simp)
  have hid : digitsFrom 0 id = decimalValue id := by
    rw [digitsFrom_of_isdigit hdigits]
    omega
  have hread : strtol (visible (strncpy id (copyAll ids strUEID_init))) =
      some ((decimalValue id * 10 ^ (leftDigits ids id.length).length +
        decimalValue (leftDigits ids id.length) : Nat) : Int) := by
    rw [visible_strncpy, if_neg hzero, strtol_of_isdigit hdigits hne, ← digitsFrom_takeWhile,
      takeWhile_drop_copyAll h hlen, hid, digitsFrom_of_isdigit hleft]
  -- six digits at most
  have hbound : decimalValue id * 10 ^ (leftDigits ids id.length).length +
      decimalValue (leftDigits ids id.length) < 10 ^ 5 := by
    have hlast := decimalValue_lt hleft
    have hfirst := decimalValue_lt hdigits
    calc decimalValue id * 10 ^ (leftDigits ids id.length).length +
          decimalValue (leftDigits ids id.length)
        < (decimalValue id + 1) * 10 ^ (leftDigits ids id.length).length := by
          rw [Nat.succ_mul]
          omega
      _ ≤ 10 ^ id.length * 10 ^ (leftDigits ids id.length).length :=
          Nat.mul_le_mul_right _ hfirst
      _ = 10 ^ (id.length + (leftDigits ids id.length).length) := (Nat.pow_add ..).symm
      _ ≤ 10 ^ 5 := Nat.pow_le_pow_right (by omega) (by omega)
  unfold intUEID
  rw [hread, Option.getD_some]
  omega

/-! ### The report -/

variable {h : Header} {garbage : UeMetricsEntry} {cs : List (Option PerfContainerType)}
  {items : List PerUE_PM_Item} {item : PerUE_PM_Item} {i : Nat} {r : Report}

/-- **The IMSI of a report is the id of its item** exactly where no digits are left behind the
id, or where they and the id are all zeros. -/
theorem imsi_eq_iff (hitem : items[i]? = some item) (hdigits : ∀ c ∈ item.ueId, isdigit c)
    (hne : item.ueId ≠ []) (hlen : item.ueId.length ≤ 5)
    (hr : sentFor h garbage cs items i = some r) :
    r.imsi = decimalValue item.ueId ↔
      leftDigits ((items.take i).map (·.ueId)) item.ueId.length = [] ∨
        decimalValue item.ueId = 0 ∧
          decimalValue (leftDigits ((items.take i).map (·.ueId)) item.ueId.length) = 0 := by
  obtain ⟨⟨ueMetrics, b⟩, s', rem, ⟨hb, m, rfl, -⟩, hcopy, hperUE⟩ :=
    exists_perUE_of_sentFor hitem hr
  obtain ⟨-, infos, -, m', hm', hreport, -⟩ := (perUE_eq_some_iff hb).1 hperUE
  have himsi : r.imsi = intUEID (strncpy item.ueId b) := by
    rw [← UeMetricsEntry.ueID_of_report hreport]
    obtain ⟨w, rfl⟩ := exists_over_of_pmInfos hm'
    rfl
  have hcopy : b = copyAll ((items.take i).map (·.ueId)) strUEID_init := hcopy
  rw [hcopy] at hb himsi
  rw [himsi, intUEID_strncpy_copyAll hb hdigits hne hlen]
  generalize leftDigits ((items.take i).map (·.ueId)) item.ueId.length = ds
  constructor
  · intro heq
    rcases Nat.eq_zero_or_pos ds.length with hnil | hpos
    · exact .inl (List.length_eq_zero_iff.1 hnil)
    · right
      have hpow : 10 ^ 1 ≤ 10 ^ ds.length := Nat.pow_le_pow_right (by omega) hpos
      have hmul : decimalValue item.ueId * 10 ^ 1 ≤ decimalValue item.ueId * 10 ^ ds.length :=
        Nat.mul_le_mul_left _ hpow
      omega
  · rintro (rfl | ⟨hid, hleft⟩)
    · simp [decimalValue]
    · rw [hid, hleft]
      omega

/-- Behind a UE 7, an id of five digits is reported as it is. -/
theorem imsi_eq_iff_fiveDigits :
    ∃ r, sentFor ⟨1, ascii "1112"⟩ (blank 0) [some .oCU_UP]
        [⟨ascii "7", some []⟩, ⟨ascii "00042", some []⟩] 1 = some r ∧
      r.imsi = decimalValue (ascii "00042") := by
  have hsent : sentFor ⟨1, ascii "1112"⟩ (blank 0) [some .oCU_UP]
      [⟨ascii "7", some []⟩, ⟨ascii "00042", some []⟩] 1 =
        some ⟨2, 42, .cuup, 1, [42, 0, 8, 7, 6, 5, 4, 3, 2, 1]⟩ := by
    decide +kernel
  have hitem : [(⟨ascii "7", some []⟩ : PerUE_PM_Item), ⟨ascii "00042", some []⟩][1]? =
      some ⟨ascii "00042", some []⟩ := rfl
  exact ⟨_, hsent,
    (imsi_eq_iff hitem (by decide +kernel) (by decide) (by decide) hsent).2 (.inl (by decide))⟩

/-- **The UE 7** is reported as 70000. -/
theorem not_imsi_eq : ¬ ∀ h garbage cs items i item r,
    items[i]? = some item → (∀ c ∈ item.ueId, isdigit c) → item.ueId ≠ [] →
      item.ueId.length ≤ 5 → sentFor h garbage cs items i = some r →
        r.imsi = decimalValue item.ueId := by
  intro hall
  have hsent : sentFor ⟨1, ascii "1112"⟩ (blank 0) [some .oCU_UP] [⟨ascii "7", some []⟩] 0 =
      some ⟨2, 70000, .cuup, 1, [70000, 0, 8, 7, 6, 5, 4, 3, 2, 1]⟩ := by
    decide +kernel
  exact absurd (hall _ _ _ _ _ _ _ rfl (by decide +kernel) (by decide) (by decide) hsent)
    (by decide)

end NearRtRic.Xapp
