/-
# The publishing commands

Thirteen commands publish messages after a write.  They reach the publish step
through `setPubStringCommon` and `delPubStringCommon`.

`MSETMPUB` and `DELMPUB` take the lengths of their two lists from two counts.
Neither looks whether a count parsed, and the sum that is compared with the
number of arguments may wrap.  The two slices are exact if and only if neither
happens (`exact_slices_of_counts`).
-/

import NearRtRic.Exstrings.Conditional
import Mathlib.Data.Set.Lattice
import Mathlib.Order.CompletePartialOrder
import Mathlib.Order.Interval.Set.LinearOrder
import Mathlib.Order.Disjoint

namespace NearRtRic.Exstrings

open Effect Program

/-! ### Slices of the argument vector -/

/-- A pointer into `argv` and a `size_t`. -/
structure Slice where
  start : Nat
  length : UInt64
  deriving DecidableEq, Repr

/-- The positions that a slice names. -/
def Slice.indices (s : Slice) : Set Nat := Set.Ico s.start (s.start + s.length.toNat)

/-- The strings of a slice, unless it reaches past the end. -/
def Slice.of (argv : List Bytes) (s : Slice) : Option (List Bytes) :=
  if s.start + s.length.toNat ≤ argv.length then some ((argv.drop s.start).take s.length.toNat)
  else none

/-- What `MSETMPUB` and `DELMPUB` make of their arguments. -/
inductive Sliced
  | wrongArity
  | error (message : String)
  /-- A count is read that did not parse. -/
  | indeterminate
  | slices (keys channelMsgPairs : Slice)
  deriving DecidableEq, Repr

/-- The two counts: a key takes `width` arguments, a publication two.  A count
that does not parse leaves its variable as it was. -/
def slicesOf (arity : Nat → Bool) (width : Int64) (notPositive mismatch : String) (argc : Nat)
    (count pubPairsCount : Option Int64) : Sliced :=
  if ¬ arity argc then .wrongArity
  else
    match count with
    | none => .indeterminate
    | some count =>
        if count < 1 then .error notPositive
        else
          match pubPairsCount with
          | none => .indeterminate
          | some pubPairsCount =>
              if pubPairsCount < 1 then .error notPositive
              else
                let len := width * count
                let pubLen := 2 * pubPairsCount
                if (len + pubLen + 3).toInt ≠ argc then .error mismatch
                else .slices ⟨3, len.toUInt64⟩ ⟨3 + len.toUInt64.toNat, pubLen.toUInt64⟩

/-- The slices of `SetMPub_RedisCommand`. -/
def setMPubSlices := slicesOf (fun argc => 7 ≤ argc ∧ argc % 2 ≠ 0) 2
  "ERR SET_PAIR_COUNT and PUB_PAIR_COUNT must be greater than zero"
  "ERR SET_PAIR_COUNT or PUB_PAIR_COUNT do not match the total pair count"

/-- The slices of `DelMPub_RedisCommand`. -/
def delMPubSlices := slicesOf (fun argc => 6 ≤ argc) 1
  "ERR DEL_COUNT and PUB_PAIR_COUNT must be greater than zero"
  "ERR DEL_COUNT or PUB_PAIR_COUNT do not match the total pair count"

/-! ### The commands -/

/-- `OBJ_OP_XX` and `OBJ_OP_NX`. -/
inductive Exists
  | XX
  | NX
  deriving DecidableEq, Repr

def setPubRedisCommand :=
  withArity (fun argc => 5 ≤ argc ∧ argc % 2 ≠ 0) fun argv =>
    setPubStringCommon ((argv.drop 1).take (argv.length - 3)) (argv.drop (argv.length - 2))

def delPubRedisCommand :=
  withArity (fun argc => 4 ≤ argc) fun argv =>
    delPubStringCommon ((argv.drop 1).take (argv.length - 3)) (argv.drop (argv.length - 2))

/-- The end of `MSETMPUB` and `DELMPUB`. -/
def withSlices (sliced : Sliced) (argv : List Bytes)
    (common : List Bytes → List Bytes → Prog Status) : Prog Status :=
  match sliced with
  | .wrongArity => replyWith .wrongArity
  | .error message => replyWith (.error message)
  | .indeterminate => Program.panic
  | .slices keys channelMsgPairs =>
      match keys.of argv, channelMsgPairs.of argv with
      | some keys, some channelMsgPairs => common keys channelMsgPairs
      | _, _ => Program.panic

/-- `setXXNXPubStringCommon`. -/
def setXXNXPubStringCommon (flag : Exists) (argv : List Bytes) : Prog Status :=
  match argv with
  | _ :: key :: value :: channelMsgPairs => do
      let type ← call (.keyType key)
      if flag = .XX ∧ type = .EMPTY ∨ flag = .NX ∧ type = .STRING then replyWith .null
      else if type ≠ .STRING ∧ type ≠ .EMPTY then replyWith (.error wrongType)
      else setPubStringCommon [key, value] channelMsgPairs
  | _ => Program.panic

def setNXPubRedisCommand := withArity (fun argc => argc = 5) (setXXNXPubStringCommon .NX)

def setNXMPubRedisCommand :=
  withArity (fun argc => 5 ≤ argc ∧ argc % 2 ≠ 0) (setXXNXPubStringCommon .NX)

def setXXPubRedisCommand := withArity (fun argc => argc = 5) (setXXNXPubStringCommon .XX)

/-- The thirteen publishing commands, under the names they are created with. -/
inductive Publishing
  | msetpub
  | msetmpub
  | setiepub
  | setiempub
  | setnepub
  | setxxpub
  | setnxpub
  | setnxmpub
  | delpub
  | delmpub
  | deliepub
  | deliempub
  | delnepub
  deriving DecidableEq, Repr

section Parse

variable (stringToLongLong : Bytes → Option Int64)

def setMPubRedisCommand (argv : List Bytes) : Prog Status :=
  withSlices (setMPubSlices argv.length (stringToLongLong (argv.getD 1 []))
    (stringToLongLong (argv.getD 2 []))) argv setPubStringCommon

def delMPubRedisCommand (argv : List Bytes) : Prog Status :=
  withSlices (delMPubSlices argv.length (stringToLongLong (argv.getD 1 []))
    (stringToLongLong (argv.getD 2 []))) argv delPubStringCommon

namespace Publishing

/-- The program of a command. -/
def prog : Publishing → List Bytes → Prog Status
  | msetpub => setPubRedisCommand
  | msetmpub => setMPubRedisCommand stringToLongLong
  | setiepub => setIEPubRedisCommand
  | setiempub => setIEMPubRedisCommand
  | setnepub => setNEPubRedisCommand
  | setxxpub => setXXPubRedisCommand
  | setnxpub => setNXPubRedisCommand
  | setnxmpub => setNXMPubRedisCommand
  | delpub => delPubRedisCommand
  | delmpub => delMPubRedisCommand stringToLongLong
  | deliepub => delIEPubRedisCommand
  | deliempub => delIEMPubRedisCommand
  | delnepub => delNEPubRedisCommand

end Publishing

end Parse

/-! ### The slices of `MSETMPUB` and `DELMPUB` -/

/-- The two slices are not empty, lie within the arguments after the counts, do
not overlap, and cover these arguments; and no count was read that did not parse. -/
def Sliced.Exact (argc : Nat) : Sliced → Prop
  | .wrongArity | .error _ => True
  | .indeterminate => False
  | .slices keys pubs =>
      keys.indices.Nonempty ∧ pubs.indices.Nonempty ∧
        keys.indices ⊆ Set.Ico 3 argc ∧ pubs.indices ⊆ Set.Ico 3 argc ∧
        Disjoint keys.indices pubs.indices ∧ keys.indices ∪ pubs.indices = Set.Ico 3 argc

/-- The number of arguments that two counts ask for. -/
def total (width count pubPairsCount : Int64) : Int :=
  width.toInt * count.toInt + 2 * pubPairsCount.toInt + 3

/-- Every count that is read parsed, and the number of arguments that the counts
ask for does not wrap around to the number given. -/
def CountsFit (width : Int64) (argc : Nat) (count pubPairsCount : Option Int64) : Prop :=
  ∃ a, count = some a ∧ (1 ≤ a.toInt → ∃ b, pubPairsCount = some b ∧ (1 ≤ b.toInt →
    (total width a b).bmod (2 ^ 64) = argc → total width a b = argc))

/-- A signed number is taken modulo the range of the unsigned ones. -/
theorem toUInt64_toNat (x : Int64) : (x.toUInt64.toNat : Int) = x.toInt % 2 ^ 64 := by
  have h := BitVec.toInt_eq_toNat_cond x.toBitVec
  have hlt := x.toBitVec.isLt
  rw [Int64.toInt_toBitVec, Int64.toNat_toBitVec] at h
  rw [Int64.toNat_toBitVec] at hlt
  split at h <;> omega

/-- The width of a pair is one or two. -/
theorem toInt_width {width : Int64} (hw : width = 1 ∨ width = 2) :
    width.toInt = 1 ∨ width.toInt = 2 := by
  rcases hw with rfl | rfl
  · exact .inl rfl
  · exact .inr rfl

/-- The length of a list of `count` groups, as a `size_t`, does not wrap. -/
theorem length_toNat {width count : Int64} (hw : width = 1 ∨ width = 2) (h : 1 ≤ count.toInt) :
    ((width * count).toUInt64.toNat : Int) = width.toInt * count.toInt := by
  have hlt := count.toInt_lt
  have hmod : (width * count).toInt % 2 ^ 64 = width.toInt * count.toInt % 2 ^ 64 := by
    rw [Int64.toInt_mul]
    exact Int.bmod_emod ..
  rw [toUInt64_toNat, hmod]
  rcases toInt_width hw with hw' | hw' <;> rw [hw'] <;> omega

/-- The sum that is compared with the number of arguments does. -/
theorem sum_toInt (width a b : Int64) :
    (width * a + 2 * b + 3).toInt = (total width a b).bmod (2 ^ 64) := by
  have h2 : (2 : Int64).toInt = 2 := rfl
  have h3 : (3 : Int64).toInt = 3 := rfl
  simp only [total, Int64.toInt_add, Int64.toInt_mul, h2, h3, Int.bmod_add_bmod,
    Int.add_bmod_bmod]

/-- Two slices, one after the other, are exact if and only if they end at the end. -/
theorem exact_slices_iff {argc : Nat} {keys pubs : UInt64} (hk : 0 < keys.toNat)
    (hp : 0 < pubs.toNat) :
    (Sliced.slices ⟨3, keys⟩ ⟨3 + keys.toNat, pubs⟩).Exact argc ↔
      3 + keys.toNat + pubs.toNat = argc := by
  simp only [Sliced.Exact, Slice.indices]
  have hunion : Set.Ico 3 (3 + keys.toNat) ∪ Set.Ico (3 + keys.toNat) (3 + keys.toNat + pubs.toNat)
      = Set.Ico 3 (3 + keys.toNat + pubs.toNat) :=
    Set.Ico_union_Ico_eq_Ico (Nat.le_add_right ..) (Nat.le_add_right ..)
  constructor
  · rintro ⟨-, -, -, -, -, hcover⟩
    rw [hunion] at hcover
    have hmem : ∀ n, n ∈ Set.Ico 3 (3 + keys.toNat + pubs.toNat) ↔ n ∈ Set.Ico 3 argc := by
      rw [hcover]
      exact fun _ => Iff.rfl
    have hlast := hmem (3 + keys.toNat + pubs.toNat - 1)
    have hargc := hmem argc
    have hpred := hmem (argc - 1)
    simp only [Set.mem_Ico] at hlast hargc hpred
    omega
  · rintro rfl
    refine ⟨Set.nonempty_Ico.2 (by omega), Set.nonempty_Ico.2 (by omega),
      Set.Ico_subset_Ico_right (by omega), Set.Ico_subset_Ico_left (by omega), ?_, hunion⟩
    rw [Set.disjoint_left]
    rintro n ⟨-, hn⟩ ⟨hn', -⟩
    omega

/-- The arguments of either command are cut exactly if and only if its counts fit. -/
theorem exact_slicesOf_iff {arity : Nat → Bool} {width : Int64} (hw : width = 1 ∨ width = 2)
    (notPositive mismatch : String) (argc : Nat) (count pubPairsCount : Option Int64) :
    (slicesOf arity width notPositive mismatch argc count pubPairsCount).Exact argc ↔
      (arity argc → CountsFit width argc count pubPairsCount) := by
  have hone : ∀ a : Int64, a < 1 ↔ ¬ 1 ≤ a.toInt := by
    intro a
    rw [Int64.lt_iff_toInt_lt, show (1 : Int64).toInt = 1 from rfl, Int.not_le]
  unfold slicesOf CountsFit
  by_cases harity : arity argc
  swap
  · rw [if_pos harity]
    exact ⟨fun _ h => absurd h harity, fun _ => trivial⟩
  rw [if_neg (not_not.2 harity)]
  simp only [harity, true_implies]
  cases count with
  | none =>
      refine ⟨fun h => h.elim, ?_⟩
      rintro ⟨a, ha, -⟩
      cases ha
  | some a =>
      by_cases ha : 1 ≤ a.toInt
      swap
      · simp only [(hone a).2 ha, if_true]
        exact ⟨fun _ => ⟨a, rfl, fun h => absurd h ha⟩, fun _ => trivial⟩
      simp only [mt (hone a).1 (not_not.2 ha), if_false]
      cases pubPairsCount with
      | none =>
          refine ⟨fun h => h.elim, ?_⟩
          rintro ⟨a', ha', hb⟩
          obtain rfl := Option.some.inj ha'
          obtain ⟨b, hb, -⟩ := hb ha
          cases hb
      | some b =>
          by_cases hb : 1 ≤ b.toInt
          swap
          · simp only [(hone b).2 hb, if_true]
            exact ⟨fun _ => ⟨a, rfl, fun _ => ⟨b, rfl, fun h => absurd h hb⟩⟩, fun _ => trivial⟩
          simp only [mt (hone b).1 (not_not.2 hb), if_false, sum_toInt]
          have hfit : (∃ a', some a = some a' ∧ (1 ≤ a'.toInt → ∃ b', some b = some b' ∧
              (1 ≤ b'.toInt → (total width a' b').bmod (2 ^ 64) = argc →
                total width a' b' = argc))) ↔
              ((total width a b).bmod (2 ^ 64) = argc → total width a b = argc) := by
            constructor
            · rintro ⟨a', ha', hrest⟩
              obtain rfl := Option.some.inj ha'
              obtain ⟨b', hb', hrest⟩ := hrest ha
              obtain rfl := Option.some.inj hb'
              exact hrest hb
            · exact fun h => ⟨a, rfl, fun _ => ⟨b, rfl, fun _ => h⟩⟩
          rw [hfit]
          by_cases hsum : (total width a b).bmod (2 ^ 64) = argc
          swap
          · simp only [hsum, ne_eq, not_false_eq_true, if_true]
            exact ⟨fun _ h => h.elim, fun _ => trivial⟩
          have hkeys := length_toNat hw ha
          have hpubs := length_toNat (.inr rfl) hb
          rw [show (2 : Int64).toInt = 2 from rfl] at hpubs
          have hpos : 1 ≤ width.toInt * a.toInt := by
            rcases toInt_width hw with h | h <;> rw [h] <;> omega
          simp only [hsum, ne_eq, not_true_eq_false, if_false, true_implies]
          rw [exact_slices_iff (by omega) (by omega), total, ← hkeys, ← hpubs]
          omega

/-- **The slices of `MSETMPUB` and of `DELMPUB` are exact if and only if** the
counts that are read parsed and their sum does not wrap around to the number of
arguments (for a number of arguments that the command accepts). -/
theorem exact_slices_of_counts (stringToLongLong : Bytes → Option Int64) (argv : List Bytes) :
    ((setMPubSlices argv.length (stringToLongLong (argv.getD 1 []))
        (stringToLongLong (argv.getD 2 []))).Exact argv.length ↔
      (7 ≤ argv.length ∧ argv.length % 2 ≠ 0 → CountsFit 2 argv.length
        (stringToLongLong (argv.getD 1 [])) (stringToLongLong (argv.getD 2 [])))) ∧
    ((delMPubSlices argv.length (stringToLongLong (argv.getD 1 []))
        (stringToLongLong (argv.getD 2 []))).Exact argv.length ↔
      (6 ≤ argv.length → CountsFit 1 argv.length
        (stringToLongLong (argv.getD 1 [])) (stringToLongLong (argv.getD 2 [])))) := by
  constructor
  · refine (exact_slicesOf_iff (.inr rfl) ..).trans ?_
    rw [decide_eq_true_iff]
  · refine (exact_slicesOf_iff (.inl rfl) ..).trans ?_
    rw [decide_eq_true_iff]

/-- `MSETMPUB x 1 k v c m`: the first count does not parse. -/
theorem not_exact_slices : ¬ ∀ (stringToLongLong : Bytes → Option Int64) (argv : List Bytes),
    (setMPubSlices argv.length (stringToLongLong (argv.getD 1 []))
        (stringToLongLong (argv.getD 2 []))).Exact argv.length ∧
      (delMPubSlices argv.length (stringToLongLong (argv.getD 1 []))
        (stringToLongLong (argv.getD 2 []))).Exact argv.length := by
  intro h
  exact (h (fun b => if b = [49] then some 1 else none)
    [[109], [120], [49], [107], [118], [99], [109]]).1

/-- Two counts whose sum wraps around: each slice reaches far past the end of the
seven arguments. -/
example : setMPubSlices 7 (some 4611686018427387905) (some 4611686018427387905) =
    .slices ⟨3, 9223372036854775810⟩ ⟨9223372036854775813, 9223372036854775810⟩ := by
  decide

end NearRtRic.Exstrings
