/-
# Items written in a loop

The items that a list points to are an array of the encoder's own.  Before a list is
built the array is allocated anew where it is too small, and a loop then writes one item
for each entry and adds a pointer to it.  An entry that cannot be written ends the loop:
its item is left half written and the rest of the entries is not looked at.

The size of the array is an `unsigned int`, so its double can be smaller than the number
of entries; the loop then writes beyond the array.  `ItemArray.write_spec` says when that
happens, and what the list holds otherwise.

Nothing here names the repository.
-/

import NearRtRic.Asn.SequenceOf
import Mathlib.Data.List.Range

namespace NearRtRic.Asn

/-- An array of items and the size it was allocated with. -/
structure ItemArray (R : Type) where
  items : Nat → R
  size : UInt32

namespace ItemArray

variable {A R : Type}

/-- The size that an array has when a list of `n` entries is written to it. -/
def newSize (a : ItemArray R) (n : Nat) : UInt32 :=
  if a.size.toNat ≤ n then UInt32.ofNat (2 * n) else a.size

/-- The allocation before a loop; new items are `zero`. -/
def resize (a : ItemArray R) (zero : R) (n : Nat) : ItemArray R :=
  if a.size.toNat ≤ n then { items := fun _ => zero, size := UInt32.ofNat (2 * n) } else a

/-- A resized array has the new size. -/
theorem size_resize (a : ItemArray R) (zero : R) (n : Nat) :
    (a.resize zero n).size = a.newSize n := by
  unfold resize newSize
  split <;> rfl

section Loop

/- Whether an entry can be written, the item that it is written to, and what an entry
that cannot be written leaves of an item. -/
variable (legal : A → Bool) (item : A → R) (partialItem : R → A → R)

/-- The loop from the index `i` on: `false` where an entry ended it, `none` where an item
is beyond the array. -/
def addItems (size i : Nat) : List A → Records Nat R → Option (Bool × Records Nat R)
  | [], r => some (true, r)
  | a :: as, r =>
      if i < size then
        if legal a then addItems size (i + 1) as (r.put i (item a))
        else some (false, r.fill i (partialItem (r.slot i) a))
      else none

/-- The number of items that the loop writes to. -/
def touched : List A → Nat
  | [] => 0
  | a :: as => if legal a then touched as + 1 else 1

/-- Where all items are legal all are touched. -/
theorem touched_eq_length {as : List A} (h : as.all legal = true) :
    touched legal as = as.length := by
  induction as with
  | nil => rfl
  | cons a as ih =>
      obtain ⟨ha, has⟩ : legal a = true ∧ as.all legal = true := by
        simpa only [List.all_cons, Bool.and_eq_true] using h
      unfold touched
      rw [if_pos ha, ih has, List.length_cons]

/-- The loop writes beyond the array exactly where the entries it gets to do not fit. -/
theorem addItems_eq_none_iff {size i : Nat} (hi : i ≤ size) (as : List A) (r : Records Nat R) :
    addItems legal item partialItem size i as r = none ↔ size < i + touched legal as := by
  induction as generalizing i r with
  | nil => simpa [addItems, touched] using hi
  | cons a as ih =>
      unfold addItems touched
      by_cases hlt : i < size
      · rw [if_pos hlt]
        split
        · rw [ih hlt]
          omega
        · simp only [reduceCtorEq, false_iff]
          omega
      · rw [if_neg hlt]
        have hpos : 1 ≤ if legal a then touched legal as + 1 else 1 := by
          split <;> omega
        simp only [true_iff]
        omega

/-- Where it ends, it says whether every entry was written. -/
theorem fst_addItems {size i : Nat} {as : List A} {r r' : Records Nat R} {res : Bool}
    (h : addItems legal item partialItem size i as r = some (res, r')) :
    res = as.all legal := by
  induction as generalizing i r with
  | nil => exact (Prod.mk.inj (Option.some.inj h)).1.symm
  | cons a as ih =>
      unfold addItems at h
      split at h
      · split at h
        · rename_i ha
          rw [List.all_cons, ha, Bool.true_and]
          exact ih h
        · rename_i ha
          rw [List.all_cons, Bool.eq_false_iff.2 ha, Bool.false_and]
          exact (Prod.mk.inj (Option.some.inj h)).1.symm
      · exact nomatch h

/-- The loop leaves the list with a size that it grows to. -/
theorem grown_addItems {size i : Nat} {as : List A} {r r' : Records Nat R} {res : Bool}
    (hr : r.list.Grown) (h : addItems legal item partialItem size i as r = some (res, r')) :
    r'.list.Grown := by
  induction as generalizing i r with
  | nil => exact (Prod.mk.inj (Option.some.inj h)).2 ▸ hr
  | cons a as ih =>
      unfold addItems at h
      split at h
      · split at h
        · exact ih (hr.push i).2 h
        · exact (Prod.mk.inj (Option.some.inj h)).2 ▸ hr
      · exact nomatch h

/-- Entries that can all be written are put one after another. -/
theorem addItems_of_all {size i : Nat} {as : List A} {r r' : Records Nat R} {res : Bool}
    (hall : as.all legal = true)
    (h : addItems legal item partialItem size i as r = some (res, r')) :
    r' = ((as.zipIdx i).map fun x => (x.2, item x.1)).foldl (fun r x => r.put x.1 x.2) r := by
  induction as generalizing i r with
  | nil => exact (Prod.mk.inj (Option.some.inj h)).2.symm
  | cons a as ih =>
      obtain ⟨ha, has⟩ : legal a = true ∧ as.all legal = true := by
        simpa only [List.all_cons, Bool.and_eq_true] using hall
      unfold addItems at h
      rw [if_pos ha] at h
      split at h
      · rw [ih has h]
        rfl
      · exact nomatch h

/-- A list is built: the array is allocated, the list emptied, and the loop runs.  The
new array and the new list come back with what the loop says. -/
def write (a : ItemArray R) (zero : R) (list : SequenceOf Nat) (as : List A) :
    Option (Bool × ItemArray R × SequenceOf Nat) :=
  let a := a.resize zero as.length
  (addItems legal item partialItem a.size.toNat 0 as
    { slot := a.items, list := list.reset }).map fun x =>
      (x.1, { a with items := x.2.slot }, x.2.list)

variable {legal item partialItem}

/-- Where the entries fit, the list holds those that the loop gets to, all of them where
all can be written. -/
theorem write_of_fits {a : ItemArray R} {zero : R} {list : SequenceOf Nat} {as : List A}
    (hlist : list.Grown) (hfits : touched legal as ≤ (a.newSize as.length).toNat) :
    ∃ a' list', write legal item partialItem a zero list as = some (as.all legal, a', list') ∧
      list'.Grown ∧
      (as.all legal = true →
        list'.array.map a'.items = (as.map item).take SequenceOf.limit) := by
  unfold write
  dsimp only
  rw [← size_resize a zero] at hfits
  generalize hr : addItems legal item partialItem _ 0 as _ = out
  rcases out with - | ⟨res, r⟩
  · have hmore := (addItems_eq_none_iff legal item partialItem (Nat.zero_le _) as _).1 hr
    omega
  · obtain rfl := fst_addItems legal item partialItem hr
    refine ⟨_, _, rfl, grown_addItems legal item partialItem hlist.reset hr, fun hall => ?_⟩
    rw [addItems_of_all legal item partialItem hall hr]
    have hfst : ((as.zipIdx 0).map fun x => (x.2, item x.1)).map Prod.fst =
        List.range' 0 as.length := by
      rw [List.map_map]
      exact List.zipIdx_map_snd 0 as
    have hsnd : ((as.zipIdx 0).map fun x => (x.2, item x.1)).map Prod.snd = as.map item := by
      have hzip : (as.zipIdx 0).map Prod.fst = as := List.zipIdx_map_fst 0 as
      conv_rhs => rw [← hzip, List.map_map]
      rw [List.map_map]
      rfl
    have hnodup : (((as.zipIdx 0).map fun x => (x.2, item x.1)).map Prod.fst).Nodup := by
      rw [hfst]
      exact List.nodup_range'
    have hread := (Records.read_foldl_put
      (r := { slot := (a.resize zero as.length).items, list := list.reset }) hlist.reset hnodup
      (by simp [SequenceOf.reset])).1
    rw [hsnd] at hread
    exact hread

/-- Where they do not fit, the loop writes beyond the array. -/
theorem write_of_not_fits {a : ItemArray R} {zero : R} {list : SequenceOf Nat} {as : List A}
    (hfits : (a.newSize as.length).toNat < touched legal as) :
    write legal item partialItem a zero list as = none := by
  unfold write
  dsimp only
  rw [← size_resize a zero] at hfits
  rw [(addItems_eq_none_iff legal item partialItem (Nat.zero_le _) as _).2 (by omega)]
  rfl

/-- The array has room for a list that is not above its limit. -/
theorem length_le_newSize (a : ItemArray R) {n : Nat} (hn : n ≤ SequenceOf.limit) :
    n ≤ (a.newSize n).toNat := by
  have hlimit : SequenceOf.limit = 2 ^ 30 := rfl
  unfold newSize
  split
  · rw [UInt32.toNat_ofNat']
    omega
  · omega

end Loop

end ItemArray

end NearRtRic.Asn
