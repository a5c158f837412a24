/-
# Lists of pointers into an array of records

`SequenceOf` is the `A_SEQUENCE_OF` of the ASN.1 skeletons: an array of pointers that
doubles when it is full (`asn_set_add`).  Its sizes are of type `int`, so it grows up
to `2 ^ 30` places and not further (`add_of_full`).

An encoder keeps the records it points to in an array of its own, which it fills again
for each message: `Records` is that array with the list of pointers into it.  What a
reader of the list finds is what was put there since the list was emptied, as long as
no place was used twice (`read_foldl_put`).

Nothing here names the repository.
-/

import Mathlib.Algebra.Group.Nat.Defs
import Mathlib.Logic.Function.Basic
import Mathlib.Data.List.Nodup

namespace NearRtRic.Asn

/-- The pointers in use and the number of allocated places. -/
structure SequenceOf (α : Type) where
  array : List α := []
  size : Nat := 0
  deriving DecidableEq, Repr

namespace SequenceOf

variable {α : Type} {s s' : SequenceOf α} {p : α}

/-- The number of places a list can have: the largest power of two below
`2 ^ 31`. -/
def limit : Nat := 2 ^ 30

/-- `list.count = 0`: the places stay allocated. -/
def reset (s : SequenceOf α) : SequenceOf α := { s with array := [] }

/-- The size after the next growth. -/
def newSize (s : SequenceOf α) : Nat := if s.size = 0 then 4 else s.size * 2

/-- `asn_set_add`: `none` for the return value `-1`, where the doubled size is no
`int` and the allocation fails. -/
def add (s : SequenceOf α) (p : α) : Option (SequenceOf α) :=
  if s.array.length = s.size then
    if s.newSize < 2 ^ 31 then some { array := s.array ++ [p], size := s.newSize } else none
  else some { s with array := s.array ++ [p] }

/-- An `asn_set_add` whose return value nobody looks at. -/
def push (s : SequenceOf α) (p : α) : SequenceOf α := (s.add p).getD s

/-- The lists that `asn_set_add` makes: the size is zero or a power of two from 4 on. -/
structure Grown (s : SequenceOf α) : Prop where
  length_le : s.array.length ≤ s.size
  size : s.size = 0 ∨ ∃ k ≤ 28, s.size = 4 * 2 ^ k

/-- The empty list has no place. -/
theorem grown_empty : ({} : SequenceOf α).Grown := ⟨Nat.le_refl _, .inl rfl⟩

/-- To empty a list leaves its places. -/
theorem Grown.reset (h : s.Grown) : s.reset.Grown := ⟨Nat.zero_le _, h.size⟩

/-- A list has places up to its limit. -/
theorem Grown.size_le (h : s.Grown) : s.size ≤ limit := by
  rcases h.size with h | ⟨k, hk, h⟩
  · omega
  · rw [h]
    calc 4 * 2 ^ k ≤ 4 * 2 ^ 28 := Nat.mul_le_mul_left 4 (Nat.pow_le_pow_right (by omega) hk)
      _ = limit := rfl

/-- A list that is not at its limit takes one more pointer. -/
theorem Grown.add_of_lt (h : s.Grown) (hlt : s.array.length < limit) (p : α) :
    ∃ s', s.add p = some s' ∧ s'.array = s.array ++ [p] ∧ s'.Grown := by
  unfold add
  by_cases hfull : s.array.length = s.size
  · have hsize : s.size < limit := by omega
    have hgrown : s.newSize < 2 ^ 31 ∧ s.size + 1 ≤ s.newSize ∧
        ∃ k ≤ 28, s.newSize = 4 * 2 ^ k := by
      unfold newSize
      rcases h.size with h0 | ⟨k, hk, hpow⟩
      · exact ⟨by simp [h0], by simp [h0], 0, by omega, by simp [h0]⟩
      · have hpos : 0 < 2 ^ k := Nat.two_pow_pos k
        have hk' : k + 1 ≤ 28 := by
          by_contra hlarge
          obtain rfl : k = 28 := by omega
          rw [hpow] at hsize
          exact absurd hsize (by decide)
        have hle : 2 ^ (k + 1) ≤ 2 ^ 28 := Nat.pow_le_pow_right (by omega) hk'
        have hsucc : 2 ^ (k + 1) = 2 ^ k * 2 := Nat.pow_succ ..
        rw [if_neg (by omega), hpow]
        exact ⟨by omega, by omega, k + 1, hk', by omega⟩
    rw [if_pos hfull, if_pos hgrown.1]
    refine ⟨_, rfl, rfl, ?_, .inr hgrown.2.2⟩
    rw [List.length_append, List.length_singleton, hfull]
    exact hgrown.2.1
  · rw [if_neg hfull]
    refine ⟨_, rfl, rfl, ?_, h.size⟩
    have hle := h.length_le
    rw [List.length_append, List.length_singleton]
    change _ ≤ s.size
    omega

/-- A list at its limit takes none. -/
theorem Grown.add_of_full (h : s.Grown) (hfull : limit ≤ s.array.length) (p : α) :
    s.add p = none := by
  have hle := h.size_le
  have hlen := h.length_le
  have hsize : s.size = limit := by omega
  have hnew : ¬ s.newSize < 2 ^ 31 := by
    unfold newSize
    rw [hsize]
    decide
  unfold add
  rw [if_pos (by omega), if_neg hnew]

/-- A prefix that was cut short is as good as a whole one, where the whole is cut at
the same place. -/
theorem take_take_append (n : Nat) (l m : List α) :
    (l.take n ++ m).take n = (l ++ m).take n := by
  by_cases h : l.length ≤ n
  · rw [List.take_of_length_le h]
  · have hlen : (l.take n).length = n := by
      rw [List.length_take]
      omega
    rw [List.take_append_of_le_length (by omega), List.take_append_of_le_length (by omega),
      List.take_take, Nat.min_self]

/-- A pointer is at the end of the list afterwards, unless the list is at its
limit. -/
theorem Grown.push (h : s.Grown) (p : α) :
    (s.push p).array = (s.array ++ [p]).take limit ∧ (s.push p).Grown := by
  unfold SequenceOf.push
  have hlen := Nat.le_trans h.length_le h.size_le
  by_cases hlt : s.array.length < limit
  · obtain ⟨s', hadd, harray, hgrown⟩ := h.add_of_lt hlt p
    rw [hadd, Option.getD_some, harray, List.take_of_length_le]
    · exact ⟨rfl, hgrown⟩
    · rw [List.length_append, List.length_singleton]
      omega
  · rw [h.add_of_full (by omega), Option.getD_none, List.take_append_of_le_length (by omega),
      List.take_of_length_le hlen]
    exact ⟨rfl, h⟩

/-- Where there is room, nobody has to look at the return value. -/
theorem Grown.add_eq_push (h : s.Grown) (hlt : s.array.length < limit) (p : α) :
    s.add p = some (s.push p) := by
  obtain ⟨s', hadd, -, -⟩ := h.add_of_lt hlt p
  unfold SequenceOf.push
  rw [hadd, Option.getD_some]

/-- An element more makes it one longer at most. -/
theorem Grown.length_push_le (h : s.Grown) (p : α) :
    (s.push p).array.length ≤ s.array.length + 1 := by
  rw [(h.push p).1, List.length_take, List.length_append, List.length_singleton]
  omega

/-- Pointers that are added one after another are in the list in that order, up to its
limit. -/
theorem Grown.foldl_push (h : s.Grown) (ps : List α) :
    (ps.foldl SequenceOf.push s).array = (s.array ++ ps).take limit ∧
      (ps.foldl SequenceOf.push s).Grown := by
  induction ps generalizing s with
  | nil =>
      have hlen := Nat.le_trans h.length_le h.size_le
      rw [List.append_nil, List.take_of_length_le hlen]
      exact ⟨rfl, h⟩
  | cons p ps ih =>
      obtain ⟨harray, hgrown⟩ := ih (h.push p).2
      refine ⟨?_, hgrown⟩
      rw [List.foldl_cons, harray, (h.push p).1, take_take_append, List.append_assoc]
      rfl

end SequenceOf

/-- An array of records and a list of pointers into it. -/
structure Records (ι R : Type) where
  slot : ι → R
  list : SequenceOf ι := {}

namespace Records

variable {ι R : Type} [DecidableEq ι] {r : Records ι R}

/-- The list without its pointers; the records stay as they are. -/
def reset (r : Records ι R) : Records ι R := { r with list := r.list.reset }

/-- A record is filled, and a pointer to it added. -/
def put (r : Records ι R) (i : ι) (x : R) : Records ι R where
  slot := Function.update r.slot i x
  list := r.list.push i

/-- The same where the return value is looked at. -/
def putChecked (r : Records ι R) (i : ι) (x : R) : Option (Records ι R) :=
  (r.list.add i).map fun list => { slot := Function.update r.slot i x, list }

/-- A record is filled that the list may already point to. -/
def fill (r : Records ι R) (i : ι) (x : R) : Records ι R :=
  { r with slot := Function.update r.slot i x }

/-- What a reader of the list finds. -/
def read (r : Records ι R) : List R := r.list.array.map r.slot

/-- Below the limit an element is always added. -/
theorem putChecked_of_lt (h : r.list.Grown) (hlt : r.list.array.length < SequenceOf.limit)
    (i : ι) (x : R) : r.putChecked i x = some (r.put i x) := by
  unfold putChecked
  rw [h.add_eq_push hlt, Option.map_some]
  rfl

/-- A record that the list does not point to is filled unseen. -/
theorem read_fill_of_notMem {i : ι} (hi : i ∉ r.list.array) (x : R) :
    (r.fill i x).read = r.read := by
  refine List.map_congr_left fun j hj => ?_
  have hji : j ≠ i := by
    rintro rfl
    exact hi hj
  exact Function.update_of_ne hji ..

/-- The pointers and the records after one of them was put. -/
theorem read_put (h : r.list.Grown) {i : ι} (hi : i ∉ r.list.array) (x : R) :
    (r.put i x).read = (r.read ++ [x]).take SequenceOf.limit := by
  have hsame : r.list.array.map (Function.update r.slot i x) = r.read := read_fill_of_notMem hi x
  change ((r.list.push i).array).map (Function.update r.slot i x) = _
  rw [(h.push i).1, List.map_take, List.map_append, hsame, List.map_singleton,
    Function.update_self]

/-- Records that are put one after another are read in that order, up to the limit of the
list. -/
theorem read_foldl_put (h : r.list.Grown) {items : List (ι × R)}
    (hnodup : (items.map Prod.fst).Nodup) (hnew : ∀ x ∈ items, x.1 ∉ r.list.array) :
    (items.foldl (fun r x => r.put x.1 x.2) r).read =
        (r.read ++ items.map Prod.snd).take SequenceOf.limit ∧
      (items.foldl (fun r x => r.put x.1 x.2) r).list.Grown := by
  induction items generalizing r with
  | nil =>
      have hlen := Nat.le_trans h.length_le h.size_le
      rw [List.map_nil, List.append_nil, List.take_of_length_le]
      · exact ⟨rfl, h⟩
      · unfold read
        rwa [List.length_map]
  | cons x items ih =>
      rw [List.map_cons] at hnodup ⊢
      obtain ⟨hx, hnodup⟩ := List.nodup_cons.1 hnodup
      have hpush := h.push x.1
      have hnew' : ∀ y ∈ items, y.1 ∉ (r.put x.1 x.2).list.array := by
        intro y hy hmem
        change y.1 ∈ (r.list.push x.1).array at hmem
        rw [hpush.1] at hmem
        rcases List.mem_append.1 (List.mem_of_mem_take hmem) with hmem | hmem
        · exact hnew y (List.mem_cons_of_mem _ hy) hmem
        · exact hx (List.mem_map.2 ⟨y, hy, List.mem_singleton.1 hmem⟩)
      obtain ⟨hread, hgrown⟩ := ih hpush.2 hnodup hnew'
      refine ⟨?_, hgrown⟩
      rw [List.foldl_cons, hread, read_put h (hnew x (List.mem_cons_self ..)),
        SequenceOf.take_take_append, List.append_assoc]
      rfl

/-- The list of a message after some elements were put. -/
theorem list_foldl_put (r : Records ι R) (items : List (ι × R)) :
    (items.foldl (fun r x => r.put x.1 x.2) r).list =
      (items.map Prod.fst).foldl SequenceOf.push r.list := by
  induction items generalizing r with
  | nil => rfl
  | cons x items ih => exact ih (r.put x.1 x.2)

/-- A list that was emptied holds afterwards what was put, and nothing from before. -/
theorem foldl_put_reset (h : r.list.Grown) {items : List (ι × R)}
    (hnodup : (items.map Prod.fst).Nodup) (hlen : items.length ≤ SequenceOf.limit) :
    (items.foldl (fun r x => r.put x.1 x.2) r.reset).read = items.map Prod.snd ∧
      (items.foldl (fun r x => r.put x.1 x.2) r.reset).list.array = items.map Prod.fst ∧
      (items.foldl (fun r x => r.put x.1 x.2) r.reset).list.Grown := by
  obtain ⟨hread, hgrown⟩ := read_foldl_put (r := r.reset) h.reset hnodup
    (by simp [reset, SequenceOf.reset])
  have harray := (SequenceOf.Grown.foldl_push h.reset (items.map Prod.fst)).1
  have hnil : r.reset.read = [] := rfl
  have hnil' : r.list.reset.array = [] := rfl
  refine ⟨?_, ?_, hgrown⟩
  · rw [hread, hnil, List.nil_append, List.take_of_length_le (by rwa [List.length_map])]
  · rw [list_foldl_put]
    exact harray.trans
      (by rw [hnil', List.nil_append, List.take_of_length_le (by rwa [List.length_map])])

end Records

end NearRtRic.Asn
