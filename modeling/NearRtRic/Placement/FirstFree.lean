/-
# Slots that are given away for good

Items ask for a slot one after another.  An item that has a slot gets it again; another
takes a free one, and keeps it; and where no slot is free, the item is sent to a slot of
somebody else, always to the same one, and takes none.

Over any number of requests no item has two slots, no slot changes hands
(`Requests.extends`), an item is always answered with the same slot
(`Requests.same_slot`), and as long as no more items asked than there are slots, each
of them has its own (`Taken.exists_slot`).

Nothing here names the repository.
-/

import Mathlib.Data.Finset.Card
import Mathlib.Logic.Function.Basic

namespace NearRtRic.Placement

variable {ι α : Type} {slots : List ι} {spare : ι}
  {held held' held'' : ι → Option α} {x y : α} {xs ys : List α} {i j : ι}

/-- A slot that is held stays with its holder. -/
def Extends (held held' : ι → Option α) : Prop := ∀ i x, held i = some x → held' i = some x

/-- Who holds what after some items asked, none being held at the start. -/
structure Taken (slots : List ι) (asked : List α) (held : ι → Option α) : Prop where
  /-- No item has two slots. -/
  exclusive : ∀ {i j x}, held i = some x → held j = some x → i = j
  mem_slots : ∀ {i x}, held i = some x → i ∈ slots
  mem_asked : ∀ {i x}, held i = some x → x ∈ asked
  /-- An item that asked has a slot, unless all slots are held. -/
  placed : ∀ x ∈ asked, (∃ i, held i = some x) ∨ ∀ i ∈ slots, (held i).isSome

/-- Before the first request nothing is held. -/
theorem taken_nil : Taken slots [] (fun _ => none : ι → Option α) where
  exclusive := nofun
  mem_slots := nofun
  mem_asked := nofun
  placed := nofun

/-- A full house stays full. -/
theorem Extends.full (h : Extends held held') (hfull : ∀ i ∈ slots, (held i).isSome) :
    ∀ i ∈ slots, (held' i).isSome := by
  intro i hi
  obtain ⟨x, hx⟩ := Option.isSome_iff_exists.1 (hfull i hi)
  rw [h i x hx]
  rfl

variable [DecidableEq ι]

/-- A request of an item: the slot it is answered with, and who holds what afterwards. -/
inductive Assigns (slots : List ι) (spare : ι) (held : ι → Option α) (x : α) :
    ι → (ι → Option α) → Prop
  | kept {i : ι} (has : held i = some x) : Assigns slots spare held x i held
  | taken {i : ι} (new : ∀ j, held j ≠ some x) (slot : i ∈ slots) (free : held i = none) :
      Assigns slots spare held x i (Function.update held i (some x))
  | refused (new : ∀ j, held j ≠ some x) (full : ∀ i ∈ slots, (held i).isSome) :
      Assigns slots spare held x spare held

/-- Some items ask one after another. -/
inductive Requests (slots : List ι) (spare : ι) :
    (ι → Option α) → List α → (ι → Option α) → Prop
  | nil (held : ι → Option α) : Requests slots spare held [] held
  | cons {held held' held'' : ι → Option α} {x : α} {xs : List α} {i : ι}
      (first : Assigns slots spare held x i held') (rest : Requests slots spare held' xs held'') :
      Requests slots spare held (x :: xs) held''

/-- An assignment takes nothing away. -/
theorem Assigns.extends (h : Assigns slots spare held x i held') : Extends held held' := by
  intro j y hj
  cases h with
  | kept has => exact hj
  | taken new slot free =>
      rw [Function.update_apply, if_neg]
      · exact hj
      · rintro rfl
        exact absurd (free.symm.trans hj) (by simp)
  | refused new full => exact hj

/-- Nor do several. -/
theorem Requests.extends (h : Requests slots spare held xs held') : Extends held held' := by
  induction h with
  | nil held => exact fun i x hi => hi
  | cons first rest ih => exact fun i x hi => ih i x (first.extends i x hi)

/-- What is held after one more request. -/
theorem Assigns.taken_step (h : Assigns slots spare held x i held')
    (ht : Taken slots xs held) : Taken slots (xs ++ [x]) held' := by
  have hold : ∀ y ∈ xs, (∃ i, held' i = some y) ∨ ∀ i ∈ slots, (held' i).isSome := by
    intro y hy
    rcases ht.placed y hy with ⟨j, hj⟩ | hfull
    · exact .inl ⟨j, h.extends j y hj⟩
    · exact .inr (h.extends.full hfull)
  cases h with
  | kept has =>
      refine ⟨ht.exclusive, ht.mem_slots, fun hj => List.mem_append_left _ (ht.mem_asked hj),
        fun y hy => ?_⟩
      rcases List.mem_append.1 hy with hy | hy
      · exact hold y hy
      · exact .inl ⟨i, List.mem_singleton.1 hy ▸ has⟩
  | taken new slot free =>
      have hself : Function.update held i (some x) i = some x := Function.update_self ..
      refine ⟨fun {j k y} hj hk => ?_, fun {j y} hj => ?_, fun {j y} hj => ?_, fun y hy => ?_⟩
      · rw [Function.update_apply] at hj hk
        split at hj <;> split at hk
        · rename_i h₁ h₂
          exact h₁.trans h₂.symm
        · exact absurd (hk.trans hj.symm) (new k)
        · exact absurd (hj.trans hk.symm) (new j)
        · exact ht.exclusive hj hk
      · rw [Function.update_apply] at hj
        split at hj
        · rename_i h₁
          exact h₁ ▸ slot
        · exact ht.mem_slots hj
      · rw [Function.update_apply] at hj
        split at hj
        · exact List.mem_append_right _ (List.mem_singleton.2 (Option.some.inj hj).symm)
        · exact List.mem_append_left _ (ht.mem_asked hj)
      · rcases List.mem_append.1 hy with hy | hy
        · exact hold y hy
        · exact .inl ⟨i, List.mem_singleton.1 hy ▸ hself⟩
  | refused new full =>
      refine ⟨ht.exclusive, ht.mem_slots, fun hj => List.mem_append_left _ (ht.mem_asked hj),
        fun y hy => ?_⟩
      rcases List.mem_append.1 hy with hy | hy
      · exact hold y hy
      · exact .inr full

/-- What is held after several. -/
theorem Requests.taken (h : Requests slots spare held ys held') (ht : Taken slots xs held) :
    Taken slots (xs ++ ys) held' := by
  induction h generalizing xs with
  | nil held => rwa [List.append_nil]
  | cons first rest ih =>
      rw [List.append_cons]
      exact ih (first.taken_step ht)

/-- Where no more items asked than there are slots, each of them holds one: if an item held
none, all slots would be held by the others. -/
theorem Taken.exists_slot [DecidableEq α] (ht : Taken slots xs held) (hnodup : slots.Nodup)
    (hcard : xs.dedup.length ≤ slots.length) (hx : x ∈ xs) : ∃ i, held i = some x := by
  rcases ht.placed x hx with h | hfull
  · exact h
  by_contra hnone
  have hsub : slots.toFinset.image held ⊆ (xs.toFinset.erase x).image some := by
    intro o ho
    obtain ⟨i, hi, rfl⟩ := Finset.mem_image.1 ho
    obtain ⟨y, hy⟩ := Option.isSome_iff_exists.1 (hfull i (List.mem_toFinset.1 hi))
    refine Finset.mem_image.2 ⟨y, Finset.mem_erase.2 ⟨?_, ?_⟩, hy.symm⟩
    · rintro rfl
      exact hnone ⟨i, hy⟩
    · exact List.mem_toFinset.2 (ht.mem_asked hy)
  have hinj : Set.InjOn held (slots.toFinset : Set ι) := by
    intro i hi j hj hij
    obtain ⟨y, hy⟩ := Option.isSome_iff_exists.1 (hfull i (List.mem_toFinset.1 hi))
    exact ht.exclusive hy (hij ▸ hy)
  have hle := Finset.card_le_card hsub
  rw [Finset.card_image_of_injOn hinj, List.toFinset_card_of_nodup hnodup,
    Finset.card_image_of_injective _ (Option.some_injective α),
    Finset.card_erase_of_mem (List.mem_toFinset.2 hx), List.card_toFinset] at hle
  have hpos : 0 < xs.dedup.length := List.length_pos_of_mem (List.mem_dedup.2 hx)
  omega

/-- An item that holds a slot is answered with it. -/
theorem Assigns.eq_of_held (h : Assigns slots spare held x i held')
    (ht : Taken slots xs held) (hj : held j = some x) : i = j := by
  cases h with
  | kept has => exact ht.exclusive has hj
  | taken new slot free => exact absurd hj (new j)
  | refused new full => exact absurd hj (new j)

/-- An item is answered with the slot it holds afterwards, or with the spare one, where
nobody can take a slot any more. -/
theorem Assigns.held_or_refused (h : Assigns slots spare held x i held') :
    held' i = some x ∨
      i = spare ∧ held' = held ∧ (∀ j, held j ≠ some x) ∧ ∀ j ∈ slots, (held j).isSome := by
  cases h with
  | kept has => exact .inl has
  | taken new slot free => exact .inl (Function.update_self ..)
  | refused new full => exact .inr ⟨rfl, rfl, new, full⟩

/-- An entry that a request makes is that of the item, at the slot that it is answered with. -/
theorem Assigns.new_entry (h : Assigns slots spare held x i held') (hold : held j ≠ some y)
    (hnew : held' j = some y) : i = j ∧ x = y := by
  cases h with
  | kept has => exact absurd hnew hold
  | taken new slot free =>
      rw [Function.update_apply] at hnew
      split at hnew
      · rename_i heq
        exact ⟨heq.symm, Option.some.inj hnew⟩
      · exact absurd hnew hold
  | refused new full => exact absurd hnew hold

/-- **An item is always answered with the same slot**, whoever asks in between. -/
theorem Requests.same_slot {before later : ι → Option α}
    (hfirst : Assigns slots spare held x i before) (hrest : Requests slots spare before ys later)
    (hagain : Assigns slots spare later x j held') (ht : Taken slots xs held) : j = i := by
  have htb := hfirst.taken_step ht
  have htl := hrest.taken htb
  rcases hfirst.held_or_refused with hi | ⟨rfl, rfl, hnew, hfull⟩
  · exact hagain.eq_of_held htl (hrest.extends i x hi)
  · -- all slots stay with their holders, so the item still has none
    have hnone : ∀ k, later k ≠ some x := by
      intro k hk
      obtain ⟨y, hy⟩ := Option.isSome_iff_exists.1 (hfull k (htl.mem_slots hk))
      have hxy := (hrest.extends k y hy).symm.trans hk
      exact hnew k (hy.trans hxy)
    cases hagain with
    | kept has => exact absurd has (hnone j)
    | taken new slot free =>
        have hsome := hrest.extends.full hfull j slot
        rw [free] at hsome
        exact absurd hsome (by simp)
    | refused new full => rfl

end NearRtRic.Placement
