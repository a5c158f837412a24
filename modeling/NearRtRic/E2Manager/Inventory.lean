/-
# The inventory of RANs

The store keeps the known RANs in one set for each node type.  `SaveNodeb` makes a
RAN a member of the set of its type, and takes a RAN that is identified for the
first time out of the set of the unknown ones.  A RAN whose identity or type
changes, or that is saved without its identity once it had one, keeps what it was
before.

`enrolled_iff` states which sequences of saves leave every name with the one
membership of its last save: those in which a save that finds the name saved
before has the same type and identity, or is the first that identifies it.
-/

import NearRtRic.E2Manager.Rnib

namespace NearRtRic.E2Manager

/-- The identity that `SaveNodeb` makes a member. -/
def memberIdentity (nbIdentity : NbIdentity) : NbIdentity :=
  if (RNibWriter.isNotEmpty nbIdentity).isSome then nbIdentity
  else { inventoryName := nbIdentity.inventoryName }

/-- A call of `SaveNodeb`. -/
structure SaveCall where
  nbIdentity : NbIdentity
  entity : NodebInfo
  deriving DecidableEq, Repr

/-- The store, and the last membership that was saved for each name. -/
structure Inventory where
  store : Sdl
  last : String → Option (NodeType × NbIdentity)

namespace Inventory

def start : Inventory := ⟨Sdl.empty, fun _ => none⟩

/-- One call; a refused one changes nothing. -/
def save (m : Inventory) (c : SaveCall) : Inventory :=
  match RNibWriter.saveNodeb c.nbIdentity c.entity m.store with
  | .ok s => ⟨s, Function.update m.last c.nbIdentity.inventoryName
      (some (c.entity.nodeType, memberIdentity c.nbIdentity))⟩
  | .error _ => m

def run (m : Inventory) (calls : List SaveCall) : Inventory := calls.foldl save m

/-- **Every name has the membership of its last save, and no other.** -/
def Enrolled (m : Inventory) : Prop :=
  (∀ t i, i ∈ m.store.members t → m.last i.inventoryName = some (t, i)) ∧
  ∀ n t i, m.last n = some (t, i) → i.inventoryName = n ∧ i ∈ m.store.members t

/-- The save is refused; or its name was not saved before; or it was saved with the same
type and identity; or it was saved as unknown, and is now identified. -/
def Fits (m : Inventory) (c : SaveCall) : Prop :=
  (∀ pairs, RNibWriter.saveNodebPairs c.nbIdentity c.entity ≠ .ok pairs) ∨
  ∀ t i, m.last c.nbIdentity.inventoryName = some (t, i) →
    (t = c.entity.nodeType ∧ i = memberIdentity c.nbIdentity) ∨
    (t = .UNKNOWN ∧ i = { inventoryName := c.nbIdentity.inventoryName } ∧
      (RNibWriter.isNotEmpty c.nbIdentity).isSome)

/-- Every call fits, at the point where it is made. -/
def AllFit (m : Inventory) : List SaveCall → Prop
  | [] => True
  | c :: calls => m.Fits c ∧ (m.save c).AllFit calls

/-! ### One call -/

variable {m : Inventory} {c : SaveCall}

/-- A member has the name of the identity that was saved. -/
theorem memberIdentity_inventoryName (id : NbIdentity) :
    (memberIdentity id).inventoryName = id.inventoryName := by
  unfold memberIdentity
  split <;> rfl

/-- A save that builds its pairs stores them and enters the member. -/
theorem save_of_ok {pairs : Pairs}
    (h : RNibWriter.saveNodebPairs c.nbIdentity c.entity = .ok pairs) :
    m.save c = ⟨RNibWriter.saveNodebMembers c.nbIdentity c.entity (m.store.set pairs),
      Function.update m.last c.nbIdentity.inventoryName
        (some (c.entity.nodeType, memberIdentity c.nbIdentity))⟩ := by
  unfold save RNibWriter.saveNodeb
  rw [h]
  rfl

/-- A save that does not changes nothing. -/
theorem save_of_refused (h : ∀ pairs, RNibWriter.saveNodebPairs c.nbIdentity c.entity ≠ .ok pairs) :
    m.save c = m := by
  unfold save RNibWriter.saveNodeb
  cases hp : RNibWriter.saveNodebPairs c.nbIdentity c.entity with
  | ok pairs => exact absurd hp (h pairs)
  | error e => rfl

/-- `addMember` adds the identity to the set of its node type. -/
theorem mem_addMember {s : Sdl} {t t' : NodeType} {id i : NbIdentity} :
    i ∈ (s.addMember t id).members t' ↔ i ∈ s.members t' ∨ t' = t ∧ i = id := by
  by_cases ht : t' = t
  · subst ht
    simp [Sdl.addMember, List.mem_insert_iff, or_comm]
  · simp [Sdl.addMember, ht]

/-- **The members after a save**: the identity saved, and those that were members,
but for the bare name of a RAN that is identified. -/
theorem mem_saveNodebMembers {id : NbIdentity} {nb : NodebInfo} {s : Sdl} {t : NodeType}
    {i : NbIdentity} : i ∈ (RNibWriter.saveNodebMembers id nb s).members t ↔
      (t = nb.nodeType ∧ i = memberIdentity id) ∨
      (i ∈ s.members t ∧ ¬ (t = .UNKNOWN ∧ i = { inventoryName := id.inventoryName } ∧
        (RNibWriter.isNotEmpty id).isSome)) := by
  unfold RNibWriter.saveNodebMembers memberIdentity
  cases hg : RNibWriter.isNotEmpty id with
  | none =>
      dsimp only
      rw [mem_addMember]
      simp [or_comm]
  | some g =>
      dsimp only
      rw [mem_addMember, Sdl.mem_members_removeMember]
      simp [or_comm]

/-- **One save keeps the memberships in order exactly when it fits.** -/
theorem Enrolled.save_iff (h : m.Enrolled) : (m.save c).Enrolled ↔ m.Fits c := by
  obtain ⟨hmember, hlast⟩ := h
  by_cases hrefused : ∀ pairs, RNibWriter.saveNodebPairs c.nbIdentity c.entity ≠ .ok pairs
  · rw [save_of_refused hrefused]
    exact ⟨fun _ => .inl hrefused, fun _ => ⟨hmember, hlast⟩⟩
  obtain ⟨pairs, hpairs⟩ := not_forall_not.1 hrefused
  rw [save_of_ok hpairs]
  constructor
  · rintro ⟨hmember', -⟩
    refine .inr fun t i hi => ?_
    obtain ⟨hname, hmem⟩ := hlast _ t i hi
    by_cases hremoved : t = .UNKNOWN ∧ i = { inventoryName := c.nbIdentity.inventoryName } ∧
        (RNibWriter.isNotEmpty c.nbIdentity).isSome
    · exact .inr hremoved
    · -- the former membership is still there, so it is the one that was saved
      have heq := hmember' t i (mem_saveNodebMembers.2 (.inr ⟨hmem, hremoved⟩))
      dsimp only at heq
      rw [hname, Function.update_self] at heq
      obtain ⟨rfl, rfl⟩ := Prod.mk.inj (Option.some.inj heq)
      exact .inl ⟨rfl, rfl⟩
  · intro hfits
    have hfits := hfits.resolve_left fun hrefused => hrefused pairs hpairs
    refine ⟨fun t i hi => ?_, fun n t i hi => ?_⟩
    · dsimp only
      rcases mem_saveNodebMembers.1 hi with ⟨rfl, rfl⟩ | ⟨hmem, hkept⟩
      · rw [memberIdentity_inventoryName, Function.update_self]
      · have hi := hmember t i hmem
        by_cases hname : i.inventoryName = c.nbIdentity.inventoryName
        · rcases hfits t i (hname ▸ hi) with ⟨rfl, rfl⟩ | hremoved
          · rw [hname, Function.update_self]
          · exact absurd hremoved hkept
        · rw [Function.update_of_ne hname]
          exact hi
    · dsimp only at hi
      by_cases hname : n = c.nbIdentity.inventoryName
      · subst hname
        rw [Function.update_self] at hi
        obtain ⟨rfl, rfl⟩ := Prod.mk.inj (Option.some.inj hi)
        exact ⟨memberIdentity_inventoryName _, mem_saveNodebMembers.2 (.inl ⟨rfl, rfl⟩)⟩
      · rw [Function.update_of_ne hname] at hi
        obtain ⟨hiname, hmem⟩ := hlast n t i hi
        refine ⟨hiname, mem_saveNodebMembers.2 (.inr ⟨hmem, ?_⟩)⟩
        rintro ⟨-, rfl, -⟩
        exact hname hiname.symm

/-! ### Sequences of calls -/

/-- At the start there are no members, and no RAN was saved. -/
theorem Enrolled.start : Inventory.start.Enrolled :=
  ⟨fun _ _ hi => absurd hi List.not_mem_nil, nofun⟩

/-- **When the memberships stay in order**: after every call of a sequence, exactly when
every call fits. -/
theorem enrolled_iff (calls : List SaveCall) :
    (∀ k, (Inventory.start.run (calls.take k)).Enrolled) ↔ Inventory.start.AllFit calls := by
  suffices h : ∀ m : Inventory, m.Enrolled →
      ((∀ k, (m.run (calls.take k)).Enrolled) ↔ m.AllFit calls) from h _ Enrolled.start
  induction calls with
  | nil =>
      intro m hm
      exact ⟨fun _ => trivial, fun _ k => by simpa [run] using hm⟩
  | cons c calls ih =>
      intro m hm
      constructor
      · intro hall
        have hsave : (m.save c).Enrolled := hall 1
        exact ⟨hm.save_iff.1 hsave, (ih _ hsave).1 fun k => hall (k + 1)⟩
      · rintro ⟨hfits, hrest⟩ k
        cases k with
        | zero => exact hm
        | succ k => exact (ih _ (hm.save_iff.2 hfits)).2 hrest k

/-- **An eNB that answers a second X2 setup with another identity**: it is then a member of
the set of the eNBs twice. -/
theorem not_enrolled :
    let ran : NodebInfo := { ranName := "enb1", nodeType := .ENB, configuration := some (.enb {}) }
    ¬ (Inventory.start.run [⟨{ inventoryName := "enb1" }, { ranName := "enb1" }⟩,
      ⟨{ inventoryName := "enb1", globalNbId := some ⟨"02f829", "00a1"⟩ }, ran⟩,
      ⟨{ inventoryName := "enb1", globalNbId := some ⟨"02f829", "00a2"⟩ }, ran⟩]).Enrolled := by
  rintro ran ⟨hmember, -⟩
  have hold := hmember .ENB { inventoryName := "enb1", globalNbId := some ⟨"02f829", "00a1"⟩ }
    (by decide +kernel)
  revert hold
  decide +kernel

end Inventory

end NearRtRic.E2Manager
