/-
# The RNIB

The store of the E2 manager as `rNibWriter` writes it and the RNIB reader reads
it back.  `Sdl` is the shared data layer: one value under each key, and one set
of identities for each node type.  A key is a constructor with the parts the key
builders put together, so keys are injective by construction, and the type of
the value under a key is a function of the key.

The writers are translated from `rNibWriter.go`: they build the keys, which fails
on an empty part, then the pairs to set, and only then touch the store.  The
reader and the key builders are packages the manager imports; a read returns
what was last written, `resourceNotFound` where nothing was.

The last section gives each writer its equation: what the stored RANs, instances,
addresses and members are afterwards (`Sdl.putNodeb` and `Sdl.enlist` say it in
one word each), and which of them it leaves alone.
-/

import NearRtRic.E2Manager.Entities
import Mathlib.Logic.Function.Basic

namespace NearRtRic.E2Manager

/-- The keys of the store, as the key builders make them. -/
inductive Key
  | nodebName (inventoryName : String)
  | nodebId (nodeType : NodeType) (plmnId nbId : String)
  | cellId (id : String)
  | nrCellId (id : String)
  | cellNamePci (inventoryName : String) (pci : Nat)
  | e2tInstance (address : String)
  | e2tAddresses
  deriving DecidableEq, Repr

/-- `entities.Cell`. -/
inductive Cell
  | servedCellInfo (cell : ServedCellInfo)
  | servedNrCell (cell : ServedNRCell)
  deriving DecidableEq, Repr

/-- The type of the value under a key. -/
abbrev Key.Value : Key → Type
  | nodebName _ => NodebInfo
  | nodebId _ _ _ => NodebInfo
  | cellId _ => Cell
  | nrCellId _ => Cell
  | cellNamePci _ _ => Cell
  | e2tInstance _ => E2TInstance
  | e2tAddresses => List String

/-- The arguments of an `sdl.Set`: keys with their values. -/
abbrev Pairs := List ((k : Key) × k.Value)

/-- The shared data layer. -/
structure Sdl where
  /-- The value stored under each key. -/
  value : (k : Key) → Option k.Value
  /-- The identities that are members of the set of a node type. -/
  members : NodeType → List NbIdentity

namespace Sdl

/-- The empty store. -/
def empty : Sdl where
  value _ := none
  members _ := []

/-- `sdl.Set`: all pairs at once, the last one of a key winning. -/
def set (s : Sdl) (pairs : Pairs) : Sdl :=
  { s with value := pairs.foldl (fun v p => Function.update v p.1 (some p.2)) s.value }

/-- `sdl.Remove`. -/
def remove (s : Sdl) (keys : List Key) : Sdl :=
  { s with value := fun k => if k ∈ keys then none else s.value k }

/-- `sdl.AddMember`. -/
def addMember (s : Sdl) (t : NodeType) (id : NbIdentity) : Sdl :=
  { s with members := Function.update s.members t ((s.members t).insert id) }

/-- `sdl.RemoveMember`. -/
def removeMember (s : Sdl) (t : NodeType) (id : NbIdentity) : Sdl :=
  { s with members := Function.update s.members t ((s.members t).filter (· ≠ id)) }

/-- The record stored for a RAN. -/
def nodeb (s : Sdl) (ranName : String) : Option NodebInfo := s.value (.nodebName ranName)

/-- The record stored for an E2 termination. -/
def e2tInstance (s : Sdl) (address : String) : Option E2TInstance := s.value (.e2tInstance address)

/-- The stored list of addresses. -/
def e2tAddresses (s : Sdl) : Option (List String) := s.value .e2tAddresses

end Sdl

/-! ### The key builders -/

/-- Every part that a key is built from is non-empty: what the
`ValidateAndBuild...Key` functions of the `common` package check. -/
def Key.Valid : Key → Prop
  | nodebName inventoryName => inventoryName ≠ ""
  | nodebId _ plmnId nbId => plmnId ≠ "" ∧ nbId ≠ ""
  | cellId id => id ≠ ""
  | nrCellId id => id ≠ ""
  | cellNamePci inventoryName _ => inventoryName ≠ ""
  | e2tInstance address => address ≠ ""
  | e2tAddresses => True

instance : DecidablePred Key.Valid := fun k => by
  cases k <;> simp only [Key.Valid] <;> infer_instance

/-- A `ValidateAndBuild...Key` function, with the value that goes under the key. -/
def validateAndBuild (k : Key) (data : k.Value) : Except Err ((k : Key) × k.Value) :=
  if k.Valid then .ok ⟨k, data⟩ else .error .validation

/-! ### `rNibWriter` -/

namespace RNibWriter

/-- `appendEnbCells`: each cell under its id and under its PCI. -/
def appendEnbCells (inventoryName : String) : List ServedCellInfo → Pairs → Except Err Pairs
  | [], pairs => .ok pairs
  | cell :: cells, pairs => do
      let byId ← validateAndBuild (.cellId cell.cellId) (Cell.servedCellInfo cell)
      let byPci ← validateAndBuild (.cellNamePci inventoryName cell.pci)
        (Cell.servedCellInfo cell)
      appendEnbCells inventoryName cells (pairs ++ [byId, byPci])

/-- `appendGnbCells`: each cell under its id and under its PCI. -/
def appendGnbCells (inventoryName : String) : List ServedNRCell → Pairs → Except Err Pairs
  | [], pairs => .ok pairs
  | cell :: cells, pairs => do
      let byId ← validateAndBuild (.nrCellId cell.cellId) (Cell.servedNrCell cell)
      let byPci ← validateAndBuild (.cellNamePci inventoryName cell.nrPci)
        (Cell.servedNrCell cell)
      appendGnbCells inventoryName cells (pairs ++ [byId, byPci])

/-- `isNotEmpty`: the identity that carries a whole global id. -/
def isNotEmpty (nbIdentity : NbIdentity) : Option GlobalNbId :=
  nbIdentity.globalNbId.filter fun g => g.plmnId ≠ "" ∧ g.nbId ≠ ""

/-- The pairs of `SaveNodeb`: the record under the name, under the global id
where the identity has one, and the cells of the node. -/
def saveNodebPairs (nbIdentity : NbIdentity) (entity : NodebInfo) : Except Err Pairs :=
  if (isNotEmpty nbIdentity).isSome ∧ entity.nodeType = .UNKNOWN then .error .validation
  else do
    let name ← validateAndBuild (.nodebName nbIdentity.inventoryName) entity
    let byId ← (isNotEmpty nbIdentity).elim (.ok []) fun g =>
      (validateAndBuild (.nodebId entity.nodeType g.plmnId g.nbId) entity).map ([·])
    let pairs ← entity.getEnb.elim (.ok (name :: byId)) fun e =>
      appendEnbCells nbIdentity.inventoryName e.servedCells (name :: byId)
    entity.getGnb.elim (.ok pairs) fun g =>
      appendGnbCells nbIdentity.inventoryName g.servedNrCells pairs

/-- The membership half of `SaveNodeb`: a RAN that is now identified leaves the
set of unknown nodes; it joins the set of its node type. -/
def saveNodebMembers (nbIdentity : NbIdentity) (entity : NodebInfo) (s : Sdl) : Sdl :=
  let ranNameIdentity : NbIdentity := { inventoryName := nbIdentity.inventoryName }
  match isNotEmpty nbIdentity with
  | some _ => (s.removeMember .UNKNOWN ranNameIdentity).addMember entity.nodeType nbIdentity
  | none => s.addMember entity.nodeType ranNameIdentity

/-- `rNibWriter.SaveNodeb`. -/
def saveNodeb (nbIdentity : NbIdentity) (entity : NodebInfo) (s : Sdl) : Except Err Sdl := do
  let pairs ← saveNodebPairs nbIdentity entity
  return saveNodebMembers nbIdentity entity (s.set pairs)

/-- The global id under which `buildUpdateNodebInfoPairs` stores a record; the
nil-safe getters of the entity read an absent id as empty strings. -/
def nodebIdPair (nodebInfo : NodebInfo) : Except Err ((k : Key) × k.Value) :=
  validateAndBuild (.nodebId nodebInfo.nodeType (nodebInfo.globalNbId.elim "" (·.plmnId))
    (nodebInfo.globalNbId.elim "" (·.nbId))) nodebInfo

/-- `buildUpdateNodebInfoPairs`: an id key that cannot be built is left out. -/
def buildUpdateNodebInfoPairs (nodebInfo : NodebInfo) : Except Err Pairs := do
  let name ← validateAndBuild (.nodebName nodebInfo.ranName) nodebInfo
  match nodebIdPair nodebInfo with
  | .ok id => return [name, id]
  | .error _ => return [name]

/-- `rNibWriter.UpdateNodebInfo`. -/
def updateNodebInfo (nodebInfo : NodebInfo) (s : Sdl) : Except Err Sdl := do
  return s.set (← buildUpdateNodebInfoPairs nodebInfo)

/-- `rNibWriter.SaveE2TInstance`. -/
def saveE2TInstance (e2tInstance : E2TInstance) (s : Sdl) : Except Err Sdl := do
  return s.set [← validateAndBuild (.e2tInstance e2tInstance.address) e2tInstance]

/-- `rNibWriter.SaveE2TAddresses`. -/
def saveE2TAddresses (addresses : List String) (s : Sdl) : Except Err Sdl :=
  .ok (s.set [⟨.e2tAddresses, addresses⟩])

/-- `rNibWriter.RemoveE2TInstance`. -/
def removeE2TInstance (address : String) (s : Sdl) : Except Err Sdl :=
  if (Key.e2tInstance address).Valid then .ok (s.remove [.e2tInstance address])
  else .error .validation

end RNibWriter

/-! ### The reader -/

namespace RNibReader

/-- `GetNodeb`. -/
def getNodeb (ranName : String) (s : Sdl) : Except Err NodebInfo :=
  if ranName = "" then .error .validation
  else (s.nodeb ranName).elim (.error .resourceNotFound) .ok

/-- `GetListNodebIds`: the members of the three sets. -/
def getListNodebIds (s : Sdl) : Except Err (List NbIdentity) :=
  .ok (s.members .ENB ++ s.members .GNB ++ s.members .UNKNOWN)

/-- `GetE2TInstance`. -/
def getE2TInstance (address : String) (s : Sdl) : Except Err E2TInstance :=
  if address = "" then .error .validation
  else (s.e2tInstance address).elim (.error .resourceNotFound) .ok

/-- `GetE2TInstances`: the instances that are stored, in the order asked for. -/
def getE2TInstances (addresses : List String) (s : Sdl) : Except Err (List E2TInstance) :=
  .ok (addresses.filterMap s.e2tInstance)

/-- `GetE2TAddresses`. -/
def getE2TAddresses (s : Sdl) : Except Err (List String) :=
  s.e2tAddresses.elim (.error .resourceNotFound) .ok

end RNibReader

/-! ### What the writers do to the store -/

/-- The keys that index a record: its global id and its cells. -/
def Key.IsIndex : Key → Prop
  | nodebId _ _ _ => True
  | cellId _ => True
  | nrCellId _ => True
  | cellNamePci _ _ => True
  | _ => False

/-- A key that passes its check is built, with the data that was given. -/
theorem validateAndBuild_of_valid {k : Key} (hk : k.Valid) (data : k.Value) :
    validateAndBuild k data = .ok ⟨k, data⟩ := if_pos hk

/-- The pair that is built has the key that was asked for. -/
theorem validateAndBuild_fst {k : Key} {data : k.Value} {p : (k : Key) × k.Value}
    (h : validateAndBuild k data = .ok p) : p.1 = k := by
  unfold validateAndBuild at h
  split at h <;> cases h
  rfl

namespace Sdl

variable (s : Sdl)

/-- A key that no pair names keeps its value. -/
theorem set_value_of_ne {pairs : Pairs} {k : Key} (h : ∀ p ∈ pairs, p.1 ≠ k) :
    (s.set pairs).value k = s.value k := by
  unfold set
  induction pairs generalizing s with
  | nil => rfl
  | cons p pairs ih =>
      simp only [List.foldl_cons]
      have hp : p.1 ≠ k := h p (List.mem_cons_self ..)
      have := ih { s with value := Function.update s.value p.1 (some p.2) }
        fun q hq => h q (List.mem_cons_of_mem _ hq)
      simpa only [Function.update_of_ne hp.symm] using this

/-- Setting a record together with keys that index it. -/
theorem nodeb_set_cons {n : String} {nb : NodebInfo} {index : Pairs}
    (h : ∀ p ∈ index, p.1.IsIndex) :
    (s.set (⟨.nodebName n, nb⟩ :: index)).nodeb = Function.update s.nodeb n (some nb) := by
  funext m
  have hidx : ∀ p ∈ index, p.1 ≠ .nodebName m := fun p hp hm => by
    simpa [hm, Key.IsIndex] using h p hp
  have := set_value_of_ne (s.set [⟨.nodebName n, nb⟩]) hidx
  refine Eq.trans this ?_
  by_cases hm : m = n
  · subst hm
    simp [set]
  · have hk : Key.nodebName m ≠ .nodebName n := fun e => hm (Key.nodebName.inj e)
    simp [set, nodeb, Function.update_of_ne hm, Function.update_of_ne hk]

/-- Setting a record together with keys that index it leaves every instance. -/
theorem e2tInstance_set_cons {n : String} {nb : NodebInfo} {index : Pairs}
    (h : ∀ p ∈ index, p.1.IsIndex) :
    (s.set (⟨.nodebName n, nb⟩ :: index)).e2tInstance = s.e2tInstance := by
  funext a
  refine set_value_of_ne s fun p hp hk => ?_
  rcases List.mem_cons.1 hp with rfl | hp
  · cases hk
  · simpa [hk, Key.IsIndex] using h p hp

/-- Setting a record together with keys that index it leaves the addresses. -/
theorem e2tAddresses_set_cons {n : String} {nb : NodebInfo} {index : Pairs}
    (h : ∀ p ∈ index, p.1.IsIndex) :
    (s.set (⟨.nodebName n, nb⟩ :: index)).e2tAddresses = s.e2tAddresses := by
  refine set_value_of_ne s fun p hp hk => ?_
  rcases List.mem_cons.1 hp with rfl | hp
  · cases hk
  · simpa [hk, Key.IsIndex] using h p hp

/-- The store after `UpdateNodebInfo nb`. -/
def putNodeb (nb : NodebInfo) : Sdl :=
  s.set (⟨.nodebName nb.ranName, nb⟩ :: match RNibWriter.nodebIdPair nb with
    | .ok id => [id]
    | .error _ => [])

/-- The store after `SaveE2TInstance i`. -/
def putInstance (i : E2TInstance) : Sdl := s.set [⟨.e2tInstance i.address, i⟩]

/-- The store after `SaveE2TAddresses addresses`. -/
def putAddresses (addresses : List String) : Sdl := s.set [⟨.e2tAddresses, addresses⟩]

/-- The store after `RemoveE2TInstance address`. -/
def dropInstance (address : String) : Sdl := s.remove [.e2tInstance address]

/-- The pair that is stored for a record under its node id is an entry of the index. -/
theorem nodebIdPair_isIndex {nb : NodebInfo} {p : (k : Key) × k.Value}
    (h : RNibWriter.nodebIdPair nb = .ok p) : p.1.IsIndex := by
  rw [validateAndBuild_fst h]
  trivial

/-- Whatever goes into the index with a record is an entry of the index, so that records under
names are not touched. -/
theorem putNodeb_index_isIndex (nb : NodebInfo) :
    ∀ p ∈ (match RNibWriter.nodebIdPair nb with | .ok id => [id] | .error _ => ([] : Pairs)),
      p.1.IsIndex := by
  intro p hp
  split at hp
  · rename_i h
    obtain rfl := List.mem_singleton.1 hp
    exact nodebIdPair_isIndex h
  · cases hp

/-- A record is found under its name afterwards, and the others are where they were. -/
@[simp] theorem nodeb_putNodeb (nb : NodebInfo) :
    (s.putNodeb nb).nodeb = Function.update s.nodeb nb.ranName (some nb) :=
  nodeb_set_cons s (putNodeb_index_isIndex nb)

/-- Writing a record leaves the instances. -/
@[simp] theorem e2tInstance_putNodeb (nb : NodebInfo) :
    (s.putNodeb nb).e2tInstance = s.e2tInstance :=
  e2tInstance_set_cons s (putNodeb_index_isIndex nb)

/-- It leaves the list of addresses. -/
@[simp] theorem e2tAddresses_putNodeb (nb : NodebInfo) :
    (s.putNodeb nb).e2tAddresses = s.e2tAddresses :=
  e2tAddresses_set_cons s (putNodeb_index_isIndex nb)

/-- It leaves the lists of RANs. -/
@[simp] theorem members_putNodeb (nb : NodebInfo) : (s.putNodeb nb).members = s.members := rfl

/-- Writing an instance leaves the records. -/
@[simp] theorem nodeb_putInstance (i : E2TInstance) : (s.putInstance i).nodeb = s.nodeb :=
  funext fun _ => set_value_of_ne s (by simp)

/-- The instance is found under its address afterwards. -/
@[simp] theorem e2tInstance_putInstance (i : E2TInstance) :
    (s.putInstance i).e2tInstance = Function.update s.e2tInstance i.address (some i) := by
  funext a
  by_cases ha : a = i.address
  · subst ha
    simp [putInstance, set, e2tInstance]
  · have hk : Key.e2tInstance a ≠ .e2tInstance i.address := fun e => ha (Key.e2tInstance.inj e)
    simp [putInstance, set, e2tInstance, Function.update_of_ne ha, Function.update_of_ne hk]

/-- Writing an instance leaves the list of addresses. -/
@[simp] theorem e2tAddresses_putInstance (i : E2TInstance) :
    (s.putInstance i).e2tAddresses = s.e2tAddresses := set_value_of_ne s (by simp)

/-- It leaves the lists of RANs. -/
@[simp] theorem members_putInstance (i : E2TInstance) :
    (s.putInstance i).members = s.members := rfl

/-- Writing the list of addresses leaves the records. -/
@[simp] theorem nodeb_putAddresses (addresses : List String) :
    (s.putAddresses addresses).nodeb = s.nodeb := funext fun _ => set_value_of_ne s (by simp)

/-- It leaves the instances. -/
@[simp] theorem e2tInstance_putAddresses (addresses : List String) :
    (s.putAddresses addresses).e2tInstance = s.e2tInstance :=
  funext fun _ => set_value_of_ne s (by simp)

/-- The list is the one that was written. -/
@[simp] theorem e2tAddresses_putAddresses (addresses : List String) :
    (s.putAddresses addresses).e2tAddresses = some addresses := by
  simp [putAddresses, set, e2tAddresses]

/-- Writing it leaves the lists of RANs. -/
@[simp] theorem members_putAddresses (addresses : List String) :
    (s.putAddresses addresses).members = s.members := rfl

/-- Deleting an instance leaves the records. -/
@[simp] theorem nodeb_dropInstance (a : String) : (s.dropInstance a).nodeb = s.nodeb := by
  funext r
  simp [dropInstance, remove, nodeb]

/-- There is nothing under its address afterwards. -/
@[simp] theorem e2tInstance_dropInstance (a : String) :
    (s.dropInstance a).e2tInstance = Function.update s.e2tInstance a none := by
  funext b
  by_cases hb : b = a
  · subst hb
    simp [dropInstance, remove, e2tInstance]
  · simp [dropInstance, remove, e2tInstance, hb]

/-- Deleting it leaves the list of addresses. -/
@[simp] theorem e2tAddresses_dropInstance (a : String) :
    (s.dropInstance a).e2tAddresses = s.e2tAddresses := by
  simp [dropInstance, remove, e2tAddresses]

/-- It leaves the lists of RANs. -/
@[simp] theorem members_dropInstance (a : String) : (s.dropInstance a).members = s.members := rfl

end Sdl

/-- A record with a name is written under it. -/
theorem updateNodebInfo_of_ne {nb : NodebInfo} (h : nb.ranName ≠ "") (s : Sdl) :
    RNibWriter.updateNodebInfo nb s = .ok (s.putNodeb nb) := by
  unfold RNibWriter.updateNodebInfo RNibWriter.buildUpdateNodebInfoPairs Sdl.putNodeb
  rw [validateAndBuild_of_valid (show (Key.nodebName nb.ranName).Valid from h)]
  cases RNibWriter.nodebIdPair nb <;> rfl

/-- A record without a name is refused. -/
theorem updateNodebInfo_of_eq {nb : NodebInfo} (h : nb.ranName = "") (s : Sdl) :
    RNibWriter.updateNodebInfo nb s = .error .validation := by
  simp [RNibWriter.updateNodebInfo, RNibWriter.buildUpdateNodebInfoPairs, validateAndBuild,
    Key.Valid, h, bind, Except.bind]

/-- A record that was written back had a name. -/
theorem updateNodebInfo_ok {nb : NodebInfo} {s s' : Sdl}
    (h : RNibWriter.updateNodebInfo nb s = .ok s') : nb.ranName ≠ "" ∧ s' = s.putNodeb nb := by
  by_cases hne : nb.ranName = ""
  · rw [updateNodebInfo_of_eq hne] at h
    cases h
  · rw [updateNodebInfo_of_ne hne] at h
    exact ⟨hne, (Except.ok.inj h).symm⟩

/-- An instance with an address is saved. -/
theorem saveE2TInstance_of_ne {i : E2TInstance} (h : i.address ≠ "") (s : Sdl) :
    RNibWriter.saveE2TInstance i s = .ok (s.putInstance i) := by
  unfold RNibWriter.saveE2TInstance
  rw [validateAndBuild_of_valid (show (Key.e2tInstance i.address).Valid from h)]
  rfl

/-- An instance that was saved had an address. -/
theorem saveE2TInstance_ok {i : E2TInstance} {s s' : Sdl}
    (h : RNibWriter.saveE2TInstance i s = .ok s') : i.address ≠ "" ∧ s' = s.putInstance i := by
  by_cases hi : i.address = ""
  · simp [RNibWriter.saveE2TInstance, validateAndBuild, Key.Valid, hi, bind, Except.bind] at h
  · rw [saveE2TInstance_of_ne hi] at h
    exact ⟨hi, (Except.ok.inj h).symm⟩

/-- A list of addresses is saved without a check. -/
theorem saveE2TAddresses_eq (addresses : List String) (s : Sdl) :
    RNibWriter.saveE2TAddresses addresses s = .ok (s.putAddresses addresses) := rfl

/-- The instance of an address that is not empty is deleted. -/
theorem removeE2TInstance_of_ne {a : String} (h : a ≠ "") (s : Sdl) :
    RNibWriter.removeE2TInstance a s = .ok (s.dropInstance a) := if_pos h

/-- One that was deleted had such an address. -/
theorem removeE2TInstance_ok {a : String} {s s' : Sdl}
    (h : RNibWriter.removeE2TInstance a s = .ok s') : a ≠ "" ∧ s' = s.dropInstance a := by
  by_cases ha : a = ""
  · simp [RNibWriter.removeE2TInstance, Key.Valid, ha] at h
  · rw [removeE2TInstance_of_ne ha] at h
    exact ⟨ha, (Except.ok.inj h).symm⟩

/-- The inventory lists a RAN: some set holds an identity with its name. -/
def Sdl.Listed (s : Sdl) (ranName : String) : Prop :=
  ∃ t, ∃ id ∈ s.members t, id.inventoryName = ranName

/-- The names on the list of all RANs are those of the RANs that are listed, under either type. -/
theorem mem_getListNodebIds {s : Sdl} {ids : List NbIdentity}
    (h : RNibReader.getListNodebIds s = .ok ids)
    (r : String) : r ∈ ids.map (·.inventoryName) ↔ s.Listed r := by
  obtain rfl := Except.ok.inj h
  simp only [List.map_append, List.mem_append, List.mem_map, Sdl.Listed]
  constructor
  · rintro ((⟨id, hid, rfl⟩ | ⟨id, hid, rfl⟩) | ⟨id, hid, rfl⟩)
    exacts [⟨_, id, hid, rfl⟩, ⟨_, id, hid, rfl⟩, ⟨_, id, hid, rfl⟩]
  · rintro ⟨t, id, hid, rfl⟩
    cases t
    exacts [.inr ⟨id, hid, rfl⟩, .inl (.inl ⟨id, hid, rfl⟩), .inl (.inr ⟨id, hid, rfl⟩)]

/-- Who is listed after a RAN was added. -/
theorem Sdl.listed_addMember (s : Sdl) (t : NodeType) (id : NbIdentity) (n : String) :
    (s.addMember t id).Listed n ↔ s.Listed n ∨ n = id.inventoryName := by
  have hmem : ∀ t', ∀ i, i ∈ (s.addMember t id).members t' ↔
      i ∈ s.members t' ∨ t' = t ∧ i = id := by
    intro t' i
    by_cases ht : t' = t
    · subst ht
      simp [addMember, List.mem_insert_iff, or_comm]
    · simp [addMember, ht]
  simp only [Listed, hmem]
  constructor
  · rintro ⟨t', i, hi | ⟨rfl, rfl⟩, rfl⟩
    · exact .inl ⟨t', i, hi, rfl⟩
    · exact .inr rfl
  · rintro (⟨t', i, hi, rfl⟩ | rfl)
    · exact ⟨t', i, .inl hi, rfl⟩
    · exact ⟨t, id, .inr ⟨rfl, rfl⟩, rfl⟩

/-- Who is left on the lists after a RAN was removed from one of them. -/
theorem Sdl.mem_members_removeMember (s : Sdl) (t t' : NodeType) (id i : NbIdentity) :
    i ∈ (s.removeMember t id).members t' ↔ i ∈ s.members t' ∧ (t' = t → i ≠ id) := by
  by_cases ht : t' = t
  · subst ht
    simp [removeMember]
  · simp [removeMember, ht]

/-- The membership half of `SaveNodeb` lists the saved RAN and forgets nobody. -/
theorem listed_saveNodebMembers (id : NbIdentity) (nb : NodebInfo) (s : Sdl) (n : String) :
    (RNibWriter.saveNodebMembers id nb s).Listed n ↔ s.Listed n ∨ n = id.inventoryName := by
  unfold RNibWriter.saveNodebMembers
  split
  · rw [Sdl.listed_addMember]
    constructor
    · rintro (⟨t, i, hi, rfl⟩ | rfl)
      · exact .inl ⟨t, i, ((Sdl.mem_members_removeMember ..).1 hi).1, rfl⟩
      · exact .inr rfl
    · rintro (⟨t, i, hi, rfl⟩ | rfl)
      · by_cases hn : i.inventoryName = id.inventoryName
        · exact .inr hn
        · refine .inl ⟨t, i, (Sdl.mem_members_removeMember ..).2 ⟨hi, ?_⟩, rfl⟩
          rintro - rfl
          exact hn rfl
      · exact .inr rfl
  · rw [Sdl.listed_addMember]

/-- Putting a RAN on the lists stores nothing under a key. -/
theorem saveNodebMembers_value (id : NbIdentity) (nb : NodebInfo) (s : Sdl) :
    (RNibWriter.saveNodebMembers id nb s).value = s.value := by
  unfold RNibWriter.saveNodebMembers
  split <;> rfl

/-- A sequence of fallible steps succeeds where each of them does. -/
theorem except_bind_eq_ok {α β : Type} {x : Except Err α} {f : α → Except Err β} {b : β} :
    x >>= f = .ok b ↔ ∃ a, x = .ok a ∧ f a = .ok b := by
  cases x <;> simp [bind, Except.bind]

/-- Two keys more that index a record, in front of others. -/
theorem index_cons_cons {k k' : Key} {data : k.Value} {data' : k'.Value}
    {p p' : (k : Key) × k.Value} {pairs pairs' : Pairs} (hp : validateAndBuild k data = .ok p)
    (hp' : validateAndBuild k' data' = .ok p') (hk : k.IsIndex) (hk' : k'.IsIndex)
    (h : ∃ index, pairs' = pairs ++ [p, p'] ++ index ∧ ∀ q ∈ index, q.1.IsIndex) :
    ∃ index, pairs' = pairs ++ index ∧ ∀ q ∈ index, q.1.IsIndex := by
  obtain ⟨index, rfl, hindex⟩ := h
  refine ⟨p :: p' :: index, List.append_assoc .., ?_⟩
  rw [List.forall_mem_cons, List.forall_mem_cons, validateAndBuild_fst hp,
    validateAndBuild_fst hp']
  exact ⟨hk, hk', hindex⟩

/-- The cells of an eNB add entries of the index behind the pairs there are. -/
theorem appendEnbCells_shape {n : String} {cells : List ServedCellInfo} {pairs pairs' : Pairs}
    (h : RNibWriter.appendEnbCells n cells pairs = .ok pairs') :
    ∃ index, pairs' = pairs ++ index ∧ ∀ p ∈ index, p.1.IsIndex := by
  induction cells generalizing pairs with
  | nil => exact ⟨[], by simpa using (Except.ok.inj h).symm, by simp⟩
  | cons cell cells ih =>
      obtain ⟨byId, hId, h⟩ := except_bind_eq_ok.1 h
      obtain ⟨byPci, hPci, h⟩ := except_bind_eq_ok.1 h
      exact index_cons_cons hId hPci trivial trivial (ih h)

/-- The cells of a gNB do so too. -/
theorem appendGnbCells_shape {n : String} {cells : List ServedNRCell} {pairs pairs' : Pairs}
    (h : RNibWriter.appendGnbCells n cells pairs = .ok pairs') :
    ∃ index, pairs' = pairs ++ index ∧ ∀ p ∈ index, p.1.IsIndex := by
  induction cells generalizing pairs with
  | nil => exact ⟨[], by simpa using (Except.ok.inj h).symm, by simp⟩
  | cons cell cells ih =>
      obtain ⟨byId, hId, h⟩ := except_bind_eq_ok.1 h
      obtain ⟨byPci, hPci, h⟩ := except_bind_eq_ok.1 h
      exact index_cons_cons hId hPci trivial trivial (ih h)

/-- An identity that is not empty is a key of the record. -/
theorem nodebId_of_isNotEmpty {id : NbIdentity} {nb : NodebInfo} {byId : Pairs}
    (h : ((RNibWriter.isNotEmpty id).elim (.ok []) fun g =>
      (validateAndBuild (.nodebId nb.nodeType g.plmnId g.nbId) nb).map ([·])) = .ok byId) :
    ∀ p ∈ byId, ∃ t a b, p.1 = .nodebId t a b := by
  cases hg : RNibWriter.isNotEmpty id with
  | none =>
      rw [hg] at h
      obtain rfl := Except.ok.inj h
      exact List.forall_mem_nil _
  | some g =>
      rw [hg, Option.elim_some] at h
      cases hv : validateAndBuild (.nodebId nb.nodeType g.plmnId g.nbId) nb with
      | error e =>
          rw [hv] at h
          cases h
      | ok p =>
          rw [hv] at h
          obtain rfl := Except.ok.inj h
          exact List.forall_mem_singleton.2 ⟨_, _, _, validateAndBuild_fst hv⟩

/-- `SaveNodeb` sets the record under its name, and otherwise only keys that
index it. -/
theorem saveNodebPairs_shape {id : NbIdentity} {nb : NodebInfo} {pairs : Pairs}
    (h : RNibWriter.saveNodebPairs id nb = .ok pairs) :
    id.inventoryName ≠ "" ∧
      ∃ index, pairs = ⟨.nodebName id.inventoryName, nb⟩ :: index ∧ ∀ p ∈ index, p.1.IsIndex := by
  unfold RNibWriter.saveNodebPairs at h
  split at h
  · cases h
  obtain ⟨name, hname, h⟩ := except_bind_eq_ok.1 h
  obtain ⟨byId, hId, h⟩ := except_bind_eq_ok.1 h
  obtain ⟨pairs₁, henb, hgnb⟩ := except_bind_eq_ok.1 h
  have hn : id.inventoryName ≠ "" ∧ name = ⟨.nodebName id.inventoryName, nb⟩ := by
    unfold validateAndBuild at hname
    split at hname
    · exact ⟨‹_›, (Except.ok.inj hname).symm⟩
    · cases hname
  obtain ⟨hn, rfl⟩ := hn
  have hId' : ∀ p ∈ byId, p.1.IsIndex := by
    intro p hp
    obtain ⟨t, a, b, heq⟩ := nodebId_of_isNotEmpty hId p hp
    rw [heq]
    trivial
  have h₁ : ∃ index, pairs₁ = ⟨.nodebName id.inventoryName, nb⟩ :: byId ++ index ∧
      ∀ p ∈ index, p.1.IsIndex := by
    cases he : nb.getEnb with
    | none => exact ⟨[], by simp_all, by simp⟩
    | some e => exact appendEnbCells_shape (by simpa [he] using henb)
  obtain ⟨index₁, rfl, hindex₁⟩ := h₁
  have h₂ : ∃ index, pairs = ⟨.nodebName id.inventoryName, nb⟩ :: byId ++ index₁ ++ index ∧
      ∀ p ∈ index, p.1.IsIndex := by
    cases hg : nb.getGnb with
    | none => exact ⟨[], by simp_all, by simp⟩
    | some g => exact appendGnbCells_shape (by simpa [hg] using hgnb)
  obtain ⟨index₂, rfl, hindex₂⟩ := h₂
  refine ⟨hn, byId ++ index₁ ++ index₂, by simp, ?_⟩
  simp only [List.mem_append]
  rintro p ((hp | hp) | hp)
  exacts [hId' p hp, hindex₁ p hp, hindex₂ p hp]

/-- **What a successful `SaveNodeb` does:** the record is stored under the name
of the identity, the inventory lists that name, and no instance changes. -/
theorem saveNodeb_ok {id : NbIdentity} {nb : NodebInfo} {s s' : Sdl}
    (h : RNibWriter.saveNodeb id nb s = .ok s') :
    id.inventoryName ≠ "" ∧ s'.nodeb = Function.update s.nodeb id.inventoryName (some nb) ∧
      s'.e2tInstance = s.e2tInstance ∧ s'.e2tAddresses = s.e2tAddresses ∧
      ∀ n, s'.Listed n ↔ s.Listed n ∨ n = id.inventoryName := by
  obtain ⟨pairs, hpairs, h⟩ := except_bind_eq_ok.1 h
  obtain rfl := Except.ok.inj h
  obtain ⟨hn, index, rfl, hindex⟩ := saveNodebPairs_shape hpairs
  have hv := saveNodebMembers_value id nb (s.set (⟨.nodebName id.inventoryName, nb⟩ :: index))
  refine ⟨hn, ?_, ?_, ?_, fun n => listed_saveNodebMembers ..⟩
  · exact (funext fun r => congrFun hv (.nodebName r)).trans (Sdl.nodeb_set_cons s hindex)
  · exact (funext fun a => congrFun hv (.e2tInstance a)).trans (Sdl.e2tInstance_set_cons s hindex)
  · exact (congrFun hv .e2tAddresses).trans (Sdl.e2tAddresses_set_cons s hindex)

/-! ### Well-keyed stores -/

/-- Every record and every instance carries the key it is stored under, and no
key and no listed name is empty. -/
structure Sdl.WellKeyed (s : Sdl) : Prop where
  nodeb : ∀ {r nb}, s.nodeb r = some nb → nb.ranName = r ∧ r ≠ ""
  e2tInstance : ∀ {a i}, s.e2tInstance a = some i → i.address = a ∧ a ≠ ""
  listed : ∀ {r}, s.Listed r → r ≠ ""

/-- In an empty store there is nothing under a wrong key. -/
theorem Sdl.wellKeyed_empty : Sdl.empty.WellKeyed where
  nodeb := nofun
  e2tInstance := nofun
  listed := by rintro r ⟨t, id, hid, -⟩; cases hid

namespace Sdl.WellKeyed

variable {s s' : Sdl} (hs : s.WellKeyed)
include hs

/-- A record with a name that is written goes under that name. -/
theorem putNodeb {nb : NodebInfo} (h : nb.ranName ≠ "") : (s.putNodeb nb).WellKeyed where
  nodeb {r nb'} hr := by
    simp only [nodeb_putNodeb, Function.update_apply] at hr
    split at hr
    · obtain rfl := Option.some.inj hr
      exact ⟨‹r = _›.symm, by simp_all⟩
    · exact hs.nodeb hr
  e2tInstance {a i} ha := hs.e2tInstance (by simpa using ha)
  listed hr := hs.listed hr

/-- A new record that is saved goes under its own name, where the identity given with it has that
name. -/
theorem saveNodeb {id : NbIdentity} {nb : NodebInfo} (hid : id.inventoryName = nb.ranName)
    (h : RNibWriter.saveNodeb id nb s = .ok s') : s'.WellKeyed where
  nodeb {r nb'} hr := by
    obtain ⟨hn, hnodeb, -⟩ := saveNodeb_ok h
    simp only [hnodeb, Function.update_apply] at hr
    split at hr
    · obtain rfl := Option.some.inj hr
      subst r
      exact ⟨hid.symm, hn⟩
    · exact hs.nodeb hr
  e2tInstance {a i} ha := by
    obtain ⟨-, -, hi, -⟩ := saveNodeb_ok h
    exact hs.e2tInstance (hi ▸ ha)
  listed {r} hr := by
    obtain ⟨hn, -, -, -, hlisted⟩ := saveNodeb_ok h
    rcases (hlisted r).1 hr with hr | rfl
    exacts [hs.listed hr, hn]

/-- An instance with an address goes under that address. -/
theorem putInstance {i : E2TInstance} (h : i.address ≠ "") : (s.putInstance i).WellKeyed where
  nodeb {r nb} hr := hs.nodeb (by simpa using hr)
  e2tInstance {a i'} ha := by
    simp only [e2tInstance_putInstance, Function.update_apply] at ha
    split at ha
    · obtain rfl := Option.some.inj ha
      exact ⟨‹a = _›.symm, by simp_all⟩
    · exact hs.e2tInstance ha
  listed hr := hs.listed hr

/-- The list of addresses is under a key of its own. -/
theorem putAddresses (as : List String) : (s.putAddresses as).WellKeyed where
  nodeb {r nb} hr := hs.nodeb (by simpa using hr)
  e2tInstance {a i} ha := hs.e2tInstance (by simpa using ha)
  listed hr := hs.listed hr

/-- Deleting an instance leaves the others where they are. -/
theorem dropInstance (b : String) : (s.dropInstance b).WellKeyed where
  nodeb {r nb} hr := hs.nodeb (by simpa using hr)
  e2tInstance {a i} ha := by
    simp only [e2tInstance_dropInstance, Function.update_apply] at ha
    split at ha
    · cases ha
    · exact hs.e2tInstance ha
  listed hr := hs.listed hr

/-- Reading a record succeeds exactly where one is stored under the name. -/
theorem getNodeb_eq_ok {r : String} {nb : NodebInfo} :
    RNibReader.getNodeb r s = .ok nb ↔ s.nodeb r = some nb := by
  unfold RNibReader.getNodeb
  split
  · subst r
    refine ⟨nofun, fun h => absurd rfl (hs.nodeb h).2⟩
  · cases s.nodeb r <;> simp

/-- Reading an instance succeeds exactly where one is stored under the address. -/
theorem getE2TInstance_eq_ok {a : String} {i : E2TInstance} :
    RNibReader.getE2TInstance a s = .ok i ↔ s.e2tInstance a = some i := by
  unfold RNibReader.getE2TInstance
  split
  · subst a
    refine ⟨nofun, fun h => absurd rfl (hs.e2tInstance h).2⟩
  · cases s.e2tInstance a <;> simp

end Sdl.WellKeyed

/-- A RAN that cannot be read is not stored. -/
theorem getNodeb_eq_notFound {r : String} {s : Sdl}
    (h : RNibReader.getNodeb r s = .error .resourceNotFound) :
    r ≠ "" ∧ s.nodeb r = none := by
  unfold RNibReader.getNodeb at h
  split at h
  · cases h
  · cases hn : s.nodeb r <;> simp_all

/-- An instance that cannot be read is not stored. -/
theorem getE2TInstance_eq_notFound {a : String} {s : Sdl}
    (h : RNibReader.getE2TInstance a s = .error .resourceNotFound) :
    a ≠ "" ∧ s.e2tInstance a = none := by
  unfold RNibReader.getE2TInstance at h
  split at h
  · cases h
  · cases hn : s.e2tInstance a <;> simp_all

end NearRtRic.E2Manager
