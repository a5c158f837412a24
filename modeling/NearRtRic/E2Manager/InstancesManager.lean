/-
# `E2TInstancesManager`

The registry of the E2 terminations, `managers/e2t_instances_manager.go`: the
instances, and beside them the list of their addresses.  The methods that write
hold the manager's mutex from their first line to their return (`withMutex`).

The second half gives each method its specification for a store that does not
fail: what it returns and what the store is afterwards, as an equation of
`Program.Always`, so that a caller's proof never opens the method.
-/

import NearRtRic.E2Manager.Interface

namespace NearRtRic.E2Manager

open Effect

/-- `m.mux.Lock()` and `defer m.mux.Unlock()` around the body of a method. -/
def withMutex {α : Type} (method : MuxMethod) (body : Prog α) : Prog α := do
  Mutex.lock method
  let r ← body
  Mutex.unlock
  return r

namespace E2TInstancesManager

/-- `GetE2TInstance`. -/
def getE2TInstance (e2tAddress : String) : Prog (Except Err E2TInstance) :=
  RNibDataService.getE2TInstance e2tAddress

/-- `GetE2TAddresses`: a list that was never saved is nil. -/
def getE2TAddresses : Prog (Except Err (List String)) := do
  match ← RNibDataService.getE2TAddresses with
  | .ok e2tAddresses => return .ok e2tAddresses
  | .error .resourceNotFound => return .ok []
  | .error _ => return .error .rnibDb

/-- `GetE2TInstances`. -/
def getE2TInstances : Prog (Except Err (List E2TInstance)) := do
  match ← getE2TAddresses with
  | .error _ => return .error .rnibDb
  | .ok [] => return .ok []
  | .ok (a :: as) =>
      match ← RNibDataService.getE2TInstances (a :: as) with
      | .error _ => return .error .rnibDb
      | .ok e2tInstances => return .ok e2tInstances

/-- `GetE2TInstancesNoLogs`: an error of the second read is passed on as it is. -/
def getE2TInstancesNoLogs : Prog (Except Err (List E2TInstance)) := do
  match ← RNibDataService.getE2TAddresses with
  | .error .resourceNotFound => return .ok []
  | .error _ => return .error .rnibDb
  | .ok [] => return .ok []
  | .ok (a :: as) => RNibDataService.getE2TInstances (a :: as)

/-- `math.MaxInt32`. -/
def maxInt32 : Nat := 2 ^ 31 - 1

/-- `findActiveE2TInstanceWithMinimumAssociatedRans`: the first active instance
with the fewest RANs. -/
def findActiveE2TInstanceWithMinimumAssociatedRans (e2tInstances : List E2TInstance) :
    Option E2TInstance :=
  (e2tInstances.foldl (fun (acc : Option E2TInstance × Nat) v =>
    if v.state = .Active ∧ v.associatedRanList.length < acc.2 then
      (some v, v.associatedRanList.length)
    else acc) (none, maxInt32)).1

/-- `SelectE2TInstance`. -/
def selectE2TInstance : Prog (Except Err String) := do
  match ← getE2TInstances with
  | .error e => return .error e
  | .ok e2tInstances =>
      if e2tInstances.isEmpty then return .error .e2tInstanceAbsence
      else
        match findActiveE2TInstanceWithMinimumAssociatedRans e2tInstances with
        | none => return .error .e2tInstanceAbsence
        | some min => return .ok min.address

/-- `AddE2TInstance`: the instance first, then its address at the end of the
list.  It does not look whether either is there. -/
def addE2TInstance (e2tAddress podName : String) : Prog (Except Err Unit) :=
  withMutex (.addE2TInstance e2tAddress) do
    let e2tInstance := newE2TInstance e2tAddress podName (← Time.now)
    match ← RNibDataService.saveE2TInstance e2tInstance with
    | .error err => return .error err
    | .ok () =>
        match ← RNibDataService.getE2TAddresses with
        | .ok e2tAddresses =>
            RNibDataService.saveE2TAddresses (e2tAddresses ++ [e2tInstance.address])
        | .error .resourceNotFound => RNibDataService.saveE2TAddresses [e2tInstance.address]
        | .error err => return .error err

/-- `RemoveRanFromInstance`: every occurrence of the name is filtered out. -/
def removeRanFromInstance (ranName e2tAddress : String) : Prog (Except Err Unit) :=
  withMutex (.removeRanFromInstance ranName e2tAddress) do
    match ← RNibDataService.getE2TInstance e2tAddress with
    | .error _ => return .error .rnibDb
    | .ok e2tInstance =>
        let associatedRanList := e2tInstance.associatedRanList.filter (· ≠ ranName)
        match ← RNibDataService.saveE2TInstance { e2tInstance with associatedRanList } with
        | .error _ => return .error .rnibDb
        | .ok () => return .ok ()

/-- `removeAddressFromList`. -/
def removeAddressFromList (e2tAddresses : List String) (addressToRemove : String) : List String :=
  e2tAddresses.filter (· ≠ addressToRemove)

/-- `RemoveE2TInstance`: the instance first, then its address. -/
def removeE2TInstance (e2tAddress : String) : Prog (Except Err Unit) :=
  withMutex (.removeE2TInstance e2tAddress) do
    match ← RNibDataService.removeE2TInstance e2tAddress with
    | .error _ => return .error .rnibDb
    | .ok () =>
        match ← RNibDataService.getE2TAddresses with
        | .error _ => return .error .rnibDb
        | .ok e2tAddresses =>
            let e2tAddresses := removeAddressFromList e2tAddresses e2tAddress
            match ← RNibDataService.saveE2TAddresses e2tAddresses with
            | .error _ => return .error .rnibDb
            | .ok () => return .ok ()

/-- `AddRansToInstance`: the names go to the end of the list. -/
def addRansToInstance (e2tAddress : String) (ranNames : List String) : Prog (Except Err Unit) :=
  withMutex (.addRansToInstance e2tAddress ranNames) do
    match ← RNibDataService.getE2TInstance e2tAddress with
    | .error _ => return .error .rnibDb
    | .ok e2tInstance =>
        let associatedRanList := e2tInstance.associatedRanList ++ ranNames
        match ← RNibDataService.saveE2TInstance { e2tInstance with associatedRanList } with
        | .error _ => return .error .rnibDb
        | .ok () => return .ok ()

/-- `ResetKeepAliveTimestamp`. -/
def resetKeepAliveTimestamp (e2tAddress : String) : Prog (Except Err Unit) :=
  withMutex (.resetKeepAliveTimestamp e2tAddress) do
    match ← RNibDataService.getE2TInstance e2tAddress with
    | .error err => return .error err
    | .ok e2tInstance =>
        if e2tInstance.state = .ToBeDeleted then return .ok ()
        else
          let keepAliveTimestamp ← Time.now
          RNibDataService.saveE2TInstance { e2tInstance with keepAliveTimestamp }

/-- The loop of `ClearRansOfAllE2TInstances`: a failed save is logged. -/
def clearRans : List E2TInstance → Prog Unit
  | [] => return ()
  | v :: e2tInstances => do
      let _ ← RNibDataService.saveE2TInstance { v with associatedRanList := [] }
      clearRans e2tInstances

/-- `ClearRansOfAllE2TInstances`. -/
def clearRansOfAllE2TInstances : Prog (Except Err Unit) :=
  withMutex .clearRansOfAllE2TInstances do
    match ← getE2TInstances with
    | .error err => return .error err
    | .ok e2tInstances =>
        clearRans e2tInstances
        return .ok ()

end E2TInstancesManager

/-! ### What the methods do to the store -/

namespace Sdl

/-- The stored addresses; nil where none were ever saved. -/
def addresses (s : Sdl) : List String := s.e2tAddresses.getD []

/-- The stored instances, in the order of the addresses. -/
def instances (s : Sdl) : List E2TInstance := s.addresses.filterMap s.e2tInstance

/-- The store after the list of an instance changed by `f`. -/
def updateRans (s : Sdl) (a : String) (f : List String → List String) : Sdl :=
  (s.e2tInstance a).elim s fun i =>
    s.putInstance { i with associatedRanList := f i.associatedRanList }

/-- The store after a new instance was added at time `t`. -/
def register (s : Sdl) (a podName : String) (t : Int64) : Sdl :=
  (s.putInstance (newE2TInstance a podName t)).putAddresses (s.addresses ++ [a])

/-- The store after an instance and its address were removed. -/
def deregister (s : Sdl) (a : String) : Sdl :=
  (s.dropInstance a).putAddresses (E2TInstancesManager.removeAddressFromList s.addresses a)

/-- Writing a record leaves the list of addresses. -/
@[simp] theorem addresses_putNodeb (s : Sdl) (nb : NodebInfo) :
    (s.putNodeb nb).addresses = s.addresses := by simp [addresses]

/-- Writing an instance leaves it as well. -/
@[simp] theorem addresses_putInstance (s : Sdl) (i : E2TInstance) :
    (s.putInstance i).addresses = s.addresses := by simp [addresses]

/-- The list of addresses is the one that was written last. -/
@[simp] theorem addresses_putAddresses (s : Sdl) (as : List String) :
    (s.putAddresses as).addresses = as := by simp [addresses]

/-- Deleting an instance leaves the list: its address is removed by a write of its own. -/
@[simp] theorem addresses_dropInstance (s : Sdl) (a : String) :
    (s.dropInstance a).addresses = s.addresses := by simp [addresses]

/-- A change of the RANs of an instance leaves the records. -/
@[simp] theorem nodeb_updateRans (s : Sdl) (a : String) (f : List String → List String) :
    (s.updateRans a f).nodeb = s.nodeb := by
  unfold updateRans
  cases s.e2tInstance a <;> simp

/-- It leaves what is stored of the addresses. -/
@[simp] theorem e2tAddresses_updateRans (s : Sdl) (a : String) (f : List String → List String) :
    (s.updateRans a f).e2tAddresses = s.e2tAddresses := by
  unfold updateRans
  cases s.e2tInstance a <;> simp

/-- It leaves the list of addresses, a missing one counting as empty. -/
@[simp] theorem addresses_updateRans (s : Sdl) (a : String) (f : List String → List String) :
    (s.updateRans a f).addresses = s.addresses := by simp [addresses]

/-- It leaves the lists of RANs. -/
@[simp] theorem members_updateRans (s : Sdl) (a : String) (f : List String → List String) :
    (s.updateRans a f).members = s.members := by
  unfold updateRans
  cases s.e2tInstance a <;> simp

/-- Under the address of the instance is the same instance with the other RANs, and the rest is as
it was: instances are stored under their own addresses. -/
theorem WellKeyed.e2tInstance_updateRans {s : Sdl} (hs : s.WellKeyed) (a : String)
    (f : List String → List String) :
    (s.updateRans a f).e2tInstance = Function.update s.e2tInstance a
      ((s.e2tInstance a).map fun i => { i with associatedRanList := f i.associatedRanList }) := by
  unfold updateRans
  cases ha : s.e2tInstance a with
  | none => rw [Option.map_none, ← ha, Function.update_eq_self, ha, Option.elim_none]
  | some i => simp [(hs.e2tInstance ha).1]

/-- The instances are still under their own addresses afterwards. -/
theorem WellKeyed.updateRans {s : Sdl} (hs : s.WellKeyed) (a : String)
    (f : List String → List String) : (s.updateRans a f).WellKeyed := by
  unfold Sdl.updateRans
  cases ha : s.e2tInstance a with
  | none => exact hs
  | some i => exact hs.putInstance (by simpa using (hs.e2tInstance ha).1 ▸ (hs.e2tInstance ha).2)

/-- A new instance is stored under its own address. -/
theorem WellKeyed.register {s : Sdl} (hs : s.WellKeyed) {a : String} (ha : a ≠ "")
    (podName : String) (t : Int64) : (s.register a podName t).WellKeyed :=
  (hs.putInstance ha).putAddresses _

/-- The instances that a read finds have the addresses it asked for. -/
theorem WellKeyed.map_address_sublist {s : Sdl} (hs : s.WellKeyed) (as : List String) :
    ((as.filterMap s.e2tInstance).map (·.address)).Sublist as := by
  induction as with
  | nil => exact .slnil
  | cons a as ih =>
      rw [List.filterMap_cons]
      cases ha : s.e2tInstance a with
      | none => exact ih.cons a
      | some i =>
          rw [List.map_cons, (hs.e2tInstance ha).1]
          exact ih.cons_cons a

/-- Removing an instance and its address leaves the others under theirs. -/
theorem WellKeyed.deregister {s : Sdl} (hs : s.WellKeyed) (a : String) :
    (s.deregister a).WellKeyed := (hs.dropInstance a).putAddresses _

end Sdl

namespace E2TInstancesManager

section Spec

variable {b : Bool} {P : Sdl → Prop} {s : Sdl}

/-- What is always true of a body is always true of it under the mutex, and the other way round. -/
@[simp] theorem always_withMutex {α : Type} (m : MuxMethod) (body : Prog α)
    (Q : α → Sdl → Prop) :
    (withMutex m body).Always exec (Admits b) P Q s ↔ body.Always exec (Admits b) P Q s := by
  simp [withMutex]

/-- The manager reads an instance as the store has it. -/
@[simp] theorem always_getE2TInstance (a : String) (Q : Except Err E2TInstance → Sdl → Prop) :
    (getE2TInstance a).Always exec (Admits b) P Q s ↔ Q (RNibReader.getE2TInstance a s) s := by
  simp [getE2TInstance]

/-- The manager reads the list of addresses, and takes a missing one for empty. -/
@[simp] theorem always_getE2TAddresses (Q : Except Err (List String) → Sdl → Prop) :
    getE2TAddresses.Always exec (Admits b) P Q s ↔ Q (.ok s.addresses) s := by
  cases h : s.e2tAddresses <;>
    simp [getE2TAddresses, RNibReader.getE2TAddresses, Sdl.addresses, h]

/-- The manager reads the instances of the addresses that it finds. -/
@[simp] theorem always_getE2TInstances (Q : Except Err (List E2TInstance) → Sdl → Prop) :
    getE2TInstances.Always exec (Admits b) P Q s ↔ Q (.ok s.instances) s := by
  cases h : s.addresses <;>
    simp [getE2TInstances, RNibReader.getE2TInstances, Sdl.instances, h]

/-- So does the operation that the worker calls. -/
@[simp] theorem always_getE2TInstancesNoLogs (Q : Except Err (List E2TInstance) → Sdl → Prop) :
    getE2TInstancesNoLogs.Always exec (Admits b) P Q s ↔ Q (.ok s.instances) s := by
  cases h : s.e2tAddresses with
  | none => simp [getE2TInstancesNoLogs, RNibReader.getE2TAddresses, Sdl.instances,
      Sdl.addresses, h]
  | some as =>
      cases as <;> simp [getE2TInstancesNoLogs, RNibReader.getE2TAddresses,
        RNibReader.getE2TInstances, Sdl.instances, Sdl.addresses, h]

/-- Registering an instance always succeeds, with the time that the clock shows then. -/
theorem always_addE2TInstance {a : String} (ha : a ≠ "") (podName : String)
    (Q : Except Err Unit → Sdl → Prop) :
    (addE2TInstance a podName).Always exec (Admits b) P Q s ↔
      ∀ t, Q (.ok ()) (s.register a podName t) := by
  cases h : s.e2tAddresses <;>
    simp [addE2TInstance, RNibDataService.always_saveE2TInstance, ha, RNibReader.getE2TAddresses,
      Sdl.register, Sdl.addresses, h]

/-- The answer of a method that first reads an instance: its own error unless
the instance is stored. -/
def foundOrDbError (s : Sdl) (a : String) : Except Err Unit :=
  if (s.e2tInstance a).isSome then .ok () else .error .rnibDb

/-- Both methods that rewrite the list of one stored instance. -/
theorem always_updateRans (hs : s.WellKeyed) (a : String) (f : List String → List String)
    (Q : Except Err Unit → Sdl → Prop) :
    (do
      match ← RNibDataService.getE2TInstance a with
      | .error _ => return .error .rnibDb
      | .ok e2tInstance =>
          let associatedRanList := f e2tInstance.associatedRanList
          match ← RNibDataService.saveE2TInstance { e2tInstance with associatedRanList } with
          | .error _ => return .error .rnibDb
          | .ok () => return .ok () : Prog (Except Err Unit)).Always exec (Admits b) P Q s ↔
      Q (foundOrDbError s a) (s.updateRans a f) := by
  cases ha : s.e2tInstance a with
  | none =>
      have hget : ∃ e, RNibReader.getE2TInstance a s = .error e := by
        unfold RNibReader.getE2TInstance
        split
        · exact ⟨_, rfl⟩
        · exact ⟨_, by rw [ha]; rfl⟩
      obtain ⟨e, he⟩ := hget
      simp [he, foundOrDbError, Sdl.updateRans, ha]
  | some i =>
      have hget := hs.getE2TInstance_eq_ok.2 ha
      have hi : i.address ≠ "" := (hs.e2tInstance ha).1 ▸ (hs.e2tInstance ha).2
      simp [hget, foundOrDbError, Sdl.updateRans, ha, RNibDataService.always_saveE2TInstance, hi]

/-- Taking a RAN from the list of an instance that is stored succeeds, and fails with a database
error otherwise. -/
theorem always_removeRanFromInstance (hs : s.WellKeyed) (r a : String)
    (Q : Except Err Unit → Sdl → Prop) :
    (removeRanFromInstance r a).Always exec (Admits b) P Q s ↔
      Q (foundOrDbError s a) (s.updateRans a (·.filter (· ≠ r))) :=
  (always_withMutex ..).trans (always_updateRans hs a (·.filter (· ≠ r)) Q)

/-- The same of putting RANs on the list. -/
theorem always_addRansToInstance (hs : s.WellKeyed) (a : String) (ranNames : List String)
    (Q : Except Err Unit → Sdl → Prop) :
    (addRansToInstance a ranNames).Always exec (Admits b) P Q s ↔
      Q (foundOrDbError s a) (s.updateRans a (· ++ ranNames)) :=
  (always_withMutex ..).trans (always_updateRans hs a (· ++ ranNames) Q)

/-- Removing an instance where there is a list of addresses. -/
theorem always_removeE2TInstance {a : String} (ha : a ≠ "") {as : List String}
    (has : s.e2tAddresses = some as) (Q : Except Err Unit → Sdl → Prop) :
    (removeE2TInstance a).Always exec (Admits b) P Q s ↔ Q (.ok ()) (s.deregister a) := by
  simp [removeE2TInstance, RNibDataService.always_removeE2TInstance, ha,
    RNibReader.getE2TAddresses, has, Sdl.deregister, Sdl.addresses]

/-- An instance with no RAN. -/
def withoutRans (v : E2TInstance) : E2TInstance := { v with associatedRanList := [] }

/-- An instance keeps its address when its RANs are cleared. -/
@[simp] theorem withoutRans_address (v : E2TInstance) : (withoutRans v).address = v.address := by
  simp only [withoutRans]

/-- Clearing the RANs twice is clearing them once. -/
@[simp] theorem withoutRans_comp : withoutRans ∘ withoutRans = withoutRans := rfl

/-- The store after the lists of some instances were emptied. -/
def cleared (e2tInstances : List E2TInstance) (s : Sdl) : Sdl :=
  e2tInstances.foldl (fun s v => s.putInstance (withoutRans v)) s

/-- Clearing the RANs of instances leaves the records. -/
@[simp] theorem nodeb_cleared (is : List E2TInstance) : (cleared is s).nodeb = s.nodeb := by
  induction is generalizing s with
  | nil => rfl
  | cons v is ih => exact ih.trans (Sdl.nodeb_putInstance ..)

/-- Where the instances are as they are stored, each of them loses its RANs. -/
theorem e2tInstance_cleared {is : List E2TInstance}
    (his : ∀ i ∈ is, (s.e2tInstance i.address).map withoutRans = some (withoutRans i))
    (a : String) : (cleared is s).e2tInstance a =
      if a ∈ is.map (·.address) then (s.e2tInstance a).map withoutRans else s.e2tInstance a := by
  induction is generalizing s with
  | nil => rfl
  | cons v is ih =>
      have hv := his v (List.mem_cons_self ..)
      have hput : ∀ b, (s.putInstance (withoutRans v)).e2tInstance b =
          if b = v.address then (s.e2tInstance b).map withoutRans else s.e2tInstance b := by
        intro b
        rw [Sdl.e2tInstance_putInstance, withoutRans_address, Function.update_apply]
        split
        · rename_i hb
          rw [hb, hv]
        · rfl
      have hrest : (cleared is (s.putInstance (withoutRans v))).e2tInstance a = _ :=
        ih fun i hi => by
          have := his i (List.mem_cons_of_mem _ hi)
          rw [hput]
          split <;> simpa [withoutRans] using this
      rw [show cleared (v :: is) s = cleared is (s.putInstance (withoutRans v)) from rfl, hrest,
        hput]
      by_cases ha : a = v.address <;> simp [ha]

/-- Clearing some instances that have addresses. -/
theorem always_clearRans {is : List E2TInstance} (his : ∀ i ∈ is, i.address ≠ "")
    (Q : Unit → Sdl → Prop) :
    (clearRans is).Always exec (Admits b) P Q s ↔ Q () (cleared is s) := by
  induction is generalizing s with
  | nil => rfl
  | cons v is ih =>
      have hv : v.address ≠ "" := his v (List.mem_cons_self ..)
      have his' : ∀ i ∈ is, i.address ≠ "" := fun i hi => his i (List.mem_cons_of_mem _ hi)
      simp [clearRans, RNibDataService.always_saveE2TInstance, hv, ih his', cleared, withoutRans]

/-- Clearing all instances that are stored. -/
theorem always_clearRansOfAllE2TInstances (hs : s.WellKeyed) (Q : Except Err Unit → Sdl → Prop) :
    clearRansOfAllE2TInstances.Always exec (Admits b) P Q s ↔
      Q (.ok ()) (cleared s.instances s) := by
  have his : ∀ i ∈ s.instances, i.address ≠ "" := by
    intro i hi
    obtain ⟨a, -, ha⟩ := List.mem_filterMap.1 hi
    exact (hs.e2tInstance ha).1 ▸ (hs.e2tInstance ha).2
  simp [clearRansOfAllE2TInstances, always_clearRans his]

end Spec

end E2TInstancesManager

end NearRtRic.E2Manager
