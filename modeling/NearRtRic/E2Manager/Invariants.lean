/-
# The invariants of the store

`Sound` is what every handler keeps, whatever the routing manager and RMR
answer: keys are in order, the list of addresses is that of the stored
instances, a RAN on its way out belongs to no instance, and the inventory lists
every stored RAN.  The lemmas follow the updates of
`NearRtRic.E2Manager.Effects`, one for each.
-/

import NearRtRic.E2Manager.Effects

namespace NearRtRic.E2Manager

open Effect

/-- What holds of the store between any two handlers. -/
structure Sound (s : Sdl) : Prop where
  wellKeyed : s.WellKeyed
  /-- No address is listed twice. -/
  nodup : s.addresses.Nodup
  /-- The listed addresses are those of the stored instances. -/
  mem_addresses : ∀ a, a ∈ s.addresses ↔ (s.e2tInstance a).isSome
  /-- A RAN that is shutting down or shut down has no association. -/
  down : ∀ {r nb}, s.nodeb r = some nb → nb.connectionStatus.Down →
    nb.associatedE2TInstanceAddress = ""
  /-- The inventory lists every stored RAN. -/
  listed : ∀ {r nb}, s.nodeb r = some nb → s.Listed r

/-- The empty store is sound. -/
theorem sound_empty : Sound Sdl.empty where
  wellKeyed := Sdl.wellKeyed_empty
  nodup := List.nodup_nil
  mem_addresses _ := ⟨nofun, nofun⟩
  down := nofun
  listed := nofun

namespace Sound

variable {s s' : Sdl} (hs : Sound s)
include hs

/-- A stored instance is listed, so there is a list. -/
theorem exists_addresses {a : String} (ha : (s.e2tInstance a).isSome) :
    ∃ as, s.e2tAddresses = some as := by
  cases h : s.e2tAddresses with
  | some as => exact ⟨as, rfl⟩
  | none => exact absurd ((hs.mem_addresses a).2 ha) (by simp [Sdl.addresses, h])

/-- Writing a record of a stored RAN. -/
theorem putNodeb {nb nb' : NodebInfo} (hr : s.nodeb nb'.ranName = some nb)
    (hdown : nb'.connectionStatus.Down → nb'.associatedE2TInstanceAddress = "") :
    Sound (s.putNodeb nb') where
  wellKeyed := hs.wellKeyed.putNodeb (hs.wellKeyed.nodeb hr).2
  nodup := by simpa using hs.nodup
  mem_addresses a := by simpa using hs.mem_addresses a
  down {r nb₁} h := by
    simp only [Sdl.nodeb_putNodeb, Function.update_apply] at h
    split at h
    · obtain rfl := Option.some.inj h
      exact hdown
    · exact hs.down h
  listed {r nb₁} h := by
    simp only [Sdl.nodeb_putNodeb, Function.update_apply] at h
    split at h
    · subst r
      exact hs.listed hr
    · exact hs.listed h

/-- Saving a record under an identity. -/
theorem saveNodeb {id : NbIdentity} {nb : NodebInfo} (hid : id.inventoryName = nb.ranName)
    (hdown : nb.connectionStatus.Down → nb.associatedE2TInstanceAddress = "")
    (h : RNibWriter.saveNodeb id nb s = .ok s') : Sound s' := by
  obtain ⟨hn, hnodeb, hinst, haddr, hlist⟩ := saveNodeb_ok h
  have hadd : s'.addresses = s.addresses := by simp [Sdl.addresses, haddr]
  refine ⟨hs.wellKeyed.saveNodeb hid h, hadd ▸ hs.nodup, fun a => ?_, fun {r nb₁} hr => ?_,
    fun {r nb₁} hr => (hlist r).2 ?_⟩
  · rw [hadd, hinst]
    exact hs.mem_addresses a
  · rw [hnodeb, Function.update_apply] at hr
    split at hr
    · obtain rfl := Option.some.inj hr
      exact hdown
    · exact hs.down hr
  · rw [hnodeb, Function.update_apply] at hr
    split at hr
    · exact .inr ‹_›
    · exact .inl (hs.listed hr)

/-- Writing a stored instance again. -/
theorem putInstance {i i' : E2TInstance} (hi : s.e2tInstance i'.address = some i) :
    Sound (s.putInstance i') where
  wellKeyed := hs.wellKeyed.putInstance (hs.wellKeyed.e2tInstance hi).2
  nodup := by simpa using hs.nodup
  mem_addresses a := by
    by_cases ha : a = i'.address
    · subst ha
      simp [hs.mem_addresses, hi]
    · simp [ha, hs.mem_addresses]
  down {r nb} h := hs.down (by simpa using h)
  listed {r nb} h := hs.listed (by simpa using h)

/-- Changing an instance's list of RANs keeps the store sound. -/
theorem updateRans (a : String) (f : List String → List String) : Sound (s.updateRans a f) := by
  unfold Sdl.updateRans
  cases ha : s.e2tInstance a with
  | none => exact hs
  | some i =>
      refine hs.putInstance (show _ = some i from ?_)
      rw [← ha, ← (hs.wellKeyed.e2tInstance ha).1]

/-- Adding an instance under an address that has none keeps the store sound. -/
theorem register {a : String} (hne : a ≠ "") (ha : s.e2tInstance a = none) (podName : String)
    (t : Int64) : Sound (s.register a podName t) where
  wellKeyed := hs.wellKeyed.register hne podName t
  nodup := by
    have hnot : a ∉ s.addresses := by simp [hs.mem_addresses, ha]
    simp only [Sdl.register, Sdl.addresses_putAddresses]
    exact List.nodup_append.2 ⟨hs.nodup, by simp, by
      rintro x hx y hy rfl
      exact hnot (List.mem_singleton.1 hy ▸ hx)⟩
  mem_addresses b := by
    by_cases hb : b = a
    · subst hb
      simp [Sdl.register]
    · simp [Sdl.register, hb, hs.mem_addresses]
  down {r nb} h := hs.down (by simpa [Sdl.register] using h)
  listed {r nb} h := hs.listed (by simpa [Sdl.register] using h)

/-- Removing an instance keeps the store sound: its address leaves the list with it. -/
theorem deregister (a : String) : Sound (s.deregister a) where
  wellKeyed := hs.wellKeyed.deregister a
  nodup := by
    simp only [Sdl.deregister, Sdl.addresses_putAddresses]
    exact hs.nodup.filter _
  mem_addresses b := by
    by_cases hb : b = a
    · subst hb
      simp [Sdl.deregister, E2TInstancesManager.removeAddressFromList]
    · simp [Sdl.deregister, E2TInstancesManager.removeAddressFromList, hb, hs.mem_addresses]
  down {r nb} h := hs.down (by simpa [Sdl.deregister] using h)
  listed {r nb} h := hs.listed (by simpa [Sdl.deregister] using h)

/-- A record that `AssociateRan` writes is connected or disconnected. -/
theorem associate {a : String} {nb nb₀ : NodebInfo} (hr : s.nodeb nb.ranName = some nb₀)
    (up : Bool) : Sound (E2TAssociationManager.associate a nb up s) := by
  have hput : Sound (s.putNodeb (E2TAssociationManager.associated a nb
      (answer up .routingManager))) := by
    refine hs.putNodeb (show _ = some nb₀ by simpa using hr) ?_
    cases up <;> simp [answer, E2TAssociationManager.associated, ConnectionStatus.Down]
  cases up with
  | false => exact hput
  | true => exact hput.updateRans a (· ++ [nb.ranName])

/-- A move of the association keeps the store sound. -/
theorem ranMove {b : Bool} {C : NodebInfo → Prop} {r : String} (h : RanMove b C r s s') :
    Sound s' := by
  cases h with
  | create hr ha hid hnb hassoc hst hsave hup =>
      have hs₁ := hs.saveNodeb (hid.trans hnb.symm) (fun h => absurd h hst) hsave
      have hnodeb := (saveNodeb_ok hsave).2.1
      exact hs₁.associate (by rw [hnodeb, hid, hnb, Function.update_self]) _
  | associate hr hst hC ha hnb hup =>
      exact hs.associate (by rwa [hnb.ranName, (hs.wellKeyed.nodeb hr).1]) _
  | restatus hr hst hnb hst' =>
      refine hs.putNodeb (by rwa [hnb.ranName, (hs.wellKeyed.nodeb hr).1]) fun hdown => ?_
      rcases hst' with hst' | hst'
      · exact absurd hdown hst'
      · rw [hnb.association]
        exact hs.down hr (hst' ▸ hdown)
  | resave hr hst hnb hst' hid hsave =>
      exact hs.saveNodeb (hid.trans (hnb.ranName.trans (hs.wellKeyed.nodeb hr).1).symm)
        (fun h => absurd h hst') hsave

/-- So do several. -/
theorem ranMoves {b : Bool} {C : NodebInfo → Prop} {r : String} (h : RanMoves b C r s s') :
    Sound s' := by
  induction h with
  | refl => exact hs
  | tail _ hm ih => exact ih.ranMove hm

/-- Disconnecting a RAN keeps the store sound. -/
theorem disconnect (r : String) : Sound (RanDisconnectionManager.disconnect r s) := by
  unfold RanDisconnectionManager.disconnect
  split
  · exact hs
  rename_i nb hr
  have hname : s.nodeb nb.ranName = some nb := by rwa [(hs.wellKeyed.nodeb hr).1]
  split
  · exact hs
  · rename_i hst
    exact hs.putNodeb (by simpa using hname) fun _ => by
      simpa using hs.down hr (.inl hst)
  · have hput : Sound (s.putNodeb (nb.setStatus .DISCONNECTED)) :=
      hs.putNodeb (by simpa using hname) (by simp [ConnectionStatus.Down])
    refine Sound.updateRans (hput.putNodeb (show _ = some (nb.setStatus .DISCONNECTED) from ?_) ?_)
      _ _
    · simp
    · simp [ConnectionStatus.Down]

/-- Disconnecting a list of RANs keeps the store sound. -/
theorem disconnectAll (rs : List String) : Sound (RanDisconnectionManager.disconnectAll rs s) := by
  induction rs generalizing s with
  | nil => exact hs
  | cons r rs ih => exact ih (hs.disconnect r)

/-- Clearing the association of a list of RANs keeps the store sound. -/
theorem clearAssociation (rs : List String) :
    Sound (E2TShutdownManager.clearAssociation rs s).2 := by
  induction rs generalizing s with
  | nil => exact hs
  | cons r rs ih =>
      unfold E2TShutdownManager.clearAssociation
      split
      · rename_i nb hr
        refine ih (hs.putNodeb (show _ = some nb from ?_) ?_)
        · rwa [E2TShutdownManager.disassociated_ranName, (hs.wellKeyed.nodeb hr).1]
        · simp [E2TShutdownManager.disassociated]
      · split
        · exact ih hs
        · exact hs

/-- Taking a whole termination down keeps the store sound. -/
theorem shutdown {a : String} {i : E2TInstance} (hi : s.e2tInstance a = some i) (now : Int64) :
    Sound (E2TShutdownManager.down i now s) := by
  have ha : i.address = a := (hs.wellKeyed.e2tInstance hi).1
  have hmark : Sound (s.putInstance (E2TShutdownManager.marked i now)) :=
    hs.putInstance (show _ = some i by simpa [ha] using hi)
  have hclear := hmark.clearAssociation i.associatedRanList
  unfold E2TShutdownManager.down
  split
  · rename_i heq
    rwa [heq] at hclear
  · rename_i heq
    rw [heq] at hclear
    exact hclear.deregister _

/-- A sweep that leaves no association on a RAN that is on its way out. -/
theorem swept {f : DeleteAllRequestHandler.Sweep} (hf : f.Lawful)
    (hdown : ∀ {r nb}, s.nodeb r = some nb → (f.apply nb).connectionStatus.Down →
      (f.apply nb).associatedE2TInstanceAddress = "") (rs : List String) (wrote : Bool) :
    Sound (DeleteAllRequestHandler.swept f rs s wrote).1 where
  wellKeyed := DeleteAllRequestHandler.wellKeyed_swept hf hs.wellKeyed rs wrote
  nodup := by simpa [Sdl.addresses] using hs.nodup
  mem_addresses a := by simpa [Sdl.addresses] using hs.mem_addresses a
  down {r nb} h := by
    rw [DeleteAllRequestHandler.nodeb_swept hf hs.wellKeyed] at h
    split at h
    · obtain ⟨nb₀, h₀, rfl⟩ := Option.map_eq_some_iff.1 h
      exact hdown h₀
    · exact hs.down h
  listed {r nb} h := by
    rw [DeleteAllRequestHandler.nodeb_swept hf hs.wellKeyed] at h
    simp only [Sdl.Listed, DeleteAllRequestHandler.members_swept]
    split at h
    · obtain ⟨nb₀, h₀, -⟩ := Option.map_eq_some_iff.1 h
      exact hs.listed h₀
    · exact hs.listed h

/-- The sweep to SHUT_DOWN leaves no association. -/
theorem forceShutdown (rs : List String) (wrote : Bool) :
    Sound (DeleteAllRequestHandler.swept DeleteAllRequestHandler.forceShutdown rs s wrote).1 :=
  hs.swept DeleteAllRequestHandler.forceShutdown_lawful (fun _ _ => by
    simp [DeleteAllRequestHandler.Sweep.apply, DeleteAllRequestHandler.forceShutdown,
      DeleteAllRequestHandler.updated]) rs wrote

/-- The sweep to SHUTTING_DOWN leaves no association: it clears the one of every
RAN but those that are shut down, which have none. -/
theorem shuttingDown (rs : List String) (wrote : Bool) :
    Sound (DeleteAllRequestHandler.swept DeleteAllRequestHandler.shuttingDown rs s wrote).1 := by
  refine hs.swept DeleteAllRequestHandler.shuttingDown_lawful (fun {r nb} hr hdown => ?_) rs wrote
  by_cases hst : nb.connectionStatus = .SHUT_DOWN
  · have happ :
        DeleteAllRequestHandler.Sweep.apply DeleteAllRequestHandler.shuttingDown nb = nb := by
      simp [DeleteAllRequestHandler.Sweep.apply, DeleteAllRequestHandler.shuttingDown, hst]
    rw [happ]
    exact hs.down hr (.inr hst)
  · simp [DeleteAllRequestHandler.Sweep.apply, DeleteAllRequestHandler.shuttingDown, hst,
      DeleteAllRequestHandler.updated]

/-- The second sweep takes only RANs that are shutting down, and these have no
association. -/
theorem shutDown (rs : List String) (wrote : Bool) :
    Sound (DeleteAllRequestHandler.swept DeleteAllRequestHandler.shutDown rs s wrote).1 := by
  refine hs.swept DeleteAllRequestHandler.shutDown_lawful (fun {r nb} hr hdown => ?_) rs wrote
  by_cases hst : nb.connectionStatus = .SHUTTING_DOWN
  · simpa [DeleteAllRequestHandler.Sweep.apply, DeleteAllRequestHandler.shutDown, hst,
      DeleteAllRequestHandler.updated] using hs.down hr (.inl hst)
  · have happ : DeleteAllRequestHandler.Sweep.apply DeleteAllRequestHandler.shutDown nb = nb := by
      simp [DeleteAllRequestHandler.Sweep.apply, DeleteAllRequestHandler.shutDown, hst]
    rw [happ] at hdown ⊢
    exact hs.down hr hdown

/-- Emptying the lists of stored instances. -/
theorem cleared {is : List E2TInstance} (his : ∀ i ∈ is, (s.e2tInstance i.address).isSome) :
    Sound (E2TInstancesManager.cleared is s) := by
  induction is generalizing s with
  | nil => exact hs
  | cons i is ih =>
      obtain ⟨i₀, hi₀⟩ := Option.isSome_iff_exists.1 (his i (List.mem_cons_self ..))
      refine ih (hs.putInstance (show _ = some i₀ from hi₀)) fun j hj => ?_
      have := his j (List.mem_cons_of_mem _ hj)
      by_cases hij : j.address = i.address <;> simp [hij, this]

/-- In a sound store every listed instance is stored under its own address. -/
theorem instances_stored : ∀ i ∈ s.instances, (s.e2tInstance i.address).isSome := by
  intro i hi
  obtain ⟨a, -, ha⟩ := List.mem_filterMap.1 hi
  rw [(hs.wellKeyed.e2tInstance ha).1, ha]
  rfl

end Sound

/-- In a sound store the clearing reaches every instance. -/
theorem e2tInstance_clearedAll {s : Sdl} (hs : Sound s) (a : String) :
    (E2TInstancesManager.cleared s.instances s).e2tInstance a =
      (s.e2tInstance a).map E2TInstancesManager.withoutRans := by
  have hstored : ∀ i ∈ s.instances, s.e2tInstance i.address = some i := by
    intro i hi
    obtain ⟨b, -, hb⟩ := List.mem_filterMap.1 hi
    rw [(hs.wellKeyed.e2tInstance hb).1, hb]
  rw [E2TInstancesManager.e2tInstance_cleared fun i hi => by rw [hstored i hi, Option.map_some]]
  split
  · rfl
  · rename_i hnot
    cases ha : s.e2tInstance a with
    | none => rfl
    | some i =>
        have hmem : a ∈ s.addresses := (hs.mem_addresses a).2 (by rw [ha]; rfl)
        have hi : i ∈ s.instances := List.mem_filterMap.2 ⟨a, hmem, ha⟩
        exact absurd (List.mem_map.2 ⟨i, hi, (hs.wellKeyed.e2tInstance ha).1⟩) hnot

end NearRtRic.E2Manager
