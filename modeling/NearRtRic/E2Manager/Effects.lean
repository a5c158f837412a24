/-
# What the handlers do to the store

For a store that does not fail, each manager function and each handler has one
specification here: for every answer of the routing manager, of RMR and of the
clock, the result it returns and the store it leaves, written with the pure
updates of `NearRtRic.E2Manager.Rnib` and `NearRtRic.E2Manager.InstancesManager`.
The invariants of the following modules are proved about these updates and never
open a handler.
-/

import NearRtRic.E2Manager.DeleteAll
import Mathlib.Logic.Relation

namespace NearRtRic.E2Manager

open Effect

variable {b : Bool} {P : Sdl → Prop} {s : Sdl}

/-- What does not depend on the routing manager's answer. -/
theorem forall_admitted {p : Prop} : (∀ up : Bool, (b = false → up = true) → p) ↔ p :=
  ⟨fun h => h true fun _ => rfl, fun h _ _ => h⟩

/-- A record that is stored is read. -/
theorem getNodeb_of_some (hs : s.WellKeyed) {r : String} {nb : NodebInfo}
    (h : s.nodeb r = some nb) : RNibReader.getNodeb r s = .ok nb := hs.getNodeb_eq_ok.2 h

/-- Reading a name under which nothing is stored says so. -/
theorem getNodeb_of_none {r : String} (h : s.nodeb r = none) (hr : r ≠ "") :
    RNibReader.getNodeb r s = .error .resourceNotFound := by
  simp [RNibReader.getNodeb, h, hr]

/-- The empty name is refused, which is another error. -/
theorem getNodeb_empty : RNibReader.getNodeb "" s = .error .validation := rfl

/-- The record of a RAN that is stored has a name. -/
theorem Sdl.WellKeyed.ranName_ne {r : String} {nb : NodebInfo} (hs : s.WellKeyed)
    (h : s.nodeb r = some nb) : nb.ranName ≠ "" := (hs.nodeb h).1 ▸ (hs.nodeb h).2

/-- An instance that is stored has an address. -/
theorem Sdl.WellKeyed.address_ne {a : String} {i : E2TInstance} (hs : s.WellKeyed)
    (h : s.e2tInstance a = some i) : i.address ≠ "" := (hs.e2tInstance h).1 ▸ (hs.e2tInstance h).2

/-! ### Association -/

namespace E2TAssociationManager

/-- Associating a RAN leaves its name. -/
@[simp] theorem associated_ranName (a : String) (nb : NodebInfo) (e : Except Err Unit) :
    (associated a nb e).ranName = nb.ranName := by
  cases e <;> simp [associated]

/-- The store after `AssociateRan`, given the answer of the routing manager. -/
def associate (a : String) (nb : NodebInfo) (up : Bool) (s : Sdl) : Sdl :=
  let s := s.putNodeb (associated a nb (answer up .routingManager))
  if up then s.updateRans a (· ++ [nb.ranName]) else s

/-- After `AssociateRan` records and instances are still under their own keys. -/
theorem wellKeyed_associate (hs : s.WellKeyed) (a : String) {nb : NodebInfo}
    (hnb : nb.ranName ≠ "") (up : Bool) : (associate a nb up s).WellKeyed := by
  have hput : (s.putNodeb (associated a nb (answer up .routingManager))).WellKeyed :=
    hs.putNodeb (by simpa using hnb)
  cases up
  · exact hput
  · exact hput.updateRans a (· ++ [nb.ranName])

/-- What `AssociateRan` returns. -/
def associateResult (a : String) (up : Bool) (s : Sdl) : Except Err Unit :=
  if up then E2TInstancesManager.foundOrDbError s a else .error .routingManager

/-- **What `AssociateRan` does**: the routing manager agrees or not, and the record, the list and
the result follow from its answer. -/
theorem always_associateRan (hs : s.WellKeyed) (a : String) {nb : NodebInfo}
    (hnb : nb.ranName ≠ "") (Q : NodebInfo × Except Err Unit → Sdl → Prop) :
    (associateRan a nb).Always exec (Admits b) P Q s ↔
      ∀ up, (b = false → up = true) →
        Q (associated a nb (answer up .routingManager), associateResult a up s)
          (associate a nb up s) := by
  have hput : ∀ e, (associated a nb e).ranName ≠ "" := fun e => by simpa using hnb
  have hs' : ∀ e, (s.putNodeb (associated a nb e)).WellKeyed := fun e => hs.putNodeb (hput e)
  simp only [associateRan, associateRanAndUpdateNodeb, bind_assoc, Program.always_bind,
    RoutingManagerClient.always_associateRan, RNibDataService.always_updateNodebInfo (hput _)]
  refine forall₂_congr fun up _ => ?_
  cases up with
  | false => simp [answer, associate, associateResult]
  | true =>
      cases hi : s.e2tInstance a <;>
        simp [answer, associate, associateResult, E2TInstancesManager.always_addRansToInstance,
          hs', E2TInstancesManager.foundOrDbError, hi]

/-- The store after `DissociateRan` of a stored RAN. -/
def dissociate (a : String) (nb : NodebInfo) (s : Sdl) : Sdl :=
  (s.putNodeb (nb.setAssociation "")).updateRans a (·.filter (· ≠ nb.ranName))

/-- **What `DissociateRan` does** to a RAN that is stored, whatever the routing manager answers. -/
theorem always_dissociateRan (hs : s.WellKeyed) (a : String) {nb : NodebInfo}
    (hr : s.nodeb nb.ranName = some nb) (Q : Except Err Unit → Sdl → Prop) :
    (dissociateRan a nb.ranName).Always exec (Admits b) P Q s ↔
      Q (E2TInstancesManager.foundOrDbError s a) (dissociate a nb s) := by
  have hput : (nb.setAssociation "").ranName ≠ "" := by simpa using hs.ranName_ne hr
  cases hi : s.e2tInstance a with
  | none =>
      simp [dissociateRan, getNodeb_of_some hs hr, RNibDataService.always_updateNodebInfo hput,
        E2TInstancesManager.always_removeRanFromInstance (hs.putNodeb hput), dissociate,
        E2TInstancesManager.foundOrDbError, hi]
  | some i =>
      simp only [dissociateRan, Program.always_bind, RNibDataService.always_getNodeb,
        getNodeb_of_some hs hr, RNibDataService.always_updateNodebInfo hput,
        E2TInstancesManager.always_removeRanFromInstance (hs.putNodeb hput),
        E2TInstancesManager.foundOrDbError, Sdl.e2tInstance_putNodeb, hi, Option.isSome_some,
        if_true, RoutingManagerClient.always_dissociateRan, Program.pure_eq_ret,
        Program.always_ret, dissociate]
      exact forall_admitted

end E2TAssociationManager

/-! ### Disconnection -/

namespace RanDisconnectionManager

/-- The store after `DisconnectRan`. -/
def disconnect (r : String) (s : Sdl) : Sdl :=
  match s.nodeb r with
  | none => s
  | some nb =>
      match nb.connectionStatus with
      | .SHUT_DOWN => s
      | .SHUTTING_DOWN => s.putNodeb (nb.setStatus .SHUT_DOWN)
      | _ =>
          let nb := nb.setStatus .DISCONNECTED
          E2TAssociationManager.dissociate nb.associatedE2TInstanceAddress nb (s.putNodeb nb)

/-- What `DisconnectRan` returns. -/
def disconnectResult (r : String) (s : Sdl) : Except Err Unit :=
  match s.nodeb r with
  | none => if r = "" then .error .validation else .error .resourceNotFound
  | some nb =>
      match nb.connectionStatus with
      | .SHUT_DOWN => .ok ()
      | .SHUTTING_DOWN => .ok ()
      | _ => E2TInstancesManager.foundOrDbError s nb.associatedE2TInstanceAddress

/-- **What `DisconnectRan` does**: its store and its result are functions of the store before it. -/
theorem always_disconnectRan (hs : s.WellKeyed) (r : String) (Q : Except Err Unit → Sdl → Prop) :
    (disconnectRan r).Always exec (Admits b) P Q s ↔ Q (disconnectResult r s) (disconnect r s) := by
  cases hr : s.nodeb r with
  | none =>
      by_cases hne : r = ""
      · subst hne
        simp [disconnectRan, disconnectResult, disconnect, hr, getNodeb_empty]
      · simp [disconnectRan, disconnectResult, disconnect, hr, getNodeb_of_none hr hne, hne]
  | some nb =>
      have hput : ∀ st, (nb.setStatus st).ranName ≠ "" := fun st => by
        simpa using hs.ranName_ne hr
      have hdis : ∀ Q, (E2TAssociationManager.dissociateRan nb.associatedE2TInstanceAddress
          (nb.setStatus .DISCONNECTED).ranName).Always exec (Admits b) P Q
            (s.putNodeb (nb.setStatus .DISCONNECTED)) ↔ _ := fun Q =>
        E2TAssociationManager.always_dissociateRan (hs.putNodeb (hput _)) _ (by simp) Q
      simp only [setStatus_ranName] at hdis
      cases hst : nb.connectionStatus <;>
        simp [disconnectRan, disconnectResult, disconnect, hr, hst, getNodeb_of_some hs hr,
          RNibDataService.always_updateNodebInfo (hput _), hdis, E2TInstancesManager.foundOrDbError]

end RanDisconnectionManager

/-- What a program leaves, whether it returns or panics. -/
def Leaves {α : Type} (b : Bool) (I : Sdl → Prop) (p : Prog α) (s : Sdl) : Prop :=
  p.Always exec (Admits b) I (fun _ => I) s

/-- What a program leaves, it leaves with all that follows from it. -/
theorem Leaves.mono {α : Type} {I J : Sdl → Prop} {p : Prog α} (h : Leaves b I p s)
    (hIJ : ∀ s', I s' → J s') : Leaves b J p s := by
  unfold Leaves at h ⊢
  induction p generalizing s with
  | ret a => exact hIJ s h
  | panic => exact hIJ s h
  | call o k ih => exact fun c hc => ih _ (h c hc)

namespace RanDisconnectionManager

/-- After `DisconnectRan` records and instances are still under their own keys. -/
theorem wellKeyed_disconnect (hs : s.WellKeyed) (r : String) : (disconnect r s).WellKeyed := by
  unfold disconnect
  split
  · exact hs
  · rename_i nb hr
    have hne := hs.ranName_ne hr
    split
    · exact hs
    · exact hs.putNodeb (by simpa using hne)
    · exact ((hs.putNodeb (by simpa using hne)).putNodeb (by simpa using hne)).updateRans _ _

/-- The record of a RAN after `DisconnectRan`. -/
def disconnected (nb : NodebInfo) : NodebInfo :=
  match nb.connectionStatus with
  | .SHUT_DOWN => nb
  | .SHUTTING_DOWN => nb.setStatus .SHUT_DOWN
  | _ => (nb.setStatus .DISCONNECTED).setAssociation ""

/-- `DisconnectRan` writes the record of its RAN only. -/
theorem nodeb_disconnect (hs : s.WellKeyed) (r : String) :
    (disconnect r s).nodeb = Function.update s.nodeb r ((s.nodeb r).map disconnected) := by
  unfold disconnect
  split
  · rename_i hr
    rw [hr, Option.map_none, ← hr, Function.update_eq_self]
  · rename_i nb hr
    have hname : nb.ranName = r := (hs.nodeb hr).1
    rw [hr, Option.map_some]
    split
    · rename_i hst
      simp only [disconnected, hst]
      rw [← hr, Function.update_eq_self]
    · rename_i hst
      simp only [disconnected, hst, Sdl.nodeb_putNodeb, setStatus_ranName, hname]
    · rename_i hnot₁ hnot₂
      have hdis : disconnected nb = (nb.setStatus .DISCONNECTED).setAssociation "" := by
        unfold disconnected
        split <;> simp_all
      simp [E2TAssociationManager.dissociate, hname, hdis]

/-- The store after `DisconnectRan` of some RANs in turn. -/
def disconnectAll (rs : List String) (s : Sdl) : Sdl := rs.foldl (fun s r => disconnect r s) s

end RanDisconnectionManager

open RanDisconnectionManager in
/-- The loop of a repeated E2_TERM_INIT disconnects the RANs of a prefix. -/
theorem E2TermInitNotificationHandler.leaves_handleExistingE2TInstance (hs : s.WellKeyed)
    {I : Sdl → Prop} {rs : List String} (h : ∀ n, I (disconnectAll (rs.take n) s)) :
    Leaves b I (handleExistingE2TInstance rs) s := by
  induction rs generalizing s with
  | nil => exact h 0
  | cons r rs ih =>
      simp only [Leaves, handleExistingE2TInstance, Program.always_bind, always_disconnectRan hs]
      have hrest : Leaves b I (handleExistingE2TInstance rs) (disconnect r s) :=
        ih (wellKeyed_disconnect hs r) fun n => by simpa [disconnectAll] using h (n + 1)
      split
      · exact hrest
      · exact hrest
      · exact h 1

/-! ### Shutdown -/

namespace E2TShutdownManager

/-- Marking an instance for deletion leaves its address. -/
@[simp] theorem marked_address (i : E2TInstance) (now : Int64) :
    (marked i now).address = i.address := by
  simp only [marked]

/-- It leaves the list of its RANs. -/
@[simp] theorem marked_associatedRanList (i : E2TInstance) (now : Int64) :
    (marked i now).associatedRanList = i.associatedRanList := by
  simp only [marked]

/-- What `clearNodebsAssociation` returns, and the store after it. -/
def clearAssociation : List String → Sdl → Except Err Unit × Sdl
  | [], s => (.ok (), s)
  | r :: rs, s =>
      match s.nodeb r with
      | some nb => clearAssociation rs (s.putNodeb (disassociated nb))
      | none => if r = "" then clearAssociation rs s else (.error .resourceNotFound, s)

/-- A RAN keeps its name when the instance it was associated with goes. -/
theorem disassociated_ranName (nb : NodebInfo) : (disassociated nb).ranName = nb.ranName := by
  simp [disassociated]

/-- **What `clearNodebsAssociation` does**: its store and its result are functions of the store
before it. -/
theorem always_clearNodebsAssociation (hs : s.WellKeyed) (rs : List String)
    (Q : Except Err Unit → Sdl → Prop) :
    (clearNodebsAssociation rs).Always exec (Admits b) P Q s ↔
      Q (clearAssociation rs s).1 (clearAssociation rs s).2 := by
  induction rs generalizing s with
  | nil => rfl
  | cons r rs ih =>
      cases hr : s.nodeb r with
      | none =>
          by_cases hne : r = ""
          · subst hne
            simp [clearNodebsAssociation, clearAssociation, hr, getNodeb_empty, ih hs]
          · simp [clearNodebsAssociation, clearAssociation, hr, getNodeb_of_none hr hne, hne]
      | some nb =>
          have hput : (disassociated nb).ranName ≠ "" := by
            simpa [disassociated_ranName] using hs.ranName_ne hr
          simp [clearNodebsAssociation, clearAssociation, hr, getNodeb_of_some hs hr,
            RNibDataService.always_updateNodebInfo hput, ih (hs.putNodeb hput)]

/-- Clearing associations leaves the list of addresses. -/
@[simp] theorem e2tAddresses_clearAssociation (rs : List String) :
    (clearAssociation rs s).2.e2tAddresses = s.e2tAddresses := by
  induction rs generalizing s with
  | nil => rfl
  | cons r rs ih =>
      unfold clearAssociation
      split
      · simp [ih]
      · split
        · exact ih
        · rfl

/-- It leaves the instances. -/
@[simp] theorem e2tInstance_clearAssociation (rs : List String) :
    (clearAssociation rs s).2.e2tInstance = s.e2tInstance := by
  induction rs generalizing s with
  | nil => rfl
  | cons r rs ih =>
      unfold clearAssociation
      split
      · simp [ih]
      · split
        · exact ih
        · rfl

/-- One round of the loop of `clearNodebsAssociation`. -/
theorem nodeb_putNodeb_disassociated (hs : s.WellKeyed) {r : String} {nb : NodebInfo}
    (hr : s.nodeb r = some nb) (r' : String) : (s.putNodeb (disassociated nb)).nodeb r' =
      if r' = r then (s.nodeb r').map disassociated else s.nodeb r' := by
  rw [Sdl.nodeb_putNodeb, disassociated_ranName, (hs.nodeb hr).1, Function.update_apply]
  split
  · subst r'
    rw [hr, Option.map_some]
  · rfl

/-- The record of a RAN without its association goes under the name that it had. -/
theorem wellKeyed_putNodeb_disassociated (hs : s.WellKeyed) {r : String} {nb : NodebInfo}
    (hr : s.nodeb r = some nb) : (s.putNodeb (disassociated nb)).WellKeyed :=
  hs.putNodeb (by simpa [disassociated_ranName] using hs.ranName_ne hr)

/-- A record is left as it was, or, for a listed RAN, without association. -/
theorem nodeb_clearAssociation (hs : s.WellKeyed) (rs : List String) (r : String) :
    (clearAssociation rs s).2.nodeb r = s.nodeb r ∨
      r ∈ rs ∧ (clearAssociation rs s).2.nodeb r = (s.nodeb r).map disassociated := by
  induction rs generalizing s with
  | nil => exact .inl rfl
  | cons r' rs ih =>
      unfold clearAssociation
      split
      · rename_i nb hr'
        have hs' := wellKeyed_putNodeb_disassociated hs hr'
        have hput := nodeb_putNodeb_disassociated hs hr' r
        by_cases h : r = r'
        · rw [if_pos h] at hput
          refine .inr ⟨h ▸ List.mem_cons_self .., ?_⟩
          rcases ih hs' with heq | ⟨-, heq⟩
          · rw [heq, hput]
          · rw [heq, hput, Option.map_map]
            rfl
        · rw [if_neg h] at hput
          rw [← hput]
          exact (ih hs').imp_right fun h' => ⟨List.mem_cons_of_mem _ h'.1, h'.2⟩
      · split
        · exact (ih hs).imp_right fun h' => ⟨List.mem_cons_of_mem _ h'.1, h'.2⟩
        · exact .inl rfl

/-- Where every listed RAN is stored, each of them loses its association. -/
theorem clearAssociation_of_stored (hs : s.WellKeyed) {rs : List String}
    (hrs : ∀ r ∈ rs, (s.nodeb r).isSome) :
    (clearAssociation rs s).1 = .ok () ∧
      ∀ r ∈ rs, (clearAssociation rs s).2.nodeb r = (s.nodeb r).map disassociated := by
  induction rs generalizing s with
  | nil => exact ⟨rfl, by simp⟩
  | cons r' rs ih =>
      obtain ⟨nb, hr'⟩ := Option.isSome_iff_exists.1 (hrs r' (List.mem_cons_self ..))
      have hs' := wellKeyed_putNodeb_disassociated hs hr'
      have hput := nodeb_putNodeb_disassociated hs hr'
      have hstored : ∀ r ∈ rs, ((s.putNodeb (disassociated nb)).nodeb r).isSome := by
        intro r hr
        rw [hput]
        split
        · simpa using hrs r (List.mem_cons_of_mem _ hr)
        · exact hrs r (List.mem_cons_of_mem _ hr)
      obtain ⟨hok, hrest⟩ := ih hs' hstored
      have hunfold : clearAssociation (r' :: rs) s =
          clearAssociation rs (s.putNodeb (disassociated nb)) := by
        rw [clearAssociation, hr']
      refine ⟨hunfold ▸ hok, fun r hr => ?_⟩
      rw [hunfold]
      by_cases h : r = r'
      · have := hput r
        rw [if_pos h] at this
        rcases nodeb_clearAssociation hs' rs r with heq | ⟨-, heq⟩
        · rw [heq, this]
        · rw [heq, this, Option.map_map]
          rfl
      · rw [hrest r ((List.mem_cons.1 hr).resolve_left h), hput, if_neg h]

/-- What a shutdown that goes ahead at time `now` leaves: the instance marked
and its RANs cleared; where that succeeds, the instance removed. -/
def down (i : E2TInstance) (now : Int64) (s : Sdl) : Sdl :=
  match clearAssociation i.associatedRanList (s.putInstance (marked i now)) with
  | (.error _, s') => s'
  | (.ok (), s') => s'.deregister i.address

/-- `Shutdown` of an instance leaves the store as it was, or goes ahead. -/
theorem leaves_shutdown (hs : s.WellKeyed) {config : Configuration} {i : E2TInstance}
    (hi : i.address ≠ "") {as : List String} (has : s.e2tAddresses = some as) {I : Sdl → Prop}
    (h₀ : I s) (h : ∀ now, I (down i now s)) : Leaves b I (shutdown config i) s := by
  simp only [Leaves, shutdown, Program.always_bind, Time.always_now]
  intro now
  split
  · exact h₀
  · simp only [Program.always_bind, Time.always_now]
    intro now'
    have hmark : (marked i now').address ≠ "" := by simpa using hi
    have hs' := hs.putInstance hmark
    have hdown := h now'
    rw [RNibDataService.always_saveE2TInstance hmark]
    simp only [Program.always_bind, always_clearNodebsAssociation hs', marked_associatedRanList]
    unfold down at hdown
    split at hdown
    · rename_i e s' hclear
      simpa [hclear] using hdown
    · rename_i s' hclear
      have has' : s'.e2tAddresses = some as := by
        have : (clearAssociation i.associatedRanList (s.putInstance (marked i now'))).2.e2tAddresses
            = _ := e2tAddresses_clearAssociation _
        rw [hclear] at this
        simpa [has] using this
      simp only [hclear, E2TAssociationManager.removeE2tInstance, Program.always_bind,
        RoutingManagerClient.always_deleteE2TInstance, marked_address,
        E2TInstancesManager.always_removeE2TInstance hi has']
      exact forall_admitted.2 hdown

end E2TShutdownManager

/-! ### The setup handlers -/

/-- A RAN on its way out: the two statuses that delete-all writes. -/
def ConnectionStatus.Down (st : ConnectionStatus) : Prop := st = .SHUTTING_DOWN ∨ st = .SHUT_DOWN

instance : DecidablePred ConnectionStatus.Down := fun _ => inferInstanceAs (Decidable (_ ∨ _))

/-- A record that differs from a stored one in neither name nor association. -/
structure SameRan (nb nb' : NodebInfo) : Prop where
  ranName : nb'.ranName = nb.ranName
  association : nb'.associatedE2TInstanceAddress = nb.associatedE2TInstanceAddress

/-- A record is of the same RAN as itself, with the same association. -/
theorem SameRan.rfl {nb : NodebInfo} : SameRan nb nb := ⟨Eq.refl _, Eq.refl _⟩

/-- So is one whose status alone is set. -/
theorem SameRan.setStatus (nb : NodebInfo) (st : ConnectionStatus) : SameRan nb (nb.setStatus st) :=
  ⟨by simp, by simp⟩

/-- One move of a setup handler on the RAN `r`.  None is made while the RAN is
shutting down.  `C` holds of the stored record of a RAN that is associated
again. -/
inductive RanMove (b : Bool) (C : NodebInfo → Prop) (r : String) : Sdl → Sdl → Prop
  /-- A RAN that was not stored is saved and associated. -/
  | create {s s₁ : Sdl} {a : String} {id : NbIdentity} {nb : NodebInfo} {up : Bool}
      (hr : s.nodeb r = none) (ha : (s.e2tInstance a).isSome) (hid : id.inventoryName = r)
      (hnb : nb.ranName = r)
      (hassoc : nb.associatedE2TInstanceAddress = a ∨ nb.associatedE2TInstanceAddress = "")
      (hst : ¬ nb.connectionStatus.Down)
      (hsave : RNibWriter.saveNodeb id nb s = .ok s₁) (hup : b = false → up = true) :
      RanMove b C r s (E2TAssociationManager.associate a nb up s₁)
  /-- A stored RAN is associated. -/
  | associate {s : Sdl} {a : String} {nb nb' : NodebInfo} {up : Bool}
      (hr : s.nodeb r = some nb) (hst : nb.connectionStatus ≠ .SHUTTING_DOWN) (hC : C nb)
      (ha : (s.e2tInstance a).isSome) (hnb : SameRan nb nb') (hup : b = false → up = true) :
      RanMove b C r s (E2TAssociationManager.associate a nb' up s)
  /-- The record of a stored RAN is written again, with another status. -/
  | restatus {s : Sdl} {nb nb' : NodebInfo}
      (hr : s.nodeb r = some nb) (hst : nb.connectionStatus ≠ .SHUTTING_DOWN)
      (hnb : SameRan nb nb')
      (hst' : ¬ nb'.connectionStatus.Down ∨ nb'.connectionStatus = nb.connectionStatus) :
      RanMove b C r s (s.putNodeb nb')
  /-- The record of a stored RAN is saved again under an identity. -/
  | resave {s s' : Sdl} {id : NbIdentity} {nb nb' : NodebInfo}
      (hr : s.nodeb r = some nb) (hst : nb.connectionStatus ≠ .SHUTTING_DOWN)
      (hnb : SameRan nb nb') (hst' : ¬ nb'.connectionStatus.Down) (hid : id.inventoryName = r)
      (hsave : RNibWriter.saveNodeb id nb' s = .ok s') :
      RanMove b C r s s'

/-- Some moves of a setup handler, one after the other. -/
abbrev RanMoves (b : Bool) (C : NodebInfo → Prop) (r : String) : Sdl → Sdl → Prop :=
  Relation.ReflTransGen (RanMove b C r)

/-- A move of a RAN that meets a condition meets all that follow from it for the record that is
stored. -/
theorem RanMove.mono {C D : NodebInfo → Prop} {r : String} {s s' : Sdl} (h : RanMove b C r s s')
    (hCD : ∀ nb, s.nodeb r = some nb → C nb → D nb) : RanMove b D r s s' := by
  cases h with
  | create hr ha hid hnb hassoc hst hsave hup =>
      exact .create hr ha hid hnb hassoc hst hsave hup
  | associate hr hst hC ha hnb hup => exact .associate hr hst (hCD _ hr hC) ha hnb hup
  | restatus hr hst hnb hst' => exact .restatus hr hst hnb hst'
  | resave hr hst hnb hst' hid hsave => exact .resave hr hst hnb hst' hid hsave

namespace E2SetupRequestNotificationHandler

/-- The instance and the stored record for which `Handle` reaches `AssociateRan`:
the request parses, the instance and the RAN are stored, the RAN is not shutting
down, and its functions can be set. -/
def reassociated (codecs : Codecs) (request : NotificationRequest) (s : Sdl) :
    Option (String × NodebInfo) :=
  match parseSetupRequest codecs request.payload with
  | .error _ => none
  | .ok (setupRequest, a) =>
      match s.e2tInstance a, s.nodeb request.ranName, setupRequest.extractRanFunctionsList with
      | some _, some nb, .ok ranFunctions =>
          if nb.connectionStatus ≠ .SHUTTING_DOWN ∧ (withRanFunctions nb ranFunctions).isSome then
            some (a, nb)
          else none
      | _, _, _ => none

/-- What stands behind it. -/
theorem reassociated_inv {codecs : Codecs} {request : NotificationRequest} {a : String}
    {nb : NodebInfo} (h : reassociated codecs request s = some (a, nb)) :
    ∃ m fs nb' i, parseSetupRequest codecs request.payload = .ok (m, a) ∧
      s.e2tInstance a = some i ∧ s.nodeb request.ranName = some nb ∧
      m.extractRanFunctionsList = .ok fs ∧ nb.connectionStatus ≠ .SHUTTING_DOWN ∧
      withRanFunctions nb fs = some nb' := by
  unfold reassociated at h
  split at h
  · cases h
  · rename_i m a' hparse
    split at h
    · rename_i i nb₀ fs hi hr hfs
      split at h
      · rename_i hcond
        obtain ⟨rfl, rfl⟩ := Prod.mk.inj (Option.some.inj h)
        obtain ⟨nb', hnb'⟩ := Option.isSome_iff_exists.1 hcond.2
        exact ⟨m, fs, nb', i, hparse, hi, hr, hfs, hcond.1, hnb'⟩
      · cases h
    · cases h

/-- The instance and the RAN are stored. -/
theorem reassociated_eq_some {codecs : Codecs} {request : NotificationRequest} {a : String}
    {nb : NodebInfo} (h : reassociated codecs request s = some (a, nb)) :
    (s.e2tInstance a).isSome ∧ s.nodeb request.ranName = some nb := by
  obtain ⟨-, -, -, i, -, hi, hr, -⟩ := reassociated_inv h
  exact ⟨by rw [hi]; rfl, hr⟩

/-- Setting the functions of a gNB leaves its name, its association and its status. -/
theorem sameRan_withRanFunctions {nb nb' : NodebInfo} {fs : Option (List RanFunction)}
    (h : withRanFunctions nb fs = some nb') :
    SameRan nb nb' ∧ nb'.connectionStatus = nb.connectionStatus := by
  cases fs with
  | none => cases h; exact ⟨.rfl, rfl⟩
  | some fs =>
      obtain ⟨g, -, rfl⟩ := Option.map_eq_some_iff.1 h
      exact ⟨⟨rfl, rfl⟩, rfl⟩

/-- A value that is missing is a panic; where there is one, the program goes on with it. -/
theorem always_orPanic {α : Type} {ok : Outcome → Prop} (o : Option α) (Q : α → Sdl → Prop) :
    (Program.orPanic o : Prog α).Always exec ok P Q s ↔ o.elim (P s) (Q · s) := by
  cases o <;> rfl

/-- What `setGnbFunctions` always does: it refuses a message without functions, and panics at a
record that is no gNB's. -/
theorem always_setGnbFunctions {ok : Outcome → Prop} (nb : NodebInfo) (m : E2SetupRequestMessage)
    (Q : Except Err NodebInfo → Sdl → Prop) :
    (setGnbFunctions nb m).Always exec ok P Q s ↔
      match m.extractRanFunctionsList with
      | .error err => Q (.error err) s
      | .ok fs => (withRanFunctions nb fs).elim (P s) fun nb' => Q (.ok nb') s := by
  unfold setGnbFunctions
  cases m.extractRanFunctionsList with
  | error err => rfl
  | ok fs => simp [always_orPanic]

/-- The answer to a setup request does not touch the store. -/
theorem leaves_handleSuccessfulResponse {I : Sdl → Prop} (hI : I s) (config : Configuration)
    (r : String) (request : NotificationRequest) (m : E2SetupRequestMessage) :
    Leaves b I (handleSuccessfulResponse config r request m) s := by
  unfold Leaves handleSuccessfulResponse
  split
  · exact hI
  · simp only [Program.always_bind, always_orPanic, RmrSender.always_send]
    cases newE2SetupSuccessResponseMessage config.plmnId _ m with
    | none => exact hI
    | some response => exact fun _ => hI

/-- What the setup handler leaves once it has the record: what `AssociateRan` does, and nothing
more, whatever becomes of the answer to the RAN. -/
theorem leaves_associateAndRespond (hs : s.WellKeyed) {I : Sdl → Prop} (config : Configuration)
    (request : NotificationRequest) (m : E2SetupRequestMessage) (a : String) {nb : NodebInfo}
    (hnb : nb.ranName ≠ "")
    (h : ∀ up, (b = false → up = true) → I (E2TAssociationManager.associate a nb up s)) :
    Leaves b I (associateAndRespond config request m a nb) s := by
  simp only [Leaves, associateAndRespond, Program.always_bind,
    E2TAssociationManager.always_associateRan hs a hnb]
  intro up hup
  have hI := h up hup
  split
  · simp only [handleUnsuccessfulResponse, Program.always_bind, RmrSender.always_send]
    exact fun _ => hI
  · exact hI
  · exact leaves_handleSuccessfulResponse hI ..

/-- The record of a new RAN is CONNECTED, under its name, with the address of the request;
building it may fail or panic and writes nothing. -/
theorem always_buildNodebInfo (r a : String) (m : E2SetupRequestMessage)
    (Q : Except Err NodebInfo → Sdl → Prop) (hpanic : P s) (herr : ∀ e, Q (.error e) s)
    (hok : ∀ nb, nb.ranName = r → nb.associatedE2TInstanceAddress = a →
      nb.connectionStatus = .CONNECTED → Q (.ok nb) s) :
    (buildNodebInfo r a m).Always exec (Admits b) P Q s := by
  simp only [buildNodebInfo, buildGlobalNbId, bind_assoc, Program.always_bind, always_orPanic]
  cases m.getPlmnId with
  | none => exact hpanic
  | some plmnId =>
      cases m.getNbId with
      | none => exact hpanic
      | some nbId =>
          simp only [Option.elim_some, Program.pure_eq_ret, Program.always_ret,
            always_setGnbFunctions]
          split
          · exact herr _
          · rename_i fs _
            cases hfs : withRanFunctions _ fs with
            | none => exact hpanic
            | some nb =>
                obtain ⟨hsame, hst⟩ := sameRan_withRanFunctions hfs
                exact hok nb hsame.ranName hsame.association hst

/-- **What an E2 setup request does to the store:** nothing, or one move of its
RAN. -/
theorem leaves_handle (hs : s.WellKeyed) (codecs : Codecs) (config : Configuration)
    (request : NotificationRequest) :
    Leaves b (fun s' => s' = s ∨ RanMove b
        (fun nb => ∃ a, reassociated codecs request s = some (a, nb)) request.ranName s s')
      (handle codecs config request) s := by
  unfold Leaves handle
  split
  · exact .inl rfl
  rename_i m a hparse
  simp only [handleParsed, Program.always_bind, E2TInstancesManager.always_getE2TInstance]
  cases hi : RNibReader.getE2TInstance a s with
  | error e => exact .inl rfl
  | ok i =>
      have hstored : s.e2tInstance a = some i := hs.getE2TInstance_eq_ok.1 hi
      have ha : (s.e2tInstance a).isSome := by simp [hstored]
      simp only [Program.always_bind, RNibDataService.always_getNodeb]
      cases hr : RNibReader.getNodeb request.ranName s with
      | error e =>
          cases e with
          | resourceNotFound =>
              obtain ⟨hne, hnone⟩ := getNodeb_eq_notFound hr
              simp only [Program.always_bind, handleNewRan]
              refine always_buildNodebInfo _ _ _ _ (.inl rfl) (fun e => .inl rfl) ?_
              intro nb hname hassoc hst
              simp only [Program.always_bind, buildNbIdentity, buildGlobalNbId, always_orPanic]
              cases m.getPlmnId with
              | none => exact .inl trivial
              | some plmnId =>
                  cases m.getNbId with
                  | none => exact .inl trivial
                  | some nbId =>
                      simp only [Option.elim_some, Program.pure_eq_ret, Program.always_ret,
                        RNibDataService.always_saveNodeb]
                      split
                      · rename_i s₁ hsave
                        have hs₁ : s₁.WellKeyed := hs.saveNodeb (by simp [hname]) hsave
                        exact leaves_associateAndRespond hs₁ config request m a (hname ▸ hne)
                          fun up hup => .inr (.create hnone ha rfl hname (.inl hassoc)
                            (by simp [hst, ConnectionStatus.Down]) hsave hup)
                      · exact .inl trivial
          | _ => exact .inl rfl
      | ok nb =>
          have hnb : s.nodeb request.ranName = some nb := hs.getNodeb_eq_ok.1 hr
          simp only [Program.always_bind, handleExistingRan]
          split
          · exact .inl rfl
          · rename_i hst
            rw [always_setGnbFunctions]
            split
            · exact .inl rfl
            · rename_i fs hfs
              cases hfn : withRanFunctions nb fs with
              | none => exact .inl rfl
              | some nb' =>
                  have hsame := (sameRan_withRanFunctions hfn).1
                  have hre : reassociated codecs request s = some (a, nb) := by
                    simp [reassociated, hparse, hstored, hnb, hfs, hst, hfn]
                  refine leaves_associateAndRespond hs config request m a ?_ fun up hup => ?_
                  · rw [hsame.ranName]
                    exact hs.ranName_ne hnb
                  · exact .inr (.associate hnb hst ⟨a, hre⟩ ha hsame hup)

/-- Where the stored RAN is associated again, that is all that happens. -/
theorem leaves_handle_of_reassociated (hs : s.WellKeyed) {codecs : Codecs}
    (config : Configuration) {request : NotificationRequest} {a : String} {nb : NodebInfo}
    (h : reassociated codecs request s = some (a, nb)) :
    Leaves b (fun s' => ∃ nb' up, SameRan nb nb' ∧ (b = false → up = true) ∧
      s' = E2TAssociationManager.associate a nb' up s) (handle codecs config request) s := by
  obtain ⟨m, fs, nb', i, hparse, hi, hr, hfs, hst, hfn⟩ := reassociated_inv h
  have hsame := (sameRan_withRanFunctions hfn).1
  have hne : nb'.ranName ≠ "" := hsame.ranName ▸ hs.ranName_ne hr
  simp only [Leaves, handle, hparse, handleParsed, Program.always_bind,
    E2TInstancesManager.always_getE2TInstance, hs.getE2TInstance_eq_ok.2 hi,
    RNibDataService.always_getNodeb, hs.getNodeb_eq_ok.2 hr, handleExistingRan, if_neg hst,
    always_setGnbFunctions, hfs, hfn, Option.elim_some]
  exact leaves_associateAndRespond hs config request m a hne
    fun up hup => ⟨nb', up, hsame, hup, rfl⟩

end E2SetupRequestNotificationHandler

/-- The instance that is found is one of those searched. -/
theorem E2TInstancesManager.mem_of_findActive {is : List E2TInstance} {i : E2TInstance}
    (h : findActiveE2TInstanceWithMinimumAssociatedRans is = some i) : i ∈ is := by
  suffices ∀ acc : Option E2TInstance × Nat,
      (is.foldl (fun (acc : Option E2TInstance × Nat) v =>
        if v.state = .Active ∧ v.associatedRanList.length < acc.2 then
          (some v, v.associatedRanList.length)
        else acc) acc).1 = some i → acc.1 = some i ∨ i ∈ is by
    simpa using this _ h
  clear h
  induction is with
  | nil => exact fun acc h => .inl h
  | cons v is ih =>
      intro acc h
      rcases ih _ h with h | h
      · dsimp only at h
        split at h
        · exact .inr (by simp_all)
        · exact .inl h
      · exact .inr (List.mem_cons_of_mem _ h)

/-- `SelectE2TInstance` does not write, and selects the minimum of the instances. -/
theorem E2TInstancesManager.always_selectE2TInstance_minimum (Q : Except Err String → Sdl → Prop)
    (herr : ∀ e, Q (.error e) s)
    (hok : ∀ min, findActiveE2TInstanceWithMinimumAssociatedRans s.instances = some min →
      Q (.ok min.address) s) :
    selectE2TInstance.Always exec (Admits b) P Q s := by
  simp only [selectE2TInstance, Program.always_bind, always_getE2TInstances]
  split
  · exact herr _
  · split
    · exact herr _
    · rename_i min hmin
      exact hok min hmin

/-- It is a stored one. -/
theorem E2TInstancesManager.always_selectE2TInstance (hs : s.WellKeyed)
    (Q : Except Err String → Sdl → Prop) (herr : ∀ e, Q (.error e) s)
    (hok : ∀ a, (s.e2tInstance a).isSome → Q (.ok a) s) :
    selectE2TInstance.Always exec (Admits b) P Q s := by
  refine always_selectE2TInstance_minimum Q herr fun min hmin => ?_
  obtain ⟨a, -, ha⟩ := List.mem_filterMap.1 (mem_of_findActive hmin)
  refine hok _ ?_
  rw [(hs.e2tInstance ha).1, ha]
  rfl

/-- `ExecuteSetup` on a stored RAN writes its status once or twice. -/
theorem RanSetupManager.leaves_executeSetup (hs : s.WellKeyed) {C : NodebInfo → Prop}
    {nb₀ nb : NodebInfo} (hr : s.nodeb nb.ranName = some nb₀)
    (hst₀ : nb₀.connectionStatus ≠ .SHUTTING_DOWN) (hsame : SameRan nb₀ nb)
    {st : ConnectionStatus} (hst : ¬ st.Down) :
    Leaves b (RanMoves b C nb.ranName s) (executeSetup nb st) s := by
  have hne : nb.ranName ≠ "" := hsame.ranName ▸ hs.ranName_ne hr
  have hput : ∀ st, (nb.setStatus st).ranName ≠ "" := fun st => by simpa using hne
  have h₁ : RanMoves b C nb.ranName s (s.putNodeb (nb.setStatus st)) :=
    .single (.restatus hr hst₀ ⟨by simp [hsame.ranName], by simp [hsame.association]⟩
      (.inl (by simpa using hst)))
  have h₂ : RanMove b C nb.ranName (s.putNodeb (nb.setStatus st))
      ((s.putNodeb (nb.setStatus st)).putNodeb (nb.setStatus .DISCONNECTED)) := by
    have hr' : (s.putNodeb (nb.setStatus st)).nodeb nb.ranName = some (nb.setStatus st) := by simp
    refine .restatus hr' ?_ ⟨by simp, by simp⟩ (.inl (by simp [ConnectionStatus.Down]))
    intro h
    exact hst (.inl (by simpa using h))
  simp only [Leaves, executeSetup, Program.always_bind,
    RNibDataService.always_updateNodebInfo (hput _)]
  split
  · exact h₁
  · simp only [Program.always_bind, RmrSender.always_send]
    intro sent
    split
    · exact h₁
    · simp only [Program.always_bind, RNibDataService.always_updateNodebInfo (hput _)]
      exact h₁.tail h₂

namespace SetupRequestHandler

/-- Associating a RAN and sending it a setup are moves of this RAN, where the association alone is
one. -/
theorem leaves_associateAndSetup (hs : s.WellKeyed) {C : NodebInfo → Prop} (a : String)
    {nb : NodebInfo} (hnb : nb.ranName ≠ "") {s₀ : Sdl}
    (h : ∀ up, (b = false → up = true) →
      RanMoves b C nb.ranName s₀ (E2TAssociationManager.associate a nb up s)) :
    Leaves b (RanMoves b C nb.ranName s₀) (associateAndSetup a nb) s := by
  simp only [Leaves, associateAndSetup, Program.always_bind,
    E2TAssociationManager.always_associateRan hs a hnb]
  intro up hup
  have hmove := h up hup
  cases up with
  | false => exact hmove
  | true =>
      simp only [E2TAssociationManager.associateResult, if_true]
      split
      · exact hmove
      · rename_i nb' heq
        obtain ⟨rfl, -⟩ := Prod.mk.inj heq
        have hs' := E2TAssociationManager.wellKeyed_associate hs a hnb true
        have hr : (E2TAssociationManager.associate a nb true s).nodeb
            (E2TAssociationManager.associated a nb (.ok ())).ranName =
              some (E2TAssociationManager.associated a nb (.ok ())) := by
          simp [E2TAssociationManager.associate, answer]
        have hsetup : Leaves b (RanMoves b C _ (E2TAssociationManager.associate a nb true s))
            (RanSetupManager.executeSetup _ .CONNECTING) _ :=
          RanSetupManager.leaves_executeSetup hs' hr (by simp [E2TAssociationManager.associated])
            .rfl (by simp [ConnectionStatus.Down])
        exact hsetup.mono fun s' hs' => hmove.trans (by simpa using hs')

/-- The RANs that an X2 or ENDC setup request associates had no association. -/
def Unassociated (nb : NodebInfo) : Prop := nb.associatedE2TInstanceAddress = ""

/-- **What an X2 or ENDC setup request does to the store:** some moves of its
RAN. -/
theorem leaves_handle (hs : s.WellKeyed) (codecs : Codecs) (protocol : E2ApplicationProtocol)
    (request : SetupRequest) :
    Leaves b (RanMoves b Unassociated request.ranName s) (handle codecs protocol request) s := by
  unfold Leaves handle
  split
  · exact .refl
  simp only [Program.always_bind, RNibDataService.always_getNodeb]
  split
  · -- the RAN is new
    rename_i hr
    obtain ⟨hne, hnone⟩ := getNodeb_eq_notFound hr
    simp only [connectNewRan, Program.always_bind]
    refine E2TInstancesManager.always_selectE2TInstance hs _ (fun _ => .refl) fun a ha => ?_
    simp only [Program.always_bind, RNibDataService.always_saveNodeb]
    split
    · rename_i s₁ hsave
      have hs₁ : s₁.WellKeyed := hs.saveNodeb (by simp [createInitialNodeInfo]) hsave
      exact leaves_associateAndSetup hs₁ a (by simpa [createInitialNodeInfo] using hne)
        fun up hup => .single (.create hnone ha rfl rfl (.inr rfl)
          (by simp [createInitialNodeInfo, ConnectionStatus.Down]) hsave hup)
    · exact .refl
  · exact .refl
  · rename_i nb hr
    have hnb : s.nodeb request.ranName = some nb := hs.getNodeb_eq_ok.1 hr
    have hname : nb.ranName = request.ranName := (hs.nodeb hnb).1
    have hne : nb.ranName ≠ "" := hs.ranName_ne hnb
    rw [← hname] at hnb ⊢
    split
    · exact .refl
    rename_i hst
    split
    · -- it is associated: its record is written as it is, then the request goes out
      simp only [connectExistingRanWithAssociatedE2TAddress, Program.always_bind,
        RNibDataService.always_updateNodebInfo hne]
      have hmove : RanMove b Unassociated nb.ranName s (s.putNodeb nb) :=
        .restatus hnb hst .rfl (.inr rfl)
      have hsetup : Leaves b (RanMoves b Unassociated nb.ranName (s.putNodeb nb))
          (RanSetupManager.executeSetup nb (if nb.connectionStatus = .CONNECTED then
            nb.connectionStatus else .CONNECTING)) (s.putNodeb nb) := by
        refine RanSetupManager.leaves_executeSetup (hs.putNodeb hne) (by simp) hst .rfl ?_
        split <;> simp_all [ConnectionStatus.Down]
      exact hsetup.mono fun s' hs' => hs'.head hmove
    · rename_i hassoc
      simp only [connectExistingRanWithoutAssociatedE2TAddress, Program.always_bind]
      have hassoc : Unassociated nb := not_not.1 hassoc
      refine E2TInstancesManager.always_selectE2TInstance hs _ (fun e => ?_) fun a ha => ?_
      · dsimp only
        split
        · exact .refl
        · simp only [Program.always_bind, RNibDataService.always_updateNodebInfo
            (show (nb.setStatus .DISCONNECTED).ranName ≠ "" by simpa using hne)]
          exact .single
            (.restatus hnb hst (.setStatus nb _) (.inl (by simp [ConnectionStatus.Down])))
      · exact leaves_associateAndSetup hs a hne
          fun up hup => .single (.associate hnb hst hassoc ha .rfl hup)

end SetupRequestHandler

/-- A setup response keeps the name, the association and the status alive. -/
theorem SetupResponseNotificationHandler.populateNodebByPdu_ok {codecs : Codecs}
    {msgType : MsgType} {id id' : NbIdentity} {nb nb' : NodebInfo} {payload : String}
    (h : populateNodebByPdu codecs msgType id nb payload = .ok (id', nb')) :
    id'.inventoryName = id.inventoryName ∧ SameRan nb nb' ∧ ¬ nb'.connectionStatus.Down := by
  have hmap : ∀ {β : Type} {x : Except Err β} {f : β → NbIdentity × NodebInfo},
      x.map f = .ok (id', nb') → ∃ v, f v = (id', nb') := by
    intro β x f hx
    cases x with
    | error e => cases hx
    | ok v => exact ⟨v, Except.ok.inj hx⟩
  cases msgType <;>
    obtain ⟨v, hv⟩ := hmap h <;>
    obtain ⟨rfl, rfl⟩ := Prod.mk.inj hv <;>
    exact ⟨rfl, ⟨rfl, rfl⟩, by simp [ConnectionStatus.Down]⟩

/-- **What a setup response does to the store:** at most one move of its RAN. -/
theorem SetupResponseNotificationHandler.leaves_handle (hs : s.WellKeyed) (codecs : Codecs)
    (msgType : MsgType) (request : NotificationRequest) {C : NodebInfo → Prop} :
    Leaves b (RanMoves b C request.ranName s) (handle codecs msgType request) s := by
  simp only [Leaves, handle, Program.always_bind, RNibDataService.always_getNodeb]
  split
  · exact .refl
  rename_i nb hr
  have hnb : s.nodeb request.ranName = some nb := hs.getNodeb_eq_ok.1 hr
  split
  · rename_i hvalid
    have hst : nb.connectionStatus ≠ .SHUTTING_DOWN := by
      intro h
      simp [isConnectionStatusValid, h] at hvalid
    split
    · exact .refl
    · rename_i id nb' hpop
      obtain ⟨hid, hsame, hdown⟩ := populateNodebByPdu_ok hpop
      simp only [Program.always_bind, RNibDataService.always_saveNodeb]
      split
      · rename_i s' hsave
        have hmove : RanMoves b C request.ranName s s' :=
          .single (.resave hnb hst hsame hdown hid hsave)
        split
        · simp only [RanStatusChangeManager.execute, Program.always_bind, RmrSender.always_send]
          exact fun _ => hmove
        · exact hmove
      · exact .refl
  · exact .refl

/-! ### The other handlers -/

/-- **What an E2_TERM_INIT does to the store:** nothing, the registration of an
address that is not stored, or the disconnection of RANs. -/
theorem E2TermInitNotificationHandler.leaves_handle (hs : s.WellKeyed) (codecs : Codecs)
    (request : NotificationRequest) :
    Leaves b (fun s' => s' = s ∨
        (∃ a podName t, a ≠ "" ∧ s.e2tInstance a = none ∧ s' = s.register a podName t) ∨
        ∃ rs, s' = RanDisconnectionManager.disconnectAll rs s) (handle codecs request) s := by
  unfold Leaves handle
  split
  · exact .inl rfl
  rename_i payload _
  split
  · exact .inl rfl
  rename_i hne
  simp only [handleAddress, Program.always_bind, E2TInstancesManager.always_getE2TInstance]
  split
  · rename_i hnone
    simp only [handleNewE2TInstance, Program.always_bind,
      RoutingManagerClient.always_addE2TInstance]
    intro up _
    split
    · exact .inl rfl
    · simp only [Program.always_bind, E2TInstancesManager.always_addE2TInstance hne]
      exact fun t => .inr (.inl ⟨_, _, t, hne, (getE2TInstance_eq_notFound hnone).2, rfl⟩)
  · exact .inl rfl
  · split
    · exact .inl rfl
    · split
      · exact .inl rfl
      · exact leaves_handleExistingE2TInstance hs fun n => .inr (.inr ⟨_, rfl⟩)

/-- What the loss of a connection does to the store. -/
theorem RanLostConnectionHandler.leaves_handle (hs : s.WellKeyed) (request : NotificationRequest) :
    Leaves b (fun s' => s' = RanDisconnectionManager.disconnect request.ranName s)
      (handle request) s := by
  simp only [Leaves, handle, Program.always_bind, RanDisconnectionManager.always_disconnectRan hs]
  rfl

/-- What a keep-alive response does to the store: at most a new time stamp. -/
theorem E2TKeepAliveResponseHandler.leaves_handle (hs : s.WellKeyed) (a : String) :
    Leaves b (fun s' => s' = s ∨ ∃ i t, s.e2tInstance a = some i ∧
        s' = s.putInstance { i with keepAliveTimestamp := t }) (handle a) s := by
  simp only [Leaves, handle, E2TInstancesManager.resetKeepAliveTimestamp, Program.always_bind,
    E2TInstancesManager.always_withMutex, RNibDataService.always_getE2TInstance]
  split
  · exact .inl rfl
  · rename_i i hi
    have hstored := hs.getE2TInstance_eq_ok.1 hi
    split
    · exact .inl rfl
    · simp only [Program.always_bind, Time.always_now]
      intro t
      have hne : i.address ≠ "" := hs.address_ne hstored
      have hput : ({ i with keepAliveTimestamp := t } : E2TInstance).address ≠ "" := hne
      rw [RNibDataService.always_saveE2TInstance hput]
      exact .inr ⟨i, t, hstored, rfl⟩

end NearRtRic.E2Manager
