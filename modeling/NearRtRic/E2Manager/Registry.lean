/-
# The registry of the E2 terminations when store calls fail

An instance and its place in the list of addresses are two records, and the
methods that add and remove an instance write them one after the other.  A
failure between the two tears them apart, and nothing joins them again: an
E2_TERM_INIT of an address whose instance is stored does not look at the list,
and one of an address whose instance is gone appends it to a list that may hold
it already.

Here every store call may fail, before or after it took effect.  `Registered` is
the agreement of the two records, and `Untorn` says of a call with the failures
it meets that it keeps them together.  In a run of untorn calls the list has no
duplicates, and an E2_TERM_INIT that meets no failure leaves its address stored
and listed once (`registry_of_reached`).
-/

import NearRtRic.E2Manager.Events
import Mathlib.Data.List.Nodup

namespace NearRtRic.E2Manager

open Effect Program

/-! ### The agreement of the two records -/

/-- The instances and the list of addresses agree. -/
structure Registered (s : Sdl) : Prop where
  wellKeyed : s.WellKeyed
  /-- No address is listed twice. -/
  nodup : s.addresses.Nodup
  /-- The listed addresses are those of the stored instances. -/
  mem_addresses : ∀ a, a ∈ s.addresses ↔ (s.e2tInstance a).isSome

/-- The same addresses are listed, and the same instances are stored. -/
structure SameRegistry (s s' : Sdl) : Prop where
  wellKeyed : s'.WellKeyed
  addresses : s'.addresses = s.addresses
  stored : ∀ a, (s'.e2tInstance a).isSome = (s.e2tInstance a).isSome

/-- In a sound store the two records agree. -/
theorem Sound.registered {s : Sdl} (h : Sound s) : Registered s :=
  ⟨h.wellKeyed, h.nodup, h.mem_addresses⟩

/-- Leaving the registry alone twice is leaving it alone. -/
theorem SameRegistry.trans {s s' s'' : Sdl} (h₁ : SameRegistry s s') (h₂ : SameRegistry s' s'') :
    SameRegistry s s'' where
  wellKeyed := h₂.wellKeyed
  addresses := h₂.addresses.trans h₁.addresses
  stored a := (h₂.stored a).trans (h₁.stored a)

/-- Doing nothing leaves it alone. -/
theorem SameRegistry.rfl {s : Sdl} (hs : s.WellKeyed) : SameRegistry s s :=
  ⟨hs, Eq.refl _, fun _ => Eq.refl _⟩

namespace Registered

variable {s s' : Sdl} (h : Registered s)
include h

/-- Agreement is about the registry alone. -/
theorem same (hs : SameRegistry s s') : Registered s' where
  wellKeyed := hs.wellKeyed
  nodup := hs.addresses ▸ h.nodup
  mem_addresses a := by rw [hs.addresses, hs.stored a, h.mem_addresses a]

/-- The address of an instance that is stored is listed once. -/
theorem count_eq_one {a : String} (ha : (s.e2tInstance a).isSome) : s.addresses.count a = 1 :=
  List.count_eq_one_of_mem h.nodup ((h.mem_addresses a).2 ha)

/-- There is a list of addresses where an instance is stored. -/
theorem exists_addresses {a : String} (ha : (s.e2tInstance a).isSome) :
    ∃ as, s.e2tAddresses = some as := by
  have hmem := (h.mem_addresses a).2 ha
  cases has : s.e2tAddresses with
  | some as => exact ⟨as, Eq.refl _⟩
  | none => simp [Sdl.addresses, has] at hmem

/-- Adding both records of an address that is not stored. -/
theorem register {a : String} (hne : a ≠ "") (ha : ¬ (s.e2tInstance a).isSome) (podName : String)
    (t : Int64) : Registered (s.register a podName t) where
  wellKeyed := h.wellKeyed.register hne podName t
  nodup := by
    have hnot : a ∉ s.addresses := fun hmem => ha ((h.mem_addresses a).1 hmem)
    rw [Sdl.register, Sdl.addresses_putAddresses, List.nodup_append]
    refine ⟨h.nodup, List.nodup_singleton a, ?_⟩
    rintro x hx y hy rfl
    rw [List.mem_singleton.1 hy] at hx
    exact hnot hx
  mem_addresses b := by
    by_cases hb : b = a
    · subst hb
      simp [Sdl.register]
    · simp [Sdl.register, hb, h.mem_addresses]

/-- Removing both records of an address. -/
theorem deregister (a : String) : Registered (s.deregister a) where
  wellKeyed := h.wellKeyed.deregister a
  nodup := by
    rw [Sdl.deregister, Sdl.addresses_putAddresses]
    exact h.nodup.filter _
  mem_addresses b := by
    by_cases hb : b = a
    · subst hb
      simp [Sdl.deregister, E2TInstancesManager.removeAddressFromList]
    · simp [Sdl.deregister, E2TInstancesManager.removeAddressFromList, hb, h.mem_addresses]

end Registered

/-- Writing an instance that is stored. -/
theorem SameRegistry.putInstance {s : Sdl} (hs : s.WellKeyed) {i : E2TInstance}
    (hi : (s.e2tInstance i.address).isSome) : SameRegistry s (s.putInstance i) where
  wellKeyed := by
    obtain ⟨i₀, hi₀⟩ := Option.isSome_iff_exists.1 hi
    exact hs.putInstance (hs.e2tInstance hi₀).2
  addresses := Sdl.addresses_putInstance s i
  stored a := by
    by_cases ha : a = i.address
    · subst ha
      simp [hi]
    · simp [ha]

/-! ### What does not touch the registry -/

/-- A read fails as the store does, or with the general error. -/
theorem storeRead_eq_error {α : Type} {read : Sdl → Except Err α} {c : Outcome} {s : Sdl} {e : Err}
    (h : (storeRead read c s).1 = .error e) : e = .internal ∨ read s = .error e := by
  unfold storeRead at h
  split at h
  · exact .inr h
  · rename_i hread _
    obtain rfl := Except.error.inj h
    exact .inr hread
  · exact .inl (Except.error.inj h).symm

/-- What a read of the list answers. -/
theorem getE2TAddresses_cases (s : Sdl) : RNibReader.getE2TAddresses s = .ok s.addresses ∨
    RNibReader.getE2TAddresses s = .error .resourceNotFound ∧ s.addresses = [] := by
  cases h : s.e2tAddresses <;> simp [RNibReader.getE2TAddresses, Sdl.addresses, h]

/-- A write leaves the store as it was, or as it builds it. -/
theorem storeWrite_snd (write : Sdl → Except Err Sdl) (c : Outcome) (s : Sdl) :
    (storeWrite write c s).2 = s ∨ write s = .ok (storeWrite write c s).2 := by
  unfold storeWrite
  split
  · exact .inl rfl
  · rename_i h _
    exact .inr h
  · exact .inl rfl
  · rename_i h _
    exact .inr h

/-- A write that returns nil took effect. -/
theorem storeWrite_eq_ok {write : Sdl → Except Err Sdl} {c : Outcome} {s : Sdl}
    (h : (storeWrite write c s).1 = .ok ()) : write s = .ok (storeWrite write c s).2 := by
  unfold storeWrite at h ⊢
  split at h
  · cases h
  · assumption
  · cases h
  · cases h

/-- An instance that is read is stored, and one that is not found is not. -/
theorem always_getE2TInstance_any {P : Sdl → Prop} {s : Sdl} (hs : s.WellKeyed) (a : String) :
    (RNibDataService.getE2TInstance a).Always exec (fun _ => True) P
      (fun x s' => s' = s ∧ (∀ i, x = .ok i → s.e2tInstance a = some i) ∧
        (x = .error .resourceNotFound → s.e2tInstance a = none)) s := by
  intro c _
  refine ⟨storeRead_snd .., fun i hi => ?_, fun hnone => ?_⟩
  · exact hs.getE2TInstance_eq_ok.1 (storeRead_eq_ok.1 hi).2
  · exact (getE2TInstance_eq_notFound ((storeRead_eq_error hnone).resolve_left nofun)).2

/-- A record that is read is stored, and one that is not found has a name and is not. -/
theorem always_getNodeb_any {P : Sdl → Prop} {s : Sdl} (hs : s.WellKeyed) (r : String) :
    (RNibDataService.getNodeb r).Always exec (fun _ => True) P
      (fun x s' => s' = s ∧ (∀ nb, x = .ok nb → s.nodeb r = some nb) ∧
        (x = .error .resourceNotFound → r ≠ "" ∧ s.nodeb r = none)) s := by
  intro c _
  refine ⟨storeRead_snd .., fun nb hnb => ?_, fun hnone => ?_⟩
  · exact hs.getNodeb_eq_ok.1 (storeRead_eq_ok.1 hnb).2
  · exact getNodeb_eq_notFound ((storeRead_eq_error hnone).resolve_left nofun)

/-- Saving an instance that is stored. -/
theorem always_saveE2TInstance_any {P : Sdl → Prop} {s : Sdl} (hs : s.WellKeyed) {i : E2TInstance}
    (hi : (s.e2tInstance i.address).isSome) :
    (RNibDataService.saveE2TInstance i).Always exec (fun _ => True) P
      (fun _ s' => SameRegistry s s') s := by
  intro c _
  obtain ⟨i₀, hi₀⟩ := Option.isSome_iff_exists.1 hi
  change SameRegistry s (storeWrite (RNibWriter.saveE2TInstance i) c s).2
  rcases storeWrite_snd (RNibWriter.saveE2TInstance i) c s with heq | hok
  · rw [heq]
    exact .rfl hs
  · rw [saveE2TInstance_of_ne (hs.e2tInstance hi₀).2] at hok
    rw [← Except.ok.inj hok]
    exact .putInstance hs hi

/-- A call that leaves the registry as it is, however it is answered. -/
def Quiet (o : Call) : Prop := ∀ c s, s.WellKeyed → SameRegistry s (exec o c s).2

/-- A call that changes nothing leaves the registry. -/
theorem quiet_of_eq {o : Call} (h : ∀ c s, (exec o c s).2 = s) : Quiet o := fun c s hs => by
  rw [h c s]
  exact .rfl hs

/-- Reading a record does. -/
theorem quiet_getNodeb (r : String) : Quiet (.getNodeb r) := quiet_of_eq fun _ _ => storeRead_snd ..

/-- Writing a record does too, whatever becomes of the write. -/
theorem quiet_updateNodebInfo (nb : NodebInfo) : Quiet (.updateNodebInfo nb) := by
  intro c s hs
  rw [exec]
  rcases storeWrite_snd (RNibWriter.updateNodebInfo nb) c s with heq | hok
  · rw [heq]
    exact .rfl hs
  · obtain ⟨hne, heq⟩ := updateNodebInfo_ok hok
    rw [heq]
    exact ⟨hs.putNodeb hne, Sdl.addresses_putNodeb s nb, fun a => by simp⟩

/-- A property of programs that is kept by sequencing and holds of what
`DisconnectRan` is made of: calls that leave the registry as it is, and
`RemoveRanFromInstance`. -/
structure Disconnects (K : (α : Type) → Prog α → Prop) : Prop where
  ret : ∀ {α : Type} (a : α), K α (pure a)
  bind : ∀ {α β : Type} {p : Prog α} {f : α → Prog β}, K α p → (∀ a, K β (f a)) → K β (p >>= f)
  quiet : ∀ {o : Call}, Quiet o → o.IsPlain → K o.Answer (call o)
  removeRanFromInstance : ∀ r a, K _ (E2TInstancesManager.removeRanFromInstance r a)

namespace Disconnects

variable {K : (α : Type) → Prog α → Prop} (hK : Disconnects K)
include hK

/-- Dissociating a RAN is made of calls that leave the registry, and of a change of a list under
the mutex. -/
theorem dissociateRan (a r : String) : K _ (E2TAssociationManager.dissociateRan a r) := by
  refine hK.bind (hK.quiet (quiet_getNodeb r) trivial) fun x => ?_
  rcases x with e | nb
  · exact hK.ret _
  · refine hK.bind (hK.quiet (quiet_updateNodebInfo _) trivial) fun x => ?_
    rcases x with e | ⟨⟩
    · exact hK.ret _
    · refine hK.bind (hK.removeRanFromInstance r a) fun x => ?_
      rcases x with e | ⟨⟩
      · exact hK.ret _
      · exact hK.bind (hK.quiet (o := .rmDissociateRanE2TInstance a r)
          (quiet_of_eq fun _ _ => rfl) trivial) fun _ => hK.ret _

/-- So is disconnecting it. -/
theorem disconnectRan (r : String) : K _ (RanDisconnectionManager.disconnectRan r) := by
  refine hK.bind (hK.quiet (quiet_getNodeb r) trivial) fun x => ?_
  rcases x with e | nb
  · exact hK.ret _
  · dsimp only
    split
    · exact hK.ret _
    · exact hK.quiet (quiet_updateNodebInfo _) trivial
    · refine hK.bind (hK.quiet (quiet_updateNodebInfo _) trivial) fun x => ?_
      rcases x with e | ⟨⟩
      · exact hK.ret _
      · exact hK.dissociateRan _ _

/-- So is disconnecting the RANs of an instance, by induction on them. -/
theorem handleExistingE2TInstance (rs : List String) :
    K _ (E2TermInitNotificationHandler.handleExistingE2TInstance rs) := by
  induction rs with
  | nil => exact hK.ret ()
  | cons r rs ih =>
      refine hK.bind (hK.disconnectRan r) fun x => ?_
      split
      · exact ih
      · exact ih
      · exact hK.ret ()

end Disconnects

/-- A program that leaves the registry as it is, whatever its calls are answered. -/
def Keeps {α : Type} (p : Prog α) : Prop :=
  ∀ s₀ s, SameRegistry s₀ s →
    p.Always exec (fun _ => True) (SameRegistry s₀) (fun _ => SameRegistry s₀) s

section Keeps

variable {α β : Type}

/-- A program that returns at once leaves the registry. -/
theorem keeps_ret (a : α) : Keeps (pure a : Prog α) := fun _ _ h => h

/-- So do two in sequence that do. -/
theorem keeps_bind {p : Prog α} {f : α → Prog β} (hp : Keeps p) (hf : ∀ a, Keeps (f a)) :
    Keeps (p >>= f) := fun s₀ s h =>
  always_bind_of (hp s₀ s h) fun a s' hs' => hf a s₀ s' hs'

/-- So does a call that does. -/
theorem keeps_call {o : Call} (h : Quiet o) : Keeps (call o) :=
  fun _ s hs c _ => hs.trans (h c s hs.wellKeyed)

/-- So does a program under the mutex that does. -/
theorem keeps_withMutex {m : MuxMethod} {body : Prog α} (h : Keeps body) :
    Keeps (withMutex m body) :=
  keeps_bind (keeps_call (quiet_of_eq fun _ _ => rfl)) fun _ => keeps_bind h fun a =>
    keeps_bind (keeps_call (quiet_of_eq fun _ _ => rfl)) fun _ => keeps_ret a

/-- The instance that is written is the one that was read, with fewer RANs. -/
theorem keeps_removeRanFromInstance (r a : String) :
    Keeps (E2TInstancesManager.removeRanFromInstance r a) := by
  refine keeps_withMutex fun s₀ s hs => ?_
  refine always_bind_of (always_getE2TInstance_any hs.wellKeyed a) ?_
  rintro x s' ⟨rfl, hread, -⟩
  rcases x with e | i
  · exact hs
  · have hi := hread i rfl
    have haddr : i.address = a := (hs.wellKeyed.e2tInstance hi).1
    refine always_bind_of (always_saveE2TInstance_any hs.wellKeyed (by simp [haddr, hi])) ?_
    intro x s' hsave
    rcases x with e | ⟨⟩ <;> exact hs.trans hsave

/-- Programs that disconnect RANs are made of such that leave the registry. -/
theorem disconnects_keeps : Disconnects fun α (p : Prog α) => Keeps p where
  ret := keeps_ret
  bind := keeps_bind
  quiet h _ := keeps_call h
  removeRanFromInstance := keeps_removeRanFromInstance

end Keeps

/-! ### The two writes -/

/-- The write of the instance, which call number `n` makes, takes effect. -/
def WritesInstance (cs : List Outcome) (n : Nat) : Prop := (outcome cs n).store ≠ .fails

/-- The write of the list takes effect: the write of the instance, call number
`n`, and the read of the list succeed, and the write is not without effect. -/
def WritesAddresses (cs : List Outcome) (n : Nat) : Prop :=
  (outcome cs n).store = .ok ∧ (outcome cs (n + 1)).store = .ok ∧
    (outcome cs (n + 2)).store ≠ .fails

instance (cs : List Outcome) (n : Nat) : Decidable (WritesInstance cs n) :=
  inferInstanceAs (Decidable (_ ≠ _))

instance (cs : List Outcome) (n : Nat) : Decidable (WritesAddresses cs n) :=
  inferInstanceAs (Decidable (_ ∧ _ ∧ _))

section Runs

variable {s : Sdl} {a : String}

/-- **Where `AddE2TInstance` ends:** with nothing written, with the instance
alone, or with both records. -/
theorem run_addE2TInstance (ha : a ≠ "") (podName : String) (cs : List Outcome) :
    ∃ t, ((E2TInstancesManager.addE2TInstance a podName).run exec cs s).2 =
      if WritesAddresses cs 2 then s.register a podName t
      else if WritesInstance cs 2 then s.putInstance (newE2TInstance a podName t) else s := by
  refine ⟨(outcome cs 1).time, ?_⟩
  have hsave : RNibWriter.saveE2TInstance (newE2TInstance a podName (outcome cs 1).time) s =
      .ok (s.putInstance (newE2TInstance a podName (outcome cs 1).time)) :=
    saveE2TInstance_of_ne (by simpa using ha) s
  have hlist : ∀ as s', RNibWriter.saveE2TAddresses as s' = .ok (s'.putAddresses as) :=
    saveE2TAddresses_eq
  rcases h₂ : (outcome cs 2).store <;> rcases h₃ : (outcome cs 3).store <;>
    rcases h₄ : (outcome cs 4).store <;> cases has : s.e2tAddresses <;>
    simp [E2TInstancesManager.addE2TInstance, withMutex, storeWrite, storeRead, hsave, hlist,
      RNibReader.getE2TAddresses, WritesAddresses, WritesInstance, h₂, h₃, h₄, has, Sdl.register,
      Sdl.addresses]

/-- **Where `RemoveE2TInstance` ends.** -/
theorem run_removeE2TInstance (ha : a ≠ "") (cs : List Outcome) :
    ((E2TInstancesManager.removeE2TInstance a).run exec cs s).2 =
      if WritesAddresses cs 1 ∧ s.e2tAddresses.isSome then s.deregister a
      else if WritesInstance cs 1 then s.dropInstance a else s := by
  have hremove : RNibWriter.removeE2TInstance a s = .ok (s.dropInstance a) :=
    removeE2TInstance_of_ne ha s
  have hlist : ∀ as s', RNibWriter.saveE2TAddresses as s' = .ok (s'.putAddresses as) :=
    saveE2TAddresses_eq
  rcases h₁ : (outcome cs 1).store <;> rcases h₂ : (outcome cs 2).store <;>
    rcases h₃ : (outcome cs 3).store <;> cases has : s.e2tAddresses <;>
    simp [E2TInstancesManager.removeE2TInstance, withMutex, storeWrite, storeRead, hremove, hlist,
      RNibReader.getE2TAddresses, WritesAddresses, WritesInstance, h₁, h₂, h₃, has,
      Sdl.deregister, Sdl.addresses]

/-- An E2_TERM_INIT of a stored address leaves the registry as it is. -/
theorem run_handleAddress_of_stored (hs : s.WellKeyed) (ha : (s.e2tInstance a).isSome)
    (podName : String) (cs : List Outcome) :
    SameRegistry s ((E2TermInitNotificationHandler.handleAddress a podName).run exec cs s).2 := by
  have hall : (E2TermInitNotificationHandler.handleAddress a podName).Always exec (fun _ => True)
      (SameRegistry s) (fun _ => SameRegistry s) s := by
    refine always_bind_of (always_getE2TInstance_any hs a) ?_
    rintro x s' ⟨rfl, hread, hnone⟩
    have hsame : SameRegistry s' s' := .rfl hs
    split
    · rw [hnone rfl] at ha
      cases ha
    · exact hsame
    · split
      · exact hsame
      · split
        · exact hsame
        · exact disconnects_keeps.handleExistingE2TInstance _ s' s' hsame
  exact run_state_of_always hall (fun _ _ => trivial) trivial

/-- One of an address that is not stored adds it, unless the read or the routing
manager fails. -/
theorem run_handleAddress_of_not_stored (ha : a ≠ "") (hnone : s.e2tInstance a = none)
    (podName : String) (cs : List Outcome) :
    ∃ t, ((E2TermInitNotificationHandler.handleAddress a podName).run exec cs s).2 =
      if (outcome cs 0).store = .ok ∧ (outcome cs 1).rm = true ∧ WritesAddresses cs 4 then
        s.register a podName t
      else if (outcome cs 0).store = .ok ∧ (outcome cs 1).rm = true ∧ WritesInstance cs 4 then
        s.putInstance (newE2TInstance a podName t)
      else s := by
  have hread : RNibReader.getE2TInstance a s = .error .resourceNotFound := by
    rw [RNibReader.getE2TInstance, if_neg ha, hnone, Option.elim_none]
  obtain ⟨t, hadd⟩ := run_addE2TInstance (s := s) ha podName cs.tail.tail
  refine ⟨t, ?_⟩
  rw [E2TermInitNotificationHandler.handleAddress, E2TInstancesManager.getE2TInstance,
    RNibDataService.run_getE2TInstance]
  rcases h₀ : (outcome cs 0).store
  · simp only [storeRead, h₀, hread, E2TermInitNotificationHandler.handleNewE2TInstance,
      RoutingManagerClient.run_addE2TInstance, outcome_tail]
    rcases h₁ : (outcome cs 1).rm
    · simp [answer]
    · simp only [answer, if_true, pure_eq_ret, run_bind_ret, true_and]
      exact hadd
  all_goals simp [storeRead, h₀, hread]

end Runs

/-! ### Runs of calls -/

/-- The calls that change the registry. -/
inductive RegistryCall
  | e2TermInit (request : NotificationRequest)
  | addE2TInstance (address podName : String)
  | removeE2TInstance (address : String)

namespace RegistryCall

/-- The program of a call. -/
def prog (codecs : Codecs) : RegistryCall → Prog Unit
  | e2TermInit request => E2TermInitNotificationHandler.handle codecs request
  | addE2TInstance address podName => do
      let _ ← E2TInstancesManager.addE2TInstance address podName
      return ()
  | removeE2TInstance address => do
      let _ ← E2TInstancesManager.removeE2TInstance address
      return ()

/-- The store after a call whose own calls are answered by `cs`. -/
def after (codecs : Codecs) (call : RegistryCall) (cs : List Outcome) (s : Sdl) : Sdl :=
  ((call.prog codecs).run exec cs s).2

/-- The failures that a call meets do not tear the two records apart: where it
writes the instance of an address it writes the list as well, and it does not
write the list for an address that is stored already. -/
def Untorn (codecs : Codecs) : RegistryCall → List Outcome → Sdl → Prop
  | e2TermInit request, cs, s => ∀ payload, codecs.unmarshalE2TermInit request.payload =
      some payload → payload.address ≠ "" → s.e2tInstance payload.address = none →
        (outcome cs 0).store = .ok → (outcome cs 1).rm = true →
          WritesInstance cs 4 → WritesAddresses cs 4
  | addE2TInstance address _, cs, s => address ≠ "" →
      if (s.e2tInstance address).isSome then ¬ WritesAddresses cs 2
      else WritesInstance cs 2 → WritesAddresses cs 2
  | removeE2TInstance address, cs, s => (s.e2tInstance address).isSome →
      WritesInstance cs 1 → WritesAddresses cs 1

variable {codecs : Codecs} {s : Sdl}

/-- An address that is empty is never written. -/
theorem run_addE2TInstance_empty (podName : String) (cs : List Outcome) :
    ((E2TInstancesManager.addE2TInstance "" podName).run exec cs s).2 = s := by
  have hsave : ∀ t, RNibWriter.saveE2TInstance (newE2TInstance "" podName t) s =
      .error .validation := fun t => rfl
  simp [E2TInstancesManager.addE2TInstance, withMutex, storeWrite, hsave]

/-- Removing the instance of an empty address changes nothing, whatever fails. -/
theorem run_removeE2TInstance_empty (cs : List Outcome) :
    ((E2TInstancesManager.removeE2TInstance "").run exec cs s).2 = s := by
  have hremove : RNibWriter.removeE2TInstance "" s = .error .validation := rfl
  simp [E2TInstancesManager.removeE2TInstance, withMutex, storeWrite, hremove]

/-- **The step lemma:** an untorn call keeps the two records together. -/
theorem registered_after (h : Registered s) (call : RegistryCall) {cs : List Outcome}
    (hok : call.Untorn codecs cs s) : Registered (call.after codecs cs s) := by
  cases call with
  | e2TermInit request =>
      rw [after, prog, E2TermInitNotificationHandler.handle]
      split
      · exact h
      rename_i payload hpayload
      split
      · exact h
      rename_i hne
      cases hi : s.e2tInstance payload.address with
      | some i =>
          have hstored : (s.e2tInstance payload.address).isSome := by rw [hi]; rfl
          exact h.same (run_handleAddress_of_stored h.wellKeyed hstored ..)
      | none =>
          have hnot : ¬ (s.e2tInstance payload.address).isSome := by simp [hi]
          obtain ⟨t, ht⟩ := run_handleAddress_of_not_stored hne hi payload.podName cs
          rw [ht]
          split
          · exact h.register hne hnot _ t
          · rename_i hnotBoth
            split
            · rename_i hwrites
              exact absurd ⟨hwrites.1, hwrites.2.1,
                hok payload hpayload hne hi hwrites.1 hwrites.2.1 hwrites.2.2⟩ hnotBoth
            · exact h
  | addE2TInstance a podName =>
      rw [after, prog, pure_eq_ret, run_bind_ret]
      by_cases hne : a = ""
      · subst hne
        rw [run_addE2TInstance_empty]
        exact h
      · obtain ⟨t, ht⟩ := run_addE2TInstance (s := s) hne podName cs
        have hok := hok hne
        rw [ht]
        split at hok
        · rename_i hstored
          rw [if_neg hok]
          split
          · exact h.same (.putInstance h.wellKeyed (by simpa using hstored))
          · exact h
        · rename_i hnot
          split
          · exact h.register hne hnot podName t
          · rename_i hnotBoth
            rw [if_neg fun hwrites => hnotBoth (hok hwrites)]
            exact h
  | removeE2TInstance a =>
      rw [after, prog, pure_eq_ret, run_bind_ret]
      by_cases hne : a = ""
      · subst hne
        rw [run_removeE2TInstance_empty]
        exact h
      · rw [run_removeE2TInstance hne]
        split
        · exact h.deregister a
        · rename_i hnotBoth
          split
          · rename_i hwrites
            by_cases hstored : (s.e2tInstance a).isSome
            · obtain ⟨as, has⟩ := h.exists_addresses hstored
              exact absurd ⟨hok hstored hwrites, by rw [has]; rfl⟩ hnotBoth
            · -- nothing was stored, and nothing is removed
              refine h.same
                ⟨h.wellKeyed.dropInstance a, Sdl.addresses_dropInstance s a, fun b => ?_⟩
              by_cases hb : b = a
              · subst hb
                simpa using hstored
              · simp [hb]
          · exact h

/-- An E2_TERM_INIT that meets no failure leaves its address stored. -/
theorem stored_after_e2TermInit (h : Registered s) {request : NotificationRequest}
    {payload : E2TermInitPayload} (hp : codecs.unmarshalE2TermInit request.payload = some payload)
    (hne : payload.address ≠ "") {cs : List Outcome} (hcs : ∀ c ∈ cs, Admits false c) :
    ((e2TermInit request).Untorn codecs cs s) ∧
      (((e2TermInit request).after codecs cs s).e2tInstance payload.address).isSome := by
  have hout := outcome_of_forall hcs (admits_default false)
  have hboth : WritesAddresses cs 4 := by
    refine ⟨(hout 4).1, (hout 5).1, ?_⟩
    rw [(hout 6).1]
    exact nofun
  refine ⟨fun _ _ _ _ _ _ _ => hboth, ?_⟩
  rw [after, prog, E2TermInitNotificationHandler.handle, hp]
  simp only [if_neg hne]
  cases hi : s.e2tInstance payload.address with
  | some i =>
      have hstored : (s.e2tInstance payload.address).isSome := by rw [hi]; rfl
      rw [(run_handleAddress_of_stored h.wellKeyed hstored ..).stored]
      exact hstored
  | none =>
      obtain ⟨t, ht⟩ := run_handleAddress_of_not_stored hne hi payload.podName cs
      rw [ht, if_pos ⟨(hout 0).1, (hout 1).2 rfl, hboth⟩]
      simp [Sdl.register]

end RegistryCall

/-- The stores reached from a store whose registry is in order by calls whose own
calls may fail, each call with its failures and its store as `Ok` says. -/
inductive RegistryReached (codecs : Codecs) (Ok : RegistryCall → List Outcome → Sdl → Prop) :
    Sdl → Prop
  | start {s : Sdl} : Registered s → RegistryReached codecs Ok s
  | step {s : Sdl} {call : RegistryCall} {cs : List Outcome} : RegistryReached codecs Ok s →
      Ok call cs s → RegistryReached codecs Ok (call.after codecs cs s)

/-- The registry has recovered, or will: the list has no duplicates, and an
E2_TERM_INIT that meets no failure leaves its address stored and listed once. -/
def Recovers (codecs : Codecs) (s : Sdl) : Prop :=
  s.addresses.Nodup ∧ ∀ request payload cs,
    codecs.unmarshalE2TermInit request.payload = some payload → payload.address ≠ "" →
      (∀ c ∈ cs, Admits false c) →
        (((RegistryCall.e2TermInit request).after codecs cs s).e2tInstance
          payload.address).isSome ∧
        ((RegistryCall.e2TermInit request).after codecs cs s).addresses.count payload.address = 1

/-- The run lemma. -/
theorem RegistryReached.registered {codecs : Codecs} {s : Sdl}
    (h : RegistryReached codecs (RegistryCall.Untorn codecs) s) : Registered s := by
  induction h with
  | start hs => exact hs
  | step _ hok ih => exact RegistryCall.registered_after ih _ hok

/-- **The registry recovers from failures that do not tear it.** -/
theorem recovers_of_registryReached {codecs : Codecs} {s : Sdl}
    (h : RegistryReached codecs (RegistryCall.Untorn codecs) s) : Recovers codecs s := by
  have hs := h.registered
  refine ⟨hs.nodup, fun request payload cs hp hne hcs => ?_⟩
  obtain ⟨hok, hstored⟩ := RegistryCall.stored_after_e2TermInit hs hp hne hcs
  exact ⟨hstored, (RegistryCall.registered_after hs _ hok).count_eq_one hstored⟩

/-- **A torn call is not recovered from:** after it the list has a duplicate, or
an E2_TERM_INIT that meets no failure does not leave its address listed once.
The codec must know a message for every address, so that one can be sent. -/
theorem not_recovers_of_torn {codecs : Codecs}
    (hcodecs : ∀ a, ∃ payload, codecs.unmarshalE2TermInit payload = some { address := a })
    {s : Sdl} (h : Registered s) {call : RegistryCall} {cs : List Outcome}
    (htorn : ¬ call.Untorn codecs cs s) : ¬ Recovers codecs (call.after codecs cs s) := by
  -- an instance that is stored and not listed is not listed by the next E2_TERM_INIT
  have hlost : ∀ a podName t, a ≠ "" → s.e2tInstance a = none →
      ¬ Recovers codecs (s.putInstance (newE2TInstance a podName t)) := by
    rintro a podName t hne hnone ⟨-, hinit⟩
    obtain ⟨payload, hp⟩ := hcodecs a
    have hput : (s.putInstance (newE2TInstance a podName t)).WellKeyed :=
      h.wellKeyed.putInstance hne
    have hcount := (hinit { ranName := "", payload } { address := a } [] hp hne (by simp)).2
    rw [RegistryCall.after, RegistryCall.prog, E2TermInitNotificationHandler.handle] at hcount
    simp only [hp, if_neg hne] at hcount
    rw [(run_handleAddress_of_stored hput (by simp) ..).addresses,
      Sdl.addresses_putInstance] at hcount
    have hnot : a ∉ s.addresses := by
      rw [h.mem_addresses, hnone]
      rintro ⟨⟩
    rw [List.count_eq_zero.2 hnot] at hcount
    cases hcount
  cases call with
  | e2TermInit request =>
      simp only [RegistryCall.Untorn, not_forall] at htorn
      obtain ⟨payload, hp, hne, hnone, h₀, h₁, hwrites, hnot⟩ := htorn
      obtain ⟨t, ht⟩ := run_handleAddress_of_not_stored hne hnone payload.podName cs
      rw [RegistryCall.after, RegistryCall.prog, E2TermInitNotificationHandler.handle]
      simp only [hp, if_neg hne]
      rw [ht, if_neg fun hboth => hnot hboth.2.2, if_pos ⟨h₀, h₁, hwrites⟩]
      exact hlost _ _ _ hne hnone
  | addE2TInstance a podName =>
      simp only [RegistryCall.Untorn, Classical.not_imp] at htorn
      obtain ⟨hne, htorn⟩ := htorn
      obtain ⟨t, ht⟩ := run_addE2TInstance (s := s) hne podName cs
      rw [RegistryCall.after, RegistryCall.prog, pure_eq_ret, run_bind_ret, ht]
      split at htorn
      · -- the address is appended to a list that has it
        rename_i hstored
        rw [if_pos (not_not.1 htorn)]
        rintro ⟨hnodup, -⟩
        rw [Sdl.register, Sdl.addresses_putAddresses, List.nodup_append] at hnodup
        exact hnodup.2.2 a ((h.mem_addresses a).2 hstored) a (List.mem_singleton_self a) rfl
      · rename_i hnot
        rw [Classical.not_imp] at htorn
        rw [if_neg htorn.2, if_pos htorn.1]
        exact hlost _ _ _ hne (Option.not_isSome_iff_eq_none.1 hnot)
  | removeE2TInstance a =>
      simp only [RegistryCall.Untorn, Classical.not_imp] at htorn
      obtain ⟨hstored, hwrites, hnot⟩ := htorn
      have hne : a ≠ "" := by
        obtain ⟨i, hi⟩ := Option.isSome_iff_exists.1 hstored
        exact (h.wellKeyed.e2tInstance hi).2
      rw [RegistryCall.after, RegistryCall.prog, pure_eq_ret, run_bind_ret,
        run_removeE2TInstance hne, if_neg fun hboth => hnot hboth.1, if_pos hwrites]
      -- the next E2_TERM_INIT appends the address that is still listed
      rintro ⟨-, hinit⟩
      obtain ⟨payload, hp⟩ := hcodecs a
      have hboth : WritesAddresses [] 4 := ⟨rfl, rfl, by rintro ⟨⟩⟩
      have hcount := (hinit { ranName := "", payload } { address := a } [] hp hne (by simp)).2
      rw [RegistryCall.after, RegistryCall.prog, E2TermInitNotificationHandler.handle] at hcount
      simp only [hp, if_neg hne] at hcount
      obtain ⟨t, ht⟩ := run_handleAddress_of_not_stored hne
        (show (s.dropInstance a).e2tInstance a = none by simp) "" []
      rw [ht, if_pos ⟨rfl, rfl, hboth⟩, Sdl.register, Sdl.addresses_putAddresses,
        Sdl.addresses_dropInstance, List.count_append, h.count_eq_one hstored] at hcount
      simp at hcount

namespace Deployment

/-- The E2_TERM_INIT of the first termination, as a call. -/
def termInitCall : RegistryCall :=
  .e2TermInit { ranName := "", payload := termInitJson address₁ }

/-- It is tried in vain, as the store does not answer, and then succeeds; a
removal fails at its first write. -/
def recovered : Sdl :=
  (RegistryCall.removeE2TInstance address₁).after codecs [{}, { store := .fails }]
    (termInitCall.after codecs [] (termInitCall.after codecs [{ store := .fails }] .empty))

/-- The run in which an instance is added again after a failure is made of untorn calls. -/
theorem registryReached_recovered :
    RegistryReached codecs (RegistryCall.Untorn codecs) recovered := by
  refine .step (.step (.step (.start sound_empty.registered) ?_) ?_) ?_
  · intro payload _ _ _ hread
    cases hread
  · exact fun _ _ _ _ _ _ _ => ⟨rfl, rfl, nofun⟩
  · exact fun _ hwrites => absurd rfl hwrites

/-- The write of the list fails, after that of the instance. -/
def torn : Sdl := termInitCall.after codecs [{}, {}, {}, {}, {}, {}, { store := .fails }] .empty

end Deployment

open Deployment in
/-- The run with a read and a removal that fail. -/
theorem recovers_of_registryReached_recovered : Recovers codecs recovered :=
  recovers_of_registryReached registryReached_recovered

open Deployment in
/-- **An address that is lost between the two writes stays lost:** the next
E2_TERM_INIT finds the instance and leaves the list alone. -/
theorem not_recovers_of_registryReached :
    ¬ ∀ codecs s, RegistryReached codecs (fun _ _ _ => True) s → Recovers codecs s := by
  intro hall
  have hreached : RegistryReached codecs (fun _ _ _ => True) torn :=
    .step (.start sound_empty.registered) trivial
  have hunmarshal : codecs.unmarshalE2TermInit (termInitJson address₁) =
      some { address := address₁ } := by decide +kernel
  have hcount : (termInitCall.after codecs [] torn).addresses.count address₁ = 0 := by
    decide +kernel
  obtain ⟨-, hinit⟩ := hall _ _ hreached
  have hone : (termInitCall.after codecs [] torn).addresses.count address₁ = 1 :=
    (hinit { ranName := "", payload := termInitJson address₁ } { address := address₁ } []
      hunmarshal (by decide) (by simp)).2
  rw [hcount] at hone
  cases hone

end NearRtRic.E2Manager
