/-
# The association of RANs with E2 terminations

That a RAN is connected through an E2 termination is stored twice: as the
address in the record of the RAN, and as its name in the list of the instance.
`Sdl.group` and `Sdl.lists` read the two ends off the store, and
`Index.Mirrored` says that they agree.

Each update of a handler is one operation of that relation: a RAN joins an
instance (`associate`) or leaves it (`disconnect`), an instance is registered,
shut down, or cleared with all others.  Joining is sound only for a RAN that
has no instance.  X2 and ENDC setup see to that; an E2 setup request does not
look, and appends the name of a RAN that is listed already.  So the two ends
agree in every run in which no E2 setup request comes from a RAN that is
associated (`consistent_of_reached`), and any such request breaks them
(`E2SetupRequestNotificationHandler.not_mirrored_of_reassociated`).
-/

import NearRtRic.E2Manager.RedButton
import NearRtRic.Index.Mirrored

namespace NearRtRic.E2Manager

open Effect Index

/-! ### The two ends -/

/-- The instance a record names, if any. -/
def NodebInfo.association (nb : NodebInfo) : Option String :=
  if nb.associatedE2TInstanceAddress = "" then none else some nb.associatedE2TInstanceAddress

/-- A record is associated with an address where it has that address. -/
theorem association_eq_some {nb : NodebInfo} {a : String} (ha : a ≠ "") :
    nb.association = some a ↔ nb.associatedE2TInstanceAddress = a := by
  unfold NodebInfo.association
  split
  · rename_i h
    simp [h, Ne.symm ha]
  · simp

/-- It has no association where the address is empty. -/
theorem association_eq_none {nb : NodebInfo} :
    nb.association = none ↔ nb.associatedE2TInstanceAddress = "" := by
  unfold NodebInfo.association
  split <;> simp_all

/-- Records of the same RAN with the same address have the same association. -/
theorem SameRan.association_eq {nb nb' : NodebInfo} (h : SameRan nb nb') :
    nb'.association = nb.association := by
  rw [NodebInfo.association, NodebInfo.association, h.association]

namespace Sdl

variable {s s' : Sdl}

/-- The instance that the record of a RAN names. -/
def group (s : Sdl) (r : String) : Option String := (s.nodeb r).bind NodebInfo.association

/-- The RANs that an instance lists. -/
def lists (s : Sdl) (a : String) : Option (List String) :=
  (s.e2tInstance a).map (·.associatedRanList)

/-- Writing a record changes the association of its RAN alone. -/
theorem group_update {r : String} {nb : NodebInfo}
    (h : s'.nodeb = Function.update s.nodeb r (some nb)) :
    s'.group = Function.update s.group r nb.association := by
  funext r'
  simp only [group, h, Function.update_apply]
  split <;> rfl

/-- Where the records stay, so do the associations. -/
theorem group_congr (h : s'.nodeb = s.nodeb) : s'.group = s.group := by
  funext r
  simp only [group, h]

/-- Where the instances stay, so do their lists. -/
theorem lists_congr (h : s'.e2tInstance = s.e2tInstance) : s'.lists = s.lists := by
  funext a
  simp only [lists, h]

/-- Writing a record that names the same instance. -/
theorem group_putNodeb_same {nb nb' : NodebInfo} (hr : s.nodeb nb'.ranName = some nb)
    (h : nb'.association = nb.association) : (s.putNodeb nb').group = s.group := by
  rw [group_update (nodeb_putNodeb s nb'), h]
  refine Function.update_eq_iff.2 ⟨?_, fun _ _ => rfl⟩
  rw [group, hr, Option.bind_some]

/-- Writing an instance changes its own list alone. -/
theorem lists_putInstance (s : Sdl) (i : E2TInstance) :
    (s.putInstance i).lists = Function.update s.lists i.address (some i.associatedRanList) := by
  funext a
  simp only [lists, e2tInstance_putInstance, Function.update_apply]
  split <;> rfl

/-- Writing an instance with the list that it has. -/
theorem lists_putInstance_same {i i' : E2TInstance} (hi : s.e2tInstance i'.address = some i)
    (h : i'.associatedRanList = i.associatedRanList) : (s.putInstance i').lists = s.lists := by
  rw [lists_putInstance, h]
  refine Function.update_eq_iff.2 ⟨?_, fun _ _ => rfl⟩
  rw [lists, hi, Option.map_some]

/-- Changing the RANs of an instance changes its list, where it is stored. -/
theorem lists_updateRans (hs : s.WellKeyed) (a : String) (f : List String → List String) :
    (s.updateRans a f).lists = Function.update s.lists a ((s.lists a).map f) := by
  funext a'
  rw [lists, hs.e2tInstance_updateRans, Function.update_apply, Function.update_apply]
  split
  · rw [lists, Option.map_map, Option.map_map]
    rfl
  · rfl

end Sdl

/-- **The invariant of the association:** the store is sound, and the two ends
agree. -/
structure Linked (s : Sdl) : Prop where
  sound : Sound s
  mirrored : Mirrored s.group s.lists

/-- The empty store meets the invariant. -/
theorem linked_empty : Linked Sdl.empty := ⟨sound_empty, .empty⟩

/-! ### The moves of a setup handler -/

section Moves

variable {s s' : Sdl}

/-- An association that the routing manager agreed to gives the RAN to the instance. -/
theorem group_associate (s : Sdl) {a : String} (ha : a ≠ "") (nb : NodebInfo) :
    (E2TAssociationManager.associate a nb true s).group =
      Function.update s.group nb.ranName (some a) := by
  rw [Sdl.group_update (nodeb_associate a nb true)]
  have hassoc : (E2TAssociationManager.associated a nb
      (answer true .routingManager)).association = some a := by
    rw [association_eq_some ha]
    simp [answer, E2TAssociationManager.associated]
  rw [hassoc]

/-- And it puts the RAN on the list, where the instance is stored. -/
theorem lists_associate (hs : s.WellKeyed) (a : String) {nb : NodebInfo} (hnb : nb.ranName ≠ "") :
    (E2TAssociationManager.associate a nb true s).lists =
      Function.update s.lists a ((s.lists a).map (· ++ [nb.ranName])) := by
  have hput : (s.putNodeb (E2TAssociationManager.associated a nb
      (answer true .routingManager))).WellKeyed := hs.putNodeb (by simpa using hnb)
  have hsame : (s.putNodeb (E2TAssociationManager.associated a nb
      (answer true .routingManager))).lists = s.lists := Sdl.lists_congr (by simp)
  rw [E2TAssociationManager.associate, if_pos rfl, Sdl.lists_updateRans hput, hsame]

/-- Associating a RAN is joining the instance. -/
theorem mirrored_associate_iff (hm : Mirrored s.group s.lists) (hs : s.WellKeyed) {a : String}
    (ha : (s.e2tInstance a).isSome) {nb : NodebInfo} (hnb : nb.ranName ≠ "") :
    Mirrored (E2TAssociationManager.associate a nb true s).group
      (E2TAssociationManager.associate a nb true s).lists ↔ s.group nb.ranName = none := by
  obtain ⟨i, hi⟩ := Option.isSome_iff_exists.1 ha
  have hl : s.lists a = some i.associatedRanList := by rw [Sdl.lists, hi, Option.map_some]
  rw [group_associate s (hs.e2tInstance hi).2 nb, lists_associate hs a hnb, hl, Option.map_some]
  exact hm.link_iff hl

/-- **A move keeps the two ends in step,** where the RANs that it associates
again have no instance. -/
theorem Linked.ranMove (h : Linked s) {C : NodebInfo → Prop} {r : String}
    (hm : RanMove false C r s s')
    (hC : ∀ nb, s.nodeb r = some nb → C nb → nb.associatedE2TInstanceAddress = "") :
    Linked s' := by
  have hk := h.sound.wellKeyed
  refine ⟨h.sound.ranMove hm, ?_⟩
  cases hm with
  | create hr ha hid hnb hassoc hst hsave hup =>
      rename_i s₁ a id nb up
      obtain rfl : up = true := hup rfl
      obtain ⟨i, hi⟩ := Option.isSome_iff_exists.1 ha
      obtain ⟨hne, hnodeb, hinst, -, -⟩ := saveNodeb_ok hsave
      have hs₁ : s₁.WellKeyed := hk.saveNodeb (hid.trans hnb.symm) hsave
      have hr' : nb.ranName ≠ "" := by rwa [hnb, ← hid]
      have hl : s.lists a = some i.associatedRanList := by rw [Sdl.lists, hi, Option.map_some]
      have hgroup : s.group r = none := by rw [Sdl.group, hr, Option.bind_none]
      rw [group_associate s₁ (hk.e2tInstance hi).2 nb, lists_associate hs₁ a hr',
        Sdl.group_update hnodeb, Sdl.lists_congr hinst, hl, Option.map_some, hnb, hid,
        Function.update_idem]
      exact h.mirrored.link hl hgroup
  | associate hr hst hCnb ha hnb hup =>
      rename_i a nb nb' up
      obtain rfl : up = true := hup rfl
      have hname : nb'.ranName = r := hnb.ranName.trans (hk.nodeb hr).1
      rw [mirrored_associate_iff h.mirrored hk ha (by rw [hname]; exact (hk.nodeb hr).2), hname,
        Sdl.group, hr, Option.bind_some, association_eq_none]
      exact hC nb hr hCnb
  | restatus hr hst hnb hst' =>
      rename_i nb nb'
      have hname : s.nodeb nb'.ranName = some nb := by rwa [hnb.ranName, (hk.nodeb hr).1]
      rw [Sdl.group_putNodeb_same hname hnb.association_eq,
        Sdl.lists_congr (Sdl.e2tInstance_putNodeb s nb')]
      exact h.mirrored
  | resave hr hst hnb hst' hid hsave =>
      rename_i id nb nb'
      obtain ⟨-, hnodeb, hinst, -, -⟩ := saveNodeb_ok hsave
      have hgroup : s.group r = nb.association := by rw [Sdl.group, hr, Option.bind_some]
      rw [Sdl.group_update hnodeb, Sdl.lists_congr hinst, hid, hnb.association_eq, ← hgroup,
        Function.update_eq_self]
      exact h.mirrored

/-- **The moves of a setup handler** keep the invariant, where the RANs that they associate had no
association before. -/
theorem Linked.ranMoves (h : Linked s) {C : NodebInfo → Prop} {r : String}
    (hm : RanMoves false C r s s') (hC : ∀ nb, C nb → nb.associatedE2TInstanceAddress = "") :
    Linked s' := by
  induction hm with
  | refl => exact h
  | tail _ hm ih => exact ih.ranMove hm fun nb _ => hC nb

end Moves

/-! ### The other handlers -/

namespace Linked

variable {s : Sdl} (h : Linked s)
include h

/-- Where nothing is written but instances with the lists that they have. -/
theorem putInstance {i i' : E2TInstance} (hi : s.e2tInstance i'.address = some i)
    (hl : i'.associatedRanList = i.associatedRanList) : Linked (s.putInstance i') where
  sound := h.sound.putInstance hi
  mirrored := by
    rw [Sdl.group_congr (Sdl.nodeb_putInstance s i'), Sdl.lists_putInstance_same hi hl]
    exact h.mirrored

/-- A RAN that is disconnected leaves its instance. -/
theorem disconnect (r : String) : Linked (RanDisconnectionManager.disconnect r s) := by
  refine ⟨h.sound.disconnect r, ?_⟩
  have hk := h.sound.wellKeyed
  unfold RanDisconnectionManager.disconnect
  split
  · exact h.mirrored
  rename_i nb hr
  have hname : nb.ranName = r := (hk.nodeb hr).1
  have hgroup : s.group r = nb.association := by rw [Sdl.group, hr, Option.bind_some]
  split
  · exact h.mirrored
  · have hr' : s.nodeb (nb.setStatus .SHUT_DOWN).ranName = some nb := by simpa [hname] using hr
    rw [Sdl.group_putNodeb_same hr' (SameRan.setStatus nb _).association_eq,
      Sdl.lists_congr (Sdl.e2tInstance_putNodeb s _)]
    exact h.mirrored
  · have hput : (s.putNodeb (nb.setStatus .DISCONNECTED)).WellKeyed :=
      hk.putNodeb (by simpa using hk.ranName_ne hr)
    have hput' := hput.putNodeb (show ((nb.setStatus .DISCONNECTED).setAssociation "").ranName ≠ ""
      by simpa using hk.ranName_ne hr)
    have hnone : ((nb.setStatus .DISCONNECTED).setAssociation "").association = none :=
      association_eq_none.2 (by simp)
    simp only [E2TAssociationManager.dissociate, setStatus_association, setStatus_ranName]
    rw [Sdl.group_congr (Sdl.nodeb_updateRans ..),
      Sdl.group_update (Sdl.nodeb_putNodeb ..), Sdl.group_update (Sdl.nodeb_putNodeb ..), hnone,
      setAssociation_ranName, setStatus_ranName, Function.update_idem, hname,
      Sdl.lists_updateRans hput', Sdl.lists_congr (Sdl.e2tInstance_putNodeb _ _),
      Sdl.lists_congr (Sdl.e2tInstance_putNodeb _ _)]
    by_cases ha : nb.associatedE2TInstanceAddress = ""
    · -- it has none, and no instance is stored under the empty address
      have hlist : s.lists "" = none := by
        cases hi : s.e2tInstance "" with
        | none => rw [Sdl.lists, hi, Option.map_none]
        | some i => exact absurd rfl (hk.e2tInstance hi).2
      have hsame : s.group r = none := hgroup.trans (association_eq_none.2 ha)
      rw [ha, hlist, Option.map_none, ← hlist, Function.update_eq_self, ← hsame,
        Function.update_eq_self]
      exact h.mirrored
    · have hsome : s.group r = some nb.associatedE2TInstanceAddress :=
        hgroup.trans ((association_eq_some ha).2 rfl)
      obtain ⟨l, hl⟩ := Option.isSome_iff_exists.1 (h.mirrored.exists_group hsome)
      rw [hl, Option.map_some]
      exact h.mirrored.unlink hl hsome

/-- Disconnecting several RANs keeps the invariant, by induction on them. -/
theorem disconnectAll (rs : List String) : Linked (RanDisconnectionManager.disconnectAll rs s) := by
  induction rs generalizing s with
  | nil => exact h
  | cons r rs ih => exact ih (h.disconnect r)

/-- A new instance lists no RAN. -/
theorem register {a : String} (hne : a ≠ "") (ha : s.e2tInstance a = none) (podName : String)
    (t : Int64) : Linked (s.register a podName t) where
  sound := h.sound.register hne ha podName t
  mirrored := by
    have hl : s.lists a = none := by rw [Sdl.lists, ha, Option.map_none]
    have hlists : (s.register a podName t).lists = Function.update s.lists a (some []) := by
      rw [Sdl.register, Sdl.lists_congr (Sdl.e2tInstance_putAddresses _ _), Sdl.lists_putInstance,
        newE2TInstance_address]
      rfl
    rw [hlists, Sdl.group_congr (show (s.register a podName t).nodeb = s.nodeb by
      simp [Sdl.register])]
    exact h.mirrored.found hl

/-- **The RANs of an instance that is shut down lose it.**  All of them are
stored, so the loop over the list does not end early. -/
theorem shutdown {a : String} {i : E2TInstance} (hi : s.e2tInstance a = some i) (now : Int64) :
    Linked (E2TShutdownManager.down i now s) := by
  refine ⟨h.sound.shutdown hi now, ?_⟩
  have hk := h.sound.wellKeyed
  have haddr : i.address = a := (hk.e2tInstance hi).1
  have hl : s.lists a = some i.associatedRanList := by rw [Sdl.lists, hi, Option.map_some]
  have hmark : (s.putInstance (E2TShutdownManager.marked i now)).WellKeyed :=
    hk.putInstance (by simpa using hk.address_ne hi)
  have hstored : ∀ r ∈ i.associatedRanList,
      ((s.putInstance (E2TShutdownManager.marked i now)).nodeb r).isSome := by
    intro r hr
    have hgroup := (h.mirrored.mem hl r).1 hr
    rw [Sdl.nodeb_putInstance]
    cases hn : s.nodeb r with
    | none =>
        rw [Sdl.group, hn, Option.bind_none] at hgroup
        cases hgroup
    | some nb => rfl
  obtain ⟨hok, hclear⟩ := E2TShutdownManager.clearAssociation_of_stored hmark hstored
  have hkeep := E2TShutdownManager.nodeb_clearAssociation hmark i.associatedRanList
  have hinst := E2TShutdownManager.e2tInstance_clearAssociation
    (s := s.putInstance (E2TShutdownManager.marked i now)) i.associatedRanList
  have hdown : E2TShutdownManager.down i now s =
      (E2TShutdownManager.clearAssociation i.associatedRanList
        (s.putInstance (E2TShutdownManager.marked i now))).2.deregister a := by
    unfold E2TShutdownManager.down
    split
    · rename_i heq
      rw [heq] at hok
      cases hok
    · rename_i heq
      rw [heq, haddr]
  generalize E2TShutdownManager.clearAssociation i.associatedRanList
    (s.putInstance (E2TShutdownManager.marked i now)) = c at hclear hkeep hinst hdown
  have hgroup : (E2TShutdownManager.down i now s).group =
      fun r => if s.group r = some a then none else s.group r := by
    funext r
    have hn : (E2TShutdownManager.down i now s).nodeb r = c.2.nodeb r := by
      rw [hdown]
      simp [Sdl.deregister]
    rw [Sdl.group, hn]
    by_cases hr : r ∈ i.associatedRanList
    · rw [if_pos ((h.mirrored.mem hl r).1 hr), hclear r hr, Sdl.nodeb_putInstance]
      cases s.nodeb r with
      | none => rfl
      | some nb => exact association_eq_none.2 (by simp [E2TShutdownManager.disassociated])
    · rw [if_neg fun hg => hr ((h.mirrored.mem hl r).2 hg)]
      rcases hkeep r with heq | ⟨hmem, -⟩
      · rw [heq, Sdl.nodeb_putInstance]
        rfl
      · exact absurd hmem hr
  have hlists : (E2TShutdownManager.down i now s).lists = Function.update s.lists a none := by
    have hsame : c.2.lists = s.lists := by
      rw [Sdl.lists_congr hinst]
      exact Sdl.lists_putInstance_same (by simpa [haddr] using hi) (by simp)
    rw [hdown, Sdl.deregister, Sdl.lists_congr (Sdl.e2tInstance_putAddresses _ _)]
    funext b
    rw [Sdl.lists, Sdl.e2tInstance_dropInstance, Function.update_apply, Function.update_apply,
      ← hsame]
    split <;> rfl
  rw [hgroup, hlists]
  exact h.mirrored.dissolve a

end Linked

/-! ### Delete-all -/

namespace DeleteAllRequestHandler

variable {b : Bool} {s : Sdl}

/-- **What a delete-all that nobody interrupts does to the store:** it forces
all RANs to SHUT_DOWN where there is no address; else it sweeps them to
SHUTTING_DOWN, clears the instances, and, unless it stops there, sweeps on. -/
theorem leaves_handle (hs : Sound s) {I : Sdl → Prop} (config : Configuration)
    (hforce : s.addresses = [] → I (sweep forceShutdown s))
    (hclear : ∀ s₁, s₁ = sweep shuttingDown s → I (E2TInstancesManager.cleared s₁.instances s₁) ∧
      I (sweep shutDown (E2TInstancesManager.cleared s₁.instances s₁))) :
    Leaves b I (handle config) s := by
  have hk := hs.wellKeyed
  simp only [Leaves, handle, Program.always_bind, E2TInstancesManager.always_getE2TAddresses]
  split
  · rename_i hnil
    simp only [Program.always_bind,
      always_updateNodebs performs_forceShutdown forceShutdown_lawful hk]
    exact hforce (List.isEmpty_iff.1 hnil)
  · obtain ⟨hstop, hgo⟩ := hclear _ rfl
    have hs₁ : Sound (sweep shuttingDown s) := hs.shuttingDown _ _
    have hs₂ := hs₁.cleared hs₁.instances_stored
    simp only [Program.always_bind, RoutingManagerClient.always_dissociateAllRans,
      always_updateNodebs performs_shuttingDown shuttingDown_lawful hk]
    intro up _
    change Sound (swept shuttingDown (listedNames s) s false).1 at hs₁
    simp only [Program.always_bind,
      E2TInstancesManager.always_clearRansOfAllE2TInstances hs₁.wellKeyed, RmrSender.always_send]
    intro sent
    cases sent with
    | false => exact hstop
    | true =>
        simp only [answer, if_true]
        split
        · simp only [Program.always_bind, Time.always_sleep]
          refine (always_updateNodebs performs_shutDown shutDown_lawful hs₂.wellKeyed _).2 ?_
          cases up <;> exact hgo
        · cases up <;> exact hstop

/-- A sweep after which no record names an instance. -/
theorem group_sweep (hs : Sound s) {f : Sweep} (hf : f.Lawful)
    (hnone : ∀ r nb, s.nodeb r = some nb → (f.apply nb).association = none) :
    (sweep f s).group = fun _ => none := by
  funext r
  rw [Sdl.group, nodeb_sweep hs hf]
  cases hr : s.nodeb r with
  | none => rfl
  | some nb => exact hnone r nb hr

/-- **Delete-all leaves no association at either end.** -/
theorem linked_handle (h : Linked s) (config : Configuration) :
    Leaves b Linked (handle config) s := by
  have hs := h.sound
  refine leaves_handle hs config (fun hnil => ⟨hs.forceShutdown _ _, ?_⟩) ?_
  · have hgroup : (sweep forceShutdown s).group = fun _ => none :=
      group_sweep hs forceShutdown_lawful fun r nb _ =>
        association_eq_none.2 (by simp [Sweep.apply, forceShutdown, updated])
    have hlists : (sweep forceShutdown s).lists = fun _ => none := by
      funext a
      rw [Sdl.lists, e2tInstance_sweep, not_mem_addresses_of_nil hs hnil, Option.map_none]
    rw [hgroup, hlists]
    exact .empty
  · rintro s₁ rfl
    have hs₁ : Sound (sweep shuttingDown s) := hs.shuttingDown _ _
    have hs₂ := hs₁.cleared hs₁.instances_stored
    have hs₃ : Sound (sweep shutDown (E2TInstancesManager.cleared
      (sweep shuttingDown s).instances (sweep shuttingDown s))) := hs₂.shutDown _ _
    have hgroup₁ : (sweep shuttingDown s).group = fun _ => none := by
      refine group_sweep hs shuttingDown_lawful fun r nb hr => association_eq_none.2 ?_
      by_cases hst : nb.connectionStatus = .SHUT_DOWN
      · simpa [Sweep.apply, shuttingDown, hst] using hs.down hr (.inr hst)
      · simp [Sweep.apply, shuttingDown, hst, updated]
    have hgroup₂ := (Sdl.group_congr (E2TInstancesManager.nodeb_cleared
      (sweep shuttingDown s).instances)).trans hgroup₁
    have hlists₂ : (E2TInstancesManager.cleared (sweep shuttingDown s).instances
        (sweep shuttingDown s)).lists =
          fun a => ((sweep shuttingDown s).lists a).map fun _ => [] := by
      funext a
      rw [Sdl.lists, e2tInstance_clearedAll hs₁, Sdl.lists, Option.map_map, Option.map_map]
      rfl
    generalize E2TInstancesManager.cleared (sweep shuttingDown s).instances
      (sweep shuttingDown s) = s₂ at hs₂ hs₃ hgroup₂ hlists₂ ⊢
    have hmirrored : Mirrored s₂.group s₂.lists := by
      rw [hgroup₂, hlists₂]
      exact .clear _
    refine ⟨⟨hs₂, hmirrored⟩, hs₃, ?_⟩
    have hgroup₃ : (sweep shutDown s₂).group = fun _ => none := by
      refine group_sweep hs₂ shutDown_lawful fun r nb hr => ?_
      have hnone : nb.association = none := by
        have := congrFun hgroup₂ r
        rwa [Sdl.group, hr, Option.bind_some] at this
      by_cases hst : nb.connectionStatus = .SHUTTING_DOWN
      · rw [← hnone]
        refine SameRan.association_eq ⟨?_, ?_⟩ <;> simp [Sweep.apply, shutDown, hst, updated]
      · simpa [Sweep.apply, shutDown, hst] using hnone
    rw [hgroup₃, Sdl.lists_congr (e2tInstance_sweep shutDown), ← hgroup₂]
    exact hmirrored

end DeleteAllRequestHandler

/-! ### Runs -/

/-- A handler that runs alone: that of an event, or a whole delete-all. -/
inductive Handler
  | event (e : Event)
  | deleteAll

/-- A run of a handler, on a store and a routing manager that do not fail. -/
def Handler.Steps (codecs : Codecs) (config : Configuration) : Handler → Sdl → Sdl → Prop
  | event e, s, s' => e.Steps false codecs config s s'
  | deleteAll, s, s' => ∃ cs : List Outcome, (∀ c ∈ cs, Admits false c) ∧
      ((DeleteAllRequestHandler.handle config).run exec cs s).2 = s'

/-- The stores reached from the empty one by handlers that run one at a time,
each in a store that satisfies `Ok`. -/
inductive Reached (codecs : Codecs) (config : Configuration) (Ok : Handler → Sdl → Prop) :
    Sdl → Prop
  | empty : Reached codecs config Ok .empty
  | step {h : Handler} {s s' : Sdl} : Reached codecs config Ok s → Ok h s →
      h.Steps codecs config s s' → Reached codecs config Ok s'

/-- The handler is not that of an E2 setup request which reaches `AssociateRan`
for a stored RAN that is associated. -/
def AssociatesOnce (codecs : Codecs) : Handler → Sdl → Prop
  | .event (.e2SetupRequest request), s => ∀ a nb,
      E2SetupRequestNotificationHandler.reassociated codecs request s = some (a, nb) →
        nb.associatedE2TInstanceAddress = ""
  | _, _ => True

/-- The two ends of the association agree: for a stored instance and a stored
RAN, the instance lists the RAN if and only if the RAN names the instance, then
once, and no other instance lists it. -/
def AssociationConsistent (s : Sdl) : Prop :=
  ∀ a i r nb, s.e2tInstance a = some i → s.nodeb r = some nb →
    (r ∈ i.associatedRanList ↔ nb.associatedE2TInstanceAddress = a) ∧
    (r ∈ i.associatedRanList → i.associatedRanList.count r = 1) ∧
    ∀ a' i', s.e2tInstance a' = some i' → r ∈ i.associatedRanList →
      r ∈ i'.associatedRanList → a' = a

section Runs

variable {codecs : Codecs} {config : Configuration} {s s' : Sdl}

/-- The invariant implies that the two ends agree, as they are to. -/
theorem Linked.consistent (h : Linked s) : AssociationConsistent s := by
  intro a i r nb hi hr
  have hl : s.lists a = some i.associatedRanList := by rw [Sdl.lists, hi, Option.map_some]
  have hgroup : s.group r = some a ↔ nb.associatedE2TInstanceAddress = a := by
    rw [Sdl.group, hr, Option.bind_some, association_eq_some (h.sound.wellKeyed.e2tInstance hi).2]
  refine ⟨(h.mirrored.mem hl r).trans hgroup, fun hmem => ?_, fun a' i' hi' hmem hmem' => ?_⟩
  · exact h.mirrored.count_eq_one hl ((h.mirrored.mem hl r).1 hmem)
  · have hl' : s.lists a' = some i'.associatedRanList := by rw [Sdl.lists, hi', Option.map_some]
    exact h.mirrored.eq_of_mem hl hmem hl' hmem'

/-- The step lemma: a handler that associates no RAN twice keeps the two ends in
step. -/
theorem Linked.event (h : Linked s) {e : Event} (hok : AssociatesOnce codecs (.event e) s)
    (he : e.Effect false codecs s s') : Linked s' := by
  cases e with
  | e2SetupRequest request =>
      rcases he with rfl | hm
      · exact h
      · refine h.ranMove hm fun nb _ hC => ?_
        obtain ⟨a, ha⟩ := hC
        exact hok a nb ha
  | setupRequest protocol request => exact h.ranMoves he fun _ hC => hC
  | setupResponse msgType request => exact h.ranMoves he fun _ hC => hC.elim
  | ranConnectionLost request =>
      obtain rfl := he
      exact h.disconnect _
  | e2TermInit request =>
      rcases he with rfl | ⟨a, podName, t, hne, hnone, rfl⟩ | ⟨rs, rfl⟩
      · exact h
      · exact h.register hne hnone podName t
      · exact h.disconnectAll rs
  | keepAliveResponse a =>
      rcases he with rfl | ⟨i, t, hi, rfl⟩
      · exact h
      · refine h.putInstance (show _ = some i from ?_) rfl
        rw [← hi, ← (h.sound.wellKeyed.e2tInstance hi).1]
  | keepAliveExpired a =>
      rcases he with rfl | ⟨i, now, hi, rfl⟩
      · exact h
      · exact h.shutdown hi now

/-- **One step**: any handler that associates no RAN twice keeps the invariant. -/
theorem Linked.step (h : Linked s) {handler : Handler} (hok : AssociatesOnce codecs handler s)
    (hstep : handler.Steps codecs config s s') : Linked s' := by
  cases handler with
  | event e => exact h.event hok (Event.effect_of_steps h.sound hstep)
  | deleteAll =>
      obtain ⟨cs, hcs, rfl⟩ := hstep
      exact Program.run_state_of_always (DeleteAllRequestHandler.linked_handle h config) hcs
        (admits_default false)

/-- The run lemma. -/
theorem Reached.linked (h : Reached codecs config (AssociatesOnce codecs) s) : Linked s := by
  induction h with
  | empty => exact linked_empty
  | step _ hok hstep ih => exact ih.step hok hstep

/-- **The association of RANs and instances.**  In every run in which no E2
setup request associates a RAN that is associated already, the two ends agree in
every store that is reached. -/
theorem associationConsistent_of_reached (h : Reached codecs config (AssociatesOnce codecs) s) :
    AssociationConsistent s := h.linked.consistent

/-- **Any other E2 setup request breaks the association:** where it comes from a
RAN that is associated, the two ends disagree after it. -/
theorem E2SetupRequestNotificationHandler.not_mirrored_of_reassociated (h : Linked s)
    {request : NotificationRequest} {a : String} {nb : NodebInfo}
    (hre : reassociated codecs request s = some (a, nb))
    (hassoc : nb.associatedE2TInstanceAddress ≠ "")
    (hstep : (Handler.event (.e2SetupRequest request)).Steps codecs config s s') :
    ¬ Mirrored s'.group s'.lists := by
  have hk := h.sound.wellKeyed
  obtain ⟨ha, hr⟩ := reassociated_eq_some hre
  obtain ⟨cs, hcs, hrun⟩ := hstep
  obtain ⟨nb', up, hsame, hup, hassociate⟩ := Program.run_state_of_always
    (leaves_handle_of_reassociated hk config hre) hcs (admits_default false)
  obtain rfl : up = true := hup rfl
  obtain rfl : s' = E2TAssociationManager.associate a nb' true s := hrun.symm.trans hassociate
  have hname : nb'.ranName = request.ranName := hsame.ranName.trans (hk.nodeb hr).1
  rw [mirrored_associate_iff h.mirrored hk ha (by rw [hname]; exact (hk.nodeb hr).2), hname,
    Sdl.group, hr, Option.bind_some, association_eq_none]
  exact hassoc

end Runs

namespace Deployment

/-- A further event that meets the condition. -/
theorem reached_next {Ok : Handler → Sdl → Prop} {s : Sdl} (h : Reached codecs {} Ok s) (e : Event)
    (hok : Ok (.event e) s) : Reached codecs {} Ok (next s e) :=
  .step h hok (steps_next false s e)

/-- A further setup request that meets the condition, with an address that can be read off its
payload. -/
theorem reached_setUp {Ok : Handler → Sdl → Prop} {s : Sdl} (h : Reached codecs {} Ok s)
    {a r : String} (hne : a ≠ "") (hbar : '|' ∉ a.toList) (hok : Ok (.event (e2Setup a r)) s) :
    Reached codecs {} Ok (setUp a r s) :=
  .step h hok (steps_setUp false s r hne hbar)

/-- The setup request of a RAN without association associates it once. -/
theorem associatesOnce_e2Setup {s : Sdl} {a r : String} (h : s.group r = none) :
    AssociatesOnce codecs (.event (e2Setup a r)) s := by
  intro a' nb heq
  have hnb := (E2SetupRequestNotificationHandler.reassociated_eq_some heq).2
  rw [Sdl.group, hnb, Option.bind_some] at h
  exact association_eq_none.1 h

/-- A termination, and a gNB connected through it. -/
def setUpOnce : Sdl := setUp address₁ "RAN1" (after [termInit address₁, termInit address₂])

/-- The gNB sends its setup request again. -/
def setUpTwice : Sdl := setUp address₁ "RAN1" setUpOnce

/-- It loses its connection instead, and comes back through another termination. -/
def moved : Sdl :=
  setUp address₂ "RAN1" (next setUpOnce (.ranConnectionLost { ranName := "RAN1", payload := "" }))

/-- The gNB's first setup is reached under any condition that lets E2_TERM_INITs through, and
setup requests of a RAN without association. -/
theorem reached_setUpOnce {Ok : Handler → Sdl → Prop}
    (hterm : ∀ a s, Ok (.event (termInit a)) s)
    (hsetup : ∀ a s, s.group "RAN1" = none → Ok (.event (e2Setup a "RAN1")) s) :
    Reached codecs {} Ok setUpOnce := by
  have h : Reached codecs {} Ok (after [termInit address₁, termInit address₂]) :=
    reached_next (reached_next .empty _ (hterm _ _)) _ (hterm _ _)
  exact reached_setUp h (by decide) (by decide) (hsetup _ _ (by decide +kernel))

/-- Coming back after the loss of the connection associates no RAN twice. -/
theorem reached_moved : Reached codecs {} (AssociatesOnce codecs) moved := by
  have h := @reached_setUpOnce (AssociatesOnce codecs) (fun _ _ => trivial)
    fun _ _ => associatesOnce_e2Setup
  have hlost := reached_next h (.ranConnectionLost { ranName := "RAN1", payload := "" }) trivial
  exact reached_setUp hlost (by decide) (by decide) (associatesOnce_e2Setup (by decide +kernel))

/-- The second setup request is reached where there is no condition. -/
theorem reached_setUpTwice : Reached codecs {} (fun _ _ => True) setUpTwice :=
  reached_setUp (reached_setUpOnce (fun _ _ => trivial) fun _ _ _ => trivial) (by decide)
    (by decide) trivial

end Deployment

/-- The run in which the gNB moves to the second termination. -/
theorem associationConsistent_of_reached_moved : AssociationConsistent Deployment.moved :=
  associationConsistent_of_reached Deployment.reached_moved

open Deployment in
/-- **A repeated E2 setup request lists its RAN twice.** -/
theorem not_associationConsistent_of_reached :
    ¬ ∀ codecs config s, Reached codecs config (fun _ _ => True) s → AssociationConsistent s := by
  intro hall
  have hi : (setUpTwice.e2tInstance address₁).map (·.associatedRanList) =
      some ["RAN1", "RAN1"] := by
    decide +kernel
  have hr : (setUpTwice.nodeb "RAN1").isSome := by decide +kernel
  obtain ⟨i, hi, hlist⟩ := Option.map_eq_some_iff.1 hi
  obtain ⟨nb, hr⟩ := Option.isSome_iff_exists.1 hr
  obtain ⟨-, hcount, -⟩ := hall _ _ _ reached_setUpTwice address₁ i "RAN1" nb hi hr
  rw [hlist] at hcount
  exact absurd (hcount (by decide)) (by decide)

end NearRtRic.E2Manager
