/-
# The load of the E2 terminations

`findActiveE2TInstanceWithMinimumAssociatedRans` of
`managers/e2t_instances_manager.go` searches the instances for the one with the
shortest list of RANs, and `connectNewRan` of
`handlers/httpmsghandlers/setup_request_handler.go` associates a new RAN with it.
Between the search and the association the record of the RAN is saved, so the
choice and its effect are some calls apart.

The instances are bins and a new RAN is an item (`Placement.LeastLoaded`): a setup
request that succeeds is one placement (`always_handle_new`), and a sequence of
them is a sequence of placements (`Served.places`).
-/

import NearRtRic.E2Manager.Events
import NearRtRic.Placement.LeastLoaded

namespace NearRtRic.E2Manager

open Effect

variable {b : Bool} {s s' : Sdl}

namespace Sdl

/-- The RANs of an instance; none where no instance is stored. -/
def rans (s : Sdl) (a : String) : List String := (s.e2tInstance a).elim [] (·.associatedRanList)

/-- The instance is one that the manager reads: its address is in the list, and
there is a record for it. -/
def Lists (s : Sdl) (a : String) : Prop := a ∈ s.addresses ∧ (s.e2tInstance a).isSome

/-- The lengths of the lists of any two instances differ by at most one. -/
def Balanced (s : Sdl) : Prop :=
  ∀ i ∈ s.instances, ∀ j ∈ s.instances,
    i.associatedRanList.length ≤ j.associatedRanList.length + 1

instance (s : Sdl) : Decidable s.Balanced :=
  inferInstanceAs (Decidable (∀ i ∈ s.instances, ∀ j ∈ s.instances, _))

/-- The RANs of a stored instance are those of its list. -/
theorem rans_of_some {a : String} {i : E2TInstance} (h : s.e2tInstance a = some i) :
    s.rans a = i.associatedRanList := by simp [rans, h]

/-- The instances are the stored ones among the listed addresses. -/
theorem mem_instances {i : E2TInstance} :
    i ∈ s.instances ↔ ∃ a ∈ s.addresses, s.e2tInstance a = some i := List.mem_filterMap

/-- Balance of the store is balance of the placement that the lists make. -/
theorem balanced_iff : s.Balanced ↔ Placement.Balanced s.Lists s.rans := by
  constructor
  · rintro h a ⟨ha, hai⟩ b ⟨hb, hbj⟩
    obtain ⟨i, hi⟩ := Option.isSome_iff_exists.1 hai
    obtain ⟨j, hj⟩ := Option.isSome_iff_exists.1 hbj
    rw [rans_of_some hi, rans_of_some hj]
    exact h i (mem_instances.2 ⟨a, ha, hi⟩) j (mem_instances.2 ⟨b, hb, hj⟩)
  · intro h i hi j hj
    obtain ⟨a, ha, hi⟩ := mem_instances.1 hi
    obtain ⟨b, hb, hj⟩ := mem_instances.1 hj
    rw [← rans_of_some hi, ← rans_of_some hj]
    exact h a ⟨ha, by rw [hi]; rfl⟩ b ⟨hb, by rw [hj]; rfl⟩

end Sdl

/-! ### The search -/

namespace E2TInstancesManager

/-- The step of the search: an active instance with fewer RANs than the best one
so far. -/
def closer (acc : Option E2TInstance × Nat) (v : E2TInstance) : Option E2TInstance × Nat :=
  if v.state = .Active ∧ v.associatedRanList.length < acc.2 then
    (some v, v.associatedRanList.length)
  else acc

/-- The search from any best one so far: the count only falls, it ends below every
active instance, and it belongs to the instance found. -/
theorem foldl_closer (is : List E2TInstance) (acc : Option E2TInstance × Nat) :
    (is.foldl closer acc).2 ≤ acc.2 ∧
      (∀ j ∈ is, j.state = .Active → (is.foldl closer acc).2 ≤ j.associatedRanList.length) ∧
      (is.foldl closer acc = acc ∨
        ∃ i ∈ is, i.state = .Active ∧
          is.foldl closer acc = (some i, i.associatedRanList.length)) := by
  induction is generalizing acc with
  | nil => exact ⟨Nat.le_refl _, by simp, .inl rfl⟩
  | cons v is ih =>
      obtain ⟨hle, hall, hfound⟩ := ih (closer acc v)
      rw [List.foldl_cons]
      have hstep : (closer acc v).2 ≤ acc.2 ∧
          (v.state = .Active → (closer acc v).2 ≤ v.associatedRanList.length) := by
        unfold closer
        split
        · rename_i h
          exact ⟨Nat.le_of_lt h.2, fun _ => Nat.le_refl _⟩
        · rename_i h
          exact ⟨Nat.le_refl _, fun hv => Nat.le_of_not_lt fun hlt => h ⟨hv, hlt⟩⟩
      refine ⟨Nat.le_trans hle hstep.1, ?_, ?_⟩
      · intro j hj hactive
        rcases List.mem_cons.1 hj with rfl | hj
        · exact Nat.le_trans hle (hstep.2 hactive)
        · exact hall j hj hactive
      · rcases hfound with hacc | ⟨i, hi, hactive, hfound⟩
        · rw [hacc]
          unfold closer
          split
          · rename_i h
            exact .inr ⟨v, List.mem_cons_self .., h.1, rfl⟩
          · exact .inl rfl
        · exact .inr ⟨i, List.mem_cons_of_mem _ hi, hactive, hfound⟩

/-- **The instance that is found** is an active one of those searched, and no
active one has fewer RANs. -/
theorem findActive_least {is : List E2TInstance} {i : E2TInstance}
    (h : findActiveE2TInstanceWithMinimumAssociatedRans is = some i) :
    i ∈ is ∧ ∀ j ∈ is, j.state = .Active →
      i.associatedRanList.length ≤ j.associatedRanList.length := by
  have hfold : (is.foldl closer (none, maxInt32)).1 = some i := h
  obtain ⟨-, hall, hnone | ⟨k, hk, -, hfound⟩⟩ := foldl_closer is (none, maxInt32)
  · rw [hnone] at hfold
    cases hfold
  · rw [hfound] at hfold hall
    obtain rfl := Option.some.inj hfold
    exact ⟨hk, hall⟩

/-- `SelectE2TInstance` selects the address of a least loaded instance, where all
of them are active. -/
theorem always_selectE2TInstance_least (hs : s.WellKeyed)
    (hactive : ∀ i ∈ s.instances, i.state = .Active) {P : Sdl → Prop}
    {Q : Except Err String → Sdl → Prop} (herr : ∀ e, Q (.error e) s)
    (hok : ∀ a, Placement.Least s.Lists s.rans a → Q (.ok a) s) :
    selectE2TInstance.Always exec (Admits b) P Q s := by
  refine always_selectE2TInstance_minimum Q herr fun min hmin => ?_
  obtain ⟨hmem, hleast⟩ := findActive_least hmin
  obtain ⟨a, ha, hi⟩ := Sdl.mem_instances.1 hmem
  have haddr : min.address = a := (hs.e2tInstance hi).1
  refine hok _ ⟨?_, ?_⟩
  · rw [haddr]
    exact ⟨ha, by rw [hi]; rfl⟩
  · rintro c ⟨hc, hcj⟩
    obtain ⟨j, hj⟩ := Option.isSome_iff_exists.1 hcj
    have hmemj : j ∈ s.instances := Sdl.mem_instances.2 ⟨c, hc, hj⟩
    rw [haddr, Sdl.rans_of_some hi, Sdl.rans_of_some hj]
    exact hleast j hmemj (hactive j hmemj)

end E2TInstancesManager

/-! ### One request -/

/-- What the association of a new RAN leaves: the RAN at the end of the list of
one instance, and every other instance and record as it was. -/
structure AssociatedTo (r a : String) (s s' : Sdl) : Prop where
  wellKeyed : s'.WellKeyed
  addresses : s'.addresses = s.addresses
  e2tInstance : s'.e2tInstance = Function.update s.e2tInstance a ((s.e2tInstance a).map fun i =>
    { i with associatedRanList := i.associatedRanList ++ [r] })
  nodeb : ∀ r', r' ≠ r → s'.nodeb r' = s.nodeb r'

namespace AssociatedTo

variable {r a : String}

/-- An association lists no other instance than before. -/
theorem lists (h : AssociatedTo r a s s') : s'.Lists = s.Lists := by
  funext c
  unfold Sdl.Lists
  rw [h.addresses, h.e2tInstance]
  by_cases hc : c = a
  · subst hc
    simp
  · rw [Function.update_of_ne hc]

/-- It appends the RAN to the list of its instance, as `put` does. -/
theorem rans (h : AssociatedTo r a s s') (ha : s.Lists a) :
    s'.rans = Placement.put s.rans a r := by
  obtain ⟨i, hi⟩ := Option.isSome_iff_exists.1 ha.2
  funext c
  unfold Sdl.rans Placement.put
  rw [h.e2tInstance, hi]
  by_cases hc : c = a
  · subst hc
    simp [hi]
  · simp [Function.update_of_ne hc]

/-- An instance stays as active as it was. -/
theorem active (h : AssociatedTo r a s s') (hactive : ∀ i ∈ s.instances, i.state = .Active) :
    ∀ i ∈ s'.instances, i.state = .Active := by
  intro i hi
  obtain ⟨c, hc, hi⟩ := Sdl.mem_instances.1 hi
  rw [h.addresses] at hc
  rw [h.e2tInstance] at hi
  by_cases hca : c = a
  · subst hca
    rw [Function.update_self] at hi
    obtain ⟨j, hj, rfl⟩ := Option.map_eq_some_iff.1 hi
    exact hactive j (Sdl.mem_instances.2 ⟨c, hc, hj⟩)
  · rw [Function.update_of_ne hca] at hi
    exact hactive i (Sdl.mem_instances.2 ⟨c, hc, hi⟩)

end AssociatedTo

namespace SetupRequestHandler

/-- The end of both connecting paths leaves, where it returns nil, the RAN
associated with the selected instance. -/
theorem always_associateAndSetup (hs : s.WellKeyed) (a : String) {nb : NodebInfo}
    (hnb : nb.ranName ≠ "") :
    (associateAndSetup a nb).Always exec (Admits b) (fun _ => True)
      (fun result s' => result = .ok () → AssociatedTo nb.ranName a s s') s := by
  have hput : ∀ (nb' : NodebInfo), nb'.ranName = nb.ranName →
      AssociatedTo nb.ranName a s
        ((E2TAssociationManager.associate a nb true s).putNodeb nb') := by
    intro nb' hname
    have hput : (s.putNodeb (E2TAssociationManager.associated a nb (.ok ()))).WellKeyed :=
      hs.putNodeb (by simpa using hnb)
    refine ⟨?_, ?_, ?_, ?_⟩
    · exact (E2TAssociationManager.wellKeyed_associate hs a hnb true).putNodeb (hname ▸ hnb)
    · simp [E2TAssociationManager.associate]
    · simp [E2TAssociationManager.associate, answer, hput.e2tInstance_updateRans]
    · intro r' hr'
      simp [E2TAssociationManager.associate, Function.update_of_ne hr', hname]
  simp only [associateAndSetup, Program.always_bind,
    E2TAssociationManager.always_associateRan hs a hnb]
  intro up _
  cases up with
  | false => rintro ⟨⟩
  | true =>
      simp only [E2TAssociationManager.associateResult, if_true]
      split
      · rintro ⟨⟩
      · rename_i nb' heq
        obtain ⟨rfl, -⟩ := Prod.mk.inj heq
        have hne : ∀ st, ((E2TAssociationManager.associated a nb (answer true
            .routingManager)).setStatus st).ranName = nb.ranName := fun st => by simp
        have hnamed : ∀ st, ((E2TAssociationManager.associated a nb (answer true
            .routingManager)).setStatus st).ranName ≠ "" := fun st => by rw [hne]; exact hnb
        simp only [RanSetupManager.executeSetup, Program.always_bind,
          RNibDataService.always_updateNodebInfo (hnamed _)]
        split
        · rintro ⟨⟩
        · simp only [Program.always_bind, RmrSender.always_send]
          intro sent
          split
          · exact fun _ => hput _ (hne _)
          · simp only [Program.always_bind, RNibDataService.always_updateNodebInfo (hnamed _)]
            rintro ⟨⟩

/-- **A setup request for a new RAN is a placement:** where it returns nil, the RAN
is at the end of the list of a least loaded instance. -/
theorem always_handle_new (hs : s.WellKeyed) (hactive : ∀ i ∈ s.instances, i.state = .Active)
    (codecs : Codecs) (protocol : E2ApplicationProtocol) {request : SetupRequest}
    (hnew : s.nodeb request.ranName = none) :
    (handle codecs protocol request).Always exec (Admits b) (fun _ => True)
      (fun result s' => result = .ok () →
        ∃ a, Placement.Least s.Lists s.rans a ∧ AssociatedTo request.ranName a s s') s := by
  unfold handle
  split
  · rintro ⟨⟩
  simp only [Program.always_bind, RNibDataService.always_getNodeb]
  split
  · simp only [connectNewRan, Program.always_bind]
    refine E2TInstancesManager.always_selectE2TInstance_least hs hactive (fun e => by rintro ⟨⟩) ?_
    intro a hleast
    simp only [Program.always_bind, RNibDataService.always_saveNodeb]
    split
    · rename_i s₁ hsave
      have hs₁ : s₁.WellKeyed := hs.saveNodeb (by simp [createInitialNodeInfo]) hsave
      obtain ⟨hne, hnodeb, hinstance, haddresses, -⟩ := saveNodeb_ok hsave
      refine Program.always_mono (always_associateAndSetup hs₁ a
        (by simpa [createInitialNodeInfo] using hne)) ?_
      intro result s' h hok
      have hassoc := h hok
      refine ⟨a, hleast, hassoc.wellKeyed, ?_, ?_, fun r' hr' => ?_⟩
      · rw [hassoc.addresses, Sdl.addresses, haddresses, Sdl.addresses]
      · rw [hassoc.e2tInstance, hinstance]
        rfl
      · rw [hassoc.nodeb r' hr', hnodeb]
        exact Function.update_of_ne hr' ..
    · rintro ⟨⟩
  · rintro ⟨⟩
  · rename_i nb hr
    rw [hs.getNodeb_eq_ok.1 hr] at hnew
    cases hnew

end SetupRequestHandler

/-! ### A sequence of requests -/

/-- Some X2 and ENDC setup requests, handled one at a time, with a store that does
not fail; every one of them returns nil. -/
inductive Served (codecs : Codecs) :
    List (E2ApplicationProtocol × SetupRequest) → Sdl → Sdl → Prop
  | nil (s : Sdl) : Served codecs [] s s
  | cons {protocol : E2ApplicationProtocol} {request : SetupRequest}
      {requests : List (E2ApplicationProtocol × SetupRequest)} {s s₁ s' : Sdl}
      (cs : List Outcome) (hcs : ∀ c ∈ cs, c.store = .ok)
      (hrun : (SetupRequestHandler.handle codecs protocol request).run exec cs s =
        (some (.ok ()), s₁))
      (rest : Served codecs requests s₁ s') : Served codecs ((protocol, request) :: requests) s s'

/-- The requests for RANs that are not stored are placements. -/
theorem Served.places {codecs : Codecs} {requests : List (E2ApplicationProtocol × SetupRequest)}
    (h : Served codecs requests s s') (hs : s.WellKeyed)
    (hactive : ∀ i ∈ s.instances, i.state = .Active)
    (hnew : ∀ r ∈ requests.map (·.2.ranName), s.nodeb r = none)
    (hnodup : (requests.map (·.2.ranName)).Nodup) :
    s'.Lists = s.Lists ∧
      Placement.Places s.Lists (requests.map (·.2.ranName)) s.rans s'.rans := by
  induction h with
  | nil s => exact ⟨rfl, .nil _⟩
  | @cons protocol request requests s s₁ s' cs hcs hrun rest ih =>
      rw [List.map_cons] at hnew hnodup ⊢
      obtain ⟨hfirst, hnodup⟩ := List.nodup_cons.1 hnodup
      have hok : ∀ c ∈ cs, Admits true c := fun c hc => ⟨hcs c hc, nofun⟩
      have halways := Program.run_of_always (SetupRequestHandler.always_handle_new hs hactive
        codecs protocol (hnew _ (List.mem_cons_self ..))) hok (admits_default true)
      rw [hrun] at halways
      obtain ⟨a, hleast, hassoc⟩ := halways rfl
      have hnew₁ : ∀ r ∈ requests.map (·.2.ranName), s₁.nodeb r = none := by
        intro r hr
        have hne : r ≠ request.ranName := by
          rintro rfl
          exact hfirst hr
        rw [hassoc.nodeb r hne]
        exact hnew r (List.mem_cons_of_mem _ hr)
      obtain ⟨hlists, hplaces⟩ := ih hassoc.wellKeyed (hassoc.active hactive) hnew₁ hnodup
      rw [hassoc.lists] at hlists hplaces
      rw [hassoc.rans hleast.used] at hplaces
      exact ⟨hlists, .cons hleast hplaces⟩

/-- **New RANs are spread evenly.**  Where all instances are active and their lists
differ in length by at most one, they still do after any setup requests for RANs
that are not stored, each of which returns nil.  Every such RAN went to exactly one
instance: the list of each is the list it was, and behind it those RANs that went
there. -/
theorem balanced_of_served {codecs : Codecs}
    {requests : List (E2ApplicationProtocol × SetupRequest)} (hs : s.WellKeyed)
    (hactive : ∀ i ∈ s.instances, i.state = .Active) (hbalanced : s.Balanced)
    (hnew : ∀ r ∈ requests.map (·.2.ranName), s.nodeb r = none)
    (hnodup : (requests.map (·.2.ranName)).Nodup) (h : Served codecs requests s s') :
    s'.Balanced ∧ ∃ servedBy : String → String,
      (∀ r ∈ requests.map (·.2.ranName), s.Lists (servedBy r)) ∧
        ∀ a, s'.rans a = s.rans a ++ (requests.map (·.2.ranName)).filter (servedBy · = a) := by
  obtain ⟨hlists, hplaces⟩ := h.places hs hactive hnew hnodup
  refine ⟨?_, hplaces.exists_assignment hnodup⟩
  rw [Sdl.balanced_iff, hlists]
  exact hplaces.balanced (Sdl.balanced_iff.1 hbalanced)

/-! ### Two terminations and three RANs -/

namespace Deployment

/-- Two terminations without RANs. -/
def twoIdle : Sdl := next oneTermination (termInit address₂)

/-- The store of two instances without RANs is well keyed. -/
theorem wellKeyed_twoIdle : twoIdle.WellKeyed := by
  have hfirst := Event.sound_of_steps sound_empty (steps_next true .empty (termInit address₁))
  exact (Event.sound_of_steps hfirst (steps_next true oneTermination (termInit address₂))).wellKeyed

/-- The store after the setup request of a RAN. -/
def requested (protocol : E2ApplicationProtocol) (ranName : String) (s : Sdl) : Sdl :=
  ((SetupRequestHandler.handle codecs protocol
    { ranIp := "10.0.0.7", ranPort := 36422, ranName }).run exec [] s).2

/-- The setup requests of three RANs. -/
def threeRequests : List (E2ApplicationProtocol × SetupRequest) :=
  [(.X2_SETUP_REQUEST, { ranIp := "10.0.0.7", ranPort := 36422, ranName := "RAN1" }),
   (.ENDC_X2_SETUP_REQUEST, { ranIp := "10.0.0.7", ranPort := 36422, ranName := "RAN2" }),
   (.X2_SETUP_REQUEST, { ranIp := "10.0.0.7", ranPort := 36422, ranName := "RAN3" })]

/-- The store after them. -/
def threeServed : Sdl :=
  requested .X2_SETUP_REQUEST "RAN3" (requested .ENDC_X2_SETUP_REQUEST "RAN2"
    (requested .X2_SETUP_REQUEST "RAN1" twoIdle))

/-- Three requests of RANs that are new can be served in it. -/
theorem served_threeRequests : Served codecs threeRequests twoIdle threeServed :=
  .cons [] (by simp) (Prod.ext (by decide) rfl) <|
    .cons [] (by simp) (Prod.ext (by decide) rfl) <|
      .cons [] (by simp) (Prod.ext (by decide) rfl) (.nil _)

end Deployment

open Deployment in
/-- Two idle terminations stay balanced when three RANs arrive. -/
theorem balanced_of_served_threeRequests :
    threeServed.Balanced ∧ ∃ servedBy : String → String,
      (∀ r ∈ threeRequests.map (·.2.ranName), twoIdle.Lists (servedBy r)) ∧
        ∀ a, threeServed.rans a =
          twoIdle.rans a ++ (threeRequests.map (·.2.ranName)).filter (servedBy · = a) :=
  balanced_of_served wellKeyed_twoIdle (by decide) (by decide) (by decide) (by decide)
    served_threeRequests

end NearRtRic.E2Manager
