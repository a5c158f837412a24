/-
# What a shutdown that reports success has done

`Shutdown` clears the association of the listed RANs one after the other and then removes
the instance.  `shutdown_reported` is about a run in which the store and the routing
manager fail as they like: if it returns nil, the instance and its address are gone, and
every listed RAN that is stored is disconnected, unless all that was tried of it is a read
that failed with a general error; `clearNodebsAssociation` skips such a RAN, and its
record is as it was.  It stops at a RAN that is not in the database, which the other loops
over listed RANs skip, and skips the errors that they stop at.  So a shutdown that returns
nil has disconnected every listed RAN exactly if a read found each one that was not
disconnected before (`shutdown_reported_iff`).

The proof follows the recorded calls: `Follows` says what the records are, given which of
them have been read.
-/

import NearRtRic.E2Manager.Registry

namespace NearRtRic.E2Manager.E2TShutdownManager

open Effect

/-- The calls that were made, with their answers. -/
abbrev Trace := List (Program.Event e2mgr)

/-- A read of the record of a RAN, with its answer. -/
def got (ranName : String) (x : Except Err NodebInfo) : Program.Event e2mgr :=
  ⟨Call.getNodeb ranName, x⟩

/-- The record of the RAN was read. -/
def WasRead (ranName : String) (tr : Trace) : Prop := ∃ nb, got ranName (.ok nb) ∈ tr

/-- The RAN is disconnected, and associated with no termination. -/
def IsDown (nb : NodebInfo) : Prop :=
  nb.connectionStatus = .DISCONNECTED ∧ nb.associatedE2TInstanceAddress = ""

/-- A read of the record failed with a general error. -/
def ReadFailed (ranName : String) (tr : Trace) : Prop := got ranName (.error .internal) ∈ tr

variable {s s₁ s₂ : Sdl} {r r' : String} {tr tr' : Trace}

/-- Two reads are the same event if they are of the same RAN with the same answer. -/
theorem got_inj {x x' : Except Err NodebInfo} : got r x = got r' x' ↔ r = r' ∧ x = x' := by
  constructor
  · intro h
    obtain ⟨hcall, hx⟩ := Sigma.mk.inj h
    obtain rfl := Call.getNodeb.inj hcall
    exact ⟨rfl, eq_of_heq hx⟩
  · rintro ⟨rfl, rfl⟩
    rfl

/-- What was read stays read in a longer trace. -/
theorem WasRead.mono (h : WasRead r tr) (htr : tr ⊆ tr') : WasRead r tr' :=
  h.imp fun _ hmem => htr hmem

/-- A read that finds a record adds its own RAN to those that were read. -/
theorem wasRead_append_got {nb : NodebInfo} :
    WasRead r (tr ++ [got r' (.ok nb)]) ↔ WasRead r tr ∨ r = r' := by
  simp only [WasRead, List.mem_append, List.mem_singleton, got_inj, exists_or]
  constructor
  · rintro (h | ⟨nb', rfl, -⟩)
    · exact .inl h
    · exact .inr rfl
  · rintro (h | rfl)
    · exact .inl h
    · exact .inr ⟨nb, rfl, rfl⟩

/-- The event is no read that found a record. -/
def Blind (e : Program.Event e2mgr) : Prop := ∀ r nb, e ≠ got r (.ok nb)

/-- Every other event adds none. -/
theorem wasRead_append_blind {e : Program.Event e2mgr} (he : Blind e) :
    WasRead r (tr ++ [e]) ↔ WasRead r tr := by
  simp only [WasRead, List.mem_append, List.mem_singleton]
  constructor
  · rintro ⟨nb, h | h⟩
    · exact ⟨nb, h⟩
    · exact absurd h.symm (he r nb)
  · rintro ⟨nb, h⟩
    exact ⟨nb, .inl h⟩

/-- A read that fails finds no record. -/
theorem blind_got_error (r : String) (e : Err) : Blind (got r (.error e)) := by
  intro r' nb h
  cases (got_inj.1 h).2

/-- Nor does a call that is no read of a RAN. -/
theorem blind_of_ne {o : Call} {x : o.Answer} (ho : ∀ r, o ≠ .getNodeb r) :
    Blind (⟨o, x⟩ : Program.Event e2mgr) := by
  intro r nb h
  exact ho r (Sigma.mk.inj h).1

/-! ### The records, given the reads -/

/-- The store has come from `s` by clearing the records that were read. -/
structure Follows (s : Sdl) (w : Sdl × Trace) : Prop where
  wellKeyed : w.1.WellKeyed
  read : ∀ {r nb}, s.nodeb r = some nb → WasRead r w.2 → w.1.nodeb r = some (disassociated nb)
  unread : ∀ {r nb}, s.nodeb r = some nb → ¬ WasRead r w.2 → w.1.nodeb r = some nb

/-- A call that is no successful read, and changes no record. -/
theorem Follows.blind (h : Follows s (s₁, tr)) {e : Program.Event e2mgr} (he : Blind e)
    (hwell : s₂.WellKeyed) (hnodeb : s₂.nodeb = s₁.nodeb) : Follows s (s₂, tr ++ [e]) where
  wellKeyed := hwell
  read hr hread := by
    rw [hnodeb]
    exact h.read hr ((wasRead_append_blind he).1 hread)
  unread hr hread := by
    rw [hnodeb]
    exact h.unread hr fun hread' => hread ((wasRead_append_blind he).2 hread')

/-- One round: a record is read and written without association. -/
theorem Follows.clear (h : Follows s (s₁, tr)) {nb : NodebInfo} (hr : s₁.nodeb r = some nb)
    {e : Program.Event e2mgr} (he : Blind e) :
    Follows s (s₁.putNodeb (disassociated nb), tr ++ [got r (.ok nb)] ++ [e]) where
  wellKeyed := wellKeyed_putNodeb_disassociated h.wellKeyed hr
  read {r' nb'} hr' hread := by
    rw [wasRead_append_blind he, wasRead_append_got] at hread
    have hput := nodeb_putNodeb_disassociated h.wellKeyed hr r'
    by_cases hread' : WasRead r' tr
    · rw [hput, h.read hr' hread']
      split <;> rfl
    · obtain rfl := hread.resolve_left hread'
      rw [hput, if_pos rfl, h.unread hr' hread', Option.map_some]
  unread {r' nb'} hr' hread := by
    rw [wasRead_append_blind he, wasRead_append_got] at hread
    obtain ⟨hread', hne⟩ := not_or.1 hread
    rw [nodeb_putNodeb_disassociated h.wellKeyed hr r', if_neg hne]
    exact h.unread hr' hread'

/-- What is stored at the start is stored. -/
theorem Follows.exists_nodeb (h : Follows s (s₁, tr)) (hr : (s.nodeb r).isSome) :
    ∃ nb, s₁.nodeb r = some nb := by
  obtain ⟨nb, hnb⟩ := Option.isSome_iff_exists.1 hr
  by_cases hread : WasRead r tr
  · exact ⟨_, h.read hnb hread⟩
  · exact ⟨_, h.unread hnb hread⟩

/-! ### The calls -/

section Calls

variable {Q : Except Err Unit → Sdl × Trace → Prop}

/-- The meaning under which a shutdown is recorded: everything may fail. -/
abbrev Recorded {α : Type} (p : Prog α) (Q : α → Sdl × Trace → Prop) (w : Sdl × Trace) : Prop :=
  p.Always (Program.recording exec) (fun _ => True) (fun _ => True) Q w

/-- A read of a record: a stored one is found, or the read fails with a general error. -/
theorem recorded_getNodeb {Q : Except Err NodebInfo → Sdl × Trace → Prop}
    (hs : s.WellKeyed) (r : String)
    (hok : ∀ nb, s.nodeb r = some nb → Q (.ok nb) (s, tr ++ [got r (.ok nb)]))
    (herr : ∀ e, ((s.nodeb r).isSome → e = .internal) →
      Q (.error e) (s, tr ++ [got r (.error e)])) :
    Recorded (RNibDataService.getNodeb r) Q (s, tr) := by
  intro c _
  have hfst : ∀ nb, (storeRead (RNibReader.getNodeb r) c s).1 = .ok nb → s.nodeb r = some nb :=
    fun nb h => hs.getNodeb_eq_ok.1 (storeRead_eq_ok.1 h).2
  have hinternal : ∀ e, (storeRead (RNibReader.getNodeb r) c s).1 = .error e →
      (s.nodeb r).isSome → e = .internal := by
    intro e he hr
    obtain ⟨nb, hnb⟩ := Option.isSome_iff_exists.1 hr
    have hread := hs.getNodeb_eq_ok.2 hnb
    refine (storeRead_eq_error he).resolve_right fun h => ?_
    rw [hread] at h
    cases h
  change Q (storeRead (RNibReader.getNodeb r) c s).1 ((storeRead (RNibReader.getNodeb r) c s).2,
    tr ++ [got r (storeRead (RNibReader.getNodeb r) c s).1])
  rw [storeRead_snd]
  cases hx : (storeRead (RNibReader.getNodeb r) c s).1 with
  | ok nb => exact hok nb (hfst nb hx)
  | error e => exact herr e (hinternal e hx)

/-- A call that leaves the store as it is. -/
theorem recorded_idle {o : Call} {Q : o.Answer → Sdl × Trace → Prop}
    (ho : ∀ c s, (exec o c s).2 = s) (h : ∀ x, Q x (s, tr ++ [⟨o, x⟩])) :
    Recorded (call o) Q (s, tr) := by
  intro c _
  change Q (exec o c s).1 ((exec o c s).2, tr ++ [⟨o, (exec o c s).1⟩])
  rw [ho]
  exact h _

/-- A write that returns nil took effect. -/
theorem recorded_write {p : Prog (Except Err Unit)} (write : Sdl → Except Err Sdl)
    (event : Except Err Unit → Program.Event e2mgr)
    (hp : Recorded p Q (s, tr) ↔ ∀ c, True → Q (storeWrite write c s).1
      ((storeWrite write c s).2, tr ++ [event (storeWrite write c s).1]))
    (hok : ∀ s', write s = .ok s' → Q (.ok ()) (s', tr ++ [event (.ok ())]))
    (herr : ∀ e w, Q (.error e) w) : Recorded p Q (s, tr) := by
  refine hp.2 fun c _ => ?_
  cases hw : write s with
  | error e =>
      rw [storeWrite_error hw]
      exact herr e _
  | ok s' =>
      unfold storeWrite
      rw [hw]
      cases c.store with
      | ok => exact hok s' hw
      | fails => exact herr _ _
      | failsAfterEffect => exact herr _ _

end Calls

/-- What holds when `clearNodebsAssociation` goes through the list `rs`. -/
def GoneThrough (s : Sdl) (rs : List String) (w : Sdl × Trace) : Prop :=
  Follows s w ∧ ∀ r ∈ rs, (s.nodeb r).isSome → WasRead r w.2 ∨ ReadFailed r w.2

/-- Another RAN was gone through, if it was read where it has a record, or the read failed. -/
theorem GoneThrough.cons {rs : List String} {w : Sdl × Trace} (h : GoneThrough s rs w)
    (hr : (s.nodeb r).isSome → WasRead r w.2 ∨ ReadFailed r w.2) : GoneThrough s (r :: rs) w := by
  refine ⟨h.1, fun r' hr' hstored => ?_⟩
  rcases List.mem_cons.1 hr' with rfl | hr'
  · exact hr hstored
  · exact h.2 r' hr' hstored

/-- **The loop over the listed RANs.** -/
theorem recorded_clearNodebsAssociation (h : Follows s (s₁, tr)) (rs : List String) :
    Recorded (clearNodebsAssociation rs)
      (fun x w => x = .ok () → GoneThrough s rs w ∧ tr ⊆ w.2) (s₁, tr) := by
  induction rs generalizing s₁ tr with
  | nil => exact fun _ => ⟨⟨h, fun _ hr => absurd hr List.not_mem_nil⟩, List.Subset.refl _⟩
  | cons r rs ih =>
      simp only [clearNodebsAssociation, Recorded, Program.always_bind]
      refine recorded_getNodeb h.wellKeyed r (fun nb hnb => ?_) fun e he => ?_
      · simp only [Program.always_bind]
        have hname : (disassociated nb).ranName ≠ "" := by
          rw [disassociated_ranName]
          exact h.wellKeyed.ranName_ne hnb
        refine recorded_write (RNibWriter.updateNodebInfo (disassociated nb))
          (fun x => ⟨Call.updateNodebInfo (disassociated nb), x⟩) Iff.rfl (fun s' hs' => ?_) ?_
        · rw [updateNodebInfo_of_ne hname] at hs'
          obtain rfl := Except.ok.inj hs'
          have hmem : got r (.ok nb) ∈ tr ++ [got r (.ok nb)] := by simp
          refine Program.always_mono (ih (h.clear hnb (blind_of_ne nofun))) fun x w hw hx => ?_
          obtain ⟨hgone, htr⟩ := hw hx
          exact ⟨hgone.cons fun _ => .inl ⟨nb, htr (List.mem_append_left _ hmem)⟩,
            fun e he => htr (List.mem_append_left _ (List.mem_append_left _ he))⟩
        · intro e w hx
          cases hx
      · -- a general error is skipped
        have hblind := h.blind (blind_got_error r e) h.wellKeyed rfl
        have hskip : Recorded (clearNodebsAssociation rs)
            (fun x w => x = .ok () → GoneThrough s (r :: rs) w ∧ tr ⊆ w.2)
            (s₁, tr ++ [got r (.error e)]) := by
          refine Program.always_mono (ih hblind) fun x w hw hx => ?_
          obtain ⟨hgone, htr⟩ := hw hx
          refine ⟨hgone.cons fun hr => .inr ?_, fun e he => htr (List.mem_append_left _ he)⟩
          have hmem : got r (.error e) ∈ w.2 := htr (by simp)
          rwa [he (Option.isSome_iff_exists.2 (h.exists_nodeb hr))] at hmem
        split
        · intro hx
          cases hx
        · exact hskip
        · rename_i heq
          cases heq

/-- An event that finds no record and changes none goes through no RAN. -/
theorem GoneThrough.blind {rs : List String} (h : GoneThrough s rs (s₁, tr))
    {e : Program.Event e2mgr} (he : Blind e) (hwell : s₂.WellKeyed)
    (hnodeb : s₂.nodeb = s₁.nodeb) : GoneThrough s rs (s₂, tr ++ [e]) :=
  ⟨h.1.blind he hwell hnodeb, fun r hr hstored => (h.2 r hr hstored).imp
    (·.mono (List.subset_append_left ..)) (List.mem_append_left _ ·)⟩

/-- A call that leaves the store as it is, behind the loop. -/
theorem GoneThrough.idle {rs : List String} (h : GoneThrough s rs (s₁, tr)) {o : Call}
    {Q : o.Answer → Sdl × Trace → Prop} (ho : ∀ c s, (exec o c s).2 = s)
    (hne : ∀ r, o ≠ .getNodeb r) (hQ : ∀ x tr', GoneThrough s rs (s₁, tr') → Q x (s₁, tr')) :
    Recorded (call o) Q (s₁, tr) :=
  recorded_idle ho fun x => hQ x _ (h.blind (blind_of_ne hne) h.1.wellKeyed rfl)

/-- **The removal of the instance**, behind the loop. -/
theorem recorded_removeE2tInstance {rs : List String} (h : GoneThrough s rs (s₁, tr))
    (i : E2TInstance) : Recorded (E2TAssociationManager.removeE2tInstance i)
      (fun x w => x = .ok () → GoneThrough s rs w ∧ w.1.e2tInstance i.address = none ∧
        i.address ∉ w.1.addresses) (s₁, tr) := by
  simp only [E2TAssociationManager.removeE2tInstance, E2TInstancesManager.removeE2TInstance,
    withMutex, Recorded, Program.always_bind]
  refine h.idle (fun _ _ => rfl) (fun _ => by rintro ⟨⟩) fun _ tr₁ h => ?_
  refine h.idle (fun _ _ => rfl) (fun _ => by rintro ⟨⟩) fun _ tr₂ h => ?_
  refine recorded_write (RNibWriter.removeE2TInstance i.address)
    (fun x => ⟨Call.removeE2TInstance i.address, x⟩) Iff.rfl (fun s₂ hs₂ => ?_) fun e w => ?_
  · obtain ⟨-, rfl⟩ := removeE2TInstance_ok hs₂
    have h := h.blind (e := ⟨Call.removeE2TInstance i.address, .ok ()⟩)
      (blind_of_ne fun _ => by rintro ⟨⟩) (h.1.wellKeyed.dropInstance i.address)
      (Sdl.nodeb_dropInstance ..)
    simp only [Program.always_bind]
    refine h.idle (fun _ _ => storeRead_snd ..) (fun _ => by rintro ⟨⟩) fun x tr₃ h => ?_
    cases x with
    | error e => exact fun _ _ hx => by cases hx
    | ok as =>
        let as := E2TInstancesManager.removeAddressFromList as i.address
        simp only [Program.always_bind]
        refine recorded_write (RNibWriter.saveE2TAddresses as)
          (fun x => ⟨Call.saveE2TAddresses as, x⟩) Iff.rfl (fun s₃ hs₃ => ?_) fun e w => ?_
        · obtain rfl := Except.ok.inj ((saveE2TAddresses_eq _ _).symm.trans hs₃)
          have h := h.blind (e := ⟨Call.saveE2TAddresses as, .ok ()⟩)
            (blind_of_ne fun _ => by rintro ⟨⟩) (h.1.wellKeyed.putAddresses as)
            (Sdl.nodeb_putAddresses ..)
          refine h.idle (fun _ _ => rfl) (fun _ => by rintro ⟨⟩) fun _ tr₄ h _ => ⟨h, ?_, ?_⟩
          · simp
          · simp [as, E2TInstancesManager.removeAddressFromList]
        · exact fun _ _ hx => by cases hx
  · exact fun _ _ hx => by cases hx

/-- Behind a shutdown that returns nil: the loop went through the list, and the instance and
its address are gone. -/
theorem goneThrough_of_shutdown (hs : s.WellKeyed) {config : Configuration} {i : E2TInstance}
    {cs : List Outcome}
    (hnot : ¬ isE2tInstanceAlreadyBeingDeleted config i (Program.outcome cs 0).time)
    {w : Sdl × Trace}
    (hrun : (shutdown config i).run (Program.recording exec) cs (s, []) = (some (.ok ()), w)) :
    GoneThrough s i.associatedRanList w ∧ w.1.e2tInstance i.address = none ∧
      i.address ∉ w.1.addresses := by
  have hstart : Follows s (s, []) :=
    ⟨hs, fun _ hread => absurd hread.choose_spec List.not_mem_nil, fun hr _ => hr⟩
  have hnow : Follows s (s, [⟨Call.now, (Program.outcome cs 0).time⟩]) :=
    hstart.blind (e := ⟨Call.now, (Program.outcome cs 0).time⟩)
      (blind_of_ne fun _ => by rintro ⟨⟩) hs rfl
  -- behind the test
  have hrest : ∀ {p : Prog (Except Err Unit)} {cs : List Outcome} {w₀ : Sdl × Trace},
      Recorded p (fun x w => x = .ok () → GoneThrough s i.associatedRanList w ∧
        w.1.e2tInstance i.address = none ∧ i.address ∉ w.1.addresses) w₀ →
      p.run (Program.recording exec) cs w₀ = (some (.ok ()), w) →
      GoneThrough s i.associatedRanList w ∧ w.1.e2tInstance i.address = none ∧
        i.address ∉ w.1.addresses := by
    intro p cs w₀ hp hrun
    have hpost := @Program.run_of_always _ _ _ _ _ _ _ _ _ _ _ hp cs (fun c _ => trivial) trivial
    rw [hrun] at hpost
    exact hpost rfl
  change (if isE2tInstanceAlreadyBeingDeleted config i (Program.outcome cs 0).time then _
    else _ : Prog (Except Err Unit)).run (Program.recording exec) cs.tail
      (s, [⟨Call.now, (Program.outcome cs 0).time⟩]) = _ at hrun
  rw [if_neg hnot] at hrun
  refine hrest ?_ hrun
  simp only [Recorded, Program.always_bind]
  refine recorded_idle (fun _ _ => rfl) fun now => ?_
  have hnow := hnow.blind (e := ⟨Call.now, now⟩) (blind_of_ne fun _ => by rintro ⟨⟩) hs rfl
  refine recorded_write (RNibWriter.saveE2TInstance (marked i now))
    (fun x => ⟨Call.saveE2TInstance (marked i now), x⟩) Iff.rfl (fun s₁ hs₁ => ?_) ?_
  · obtain ⟨hne, rfl⟩ := saveE2TInstance_ok hs₁
    have hmarked := hnow.blind (e := ⟨Call.saveE2TInstance (marked i now), .ok ()⟩)
      (blind_of_ne fun _ => by rintro ⟨⟩) (hs.putInstance hne) (Sdl.nodeb_putInstance ..)
    refine (Program.always_bind ..).2 (Program.always_mono
      (recorded_clearNodebsAssociation hmarked _) fun x w hw => ?_)
    cases x with
    | error e =>
        intro hx
        cases hx
    | ok u => exact recorded_removeE2tInstance (hw rfl).1 _
  · intro e w hx
    cases hx

/-- **A shutdown that returns nil**: the instance and its address are gone, and each listed
RAN that is stored is disconnected, or it was only ever read with a general error and is as
it was. -/
theorem shutdown_reported (hs : s.WellKeyed) {config : Configuration} {i : E2TInstance}
    {cs : List Outcome}
    (hnot : ¬ isE2tInstanceAlreadyBeingDeleted config i (Program.outcome cs 0).time)
    {w : Sdl × Trace}
    (hrun : (shutdown config i).run (Program.recording exec) cs (s, []) = (some (.ok ()), w)) :
    w.1.e2tInstance i.address = none ∧ i.address ∉ w.1.addresses ∧
      ∀ r ∈ i.associatedRanList, ∀ nb, s.nodeb r = some nb →
        (∃ nb', w.1.nodeb r = some nb' ∧ IsDown nb') ∨
        w.1.nodeb r = some nb ∧ ReadFailed r w.2 ∧ ¬ WasRead r w.2 := by
  obtain ⟨⟨hfollows, hgone⟩, hinst, haddr⟩ := goneThrough_of_shutdown hs hnot hrun
  refine ⟨hinst, haddr, fun r hr nb hnb => ?_⟩
  by_cases hread : WasRead r w.2
  · exact .inl ⟨_, hfollows.read hnb hread, rfl, rfl⟩
  · have hstored : (s.nodeb r).isSome := by simp [hnb]
    exact .inr ⟨hfollows.unread hnb hread, (hgone r hr hstored).resolve_left hread, hread⟩

/-- **A shutdown that returns nil has disconnected every listed RAN** that is stored exactly
if a read has found each of them that was not disconnected before. -/
theorem shutdown_reported_iff (hs : s.WellKeyed) {config : Configuration} {i : E2TInstance}
    {cs : List Outcome}
    (hnot : ¬ isE2tInstanceAlreadyBeingDeleted config i (Program.outcome cs 0).time)
    {w : Sdl × Trace}
    (hrun : (shutdown config i).run (Program.recording exec) cs (s, []) = (some (.ok ()), w)) :
    (w.1.e2tInstance i.address = none ∧ i.address ∉ w.1.addresses ∧
      ∀ r ∈ i.associatedRanList, (s.nodeb r).isSome →
        ∃ nb, w.1.nodeb r = some nb ∧ IsDown nb) ↔
      ∀ r ∈ i.associatedRanList, ∀ nb, s.nodeb r = some nb → ¬ IsDown nb → WasRead r w.2 := by
  obtain ⟨hinst, haddr, hreported⟩ := shutdown_reported hs hnot hrun
  constructor
  · rintro ⟨-, -, hdown⟩ r hr nb hnb hup
    obtain ⟨⟨hfollows, -⟩, -⟩ := goneThrough_of_shutdown hs hnot hrun
    by_contra hread
    obtain ⟨nb', hnb', hnb'down⟩ := hdown r hr (by rw [hnb]; rfl)
    rw [hfollows.unread hnb hread] at hnb'
    obtain rfl := Option.some.inj hnb'
    exact hup hnb'down
  · intro hread
    refine ⟨hinst, haddr, fun r hr hstored => ?_⟩
    obtain ⟨nb, hnb⟩ := Option.isSome_iff_exists.1 hstored
    rcases hreported r hr nb hnb with hdown | ⟨hsame, -, hunread⟩
    · exact hdown
    · exact ⟨nb, hsame, not_not.1 fun hup => hunread (hread r hr nb hnb hup)⟩

/-! ### A shutdown -/

open Deployment

/-- The shutdown of the termination. -/
def shutdownRun (cs : List Outcome) : Option (Except Err Unit) × (Sdl × Trace) :=
  (shutdown {} { address := address₁, associatedRanList := ["RAN1"] }).run
    (Program.recording exec) cs (connectedGnb, [])

/-- Where nothing fails, the one RAN is found and disconnected. -/
theorem shutdown_reported_iff_connected : ∃ nb,
    (shutdownRun []).2.1.nodeb "RAN1" = some nb ∧ IsDown nb := by
  have hok : shutdownRun [] = (some (.ok ()), (shutdownRun []).2) :=
    Prod.ext (by decide +kernel) rfl
  have hread : WasRead "RAN1" (shutdownRun []).2.2 := ⟨_, List.mem_of_getElem? (i := 3) rfl⟩
  refine ((shutdown_reported_iff wellKeyed_connectedGnb (by decide) hok).2 ?_).2.2 "RAN1"
    (by decide) (by decide +kernel)
  intro r hr nb hnb hup
  obtain rfl := List.mem_singleton.1 hr
  exact hread

/-- **A RAN that could not be read is connected after a shutdown that returned nil.** -/
theorem not_shutdown_reported : ¬ ∀ (config : Configuration) (i : E2TInstance) (s s' : Sdl)
    (cs : List Outcome), s.WellKeyed →
      ¬ isE2tInstanceAlreadyBeingDeleted config i (Program.outcome cs 0).time →
      (shutdown config i).run exec cs s = (some (.ok ()), s') →
        s'.e2tInstance i.address = none ∧ i.address ∉ s'.addresses ∧
          ∀ r ∈ i.associatedRanList, (s.nodeb r).isSome →
            ∃ nb', s'.nodeb r = some nb' ∧ IsDown nb' := by
  intro hall
  let cs : List Outcome := [{}, {}, {}, { store := .fails }]
  let i : E2TInstance := { address := address₁, associatedRanList := ["RAN1"] }
  have hok : (shutdown {} i).run exec cs connectedGnb =
      (some (.ok ()), ((shutdown {} i).run exec cs connectedGnb).2) :=
    Prod.ext (by decide +kernel) rfl
  have hstatus : (((shutdown {} i).run exec cs connectedGnb).2.nodeb "RAN1").map
      (·.connectionStatus) = some .CONNECTED := by decide +kernel
  obtain ⟨-, -, hdown⟩ := hall {} i connectedGnb _ cs wellKeyed_connectedGnb (by decide) hok
  obtain ⟨nb, hnb, hst, -⟩ := hdown "RAN1" (by decide) (by decide +kernel)
  rw [hnb, Option.map_some, hst] at hstatus
  cases hstatus

end NearRtRic.E2Manager.E2TShutdownManager
