/-
# What a failed association leaves in the store

`AssociateRan` writes the record of the RAN between a request to the routing manager and
`AddRansToInstance`.  `watch` is the meaning of the calls in which only these two may
fail, and it notes which of them did: outside `AddRansToInstance` the store does not fail,
inside it the store does what it likes.

`settled_iff` says when the store is in order after a failure, that is, when the RAN is
not stored as connected and its record names no instance whose list lacks it
(`Sdl.Settled`).  After a failed `AddRansToInstance` that is never so, as the record was
written as connected before.  After a failure of the routing manager the record keeps the
address it has: for X2 and ENDC setup there is none, for E2 setup it is the address that
is stored, or, for a new RAN, the one that `buildNodebInfo` puts in ahead of the
association.
-/

import NearRtRic.E2Manager.Registry

namespace NearRtRic.E2Manager

open Effect

/-- What may fail. -/
inductive AssociationFailure
  | routingManager
  | addRansToInstance
  deriving DecidableEq, Repr

/-- The store, whether `AddRansToInstance` runs, and what failed. -/
structure Watched where
  sdl : Sdl
  adding : Bool := false
  failed : Option AssociationFailure := none

/-- What a call says has failed. -/
def failure (adding : Bool) : (o : Call) → o.Answer → Option AssociationFailure
  | .rmAssociateRanToE2TInstance _ _, .error _ => some .routingManager
  | .getE2TInstance _, .error _ => if adding then some .addRansToInstance else none
  | .saveE2TInstance _, .error _ => if adding then some .addRansToInstance else none
  | _, _ => none

/-- Whether `AddRansToInstance` runs behind a call. -/
def addingAfter (adding : Bool) : Call → Bool
  | .lock (.addRansToInstance _ _) => true
  | .unlock => false
  | _ => adding

/-- The meaning of the calls in which only an association may fail. -/
def watch (o : Call) (c : Outcome) (w : Watched) : o.Answer × Watched :=
  let c := if w.adding then c else { c with store := .ok }
  let r := exec o c w.sdl
  (r.1, { sdl := r.2, adding := addingAfter w.adding o,
          failed := w.failed.or (failure w.adding o r.1) })

/-- The RAN is not stored as connected, and its record names no instance whose list
lacks it. -/
def Sdl.Settled (s : Sdl) (ranName : String) : Prop :=
  ∀ nb, s.nodeb ranName = some nb → nb.connectionStatus ≠ .CONNECTED ∧
    ∀ i, s.e2tInstance nb.associatedE2TInstanceAddress = some i → ranName ∈ i.associatedRanList

/-! ### Calls that are not watched -/

/-- A call that has no part in an association. -/
def Call.Ordinary : Call → Prop
  | rmAssociateRanToE2TInstance _ _ => False
  | lock _ => False
  | unlock => False
  | _ => True

/-- Neither is `AddRansToInstance` running nor did anything fail. -/
def Watched.Calm (w : Watched) : Prop := w.adding = false ∧ w.failed = none

variable {α β : Type} {s : Sdl}

/-- Outside `AddRansToInstance` an ordinary call is not noted to have failed, whatever it answers.
-/
theorem failure_ordinary {o : Call} (ho : o.Ordinary) (r : o.Answer) :
    failure false o r = none := by
  cases o with
  | rmAssociateRanToE2TInstance a r => cases ho
  | getE2TInstance a => cases r <;> rfl
  | saveE2TInstance i => cases r <;> rfl
  | _ => rfl

/-- `AddRansToInstance` does not start with an ordinary call. -/
theorem addingAfter_ordinary {o : Call} (ho : o.Ordinary) : addingAfter false o = false := by
  cases o with
  | lock m => cases ho
  | _ => rfl

/-- Where a program makes only ordinary calls, its run is the one on a store that does not
fail. -/
theorem always_watch_of_ordinary {p : Prog α} (hp : p.Calls Call.Ordinary) {P : Sdl → Prop}
    {Q : α → Sdl → Prop} {w : Watched} (hw : w.Calm) (h : p.Always exec (Admits true) P Q w.sdl) :
    p.Always watch (fun _ => True) (fun w => P w.sdl ∧ w.Calm)
      (fun a w => Q a w.sdl ∧ w.Calm) w := by
  refine hp.always Watched.sdl (fun o ho w hw c _ => ?_) hw h
  obtain ⟨s, adding, failed⟩ := w
  obtain ⟨rfl, rfl⟩ : adding = false ∧ failed = none := hw
  refine ⟨{ c with store := .ok }, ⟨rfl, nofun⟩, rfl, rfl, addingAfter_ordinary ho, ?_⟩
  exact failure_ordinary ho _

/-! ### At the end of a program -/

/-- What holds of the store at the end of a program, according to what failed in it. -/
def AfterFailure (G : AssociationFailure → Sdl → Prop) (p : Prog α) (s : Sdl) : Prop :=
  p.Always watch (fun _ => True) (fun w => ∀ which, w.failed = some which → G which w.sdl)
    (fun _ w => ∀ which, w.failed = some which → G which w.sdl) ⟨s, false, none⟩

variable {G : AssociationFailure → Sdl → Prop}

/-- In a calm state nothing is noted to have failed, so whatever follows from a failure holds
there. -/
theorem Watched.Calm.not_failed {w : Watched} (hw : w.Calm) {p : Prop}
    {which : AssociationFailure} (h : w.failed = some which) : p := by
  rw [hw.2] at h
  cases h

/-- Nothing fails in ordinary calls. -/
theorem AfterFailure.of_ordinary {p : Prog α} (hp : p.Calls Call.Ordinary) :
    AfterFailure G p s :=
  Program.always_imp (always_watch_of_ordinary hp ⟨rfl, rfl⟩ (Program.always_trivial p s))
    (fun _ h _ hfailed => h.2.not_failed hfailed) fun _ _ h _ hfailed => h.2.not_failed hfailed

/-- Ordinary calls first. -/
theorem AfterFailure.bind {p : Prog α} {f : α → Prog β} (hp : p.Calls Call.Ordinary)
    {R : α → Sdl → Prop} (h : p.Always exec (Admits true) (fun _ => True) R s)
    (hf : ∀ a s', R a s' → AfterFailure G (f a) s') : AfterFailure G (p >>= f) s := by
  refine (Program.always_bind ..).2 ?_
  refine Program.always_imp (always_watch_of_ordinary hp ⟨rfl, rfl⟩ h)
    (fun _ h _ hfailed => h.2.not_failed hfailed) ?_
  rintro a ⟨s', adding, failed⟩ ⟨hR, rfl, rfl⟩
  exact hf a s' hR

/-- A program that leaves what is watched as it is. -/
def Still (p : Prog α) : Prop :=
  ∀ w, p.Always watch (fun _ => True) (· = w) (fun _ w' => w' = w) w

/-- A program that returns at once leaves every watched state as it is. -/
theorem still_ret (a : α) : Still (pure a : Prog α) := fun _ => rfl

/-- Sending a message to RMR and dropping the answer leaves every watched state as it is. -/
theorem still_send (m : RmrMessage) : Still (do let _ ← RmrSender.send m; return ()) := by
  rintro ⟨s, adding, failed⟩ c -
  change Watched.mk s adding (failed.or none) = _
  rw [Option.or_none]

section Association

variable {P : Watched → Prop} {failed : Option AssociationFailure}

/-- With the lock of its mutex `AddRansToInstance` is noted to run. -/
theorem always_watch_lock (a : String) (rs : List String) (Q : Unit → Watched → Prop) :
    (Mutex.lock (.addRansToInstance a rs)).Always watch (fun _ => True) P Q ⟨s, false, failed⟩ ↔
      Q () ⟨s, true, failed⟩ := by
  have hwatch : ∀ c, watch (.lock (.addRansToInstance a rs)) c ⟨s, false, failed⟩ =
      ((), ⟨s, true, failed⟩) := fun c => by cases failed <;> rfl
  constructor
  · intro h
    have hQ := h default trivial
    rwa [hwatch] at hQ
  · intro hQ c _
    rw [hwatch]
    exact hQ

/-- With the unlock it is noted to have ended; the store and what failed stay. -/
theorem always_watch_unlock (Q : Unit → Watched → Prop) (adding : Bool) :
    Mutex.unlock.Always watch (fun _ => True) P Q ⟨s, adding, failed⟩ ↔
      Q () ⟨s, false, failed⟩ := by
  have hwatch : ∀ c, watch .unlock c ⟨s, adding, failed⟩ = ((), ⟨s, false, failed⟩) := fun c => by
    cases failed <;> rfl
  constructor
  · intro h
    have hQ := h default trivial
    rwa [hwatch] at hQ
  · intro hQ c _
    rw [hwatch]
    exact hQ

/-- The read of `AddRansToInstance`. -/
theorem always_watch_getE2TInstance {Q : Except Err E2TInstance → Watched → Prop} (a : String)
    (herr : ∀ e, Q (.error e) ⟨s, true, some .addRansToInstance⟩)
    (hok : ∀ i, Q (.ok i) ⟨s, true, none⟩) :
    (RNibDataService.getE2TInstance a).Always watch (fun _ => True) P Q ⟨s, true, none⟩ := by
  intro c _
  have hread := storeRead_snd (RNibReader.getE2TInstance a) c s
  cases hr : storeRead (RNibReader.getE2TInstance a) c s with
  | mk r s' =>
      rw [hr] at hread
      obtain rfl : s' = s := hread
      have hwatch : watch (.getE2TInstance a) c ⟨s', true, none⟩ =
          (r, ⟨s', true, failure true (.getE2TInstance a) r⟩) := by
        simp only [watch, exec, if_true, hr, addingAfter, Option.none_or]
      rw [hwatch]
      cases r with
      | error e => exact herr e
      | ok i => exact hok i

/-- The write of `AddRansToInstance`. -/
theorem always_watch_saveE2TInstance {Q : Except Err Unit → Watched → Prop} (i : E2TInstance)
    (herr : ∀ e s', s'.nodeb = s.nodeb → Q (.error e) ⟨s', true, some .addRansToInstance⟩)
    (hok : ∀ s', s'.nodeb = s.nodeb → Q (.ok ()) ⟨s', true, none⟩) :
    (RNibDataService.saveE2TInstance i).Always watch (fun _ => True) P Q ⟨s, true, none⟩ := by
  intro c _
  have hwrite : (storeWrite (RNibWriter.saveE2TInstance i) c s).2.nodeb = s.nodeb := by
    rcases storeWrite_snd (RNibWriter.saveE2TInstance i) c s with heq | hok
    · rw [heq]
    · rw [(saveE2TInstance_ok hok).2]
      exact Sdl.nodeb_putInstance ..
  cases hr : storeWrite (RNibWriter.saveE2TInstance i) c s with
  | mk r s' =>
      rw [hr] at hwrite
      have hwatch : watch (.saveE2TInstance i) c ⟨s, true, none⟩ =
          (r, ⟨s', true, failure true (.saveE2TInstance i) r⟩) := by
        simp only [watch, exec, if_true, hr, addingAfter, Option.none_or]
      rw [hwatch]
      cases r with
      | error e => exact herr e s' hwrite
      | ok u => exact hok s' hwrite

/-- `AddRansToInstance` writes no record of a RAN, and returns an error exactly if it is
noted to have failed. -/
theorem always_watch_addRansToInstance {Q : Except Err Unit → Watched → Prop} (a : String)
    (rs : List String)
    (herr : ∀ e s', s'.nodeb = s.nodeb → Q (.error e) ⟨s', false, some .addRansToInstance⟩)
    (hok : ∀ s', s'.nodeb = s.nodeb → Q (.ok ()) ⟨s', false, none⟩) :
    (E2TInstancesManager.addRansToInstance a rs).Always watch (fun _ => True) P Q
      ⟨s, false, none⟩ := by
  simp only [E2TInstancesManager.addRansToInstance, withMutex, Program.always_bind,
    always_watch_lock]
  refine always_watch_getE2TInstance a (fun e => ?_) fun i => ?_
  · exact (always_watch_unlock ..).2 (herr _ s rfl)
  · simp only [Program.always_bind]
    refine always_watch_saveE2TInstance _ (fun e s' hs' => ?_) fun s' hs' => ?_
    · exact (always_watch_unlock ..).2 (herr _ s' hs')
    · exact (always_watch_unlock ..).2 (hok s' hs')

/-- The request to the routing manager. -/
theorem always_watch_associateRan {Q : Except Err Unit → Watched → Prop} (a r : String)
    (herr : Q (.error .routingManager) ⟨s, false, some .routingManager⟩)
    (hok : Q (.ok ()) ⟨s, false, none⟩) :
    (RoutingManagerClient.associateRanToE2TInstance a r).Always watch (fun _ => True) P Q
      ⟨s, false, none⟩ := by
  intro c _
  obtain ⟨store, rm, rmr, time⟩ := c
  cases rm with
  | false => exact herr
  | true => exact hok

/-- Outside `AddRansToInstance` the write of a record with a name does not fail. -/
theorem always_watch_updateNodebInfo {Q : Except Err Unit → Watched → Prop} {nb : NodebInfo}
    (hnb : nb.ranName ≠ "") (hQ : Q (.ok ()) ⟨s.putNodeb nb, false, failed⟩) :
    (RNibDataService.updateNodebInfo nb).Always watch (fun _ => True) P Q ⟨s, false, failed⟩ := by
  intro c _
  have hwatch : watch (.updateNodebInfo nb) c ⟨s, false, failed⟩ =
      (.ok (), ⟨s.putNodeb nb, false, failed⟩) := by
    simp only [watch, exec, storeWrite, updateNodebInfo_of_ne hnb]
    cases failed <;> rfl
  rw [hwatch]
  exact hQ

/-- **What an association leaves**, with a rest that does nothing more once it failed. -/
theorem AfterFailure.associateRan {a : String} {nb : NodebInfo}
    (hnb : nb.ranName ≠ "") {f : NodebInfo × Except Err Unit → Prog β}
    (hok : ∀ nb, (f (nb, .ok ())).Calls Call.Ordinary)
    (herr : ∀ nb e, Still (f (nb, .error e)))
    (hrm : G .routingManager (s.putNodeb (nb.setStatus .DISCONNECTED)))
    (hadd : ∀ s', s'.nodeb = (s.putNodeb
      ((nb.setStatus .CONNECTED).setAssociation a)).nodeb → G .addRansToInstance s') :
    AfterFailure G (E2TAssociationManager.associateRan a nb >>= f) s := by
  have hstill : ∀ {p : Prog β} {s' : Sdl} {which : AssociationFailure}, Still p → G which s' →
      p.Always watch (fun _ => True) (fun w => ∀ which, w.failed = some which → G which w.sdl)
        (fun _ w => ∀ which, w.failed = some which → G which w.sdl) ⟨s', false, some which⟩ := by
    intro p s' which hp hG
    have hw : ∀ w, w = Watched.mk s' false (some which) →
        ∀ which, w.failed = some which → G which w.sdl := by
      rintro w rfl which' hwhich
      obtain rfl := Option.some.inj hwhich
      exact hG
    exact Program.always_imp (hp _) hw fun _ => hw
  unfold AfterFailure
  simp only [E2TAssociationManager.associateRan, E2TAssociationManager.associateRanAndUpdateNodeb,
    bind_assoc, Program.always_bind]
  refine always_watch_associateRan _ _ ?_ ?_
  · refine always_watch_updateNodebInfo (by simpa using hnb) ?_
    exact hstill (herr _ _) hrm
  · refine always_watch_updateNodebInfo (by simpa using hnb) ?_
    simp only [Program.pure_eq_ret, Program.always_ret, Program.always_bind]
    refine always_watch_addRansToInstance _ _ (fun e s' hs' => ?_) fun s' hs' => ?_
    · exact hstill (herr _ _) (hadd s' hs')
    · exact AfterFailure.of_ordinary (hok _)

end Association

/-! ### The store after a failure -/

/-- After a failure of the routing manager. -/
theorem settled_putNodeb {nb : NodebInfo} {r : String} (hr : nb.ranName = r) :
    (s.putNodeb (nb.setStatus .DISCONNECTED)).Settled r ↔
      ∀ i, s.e2tInstance nb.associatedE2TInstanceAddress = some i → r ∈ i.associatedRanList := by
  subst hr
  have hnodeb : (s.putNodeb (nb.setStatus .DISCONNECTED)).nodeb nb.ranName =
      some (nb.setStatus .DISCONNECTED) := by simp
  constructor
  · intro h i hi
    exact (h _ hnodeb).2 i (by simpa using hi)
  · intro h nb' hnb'
    obtain rfl := Option.some.inj (hnodeb.symm.trans hnb')
    exact ⟨by simp, fun i hi => h i (by simpa using hi)⟩

/-- After a failure of `AddRansToInstance`. -/
theorem not_settled_of_nodeb {s' : Sdl} {nb : NodebInfo} {r a : String} (hr : nb.ranName = r)
    (hnodeb : s'.nodeb = (s.putNodeb ((nb.setStatus .CONNECTED).setAssociation a)).nodeb) :
    ¬ s'.Settled r := by
  intro h
  have hstored : s'.nodeb r = some ((nb.setStatus .CONNECTED).setAssociation a) := by
    rw [hnodeb, ← hr]
    simp
  exact (h _ hstored).1 (by simp)

/-! ### E2 setup -/

namespace E2SetupRequestNotificationHandler

/-- The address in the record that is associated: the stored one, or the one that
`buildNodebInfo` puts into the record of a new RAN. -/
def named (codecs : Codecs) (request : NotificationRequest) (s : Sdl) : String :=
  match parseSetupRequest codecs request.payload with
  | .error _ => ""
  | .ok (_, e2tIpAddress) =>
      ((s.nodeb request.ranName).map (·.associatedE2TInstanceAddress)).getD e2tIpAddress

/-- The condition for an E2 setup request. -/
def InOrder (codecs : Codecs) (request : NotificationRequest) (s : Sdl)
    (which : AssociationFailure) : Prop :=
  which = .routingManager ∧ ∀ i, s.e2tInstance (named codecs request s) = some i →
    request.ranName ∈ i.associatedRanList

section

variable {good : Call → Prop}

/-- `setGnbFunctions` only computes: it makes no call. -/
theorem calls_setGnbFunctions (nb : NodebInfo) (m : E2SetupRequestMessage) :
    (setGnbFunctions nb m).Calls good := by
  unfold setGnbFunctions
  split
  · trivial
  · exact Program.calls_bind (Program.calls_orPanic _) fun _ => trivial

/-- Nor does `buildGlobalNbId`. -/
theorem calls_buildGlobalNbId (m : E2SetupRequestMessage) : (buildGlobalNbId m).Calls good :=
  Program.calls_bind (Program.calls_orPanic _) fun _ =>
    Program.calls_bind (Program.calls_orPanic _) fun _ => trivial

/-- A new RAN's registration makes no call but `SaveNodeb`. -/
theorem calls_handleNewRan (hgood : ∀ id nb, good (.saveNodeb id nb)) (r a : String)
    (m : E2SetupRequestMessage) : (handleNewRan r a m).Calls good := by
  refine Program.calls_bind ?_ fun x => ?_
  · exact Program.calls_bind (calls_buildGlobalNbId m) fun _ => calls_setGnbFunctions _ m
  · cases x with
    | error e => trivial
    | ok nb =>
        refine Program.calls_bind ?_ fun id => ?_
        · exact Program.calls_bind (calls_buildGlobalNbId m) fun _ => trivial
        · refine Program.calls_bind ((Program.calls_perform _).2 (hgood _ _)) fun x => ?_
          cases x <;> trivial

/-- A known RAN's registration makes none. -/
theorem calls_handleExistingRan (nb : NodebInfo) (m : E2SetupRequestMessage) :
    (handleExistingRan nb m).Calls good := by
  unfold handleExistingRan
  split
  · trivial
  · exact calls_setGnbFunctions nb m

end

/-- The answer to a setup takes ordinary calls only. -/
theorem calls_handleSuccessfulResponse (config : Configuration) (r : String)
    (req : NotificationRequest) (m : E2SetupRequestMessage) :
    (handleSuccessfulResponse config r req m).Calls Call.Ordinary := by
  unfold handleSuccessfulResponse
  split
  · trivial
  · exact Program.calls_bind (Program.calls_orPanic _) fun _ =>
      Program.calls_bind ((Program.calls_perform _).2 trivial) fun _ => trivial

/-- The record of a new RAN names the instance already. -/
theorem always_handleNewRan (r a : String) (m : E2SetupRequestMessage) :
    (handleNewRan r a m).Always exec (Admits true) (fun _ => True)
      (fun x s' => ∀ nb, x = .ok nb → nb.ranName = r ∧ nb.associatedE2TInstanceAddress = a ∧
        r ≠ "" ∧ s'.e2tInstance = s.e2tInstance) s := by
  simp only [handleNewRan, Program.always_bind]
  refine always_buildNodebInfo _ _ _ _ trivial (fun e nb h => by cases h)
    fun nb hname hassoc _ => ?_
  simp only [Program.always_bind, buildNbIdentity, buildGlobalNbId, always_orPanic]
  cases m.getPlmnId with
  | none => trivial
  | some plmnId =>
      cases m.getNbId with
      | none => trivial
      | some nbId =>
          simp only [Option.elim_some, Program.pure_eq_ret, Program.always_ret,
            RNibDataService.always_saveNodeb]
          split
          · rename_i s₁ hsave
            rintro nb' hnb'
            obtain rfl := Except.ok.inj hnb'
            obtain ⟨hr, -, hinst, -⟩ := saveNodeb_ok hsave
            exact ⟨hname, hassoc, hr, hinst⟩
          · intro nb' h
            cases h

/-- A known RAN's registration changes nothing in the store and gives back the same RAN. -/
theorem always_handleExistingRan (nb : NodebInfo) (m : E2SetupRequestMessage) :
    (handleExistingRan nb m).Always exec (Admits true) (fun _ => True)
      (fun x s' => s' = s ∧ ∀ nb', x = .ok nb' → SameRan nb nb') s := by
  unfold handleExistingRan
  split
  · exact ⟨rfl, fun nb' h => by cases h⟩
  · rw [always_setGnbFunctions]
    split
    · exact ⟨rfl, fun nb' h => by cases h⟩
    · rename_i fs _
      cases hfs : withRanFunctions nb fs with
      | none => trivial
      | some nb' =>
          refine ⟨rfl, fun nb'' h => ?_⟩
          obtain rfl := Except.ok.inj h
          exact (sameRan_withRanFunctions hfs).1

/-- The association of an E2 setup request, and the answer to it. -/
theorem afterFailure_associateAndRespond {codecs : Codecs} {s₀ : Sdl}
    (hinst : s.e2tInstance = s₀.e2tInstance) (config : Configuration)
    (request : NotificationRequest) (m : E2SetupRequestMessage) (a : String) {nb : NodebInfo}
    (hr : nb.ranName = request.ranName) (hne : request.ranName ≠ "")
    (hnamed : nb.associatedE2TInstanceAddress = named codecs request s₀) :
    AfterFailure (fun which s' => s'.Settled request.ranName ↔ InOrder codecs request s₀ which)
      (associateAndRespond config request m a nb) s := by
  refine AfterFailure.associateRan (hr ▸ hne) (fun nb => ?_) (fun nb e => ?_) ?_ fun s' hs' => ?_
  · exact calls_handleSuccessfulResponse ..
  · cases e with
    | routingManager => exact still_send _
    | _ => exact still_ret ()
  · rw [settled_putNodeb hr, hinst, hnamed]
    simp [InOrder]
  · simp [not_settled_of_nodeb hr hs', InOrder]

/-- **After a failed association of an E2 setup request.** -/
theorem afterFailure_handle (hs : s.WellKeyed) (codecs : Codecs) (config : Configuration)
    (request : NotificationRequest) :
    AfterFailure (fun which s' => s'.Settled request.ranName ↔ InOrder codecs request s which)
      (handle codecs config request) s := by
  unfold handle
  split
  · exact AfterFailure.of_ordinary trivial
  rename_i m a hparse
  have hnamed : named codecs request s =
      ((s.nodeb request.ranName).map (·.associatedE2TInstanceAddress)).getD a := by
    rw [named, hparse]
  refine AfterFailure.bind ((Program.calls_perform _).2 trivial)
    ((E2TInstancesManager.always_getE2TInstance a fun _ s' => s' = s).2 rfl) ?_
  rintro x s' rfl
  cases x with
  | error e => exact AfterFailure.of_ordinary trivial
  | ok i =>
      refine AfterFailure.bind ((Program.calls_perform _).2 trivial)
        ((RNibDataService.always_getNodeb request.ranName
          fun x s₁ => s₁ = s' ∧ x = RNibReader.getNodeb request.ranName s').2 ⟨rfl, rfl⟩) ?_
      rintro x s₁ ⟨rfl, hx⟩
      cases x with
      | error e =>
          cases e with
          | resourceNotFound =>
              obtain ⟨-, hnone⟩ := getNodeb_eq_notFound hx.symm
              refine AfterFailure.bind (calls_handleNewRan (fun _ _ => trivial) ..)
                (always_handleNewRan ..) ?_
              intro x s₂ hx
              cases x with
              | error e => exact AfterFailure.of_ordinary trivial
              | ok nb =>
                  obtain ⟨hr, hassoc, hne, hinst⟩ := hx nb rfl
                  refine afterFailure_associateAndRespond hinst _ _ _ _ hr hne ?_
                  rw [hassoc, hnamed, hnone]
                  rfl
          | _ => exact AfterFailure.of_ordinary trivial
      | ok nb =>
          have hnb : s₁.nodeb request.ranName = some nb := hs.getNodeb_eq_ok.1 hx.symm
          refine AfterFailure.bind (calls_handleExistingRan ..) (always_handleExistingRan ..) ?_
          rintro x s₂ ⟨rfl, hx⟩
          cases x with
          | error e => exact AfterFailure.of_ordinary trivial
          | ok nb' =>
              have hsame := hx nb' rfl
              refine afterFailure_associateAndRespond rfl _ _ _ _
                (hsame.ranName.trans (hs.nodeb hnb).1) (hs.nodeb hnb).2 ?_
              rw [hsame.association, hnamed, hnb]
              rfl

end E2SetupRequestNotificationHandler

/-! ### X2 and ENDC setup -/

/-- So does the selection of the least loaded termination. -/
theorem E2TInstancesManager.calls_selectE2TInstance : selectE2TInstance.Calls Call.Ordinary := by
  refine Program.calls_bind ?_ fun x => ?_
  · refine Program.calls_bind ?_ fun x => ?_
    · refine Program.calls_bind ((Program.calls_perform _).2 trivial) fun x => ?_
      split <;> trivial
    · split
      · trivial
      · trivial
      · refine Program.calls_bind ((Program.calls_perform _).2 trivial) fun x => ?_
        split <;> trivial
  · split
    · trivial
    · split
      · trivial
      · split <;> trivial

/-- And so does sending the X2 or ENDC setup. -/
theorem RanSetupManager.calls_executeSetup (nb : NodebInfo) (st : ConnectionStatus) :
    (executeSetup nb st).Calls Call.Ordinary := by
  refine Program.calls_bind ((Program.calls_perform _).2 trivial) fun x => ?_
  split
  · trivial
  · split
    · trivial
    · refine Program.calls_bind ((Program.calls_perform _).2 trivial) fun x => ?_
      split
      · trivial
      · refine Program.calls_bind ((Program.calls_perform _).2 trivial) fun x => ?_
        split <;> trivial

namespace SetupRequestHandler

/-- The association of a RAN whose record names no instance. -/
theorem afterFailure_associateAndSetup (hs : s.e2tInstance "" = none) (a : String)
    {nb : NodebInfo} {r : String} (hr : nb.ranName = r) (hne : r ≠ "")
    (hassoc : nb.associatedE2TInstanceAddress = "") :
    AfterFailure (fun which s' => s'.Settled r ↔ which = .routingManager)
      (associateAndSetup a nb) s := by
  refine AfterFailure.associateRan (hr ▸ hne) (fun nb => ?_) (fun nb e => ?_) ?_ fun s' hs' => ?_
  · exact RanSetupManager.calls_executeSetup ..
  · exact still_ret _
  · rw [settled_putNodeb hr, hassoc, hs]
    simp
  · simp [not_settled_of_nodeb hr hs']

/-- **After a failed association of an X2 or ENDC setup request.** -/
theorem afterFailure_handle (hs : s.WellKeyed) (codecs : Codecs)
    (protocol : E2ApplicationProtocol) (request : SetupRequest) :
    AfterFailure (fun which s' => s'.Settled request.ranName ↔ which = .routingManager)
      (handle codecs protocol request) s := by
  have hempty : s.e2tInstance "" = none := by
    cases hi : s.e2tInstance "" with
    | none => rfl
    | some i => exact absurd rfl (hs.e2tInstance hi).2
  have hselect := E2TInstancesManager.always_selectE2TInstance (b := true)
    (P := fun _ => True) hs (fun _ s' => s' = s) (fun _ => rfl) fun _ _ => rfl
  unfold handle
  split
  · exact AfterFailure.of_ordinary trivial
  refine AfterFailure.bind ((Program.calls_perform _).2 trivial)
    ((RNibDataService.always_getNodeb request.ranName
      fun x s₁ => s₁ = s ∧ x = RNibReader.getNodeb request.ranName s).2 ⟨rfl, rfl⟩) ?_
  rintro x s₁ ⟨rfl, hx⟩
  split
  · -- the RAN is new
    obtain ⟨hne, -⟩ := getNodeb_eq_notFound hx.symm
    refine AfterFailure.bind E2TInstancesManager.calls_selectE2TInstance hselect ?_
    rintro x s₂ rfl
    cases x with
    | error e => exact AfterFailure.of_ordinary trivial
    | ok a =>
        refine AfterFailure.bind ((Program.calls_perform _).2 trivial)
          ((RNibDataService.always_saveNodeb _ _
            fun _ s' => s'.e2tInstance = s₂.e2tInstance).2 ?_) ?_
        · split
          · rename_i hsave
            exact (saveNodeb_ok hsave).2.2.1
          · rfl
        · intro x s₃ hinst
          cases x with
          | error e => exact AfterFailure.of_ordinary trivial
          | ok u => exact afterFailure_associateAndSetup (by rw [hinst, hempty]) a rfl hne rfl
  · exact AfterFailure.of_ordinary trivial
  · rename_i nb
    have hnb : s₁.nodeb request.ranName = some nb := hs.getNodeb_eq_ok.1 hx.symm
    split
    · exact AfterFailure.of_ordinary trivial
    split
    · -- it is associated, and its record is written as it is
      refine AfterFailure.of_ordinary ?_
      refine Program.calls_bind ((Program.calls_perform _).2 trivial) fun x => ?_
      split
      · trivial
      · exact RanSetupManager.calls_executeSetup ..
    · rename_i hassoc
      refine AfterFailure.bind E2TInstancesManager.calls_selectE2TInstance hselect ?_
      rintro x s₂ rfl
      cases x with
      | error e =>
          refine AfterFailure.of_ordinary ?_
          dsimp only
          split
          · trivial
          · exact Program.calls_bind ((Program.calls_perform _).2 trivial) fun _ => trivial
      | ok a =>
          exact afterFailure_associateAndSetup hempty a (hs.nodeb hnb).1 (hs.nodeb hnb).2
            (not_not.1 hassoc)

end SetupRequestHandler

/-! ### When a failure leaves the RAN settled -/

/-- The end of a handler that ran alone, from a store. -/
def watched (p : Prog α) (cs : List Outcome) (s : Sdl) : Watched :=
  (p.run watch cs ⟨s, false, none⟩).2

/-- What `AfterFailure` says of one run: the store at its end is as `G` says of what failed. -/
theorem AfterFailure.watched {p : Prog α} (h : AfterFailure G p s) {cs : List Outcome}
    {which : AssociationFailure} (hw : (watched p cs s).failed = some which) :
    G which (watched p cs s).sdl :=
  Program.run_state_of_always h (fun _ _ => trivial) trivial which hw

/-- **When a failed association leaves the store in order**, for E2 setup and for X2 and
ENDC setup. -/
theorem settled_iff (hs : s.WellKeyed) (codecs : Codecs) (cs : List Outcome)
    (which : AssociationFailure) :
    (∀ (config : Configuration) (request : NotificationRequest),
      let w := watched (E2SetupRequestNotificationHandler.handle codecs config request) cs s
      w.failed = some which → (w.sdl.Settled request.ranName ↔
        E2SetupRequestNotificationHandler.InOrder codecs request s which)) ∧
    ∀ (protocol : E2ApplicationProtocol) (request : SetupRequest),
      let w := watched (SetupRequestHandler.handle codecs protocol request) cs s
      w.failed = some which → (w.sdl.Settled request.ranName ↔ which = .routingManager) := by
  refine ⟨fun config request hw => ?_, fun protocol request hw => ?_⟩
  · exact (E2SetupRequestNotificationHandler.afterFailure_handle hs codecs config request).watched
      hw
  · exact (SetupRequestHandler.afterFailure_handle hs codecs protocol request).watched hw

namespace Deployment

/-- On the example payload the handler is its part behind the decoder. -/
theorem handle_e2Setup (ranName : String) {address : String} (hne : address ≠ "")
    (hbar : '|' ∉ address.toList) :
    E2SetupRequestNotificationHandler.handle codecs {}
      { ranName, payload := address ++ "|" ++ setupRequestXml } =
      E2SetupRequestNotificationHandler.handleParsed {}
        { ranName, payload := address ++ "|" ++ setupRequestXml } setupRequestMessage address := by
  rw [E2SetupRequestNotificationHandler.handle, parse_e2Setup hne hbar]

/-- The E2 setup request of a new gNB, for which `AddRansToInstance` fails. -/
def notAdded : Watched :=
  watched (E2SetupRequestNotificationHandler.handleParsed {}
    { ranName := "RAN1", payload := address₁ ++ "|" ++ setupRequestXml } setupRequestMessage
    address₁) (List.replicate 10 { store := .fails }) oneTermination

end Deployment

open Deployment in
/-- An X2 setup request of a new RAN, of which the routing manager wants to know nothing. -/
theorem settled_iff_x2Setup : (watched (SetupRequestHandler.handle codecs .X2_SETUP_REQUEST
    { ranIp := "10.0.0.7", ranPort := 36422, ranName := "RAN1" })
      (List.replicate 10 { rm := false }) oneTermination).sdl.Settled "RAN1" :=
  ((settled_iff wellKeyed_oneTermination codecs (List.replicate 10 { rm := false })
    .routingManager).2 .X2_SETUP_REQUEST
      { ranIp := "10.0.0.7", ranPort := 36422, ranName := "RAN1" } (by decide +kernel)).2 rfl

open Deployment in
/-- **A RAN whose name could not be added to the list of the instance is stored as
connected through it.** -/
theorem not_settled : ¬ ∀ (codecs : Codecs) (config : Configuration)
    (request : NotificationRequest) (s : Sdl) (cs : List Outcome), s.WellKeyed →
      let w := watched (E2SetupRequestNotificationHandler.handle codecs config request) cs s
      w.failed.isSome → w.sdl.Settled request.ranName := by
  intro hall
  have hsettled := hall codecs {}
    { ranName := "RAN1", payload := address₁ ++ "|" ++ setupRequestXml } oneTermination
    (List.replicate 10 { store := .fails }) wellKeyed_oneTermination
  rw [@handle_e2Setup "RAN1" address₁ (by decide) (by decide)] at hsettled
  have hfailed : notAdded.failed.isSome := by decide +kernel
  have hstored : (notAdded.sdl.nodeb "RAN1").map (·.connectionStatus) = some .CONNECTED := by
    decide +kernel
  obtain ⟨nb, hnb, hst⟩ := Option.map_eq_some_iff.1 hstored
  exact (hsettled hfailed nb hnb).1 hst

end NearRtRic.E2Manager
