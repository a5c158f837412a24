/-
# The expiry of an instance beside its handlers

The keep-alive worker shuts an expired instance down from the record that it read
at the start of its round: it marks the instance by saving that record, clears
the RANs that it lists, and removes it.  It takes the mutex of the instances
manager for the removal only.  Handlers that associate RANs with the instance
meanwhile are overlooked: their RAN keeps the address of an instance that is gone
(`not_noRanLost_of_reach`).

`NothingOverlooked a` is the condition on the steps under which no RAN of `a` is
lost (`noRanLost_of_reach`).  It concerns two kinds of steps.  Where the worker
marks `a`, the record that it saves lists every RAN that is associated with `a`,
and either every RAN that is in the stored list, or only RANs that are stored, so
that the Shutdown completes.  Where a handler associates a RAN with `a`, the
instance is stored, and a Shutdown in progress has yet to clear that RAN.

The invariant is `Inv.covered`: a RAN that is associated with `a` has a stored
instance and is on the list of a Shutdown in progress.  A RAN whose association
succeeded stays listed, unless the instance is bound to be removed (`Kept`).
-/

import NearRtRic.E2Manager.Concurrent

namespace NearRtRic.E2Manager.Expiry

open Effect Program

variable {ι : Type} {a : String} {t u : Option ι} {s s' s'' : Shared ι}

/-! ### What is kept -/

/-- The Shutdown of `a` is in progress and will not end early: all the RANs that
it has yet to clear are stored. -/
def Doomed (a : String) (d : Sdl) (clearing : Option (String × List String)) : Prop :=
  ∃ rs, clearing = some (a, rs) ∧ ∀ r ∈ rs, r ≠ "" → (d.nodeb r).isSome

/-- If `a` is stored, then with `r` in its list or to be removed. -/
def Kept (a r : String) (d : Sdl) (clearing : Option (String × List String)) : Prop :=
  ∀ i, d.e2tInstance a = some i → r ∈ i.associatedRanList ∨ Doomed a d clearing

/-- No RAN is associated with `a` in vain. -/
structure Inv (a : String) (s : Shared ι) : Prop where
  ne : a ≠ ""
  wellKeyed : s.sdl.WellKeyed
  nodup : s.sdl.addresses.Nodup
  /-- A RAN that is associated with `a` will be cleared by a Shutdown of `a`. -/
  covered : ∀ r nb, s.sdl.nodeb r = some nb → nb.associatedE2TInstanceAddress = a →
    (s.sdl.e2tInstance a).isSome ∧ ∀ rs, s.clearing = some (a, rs) → r ∈ rs

/-- What the steps of the other threads do to thread `u`. -/
structure Rely (a : String) (u : Option ι) (s s' : Shared ι) : Prop where
  inv : Inv a s'
  /-- Nobody else takes the mutex for `u`, or away from it. -/
  mux : ∀ m, s'.mux = some (u, m) ↔ s.mux = some (u, m)
  kept : ∀ r, Kept a r s.sdl s.clearing → Kept a r s'.sdl s'.clearing
  /-- While a handler is inside the manager, `a` stays stored and its list can
  only lose RANs, to the worker that marks it. -/
  shrinks : u ≠ none → ∀ m, s.mux = some (u, m) → ∀ i, s.sdl.e2tInstance a = some i →
    ∃ i', s'.sdl.e2tInstance a = some i' ∧ i'.associatedRanList ⊆ i.associatedRanList
  /-- To the worker it can only gain some. -/
  grows : u = none → ∀ i, s.sdl.e2tInstance a = some i →
    ∃ i', s'.sdl.e2tInstance a = some i' ∧ i.associatedRanList ⊆ i'.associatedRanList
  clearing : u = none → s'.clearing = s.clearing

/-- The rely of thread `u`. -/
def Interference (a : String) (u : Option ι) (s s' : Shared ι) : Prop := Inv a s → Rely a u s s'

instance : Std.Refl (Interference a u) :=
  ⟨fun _ h => ⟨h, fun _ => Iff.rfl, fun _ hk => hk, fun _ _ _ i hi => ⟨i, hi, List.Subset.refl _⟩,
    fun _ i hi => ⟨i, hi, List.Subset.refl _⟩, fun _ => rfl⟩⟩

instance : IsTrans (Shared ι) (Interference a u) where
  trans _ _ _ h₁ h₂ h := by
    have hr₁ := h₁ h
    have hr₂ := h₂ hr₁.inv
    refine ⟨hr₂.inv, fun m => (hr₂.mux m).trans (hr₁.mux m), fun r hk => hr₂.kept r (hr₁.kept r hk),
      fun hu m hm i hi => ?_, fun hu i hi => ?_,
      fun hu => (hr₂.clearing hu).trans (hr₁.clearing hu)⟩
    · obtain ⟨i₁, hi₁, hsub₁⟩ := hr₁.shrinks hu m hm i hi
      obtain ⟨i₂, hi₂, hsub₂⟩ := hr₂.shrinks hu m ((hr₁.mux m).2 hm) i₁ hi₁
      exact ⟨i₂, hi₂, fun r hr => hsub₁ (hsub₂ hr)⟩
    · obtain ⟨i₁, hi₁, hsub₁⟩ := hr₁.grows hu i hi
      obtain ⟨i₂, hi₂, hsub₂⟩ := hr₂.grows hu i₁ hi₁
      exact ⟨i₂, hi₂, fun r hr => hsub₂ (hsub₁ hr)⟩

/-- What a step of thread `t` guarantees: it keeps the relies of the others. -/
def Guarantee (a : String) (t : Option ι) (_ : Call) (s s' : Shared ι) : Prop :=
  ∀ u, u ≠ t → Interference a u s s'

/-- The condition on the steps. -/
def NothingOverlooked (a : String) (t : Option ι) (o : Call) (s : Shared ι) : Prop :=
  match t, o with
  | none, .saveE2TInstance i => i.address = a →
      (∀ r nb, s.sdl.nodeb r = some nb → nb.associatedE2TInstanceAddress = a →
        r ∈ i.associatedRanList) ∧
      ((∀ i', s.sdl.e2tInstance a = some i' → i'.associatedRanList ⊆ i.associatedRanList) ∨
        ∀ r ∈ i.associatedRanList, r ≠ "" → (s.sdl.nodeb r).isSome)
  | some _, .updateNodebInfo nb => nb.associatedE2TInstanceAddress = a →
      (s.sdl.e2tInstance a).isSome ∧ ∀ rs, s.clearing = some (a, rs) → nb.ranName ∈ rs
  | _, _ => True

/-- A thread that is inside method `mx`, or outside the instances manager, with
what it knows of the store and of the Shutdown in progress. -/
structure Know (a : String) (t : Option ι) (mx : Option MuxMethod)
    (X : Sdl → Option (String × List String) → Prop) (s : Shared ι) : Prop where
  inv : Inv a s
  holding : ∀ m, s.mux = some (t, m) ↔ mx = some m
  facts : X s.sdl s.clearing

/-- What thread `t` knows survives the steps of the others. -/
def Stable (a : String) (t : Option ι) (mx : Option MuxMethod)
    (X : Sdl → Option (String × List String) → Prop) : Prop :=
  ∀ s s' : Shared ι, Know a t mx X s → Rely a t s s' → X s'.sdl s'.clearing

/-- A thread keeps what it knows over the steps of the others, if that is stable. -/
theorem Know.stable {mx : Option MuxMethod} {X : Sdl → Option (String × List String) → Prop}
    (hX : Stable a t mx X) (h : Interference a t s s') (hs : Know a t mx X s) :
    Know a t mx X s' where
  inv := (h hs.inv).inv
  holding m := ((h hs.inv).mux m).trans (hs.holding m)
  facts := hX s s' hs (h hs.inv)

/-- A thread that knows a fact knows every consequence of it. -/
theorem Know.mono {mx : Option MuxMethod} {X Y : Sdl → Option (String × List String) → Prop}
    (hs : Know a t mx X s) (h : X s.sdl s.clearing → Y s.sdl s.clearing) : Know a t mx Y s :=
  ⟨hs.inv, hs.holding, h hs.facts⟩

/-- A step that changes neither the store nor the Shutdown in progress. -/
theorem Inv.of_same (h : Inv a s) (hsdl : s'.sdl = s.sdl) (hclearing : s'.clearing = s.clearing) :
    Inv a s' := ⟨h.ne, hsdl ▸ h.wellKeyed, hsdl ▸ h.nodup, by rw [hsdl, hclearing]; exact h.covered⟩

/-- A list that is read has no duplicates. -/
theorem Inv.nodup_of_read (h : Inv a s) {as : List String}
    (has : RNibReader.getE2TAddresses s.sdl = .ok as) : as.Nodup := by
  rcases getE2TAddresses_cases s.sdl with heq | ⟨heq, -⟩
  · rw [heq] at has
    exact Except.ok.inj has ▸ h.nodup
  · rw [heq] at has
    cases has

/-- A step that changes neither the store nor the Shutdown in progress, nor the mutex for thread
`u`, is one that `u` relies on. -/
theorem rely_of_same (h : Inv a s) (hsdl : s'.sdl = s.sdl) (hclearing : s'.clearing = s.clearing)
    (hmux : ∀ m, s'.mux = some (u, m) ↔ s.mux = some (u, m)) : Rely a u s s' where
  inv := h.of_same hsdl hclearing
  mux := hmux
  kept r hk := by rw [hsdl, hclearing]; exact hk
  shrinks _ _ _ i hi := ⟨i, hsdl ▸ hi, List.Subset.refl _⟩
  grows _ i hi := ⟨i, hsdl ▸ hi, List.Subset.refl _⟩
  clearing _ := hclearing

/-- A part of thread `t`. -/
abbrev SafeFor {α : Type} (a : String) (t : Option ι) (p : Prog α) (Q : α → Shared ι → Prop)
    (s : Shared ι) : Prop :=
  p.Safe (Shared.sem (NothingOverlooked a) t) (Interference a t) (Guarantee a t) Q s

section Rules

variable {α β : Type} {mx : Option MuxMethod} {X : Sdl → Option (String × List String) → Prop}

/-- A return is safe, if what is to be known then is known and stable. -/
theorem safe_pure {Y : α → Sdl → Option (String × List String) → Prop} {x : α}
    (hY : Stable a t mx (Y x)) (hs : Know a t mx (Y x) s) :
    SafeFor a t (pure x) (fun x => Know a t mx (Y x)) s :=
  safe_ret_of (fun _ _ hR h => Know.stable hY hR h) hs

/-- The rule of a call that writes nothing. -/
theorem safe_read (o : Call) (ho : o.IsPlain) {k : o.Answer → Prog β} {Q : β → Shared ι → Prop}
    {Y : o.Answer → Sdl → Option (String × List String) → Prop} (hX : Stable a t mx X)
    (hread : ∀ c d, (exec o c d).2 = d)
    (hclearing : t = none → ∀ r cl, Shared.progress o r cl = cl)
    (hstep : ∀ s c, Know a t mx X s → Admits false c → Y (exec o c s.sdl).1 s.sdl s.clearing)
    (hs : Know a t mx X s)
    (hk : ∀ r s', Know a t mx (Y r) s' → SafeFor a t (k r) Q s') :
    SafeFor a t (call o >>= k) Q s := by
  refine safe_call_of (fun _ _ => Know.stable hX) hs fun s₁ r s₂ h₁ hsem => ?_
  obtain ⟨-, ⟨c, hc, hexec⟩, hmux, hcl⟩ := Shared.sem_plain ho hsem
  have hsdl : s₂.sdl = s₁.sdl := by
    have := hread c s₁.sdl
    rwa [hexec] at this
  have hcl : s₂.clearing = s₁.clearing := by
    rw [hcl]
    split
    · rename_i ht
      exact hclearing (Option.isNone_iff_eq_none.1 ht) r _
    · rfl
  refine ⟨fun u _ h => rely_of_same h hsdl hcl fun m => by rw [hmux], hk r s₂
    ⟨h₁.inv.of_same hsdl hcl, fun m => by rw [hmux, h₁.holding], ?_⟩⟩
  have hY := hstep s₁ c h₁ hc
  rw [hexec] at hY
  rw [hsdl, hcl]
  exact hY

/-- The rule of the mutex. -/
theorem safe_withMutex {m : MuxMethod} {body : Prog α}
    {Y : α → Sdl → Option (String × List String) → Prop} (hX : Stable a t none X)
    (hY : ∀ x, Stable a t (some m) (Y x)) (hY' : ∀ x, Stable a t none (Y x))
    (h : ∀ s, Know a t (some m) X s → SafeFor a t body (fun x => Know a t (some m) (Y x)) s)
    (hs : Know a t none X s) :
    SafeFor a t (withMutex m body) (fun x => Know a t none (Y x)) s := by
  refine safe_call_of (fun _ _ => Know.stable hX) hs fun s₁ r s₂ h₁ hsem => ?_
  obtain ⟨-, hmux, rfl⟩ := Shared.sem_lock hsem
  have hentered : Know a t (some m) X ({ s₁ with mux := some (t, m) } : Shared ι) :=
    ⟨h₁.inv.of_same rfl rfl, fun m' =>
      ⟨fun heq => congrArg some (Prod.mk.inj (Option.some.inj heq)).2,
        fun heq => congrArg (fun m => some (t, m)) (Option.some.inj heq)⟩, h₁.facts⟩
  refine ⟨fun u hu hinv => rely_of_same hinv rfl rfl fun m' => ?_, ?_⟩
  · rw [hmux]
    exact ⟨fun heq => absurd (Prod.mk.inj (Option.some.inj heq)).1.symm hu, nofun⟩
  refine (h _ hentered).bind fun x s₃ h₃ => ?_
  refine safe_call_of (fun _ _ => Know.stable (hY x)) h₃ fun s₄ r s₅ h₄ hsem => ?_
  obtain rfl := Shared.sem_unlock hsem
  have hheld := (h₄.holding m).2 rfl
  refine ⟨fun u hu hinv => rely_of_same hinv rfl rfl fun m' => ?_, ?_⟩
  · rw [hheld]
    exact ⟨nofun, fun heq => absurd (Prod.mk.inj (Option.some.inj heq)).1.symm hu⟩
  · exact safe_pure (hY' x) ⟨h₄.inv.of_same rfl rfl, fun m' => ⟨nofun, nofun⟩, h₄.facts⟩

end Rules

/-! ### The handlers -/

/-- A write of a handler: of a record, or of a stored instance inside the manager. -/
theorem rely_of_handler {j : ι} (hu : u ≠ some j) (hinv : Inv a s') (hmux : s'.mux = s.mux)
    (hclearing : s'.clearing = s.clearing)
    (hnodeb : ∀ r, (s.sdl.nodeb r).isSome → (s'.sdl.nodeb r).isSome)
    (hgrows : ∀ i, s.sdl.e2tInstance a = some i →
      ∃ i', s'.sdl.e2tInstance a = some i' ∧ i.associatedRanList ⊆ i'.associatedRanList)
    (hsame : s'.sdl.e2tInstance a = s.sdl.e2tInstance a ∨
      (s.sdl.e2tInstance a).isSome ∧ ∃ m, s.mux = some (some j, m)) : Rely a u s s' where
  inv := hinv
  mux m := by rw [hmux]
  kept r hk i' hi' := by
    have hstored : (s.sdl.e2tInstance a).isSome := by
      rcases hsame with heq | ⟨hstored, -⟩
      · rw [← heq, hi']
        rfl
      · exact hstored
    obtain ⟨i, hi⟩ := Option.isSome_iff_exists.1 hstored
    obtain ⟨i'', hi'', hsub⟩ := hgrows i hi
    rw [hi''] at hi'
    obtain rfl := Option.some.inj hi'
    rcases hk i hi with hr | ⟨rs, hrs, hall⟩
    · exact .inl (hsub hr)
    · exact .inr ⟨rs, hclearing.trans hrs, fun x hx hne => hnodeb x (hall x hx hne)⟩
  shrinks _ m hm i hi := by
    rcases hsame with heq | ⟨-, m', hm'⟩
    · exact ⟨i, heq.trans hi, List.Subset.refl _⟩
    · rw [hm'] at hm
      exact absurd (Prod.mk.inj (Option.some.inj hm)).1.symm hu
  grows _ := hgrows
  clearing _ := hclearing

/-- What a thread knows that knows nothing. -/
abbrev Nothing (_ : Sdl) (_ : Option (String × List String)) : Prop := True

/-- To know nothing is stable. -/
theorem stable_nothing {mx : Option MuxMethod} : Stable a t mx Nothing := fun _ _ _ _ => trivial

/-- What a handler inside the manager knows after it read the instance `b`: the
stored list has no RAN that it has not read. -/
def Read (a b : String) (x : Except Err E2TInstance) (d : Sdl)
    (_ : Option (String × List String)) : Prop :=
  ∀ i, x = .ok i → i.address = b ∧ b ≠ "" ∧ (b = a → ∃ i', d.e2tInstance a = some i' ∧
    i'.associatedRanList ⊆ i.associatedRanList)

/-- What it knows after it saved a list with the RANs of `rs`. -/
def Added (a b : String) (rs : List String) (x : Except Err Unit) (d : Sdl)
    (clearing : Option (String × List String)) : Prop :=
  x = .ok () → b = a → ∀ r ∈ rs, Kept a r d clearing

/-- What a handler has read inside the manager is stable: nobody adds to the list meanwhile. -/
theorem stable_read {j : ι} {m : MuxMethod} (b : String) (x : Except Err E2TInstance) :
    Stable a (some j) (some m) (Read a b x) := by
  intro s s' hs hR i hi
  obtain ⟨haddr, hne, hread⟩ := hs.facts i hi
  refine ⟨haddr, hne, fun hba => ?_⟩
  obtain ⟨i', hi', hsub⟩ := hread hba
  obtain ⟨i'', hi'', hsub'⟩ := hR.shrinks nofun m ((hs.holding m).2 rfl) i' hi'
  exact ⟨i'', hi'', fun r hr => hsub (hsub' hr)⟩

/-- That the RANs it added are kept is stable, whatever the save answered. -/
theorem stable_added {mx : Option MuxMethod} (b : String) (rs : List String)
    (x : Except Err Unit) : Stable a t mx (Added a b rs x) :=
  fun _ _ hs hR hx hba r hr => hR.kept r (hs.facts hx hba r hr)

/-- The read at the start of a method. -/
theorem safe_getE2TInstance {β : Type} {j : ι} {m : MuxMethod} (b : String)
    {k : Except Err E2TInstance → Prog β} {Q : β → Shared ι → Prop}
    (hs : Know a (some j) (some m) Nothing s)
    (hk : ∀ x s', Know a (some j) (some m) (Read a b x) s' → SafeFor a (some j) (k x) Q s') :
    SafeFor a (some j) (RNibDataService.getE2TInstance b >>= k) Q s := by
  refine safe_read (.getE2TInstance b) trivial stable_nothing (fun _ _ => storeRead_snd ..) nofun
    (fun s c h hc i hi => ?_) hs hk
  rw [show exec (.getE2TInstance b) c s.sdl = _ from storeRead_ok hc] at hi
  have hstored := h.inv.wellKeyed.getE2TInstance_eq_ok.1 hi
  refine ⟨(h.inv.wellKeyed.e2tInstance hstored).1, (h.inv.wellKeyed.e2tInstance hstored).2, ?_⟩
  rintro rfl
  exact ⟨i, hstored, List.Subset.refl _⟩

/-- The save at its end: of the instance that was read, with no RAN less. -/
theorem safe_saveE2TInstance {β : Type} {j : ι} {m : MuxMethod} {b : String} (old new : E2TInstance)
    (haddr : new.address = old.address) (hsub : old.associatedRanList ⊆ new.associatedRanList)
    {k : Except Err Unit → Prog β} {Q : β → Shared ι → Prop}
    (hs : Know a (some j) (some m) (Read a b (.ok old)) s)
    (hk : ∀ x s', Know a (some j) (some m) (Added a b new.associatedRanList x) s' →
      SafeFor a (some j) (k x) Q s') :
    SafeFor a (some j) (RNibDataService.saveE2TInstance new >>= k) Q s := by
  refine safe_call_of (fun _ _ => Know.stable (stable_read b _)) hs fun s₁ x s₂ h₁ hsem => ?_
  obtain ⟨-, ⟨c, hc, hexec⟩, hmux, hcl⟩ := Shared.sem_plain (o := .saveE2TInstance new) trivial hsem
  obtain ⟨hold, hne, hread⟩ := h₁.facts old rfl
  have hnew : new.address = b := haddr.trans hold
  rw [exec_saveE2TInstance hc (hnew.trans_ne hne)] at hexec
  obtain ⟨rfl, hsdl⟩ := Prod.mk.inj hexec
  have hinstance : b ≠ a → s₂.sdl.e2tInstance a = s₁.sdl.e2tInstance a := fun hba => by
    rw [← hsdl, Sdl.e2tInstance_putInstance, hnew, Function.update_of_ne (Ne.symm hba)]
  have hput : b = a → s₂.sdl.e2tInstance a = some new := fun hba => by
    rw [← hsdl, Sdl.e2tInstance_putInstance, hnew, hba, Function.update_self]
  have hgrows : ∀ i, s₁.sdl.e2tInstance a = some i →
      ∃ i', s₂.sdl.e2tInstance a = some i' ∧ i.associatedRanList ⊆ i'.associatedRanList := by
    intro i hi
    by_cases hba : b = a
    · obtain ⟨i', hi', hsub'⟩ := hread hba
      rw [hi] at hi'
      obtain rfl := Option.some.inj hi'
      exact ⟨new, hput hba, fun r hr => hsub (hsub' hr)⟩
    · exact ⟨i, (hinstance hba).trans hi, List.Subset.refl _⟩
  have hinv : Inv a s₂ := by
    refine ⟨h₁.inv.ne, ?_, ?_, fun r nb hr hnb => ?_⟩
    · rw [← hsdl]
      exact h₁.inv.wellKeyed.putInstance (hnew.trans_ne hne)
    · rw [← hsdl, Sdl.addresses_putInstance]
      exact h₁.inv.nodup
    · rw [← hsdl, Sdl.nodeb_putInstance] at hr
      obtain ⟨hstored, hmem⟩ := h₁.inv.covered r nb hr hnb
      obtain ⟨i, hi⟩ := Option.isSome_iff_exists.1 hstored
      obtain ⟨i', hi', -⟩ := hgrows i hi
      exact ⟨by rw [hi']; rfl, by rw [hcl]; exact hmem⟩
  refine ⟨fun u hu _ => rely_of_handler hu hinv hmux hcl (fun r hr => ?_) hgrows ?_,
    hk _ s₂ ⟨hinv, fun m' => by rw [hmux, h₁.holding], fun _ hba r hr i hi => ?_⟩⟩
  · rw [← hsdl, Sdl.nodeb_putInstance]
    exact hr
  · by_cases hba : b = a
    · obtain ⟨i', hi', -⟩ := hread hba
      exact .inr ⟨by rw [hi']; rfl, m, (h₁.holding m).2 rfl⟩
    · exact .inl (hinstance hba)
  · rw [hput hba] at hi
    obtain rfl := Option.some.inj hi
    exact .inl hr

/-- `AddRansToInstance`. -/
theorem safe_addRansToInstance {j : ι} (b : String) (rs : List String)
    (hs : Know a (some j) none Nothing s) :
    SafeFor a (some j) (E2TInstancesManager.addRansToInstance b rs)
      (fun x => Know a (some j) none (Added a b rs x)) s := by
  refine safe_withMutex stable_nothing (fun x => stable_added b rs x)
    (fun x => stable_added b rs x) (fun s₁ h₁ => ?_) hs
  refine safe_getE2TInstance b h₁ fun x s₂ h₂ => ?_
  rcases x with e | i
  · exact safe_pure (stable_added b rs _) (h₂.mono fun _ => nofun)
  refine safe_saveE2TInstance i { i with associatedRanList := i.associatedRanList ++ rs } rfl
    (List.subset_append_left ..) h₂ fun x s₃ h₃ => ?_
  rcases x with e | ⟨⟩
  · exact safe_pure (stable_added b rs _) (h₃.mono fun _ => nofun)
  · exact safe_pure (stable_added b rs _)
      (h₃.mono fun h _ hba r hr => h rfl hba r (List.mem_append_right _ hr))

/-- `ResetKeepAliveTimestamp`. -/
theorem safe_resetKeepAliveTimestamp {j : ι} (b : String) (hs : Know a (some j) none Nothing s) :
    SafeFor a (some j) (E2TInstancesManager.resetKeepAliveTimestamp b)
      (fun _ => Know a (some j) none Nothing) s := by
  refine safe_withMutex stable_nothing (fun _ => stable_nothing) (fun _ => stable_nothing)
    (fun s₁ h₁ => ?_) hs
  refine safe_getE2TInstance b h₁ fun x s₂ h₂ => ?_
  rcases x with e | i
  · exact safe_pure (Y := fun _ => Nothing) stable_nothing (h₂.mono fun _ => trivial)
  dsimp only
  split
  · exact safe_pure (Y := fun _ => Nothing) stable_nothing (h₂.mono fun _ => trivial)
  refine safe_read .now trivial (stable_read b _) (fun _ _ => rfl) nofun
    (Y := fun _ => Read a b (.ok i)) (fun _ _ h _ => h.facts) h₂ fun now s₃ h₃ => ?_
  rw [← bind_ret (RNibDataService.saveE2TInstance _)]
  exact safe_saveE2TInstance i { i with keepAliveTimestamp := now } rfl (List.Subset.refl _) h₃
    fun x s₄ h₄ => safe_pure (Y := fun _ => Nothing) stable_nothing (h₄.mono fun _ => trivial)

/-- `UpdateNodebInfo` by a handler. -/
theorem safe_updateNodebInfo {β : Type} {j : ι} (nb : NodebInfo) {k : Except Err Unit → Prog β}
    {Q : β → Shared ι → Prop} (hs : Know a (some j) none Nothing s)
    (hk : ∀ x s', Know a (some j) none Nothing s' → SafeFor a (some j) (k x) Q s') :
    SafeFor a (some j) (RNibDataService.updateNodebInfo nb >>= k) Q s := by
  refine safe_call_of (fun _ _ => Know.stable stable_nothing) hs fun s₁ x s₂ h₁ hsem => ?_
  obtain ⟨hseen, ⟨c, hc, hexec⟩, hmux, hcl⟩ :=
    Shared.sem_plain (o := .updateNodebInfo nb) trivial hsem
  have hholding : ∀ m, s₂.mux = some (some j, m) ↔ none = some m := fun m => by
    rw [hmux, h₁.holding]
  by_cases hne : nb.ranName = ""
  · rw [show exec (.updateNodebInfo nb) c s₁.sdl = _ from
      storeWrite_error (updateNodebInfo_of_eq hne s₁.sdl)] at hexec
    have hsdl : s₂.sdl = s₁.sdl := (Prod.mk.inj hexec).2.symm
    exact ⟨fun u _ h => rely_of_same h hsdl hcl fun m => by rw [hmux],
      hk x s₂ ⟨h₁.inv.of_same hsdl hcl, hholding, trivial⟩⟩
  rw [show exec (.updateNodebInfo nb) c s₁.sdl = _ from
    storeWrite_ok hc (updateNodebInfo_of_ne hne s₁.sdl)] at hexec
  have hsdl : s₂.sdl = s₁.sdl.putNodeb nb := (Prod.mk.inj hexec).2.symm
  have hinv : Inv a s₂ := by
    refine ⟨h₁.inv.ne, ?_, ?_, fun r nb' hr hnb => ?_⟩
    · rw [hsdl]
      exact h₁.inv.wellKeyed.putNodeb hne
    · rw [hsdl, Sdl.addresses_putNodeb]
      exact h₁.inv.nodup
    · rw [hcl, hsdl, Sdl.e2tInstance_putNodeb]
      rw [hsdl, Sdl.nodeb_putNodeb, Function.update_apply] at hr
      split at hr
      · subst r
        obtain rfl := Option.some.inj hr
        exact hseen hnb
      · exact h₁.inv.covered r nb' hr hnb
  refine ⟨fun u hu _ => rely_of_handler hu hinv hmux hcl (fun r hr => ?_) (fun i hi => ?_) ?_,
    hk x s₂ ⟨hinv, hholding, trivial⟩⟩
  · rw [hsdl, Sdl.nodeb_putNodeb, Function.update_apply]
    split
    · rfl
    · exact hr
  · exact ⟨i, by rw [hsdl, Sdl.e2tInstance_putNodeb]; exact hi, List.Subset.refl _⟩
  · exact .inl (by rw [hsdl, Sdl.e2tInstance_putNodeb])

/-- `AssociateRan`: a RAN whose association succeeds is kept. -/
theorem safe_associateRan {j : ι} (b : String) (nb : NodebInfo)
    (hs : Know a (some j) none Nothing s) :
    SafeFor a (some j) (E2TAssociationManager.associateRan b nb)
      (fun x => Know a (some j) none (Added a b [nb.ranName] x.2)) s := by
  have hret : ∀ (nb' : NodebInfo) (x : Except Err Unit) (s : Shared ι),
      Know a (some j) none (Added a b [nb.ranName] x) s →
      SafeFor a (some j) (pure (nb', x)) (fun x => Know a (some j) none
        (Added a b [nb.ranName] x.2)) s := fun nb' x s h =>
    safe_pure (Y := fun x : NodebInfo × Except Err Unit => Added a b [nb.ranName] x.2)
      (stable_added b _ x) h
  have hname : ∀ e, (E2TAssociationManager.associated b nb e).ranName = nb.ranName := by
    intro e
    cases e <;> simp [E2TAssociationManager.associated]
  have hupdate : SafeFor a (some j) (E2TAssociationManager.associateRanAndUpdateNodeb b nb)
      (fun x s' => Know a (some j) none Nothing s' ∧ x.1.ranName = nb.ranName) s := by
    have hend : ∀ (e : Except Err Unit) (x : Except Err Unit) (s : Shared ι),
        Know a (some j) none Nothing s →
        SafeFor a (some j) (pure (E2TAssociationManager.associated b nb e, x))
          (fun x s' => Know a (some j) none Nothing s' ∧ x.1.ranName = nb.ranName) s :=
      fun e x s h => safe_ret_of (fun _ _ hR h => ⟨h.1.stable stable_nothing hR, h.2⟩)
        ⟨h, hname e⟩
    refine safe_read (.rmAssociateRanToE2TInstance b nb.ranName) trivial stable_nothing
      (fun _ _ => rfl) (by rintro ⟨⟩) (Y := fun _ => Nothing) (fun _ _ _ _ => trivial) hs
      fun e s₁ h₁ => ?_
    refine safe_updateNodebInfo _ h₁ fun x s₂ h₂ => ?_
    rcases e with e | ⟨⟩ <;> rcases x with x | ⟨⟩ <;> exact hend _ _ s₂ h₂
  refine hupdate.bind fun x s₁ h₁ => ?_
  obtain ⟨nb', x⟩ := x
  rcases x with e | ⟨⟩
  · exact hret nb' _ s₁ (h₁.1.mono fun _ => by rintro ⟨⟩)
  · obtain ⟨h₁, hname'⟩ := h₁
    refine (safe_addRansToInstance b [nb'.ranName] h₁).bind fun x s₂ h₂ => ?_
    rw [show nb'.ranName = nb.ranName from hname'] at h₂
    rcases x with e | ⟨⟩
    · exact hret nb' _ s₂ (h₂.mono fun _ => by rintro ⟨⟩)
    · exact hret nb' _ s₂ h₂

/-! ### The worker -/

/-- What the worker knows: which Shutdown it is in, and of the instances that it
has read and not come to yet, that `a` is still stored with all the RANs read. -/
def Known (a : String) (is : List E2TInstance) (cl : Option (String × List String)) (d : Sdl)
    (clearing : Option (String × List String)) : Prop :=
  clearing = cl ∧ ∀ i ∈ is, i.address = a →
    ∃ i', d.e2tInstance a = some i' ∧ i.associatedRanList ⊆ i'.associatedRanList

/-- What the expiry worker knows of the listed instances is stable. -/
theorem stable_known {mx : Option MuxMethod} (is : List E2TInstance)
    (cl : Option (String × List String)) : Stable a (none : Option ι) mx (Known a is cl) := by
  intro s s' hs hR
  refine ⟨(hR.clearing rfl).trans hs.facts.1, fun i hi hia => ?_⟩
  obtain ⟨i', hi', hsub⟩ := hs.facts.2 i hi hia
  obtain ⟨i'', hi'', hsub'⟩ := hR.grows rfl i' hi'
  exact ⟨i'', hi'', fun r hr => hsub' (hsub hr)⟩

/-- The worker's knowledge speaks of the instance at the address only, so it carries over to every
store that agrees on it. -/
theorem Known.of_e2tInstance {is : List E2TInstance} {cl cl' : Option (String × List String)}
    {d d' : Sdl} {clearing : Option (String × List String)} (h : Known a is cl d clearing)
    (hd : d'.e2tInstance a = d.e2tInstance a) : Known a is cl' d' cl' :=
  ⟨rfl, fun i hi hia => by rw [hd]; exact h.2 i hi hia⟩

/-- A write of the worker. -/
theorem rely_of_worker (hu : u ≠ none) (hinv : Inv a s') (hmux : s'.mux = s.mux)
    (hkept : ∀ r, Kept a r s.sdl s.clearing → Kept a r s'.sdl s'.clearing)
    (hshrinks : (∃ m, s.mux = some (none, m)) ∨ ∀ i, s.sdl.e2tInstance a = some i →
      ∃ i', s'.sdl.e2tInstance a = some i' ∧ i'.associatedRanList ⊆ i.associatedRanList) :
    Rely a u s s' where
  inv := hinv
  mux m := by rw [hmux]
  kept := hkept
  shrinks _ m hm := by
    rcases hshrinks with ⟨m', hm'⟩ | hshrinks
    · rw [hm'] at hm
      exact absurd (Prod.mk.inj (Option.some.inj hm)).1.symm hu
    · exact hshrinks
  grows hnone := absurd hnone hu
  clearing hnone := absurd hnone hu

/-- A RAN is off the list of the Shutdown in progress: it has no record, or one
that is no longer associated with `a`. -/
theorem Inv.of_erase {b r : String} {rs : List String} (h : Inv a s)
    (hcl : s.clearing = some (b, r :: rs)) (hwell : s'.sdl.WellKeyed)
    (haddr : s'.sdl.addresses = s.sdl.addresses)
    (hinst : s'.sdl.e2tInstance = s.sdl.e2tInstance) (hcl' : s'.clearing = some (b, rs))
    (hnodeb : ∀ r' nb, s'.sdl.nodeb r' = some nb → nb.associatedE2TInstanceAddress = a →
      r' ≠ r ∧ s.sdl.nodeb r' = some nb) : Inv a s' := by
  refine ⟨h.ne, hwell, haddr ▸ h.nodup, fun r' nb hr hnb => ?_⟩
  obtain ⟨hne, hr'⟩ := hnodeb r' nb hr hnb
  obtain ⟨hstored, hmem⟩ := h.covered r' nb hr' hnb
  refine ⟨hinst ▸ hstored, fun rs' hrs' => ?_⟩
  rw [hcl'] at hrs'
  obtain ⟨rfl, rfl⟩ := Prod.mk.inj (Option.some.inj hrs')
  exact (List.mem_cons.1 (hmem _ hcl)).resolve_left hne

/-- A RAN stays kept when the Shutdown in progress goes on to its next RAN and no record goes. -/
theorem kept_of_erase {b r r₀ : String} {rs : List String}
    (hcl : s.clearing = some (b, r :: rs)) (hinst : s'.sdl.e2tInstance = s.sdl.e2tInstance)
    (hcl' : s'.clearing = some (b, rs))
    (hnodeb : ∀ r, (s.sdl.nodeb r).isSome → (s'.sdl.nodeb r).isSome)
    (h : Kept a r₀ s.sdl s.clearing) : Kept a r₀ s'.sdl s'.clearing := by
  intro i hi
  rw [hinst] at hi
  refine (h i hi).imp id fun ⟨rs', hrs', hall⟩ => ⟨rs, ?_, fun x hx hne => hnodeb x (hall x ?_ hne)⟩
  · rw [hcl] at hrs'
    obtain ⟨rfl, -⟩ := Prod.mk.inj (Option.some.inj hrs')
    exact hcl'
  · rw [hcl] at hrs'
    obtain ⟨-, rfl⟩ := Prod.mk.inj (Option.some.inj hrs')
    exact List.mem_cons_of_mem _ hx

section Worker

variable {β : Type} {is : List E2TInstance} {b r : String} {rs : List String}
  {Q : β → Shared ι → Prop} {s : Shared ι}

/-- The read of a record in the loop of `clearNodebsAssociation`. -/
theorem safe_getNodeb {k : Except Err NodebInfo → Prog β}
    (hs : Know a none none (Known a is (some (b, r :: rs))) s)
    (hnotFound : ∀ s' : Shared ι, Know a none none (Known a is none) s' →
      SafeFor a none (k (.error .resourceNotFound)) Q s')
    (hinvalid : ∀ s' : Shared ι, Know a none none (Known a is (some (b, rs))) s' →
      SafeFor a none (k (.error .validation)) Q s')
    (hok : ∀ nb (s' : Shared ι), nb.ranName = r → r ≠ "" →
      Know a none none (Known a is (some (b, r :: rs))) s' → SafeFor a none (k (.ok nb)) Q s') :
    SafeFor a none (RNibDataService.getNodeb r >>= k) Q s := by
  refine safe_call_of (fun _ _ => Know.stable (stable_known _ _)) hs fun s₁ x s₂ h₁ hsem => ?_
  obtain ⟨-, ⟨c, hc, hexec⟩, hmux, hcl⟩ := Shared.sem_plain (o := .getNodeb r) trivial hsem
  rw [show exec (.getNodeb r) c s₁.sdl = _ from storeRead_ok hc] at hexec
  obtain ⟨rfl, hsdl⟩ := Prod.mk.inj hexec
  have hcl₁ := h₁.facts.1
  have hholding : ∀ m, s₂.mux = some (none, m) ↔ none = some m := fun m => by
    rw [hmux, h₁.holding]
  have hinst : s₂.sdl.e2tInstance = s₁.sdl.e2tInstance := by rw [← hsdl]
  rw [hcl₁, Option.isNone_none, if_pos rfl] at hcl
  by_cases hne : r = ""
  · -- an empty name is refused, and the loop goes on
    have hread : RNibReader.getNodeb r s₁.sdl = .error .validation := if_pos hne
    rw [hread] at hcl ⊢
    have hcl₂ : s₂.clearing = some (b, rs) := by
      rw [hcl]
      simp [Shared.progress]
    have hinv : Inv a s₂ := by
      refine h₁.inv.of_erase hcl₁ (hsdl ▸ h₁.inv.wellKeyed) (by rw [hsdl]) hinst hcl₂ ?_
      intro r' nb hr' _
      rw [← hsdl] at hr'
      exact ⟨hne ▸ (h₁.inv.wellKeyed.nodeb hr').2, hr'⟩
    refine ⟨fun u hu _ => rely_of_worker hu hinv hmux (fun _ => kept_of_erase hcl₁ hinst hcl₂
      fun r hr => by rw [← hsdl]; exact hr) (.inr fun i hi => ⟨i, hinst ▸ hi, List.Subset.refl _⟩),
      hinvalid s₂ ⟨hinv, hholding, ?_⟩⟩
    rw [hcl₂]
    exact h₁.facts.of_e2tInstance (by rw [hinst])
  cases hr : s₁.sdl.nodeb r with
  | none =>
      -- a RAN that is not found ends the Shutdown
      have hread : RNibReader.getNodeb r s₁.sdl = .error .resourceNotFound := by
        rw [RNibReader.getNodeb, if_neg hne, hr, Option.elim_none]
      rw [hread] at hcl ⊢
      have hcl₂ : s₂.clearing = none := hcl
      have hinv : Inv a s₂ := by
        refine ⟨h₁.inv.ne, hsdl ▸ h₁.inv.wellKeyed, hsdl ▸ h₁.inv.nodup, fun r' nb hr' hnb => ?_⟩
        rw [← hsdl] at hr'
        exact ⟨hinst ▸ (h₁.inv.covered r' nb hr' hnb).1, fun _ h => by rw [hcl₂] at h; cases h⟩
      refine ⟨fun u hu _ => rely_of_worker hu hinv hmux (fun r₀ hk i hi => ?_)
        (.inr fun i hi => ⟨i, hinst ▸ hi, List.Subset.refl _⟩), hnotFound s₂ ⟨hinv, hholding, ?_⟩⟩
      · rw [hinst] at hi
        refine .inl ((hk i hi).resolve_right ?_)
        rintro ⟨rs', hrs', hall⟩
        rw [hcl₁] at hrs'
        obtain ⟨-, rfl⟩ := Prod.mk.inj (Option.some.inj hrs')
        have := hall r (List.mem_cons_self ..) hne
        rw [hr] at this
        cases this
      · rw [hcl₂]
        exact h₁.facts.of_e2tInstance (by rw [hinst])
  | some nb =>
      have hread : RNibReader.getNodeb r s₁.sdl = .ok nb := by
        rw [RNibReader.getNodeb, if_neg hne, hr, Option.elim_some]
      rw [hread] at hcl ⊢
      have hcl₂ : s₂.clearing = s₁.clearing := hcl.trans hcl₁.symm
      refine ⟨fun u _ h => rely_of_same h hsdl.symm hcl₂ fun m => by rw [hmux],
        hok nb s₂ (h₁.inv.wellKeyed.nodeb hr).1 hne ⟨h₁.inv.of_same hsdl.symm hcl₂, hholding, ?_⟩⟩
      rw [hcl₂, hcl₁]
      exact h₁.facts.of_e2tInstance (by rw [hinst])

/-- The write of the record in that loop. -/
theorem safe_clearNodeb {nb : NodebInfo} {k : Except Err Unit → Prog β} (hname : nb.ranName = r)
    (hne : r ≠ "") (hs : Know a none none (Known a is (some (b, r :: rs))) s)
    (hk : ∀ s' : Shared ι, Know a none none (Known a is (some (b, rs))) s' →
      SafeFor a none (k (.ok ())) Q s') :
    SafeFor a none (RNibDataService.updateNodebInfo (E2TShutdownManager.disassociated nb) >>= k)
      Q s := by
  have hname' : (E2TShutdownManager.disassociated nb).ranName = r := by
    simp [E2TShutdownManager.disassociated, hname]
  have hassoc : (E2TShutdownManager.disassociated nb).associatedE2TInstanceAddress = "" := by
    simp [E2TShutdownManager.disassociated]
  refine safe_call_of (fun _ _ => Know.stable (stable_known _ _)) hs fun s₁ x s₂ h₁ hsem => ?_
  obtain ⟨-, ⟨c, hc, hexec⟩, hmux, hcl⟩ :=
    Shared.sem_plain (o := .updateNodebInfo (E2TShutdownManager.disassociated nb)) trivial hsem
  rw [show exec (.updateNodebInfo _) c s₁.sdl = _ from storeWrite_ok hc
    (updateNodebInfo_of_ne (hname'.trans_ne hne) s₁.sdl)] at hexec
  obtain ⟨rfl, hsdl⟩ := Prod.mk.inj hexec
  have hcl₁ := h₁.facts.1
  have hcl₂ : s₂.clearing = some (b, rs) := by
    rw [hcl, hcl₁, Option.isNone_none, if_pos rfl]
    simp [Shared.progress, hname']
  have hinst : s₂.sdl.e2tInstance = s₁.sdl.e2tInstance := by rw [← hsdl, Sdl.e2tInstance_putNodeb]
  have hnodeb : s₂.sdl.nodeb = Function.update s₁.sdl.nodeb r
      (some (E2TShutdownManager.disassociated nb)) := by rw [← hsdl, Sdl.nodeb_putNodeb, hname']
  have hinv : Inv a s₂ := by
    refine h₁.inv.of_erase hcl₁ ?_ ?_ hinst hcl₂ fun r' nb' hr' hnb' => ?_
    · rw [← hsdl]
      exact h₁.inv.wellKeyed.putNodeb (hname'.trans_ne hne)
    · rw [← hsdl, Sdl.addresses_putNodeb]
    · rw [hnodeb, Function.update_apply] at hr'
      split at hr'
      · obtain rfl := Option.some.inj hr'
        exact absurd (hassoc.symm.trans hnb').symm h₁.inv.ne
      · exact ⟨‹r' ≠ r›, hr'⟩
  refine ⟨fun u hu _ => rely_of_worker hu hinv hmux (fun _ => kept_of_erase hcl₁ hinst hcl₂
    fun r' hr' => ?_) (.inr fun i hi => ⟨i, hinst ▸ hi, List.Subset.refl _⟩),
    hk s₂ ⟨hinv, fun m => by rw [hmux, h₁.holding], ?_⟩⟩
  · rw [hnodeb, Function.update_apply]
    split
    · rfl
    · exact hr'
  · rw [hcl₂]
    exact h₁.facts.of_e2tInstance (by rw [hinst])

/-- The loop of `clearNodebsAssociation`: it comes to the end of the list, or
gives the Shutdown up. -/
theorem safe_clearNodebsAssociation (hs : Know a none none (Known a is (some (b, rs))) s) :
    SafeFor a none (E2TShutdownManager.clearNodebsAssociation rs)
      (fun x => Know a none none (Known a is (x.toOption.map fun _ => (b, [])))) s := by
  induction rs generalizing s with
  | nil =>
      exact safe_pure (Y := fun x : Except Err Unit => Known a is (x.toOption.map fun _ => (b, [])))
        (stable_known _ _) hs
  | cons r rs ih =>
      refine safe_getNodeb hs (fun s' h' => ?_) (fun s' h' => ih h') fun nb s' hname hne h' => ?_
      · exact safe_pure
          (Y := fun x : Except Err Unit => Known a is (x.toOption.map fun _ => (b, [])))
          (stable_known _ _) h'
      · exact safe_clearNodeb hname hne h' fun s'' h'' => ih h''

/-- The mark: the record that was read is saved, and the Shutdown begins. -/
theorem safe_mark {i : E2TInstance} (now : Int64) {k : Except Err Unit → Prog β}
    (hne : i.address ≠ "") (hnot : i.address ∉ is.map (·.address))
    (hs : Know a none none (Known a (i :: is) none) s)
    (hk : ∀ s' : Shared ι,
      Know a none none (Known a is (some (i.address, i.associatedRanList))) s' →
        SafeFor a none (k (.ok ())) Q s') :
    SafeFor a none (RNibDataService.saveE2TInstance (E2TShutdownManager.marked i now) >>= k)
      Q s := by
  refine safe_call_of (fun _ _ => Know.stable (stable_known _ _)) hs fun s₁ x s₂ h₁ hsem => ?_
  obtain ⟨hseen, ⟨c, hc, hexec⟩, hmux, hcl⟩ :=
    Shared.sem_plain (o := .saveE2TInstance (E2TShutdownManager.marked i now)) trivial hsem
  rw [exec_saveE2TInstance hc (show (E2TShutdownManager.marked i now).address ≠ "" from hne)]
    at hexec
  obtain ⟨rfl, hsdl⟩ := Prod.mk.inj hexec
  have hcl₁ := h₁.facts.1
  have hcl₂ : s₂.clearing = some (i.address, i.associatedRanList) := by
    rw [hcl]
    rfl
  have hnodeb : s₂.sdl.nodeb = s₁.sdl.nodeb := by rw [← hsdl, Sdl.nodeb_putInstance]
  have hother : i.address ≠ a → s₂.sdl.e2tInstance a = s₁.sdl.e2tInstance a := fun hia => by
    rw [← hsdl, Sdl.e2tInstance_putInstance]
    exact Function.update_of_ne (Ne.symm hia) ..
  have hput : i.address = a →
      s₂.sdl.e2tInstance a = some (E2TShutdownManager.marked i now) := fun hia => by
    rw [← hsdl, Sdl.e2tInstance_putInstance, ← hia]
    exact Function.update_self ..
  have hinv : Inv a s₂ := by
    refine ⟨h₁.inv.ne, ?_, ?_, fun r nb hr hnb => ?_⟩
    · rw [← hsdl]
      exact h₁.inv.wellKeyed.putInstance hne
    · rw [← hsdl, Sdl.addresses_putInstance]
      exact h₁.inv.nodup
    rw [hnodeb] at hr
    rw [hcl₂]
    by_cases hia : i.address = a
    · refine ⟨by rw [hput hia]; rfl, fun rs hrs => ?_⟩
      obtain ⟨-, rfl⟩ := Prod.mk.inj (Option.some.inj hrs)
      exact (hseen hia).1 r nb hr hnb
    · refine ⟨hother hia ▸ (h₁.inv.covered r nb hr hnb).1, fun rs hrs => ?_⟩
      exact absurd (Prod.mk.inj (Option.some.inj hrs)).1 hia
  -- nothing is doomed before the mark
  have hlisted : ∀ r, Kept a r s₁.sdl s₁.clearing → ∀ i', s₁.sdl.e2tInstance a = some i' →
      r ∈ i'.associatedRanList := by
    intro r hk i' hi'
    refine (hk i' hi').resolve_right fun ⟨rs, hrs, _⟩ => ?_
    rw [hcl₁] at hrs
    cases hrs
  refine ⟨fun u hu _ => rely_of_worker hu hinv hmux (fun r hk i' hi' => ?_) (.inr fun i' hi' => ?_),
    hk s₂ ⟨hinv, fun m => by rw [hmux, h₁.holding], hcl₂, fun i' hi' hia' => ?_⟩⟩
  · by_cases hia : i.address = a
    · rw [hput hia] at hi'
      obtain rfl := Option.some.inj hi'
      obtain ⟨i₁, hi₁, -⟩ := h₁.facts.2 i (List.mem_cons_self ..) hia
      rcases (hseen hia).2 with hsub | hall
      · exact .inl (hsub i₁ hi₁ (hlisted r hk i₁ hi₁))
      · refine .inr ⟨i.associatedRanList, by rw [hcl₂, hia], fun x hx hxne => ?_⟩
        rw [hnodeb]
        exact hall x hx hxne
    · rw [hother hia] at hi'
      exact .inl (hlisted r hk i' hi')
  · by_cases hia : i.address = a
    · obtain ⟨i₁, hi₁, hsub⟩ := h₁.facts.2 i (List.mem_cons_self ..) hia
      rw [hi₁] at hi'
      obtain rfl := Option.some.inj hi'
      exact ⟨_, hput hia, hsub⟩
    · exact ⟨i', (hother hia).trans hi', List.Subset.refl _⟩
  · have hia : i.address ≠ a := fun hia => hnot (List.mem_map.2 ⟨i', hi', hia'.trans hia.symm⟩)
    obtain ⟨i'', hi'', hsub⟩ := h₁.facts.2 i' (List.mem_cons_of_mem _ hi') hia'
    exact ⟨i'', (hother hia).trans hi'', hsub⟩

/-- The save of the list of addresses, inside the manager. -/
theorem safe_saveE2TAddresses {m : MuxMethod} {as : List String} (hnodup : as.Nodup)
    {k : Except Err Unit → Prog β} (hs : Know a none (some m) (Known a is none) s)
    (hk : ∀ s' : Shared ι, Know a none (some m) (Known a is none) s' →
      SafeFor a none (k (.ok ())) Q s') :
    SafeFor a none (RNibDataService.saveE2TAddresses as >>= k) Q s := by
  refine safe_call_of (fun _ _ => Know.stable (stable_known _ _)) hs fun s₁ x s₂ h₁ hsem => ?_
  obtain ⟨-, ⟨c, hc, hexec⟩, hmux, hcl⟩ := Shared.sem_plain (o := .saveE2TAddresses as) trivial hsem
  rw [show exec (.saveE2TAddresses as) c s₁.sdl = _ from storeWrite_ok hc (saveE2TAddresses_eq ..)]
    at hexec
  obtain ⟨rfl, hsdl⟩ := Prod.mk.inj hexec
  have hinst : s₂.sdl.e2tInstance = s₁.sdl.e2tInstance := by
    rw [← hsdl, Sdl.e2tInstance_putAddresses]
  have hcl₂ : s₂.clearing = s₁.clearing := hcl
  have hinv : Inv a s₂ := by
    refine ⟨h₁.inv.ne, ?_, ?_, fun r nb hr hnb => ?_⟩
    · rw [← hsdl]
      exact h₁.inv.wellKeyed.putAddresses _
    · rw [← hsdl, Sdl.addresses_putAddresses]
      exact hnodup
    · rw [← hsdl, Sdl.nodeb_putAddresses] at hr
      rw [hinst, hcl₂]
      exact h₁.inv.covered r nb hr hnb
  refine ⟨fun u hu _ => rely_of_worker hu hinv hmux (fun r hk i hi => ?_)
    (.inr fun i hi => ⟨i, hinst ▸ hi, List.Subset.refl _⟩),
    hk s₂ ⟨hinv, fun m => by rw [hmux, h₁.holding], ?_⟩⟩
  · rw [hinst] at hi
    refine .inl ((hk i hi).resolve_right ?_)
    rintro ⟨rs, hrs, -⟩
    rw [h₁.facts.1] at hrs
    cases hrs
  · rw [hcl₂, h₁.facts.1]
    exact h₁.facts.of_e2tInstance (by rw [hinst])

/-- The removal, when all the RANs of the list are cleared. -/
theorem safe_removeE2TInstance (hne : b ≠ "") (hnot : b ∉ is.map (·.address))
    (hs : Know a none none (Known a is (some (b, []))) s) :
    SafeFor a none (E2TInstancesManager.removeE2TInstance b)
      (fun _ => Know a none none (Known a is none)) s := by
  refine safe_withMutex (Y := fun _ => Known a is none) (stable_known _ _)
    (fun _ => stable_known _ _) (fun _ => stable_known _ _) (fun s₁ h₁ => ?_) hs
  refine safe_call_of (fun _ _ => Know.stable (stable_known _ _)) h₁ fun s₂ x s₃ h₂ hsem => ?_
  obtain ⟨-, ⟨c, hc, hexec⟩, hmux, hcl⟩ := Shared.sem_plain (o := .removeE2TInstance b) trivial hsem
  rw [show exec (.removeE2TInstance b) c s₂.sdl = _ from
    storeWrite_ok hc (removeE2TInstance_of_ne hne s₂.sdl)] at hexec
  obtain ⟨rfl, hsdl⟩ := Prod.mk.inj hexec
  have hcl₂ := h₂.facts.1
  have hcl₃ : s₃.clearing = none := by
    rw [hcl]
    rfl
  have hother : b ≠ a → s₃.sdl.e2tInstance a = s₂.sdl.e2tInstance a := fun hba => by
    rw [← hsdl, Sdl.e2tInstance_dropInstance, Function.update_of_ne (Ne.symm hba)]
  have hinv : Inv a s₃ := by
    refine ⟨h₂.inv.ne, ?_, ?_, fun r nb hr hnb => ?_⟩
    · rw [← hsdl]
      exact h₂.inv.wellKeyed.dropInstance b
    · rw [← hsdl, Sdl.addresses_dropInstance]
      exact h₂.inv.nodup
    rw [← hsdl, Sdl.nodeb_dropInstance] at hr
    obtain ⟨hstored, hmem⟩ := h₂.inv.covered r nb hr hnb
    by_cases hba : b = a
    · subst hba
      exact absurd (hmem [] hcl₂) List.not_mem_nil
    · exact ⟨hother hba ▸ hstored, fun rs hrs => by rw [hcl₃] at hrs; cases hrs⟩
  have hheld := (h₂.holding _).2 rfl
  refine ⟨fun u hu _ => rely_of_worker hu hinv hmux (fun r hk i hi => ?_) (.inl ⟨_, hheld⟩), ?_⟩
  · by_cases hba : b = a
    · rw [← hsdl, Sdl.e2tInstance_dropInstance, hba, Function.update_self] at hi
      cases hi
    · rw [hother hba] at hi
      refine .inl ((hk i hi).resolve_right ?_)
      rintro ⟨rs, hrs, -⟩
      rw [hcl₂] at hrs
      exact hba (Prod.mk.inj (Option.some.inj hrs)).1
  have h₃ : Know a none (some (.removeE2TInstance b)) (Known a is none) s₃ := by
    refine ⟨hinv, fun m => by rw [hmux, h₂.holding], hcl₃, fun i hi hia => ?_⟩
    have hba : b ≠ a := fun hba => hnot (List.mem_map.2 ⟨i, hi, hia.trans hba.symm⟩)
    obtain ⟨i', hi', hsub⟩ := h₂.facts.2 i hi hia
    exact ⟨i', (hother hba).trans hi', hsub⟩
  -- what is left is the list of addresses
  refine safe_read .getE2TAddresses trivial (stable_known _ _) (fun _ _ => storeRead_snd ..)
    (fun _ _ _ => rfl) (Y := fun x d cl => Known a is none d cl ∧ ∀ as, x = .ok as → as.Nodup)
    (fun s c h hc => ⟨h.facts, fun as has => ?_⟩) h₃ fun x s₄ h₄ => ?_
  · rw [show exec .getE2TAddresses c s.sdl = _ from storeRead_ok hc] at has
    exact h.inv.nodup_of_read has
  rcases x with e | as
  · exact safe_pure (Y := fun _ => Known a is none) (stable_known _ _) (h₄.mono And.left)
  have hnodup : as.Nodup := h₄.facts.2 as rfl
  refine safe_saveE2TAddresses (hnodup.filter _) (h₄.mono And.left) fun s₅ h₅ => ?_
  exact safe_pure (Y := fun _ => Known a is none) (stable_known _ _) h₅

/-- Shutdown of an instance that the worker has read. -/
theorem safe_shutdown (config : Configuration) {i : E2TInstance} (hne : i.address ≠ "")
    (hnot : i.address ∉ is.map (·.address)) (hs : Know a none none (Known a (i :: is) none) s) :
    SafeFor a none (E2TShutdownManager.shutdown config i)
      (fun _ => Know a none none (Known a is none)) s := by
  have htail : ∀ s : Shared ι, Know a none none (Known a (i :: is) none) s →
      Know a none none (Known a is none) s := fun s h =>
    h.mono fun hf => ⟨hf.1, fun i' hi' => hf.2 i' (List.mem_cons_of_mem _ hi')⟩
  refine safe_read .now trivial (stable_known _ _) (fun _ _ => rfl) (fun _ _ _ => rfl)
    (Y := fun _ => Known a (i :: is) none) (fun _ _ h _ => h.facts) hs fun now s₁ h₁ => ?_
  split
  · exact safe_pure (Y := fun _ => Known a is none) (stable_known _ _) (htail s₁ h₁)
  refine safe_read .now trivial (stable_known _ _) (fun _ _ => rfl) (fun _ _ _ => rfl)
    (Y := fun _ => Known a (i :: is) none) (fun _ _ h _ => h.facts) h₁ fun now s₂ h₂ => ?_
  refine safe_mark now hne hnot h₂ fun s₃ h₃ => ?_
  refine (safe_clearNodebsAssociation h₃).bind fun x s₄ h₄ => ?_
  rcases x with e | ⟨⟩
  · exact safe_pure (Y := fun _ => Known a is none) (stable_known _ _) h₄
  refine safe_read (.rmDeleteE2TInstance _ _) trivial (stable_known _ _) (fun _ _ => rfl)
    (fun _ _ _ => rfl) (Y := fun _ => Known a is (some (i.address, []))) (fun _ _ h _ => h.facts)
    h₄ fun _ s₅ h₅ => ?_
  exact safe_removeE2TInstance hne hnot h₅

/-- The loop over the instances that the worker has read. -/
theorem safe_shutdownExpired (config : Configuration) (hne : ∀ i ∈ is, i.address ≠ "")
    (hnodup : (is.map (·.address)).Nodup) (hs : Know a none none (Known a is none) s) :
    SafeFor a none (E2TKeepAliveWorker.shutdownExpired config is)
      (fun _ => Know a none none (Known a [] none)) s := by
  induction is generalizing s with
  | nil => exact safe_pure (Y := fun _ => Known a [] none) (stable_known _ _) hs
  | cons i is ih =>
      rw [List.map_cons, List.nodup_cons] at hnodup
      have hone : SafeFor a none (E2TKeepAliveWorker.shutdownIfExpired config i)
          (fun _ => Know a none none (Known a is none)) s := by
        refine safe_read .now trivial (stable_known _ _) (fun _ _ => rfl) (fun _ _ _ => rfl)
          (Y := fun _ => Known a (i :: is) none) (fun _ _ h _ => h.facts) hs fun now s₁ h₁ => ?_
        split
        · exact (safe_shutdown config (hne i (List.mem_cons_self ..)) hnodup.1 h₁).bind
            fun _ s₂ h₂ => safe_pure (Y := fun _ => Known a is none) (stable_known _ _) h₂
        · exact safe_pure (Y := fun _ => Known a is none) (stable_known _ _)
            (h₁.mono fun hf => ⟨hf.1, fun i' hi' => hf.2 i' (List.mem_cons_of_mem _ hi')⟩)
      exact hone.bind fun _ s₁ h₁ =>
        ih (fun i' hi' => hne i' (List.mem_cons_of_mem _ hi')) hnodup.2 h₁

end Worker

/-- What a read of the instances answers: some with different addresses, and `a`
as it is stored. -/
def Snapshot (a : String) (x : Except Err (List E2TInstance)) (d : Sdl)
    (clearing : Option (String × List String)) : Prop :=
  clearing = none ∧ ∀ is, x = .ok is → (∀ i ∈ is, i.address ≠ "") ∧
    (is.map (·.address)).Nodup ∧ Known a is none d clearing

/-- The list of instances the worker has read stays a snapshot while the others go on. -/
theorem stable_snapshot (x : Except Err (List E2TInstance)) :
    Stable a (none : Option ι) none (Snapshot a x) := by
  intro s s' hs hR
  refine ⟨(hR.clearing rfl).trans hs.facts.1, fun is his => ?_⟩
  obtain ⟨hne, hnodup, hknown⟩ := hs.facts.2 is his
  exact ⟨hne, hnodup, stable_known is none s s' ⟨hs.inv, hs.holding, hknown⟩ hR⟩

/-- The empty list is a snapshot of every store. -/
theorem snapshot_nil {d : Sdl} : Snapshot a (.ok []) d none := by
  refine ⟨rfl, fun is his => ?_⟩
  obtain rfl := Except.ok.inj his
  exact ⟨nofun, List.nodup_nil, rfl, nofun⟩

/-- The read at the start of a round. -/
theorem safe_getE2TInstancesNoLogs {s : Shared ι} (hs : Know a none none (Known a [] none) s) :
    SafeFor a none E2TInstancesManager.getE2TInstancesNoLogs
      (fun x => Know a none none (Snapshot a x)) s := by
  refine safe_read .getE2TAddresses trivial (stable_known _ _) (fun _ _ => storeRead_snd ..)
    (fun _ _ _ => rfl) (Y := fun x d cl => Known a [] none d cl ∧ ∀ as, x = .ok as → as.Nodup)
    (fun s c h hc => ⟨h.facts, fun as has => ?_⟩) hs fun x s₁ h₁ => ?_
  · rw [show exec .getE2TAddresses c s.sdl = _ from storeRead_ok hc] at has
    exact h.inv.nodup_of_read has
  have hnil : Know a none none (Snapshot a (.ok [])) s₁ :=
    h₁.mono fun hf => by rw [hf.1.1]; exact snapshot_nil
  split
  · exact safe_pure (stable_snapshot _) hnil
  · exact safe_pure (stable_snapshot _) (h₁.mono fun hf => ⟨hf.1.1, nofun⟩)
  · exact safe_pure (stable_snapshot _) hnil
  rename_i b bs
  have hnodup : (b :: bs).Nodup := h₁.facts.2 _ rfl
  rw [← bind_ret (RNibDataService.getE2TInstances (b :: bs))]
  refine safe_read (.getE2TInstances (b :: bs)) trivial (stable_known [] none)
    (fun _ _ => storeRead_snd ..) (fun _ _ _ => rfl) (Y := Snapshot a)
    (fun s c h hc => ⟨h.facts.1, fun is his => ?_⟩) (h₁.mono And.left)
    fun x s₂ h₂ => safe_pure (stable_snapshot _) h₂
  rw [show exec (.getE2TInstances (b :: bs)) c s.sdl = _ from storeRead_ok hc] at his
  obtain rfl := Except.ok.inj his
  have hread : ∀ i ∈ (b :: bs).filterMap s.sdl.e2tInstance,
      s.sdl.e2tInstance i.address = some i ∧ i.address ≠ "" := by
    intro i hi
    obtain ⟨b', -, hb'⟩ := List.mem_filterMap.1 hi
    obtain ⟨haddr, hne⟩ := h.inv.wellKeyed.e2tInstance hb'
    exact ⟨haddr ▸ hb', haddr ▸ hne⟩
  refine ⟨fun i hi => (hread i hi).2, hnodup.sublist (h.inv.wellKeyed.map_address_sublist _),
    h.facts.1, ?_⟩
  rintro i hi rfl
  exact ⟨i, (hread i hi).1, List.Subset.refl _⟩

/-- The keep-alive worker. -/
theorem safe_execute (config : Configuration) (ticks : Nat) {s : Shared ι}
    (hs : Know a none none (Known a [] none) s) :
    SafeFor a none (E2TKeepAliveWorker.execute config ticks)
      (fun _ => Know a none none (Known a [] none)) s := by
  induction ticks generalizing s with
  | zero => exact safe_pure (Y := fun _ => Known a [] none) (stable_known _ _) hs
  | succ ticks ih =>
      have hround : SafeFor a none (E2TKeepAliveWorker.e2TKeepAliveExpired config)
          (fun _ => Know a none none (Known a [] none)) s := by
        refine (safe_getE2TInstancesNoLogs hs).bind fun x s₁ h₁ => ?_
        rcases x with e | is
        · exact safe_pure (Y := fun _ => Known a [] none) (stable_known _ _)
            (h₁.mono fun hf => ⟨hf.1, nofun⟩)
        · obtain ⟨hne, hnodup, hknown⟩ := h₁.facts.2 is rfl
          exact safe_shutdownExpired config hne hnodup ⟨h₁.inv, h₁.holding, hknown⟩
      exact hround.bind fun _ s₁ h₁ => ih h₁

/-! ### Every interleaving -/

/-- The handlers that work on an instance. -/
inductive Job
  | addRansToInstance (e2tAddress : String) (ranNames : List String)
  | associateRan (e2tAddress : String) (nodebInfo : NodebInfo)
  | resetKeepAliveTimestamp (e2tAddress : String)

/-- The program of a handler, with the error that it returns. -/
def Job.prog : Job → Prog (Except Err Unit)
  | addRansToInstance a rs => E2TInstancesManager.addRansToInstance a rs
  | associateRan a nb => do
      let (_, err) ← E2TAssociationManager.associateRan a nb
      return err
  | resetKeepAliveTimestamp a => E2TInstancesManager.resetKeepAliveTimestamp a

/-- The worker and the handlers, about to start on a store. -/
def start (config : Configuration) (ticks : Nat) (jobs : ι → Job) (s : Sdl) :
    Pool e2mgr (Except Err Unit) (Shared ι) (Option ι) where
  thread
    | none => do
        E2TKeepAliveWorker.execute config ticks
        return .ok ()
    | some j => (jobs j).prog
  state := { sdl := s }

/-- No RAN of `a` is lost, once all have finished. -/
structure NoRanLost (a : String) (jobs : ι → Job)
    (c : Pool e2mgr (Except Err Unit) (Shared ι) (Option ι)) : Prop where
  /-- If `a` is gone, no RAN is associated with it. -/
  gone : c.Finished → c.state.sdl.e2tInstance a = none → ∀ r nb, c.state.sdl.nodeb r = some nb →
    nb.associatedE2TInstanceAddress ≠ a
  /-- If it is stored, it lists every RAN whose association with it succeeded. -/
  listed : c.Finished → ∀ i, c.state.sdl.e2tInstance a = some i → ∀ j nb,
    jobs j = .associateRan a nb → c.thread (some j) = .ret (.ok ()) →
      nb.ranName ∈ i.associatedRanList

/-- What a thread knows when it has finished. -/
def Done (a : String) (jobs : ι → Job) (t : Option ι) (x : Except Err Unit) (s : Shared ι) : Prop :=
  match t with
  | none => Know a none none (Known a [] none) s
  | some j => ∃ b rs, Know a (some j) none (Added a b rs x) s ∧
      ∀ nb, jobs j = .associateRan a nb → b = a ∧ nb.ranName ∈ rs

/-- The program of every job is safe, and ends with what `Done` says of the job. -/
theorem safe_prog {jobs : ι → Job} {j : ι} (hs : Know a (some j) none Nothing s) :
    SafeFor a (some j) (jobs j).prog (Done a jobs (some j)) s := by
  have hdone : ∀ b rs (x : Except Err Unit) (s : Shared ι),
      (∀ nb, jobs j = .associateRan a nb → b = a ∧ nb.ranName ∈ rs) →
      Know a (some j) none (Added a b rs x) s → Done a jobs (some j) x s :=
    fun b rs x s hj h => ⟨b, rs, h, hj⟩
  cases hjob : jobs j with
  | addRansToInstance b rs =>
      refine (safe_addRansToInstance b rs hs).mono fun x s' h => ?_
      exact hdone b rs x s' (fun nb heq => by rw [hjob] at heq; cases heq) h
  | associateRan b nb =>
      refine (safe_associateRan b nb hs).bind fun x s₁ h₁ => ?_
      have hret := safe_pure (Y := Added a b [nb.ranName]) (x := x.2) (stable_added b _ x.2) h₁
      refine hret.mono fun y s₂ h₂ => hdone b [nb.ranName] y s₂ ?_ h₂
      rw [hjob]
      rintro nb' heq
      obtain ⟨rfl, rfl⟩ := Job.associateRan.inj heq
      exact ⟨rfl, List.mem_singleton_self _⟩
  | resetKeepAliveTimestamp b =>
      refine (safe_resetKeepAliveTimestamp b hs).mono fun x s' h => ?_
      exact hdone b [] x s' (fun nb heq => by rw [hjob] at heq; cases heq)
        (h.mono fun _ _ _ r hr => by cases hr)

variable [DecidableEq ι]

/-- **No RAN of `a` is lost** in every run in which nothing is overlooked. -/
theorem noRanLost_of_reach {config : Configuration} {ticks : Nat} {jobs : ι → Job} {s : Sdl}
    (hs : Registered s) (ha : (s.e2tInstance a).isSome)
    {c : Pool e2mgr (Except Err Unit) (Shared ι) (Option ι)}
    (h : Pool.Reach (Shared.sem (NothingOverlooked a)) (start config ticks jobs s) c) :
    NoRanLost a jobs c := by
  have hinv : Inv a ({ sdl := s } : Shared ι) := by
    obtain ⟨i, hi⟩ := Option.isSome_iff_exists.1 ha
    exact ⟨(hs.wellKeyed.e2tInstance hi).2, hs.wellKeyed, hs.nodup, fun _ _ _ _ => ⟨ha, nofun⟩⟩
  have hsafe : Pool.AllSafe (Shared.sem (NothingOverlooked a)) (Interference a) (Guarantee a)
      (Done a jobs) c := by
    refine Pool.safe_of_reach (fun t u htu o s s' hG => hG u (Ne.symm htu)) (fun t => ?_) h
    cases t with
    | none =>
        have hstart : Know a none none (Known a [] none) ({ sdl := s } : Shared ι) :=
          ⟨hinv, fun m => ⟨nofun, nofun⟩, rfl, nofun⟩
        exact (safe_execute config ticks hstart).bind fun _ s₁ h₁ =>
          safe_pure (Y := fun _ => Known a [] none) (stable_known _ _) h₁
    | some j => exact safe_prog ⟨hinv, fun m => ⟨nofun, nofun⟩, trivial⟩
  have hdone : c.Finished → Know a none none (Known a [] none) c.state := fun hfin => by
    obtain ⟨x, hx⟩ := hfin none
    exact hsafe.post hx
  refine ⟨fun hfin hnone r nb hr hnb => ?_, fun hfin i hi j nb hj hret => ?_⟩
  · obtain ⟨hstored, -⟩ := (hdone hfin).inv.covered r nb hr hnb
    rw [hnone] at hstored
    cases hstored
  · obtain ⟨b, rs, hknow, hjob⟩ := hsafe.post hret
    obtain ⟨hba, hmem⟩ := hjob nb hj
    refine (hknow.facts rfl hba _ hmem i hi).resolve_right ?_
    -- no Shutdown is in progress when the worker has finished
    rintro ⟨rs', hrs', -⟩
    rw [(hdone hfin).facts.1] at hrs'
    cases hrs'

end NearRtRic.E2Manager.Expiry

namespace NearRtRic.E2Manager.Deployment

open Effect Expiry

/-- Five seconds, after which an instance of time 0 has expired. -/
def late : Int64 := 5000000000

/-- The store in which both terminations have registered at time 0. -/
def twoTerminations : Sdl := after [termInit address₁, termInit address₂]

/-- In the store of the example the terminations have registered. -/
theorem registered_twoTerminations : Registered twoTerminations :=
  (Event.sound_of_steps (Event.sound_of_steps sound_empty (steps_next false _ (termInit address₁)))
    (steps_next false _ (termInit address₂))).registered

/-- The association of a RAN with the first termination, and its keep-alive. -/
def jobs : Bool → Job
  | true => .resetKeepAliveTimestamp address₁
  | false => .associateRan address₁ { ranName := "RAN1" }

/-- A step that marks the other termination only, or associates a RAN while no
Shutdown is in progress. -/
def inTime (t : Option Bool) (o : Call) (s : Shared Bool) : Bool :=
  match t, o with
  | none, .saveE2TInstance i => i.address ≠ address₁
  | some _, .updateNodebInfo _ => (s.sdl.e2tInstance address₁).isSome && s.clearing.isNone
  | _, _ => true

/-- A step in time overlooks nothing. -/
theorem nothingOverlooked_of_inTime (t : Option Bool) (o : Call) (s : Shared Bool)
    (h : inTime t o s) : NothingOverlooked address₁ t o s := by
  cases t <;> cases o <;> simp_all [inTime, NothingOverlooked]

/-- A number of steps of a thread at one time. -/
def steps (t : Option Bool) (n : Nat) (time : Int64) : List (Option Bool × Int64) :=
  List.replicate n (t, time)

/-- The first termination answers its keep-alive, the second does not: it is shut
down while a RAN is associated with the first. -/
def secondExpires : Option (Pool e2mgr (Except Err Unit) (Shared Bool) (Option Bool)) :=
  (start {} 1 jobs twoTerminations).follow (Shared.execAt inTime)
    (steps (some true) 5 late ++ steps none 2 late ++ steps (some false) 3 late ++
      steps none 1 late ++ steps (some false) 3 late ++ steps none 10 late)

/-- Neither answers: the first is shut down from a record that was read before a
RAN was associated with it. -/
def bothExpire : Option (Pool e2mgr (Except Err Unit) (Shared Bool) (Option Bool)) :=
  (start {} 1 jobs twoTerminations).follow (Shared.execAt fun _ _ _ => true)
    (steps none 2 late ++ steps (some false) 6 late ++ steps none 20 late ++
      steps (some true) 3 late)

end NearRtRic.E2Manager.Deployment

namespace NearRtRic.E2Manager.Expiry

open Effect Deployment

/-- The Shutdown of another instance while a RAN is associated with `a`. -/
theorem noRanLost_of_reach_secondExpires : ∃ c, secondExpires = some c ∧ c.Finished ∧
    (c.state.sdl.e2tInstance address₁).map (·.associatedRanList) = some ["RAN1"] ∧
    c.state.sdl.e2tInstance address₂ = none ∧ NoRanLost address₁ jobs c := by
  have hrun : secondExpires.map (fun c => (haveReturned c,
      (c.state.sdl.e2tInstance address₁).map (·.associatedRanList),
      c.state.sdl.e2tInstance address₂)) = some (true, some ["RAN1"], none) := by decide +kernel
  obtain ⟨c, hc, hfacts⟩ := Option.map_eq_some_iff.1 hrun
  simp only [Prod.mk.injEq] at hfacts
  refine ⟨c, hc, finished_of_haveReturned hfacts.1, hfacts.2.1, hfacts.2.2, ?_⟩
  exact noRanLost_of_reach registered_twoTerminations (by decide +kernel)
    (Pool.reach_of_follow (Shared.sem_of_execAt nothingOverlooked_of_inTime) hc)

/-- **A RAN that is associated while its instance expires is lost:** it stays
associated with an instance that is gone. -/
theorem not_noRanLost_of_reach :
    ¬ ∀ (config : Configuration) (ticks : Nat) (jobs : Bool → Job) (s : Sdl) (a : String)
      (c : Pool e2mgr (Except Err Unit) (Shared Bool) (Option Bool)), Registered s →
      (s.e2tInstance a).isSome →
      Pool.Reach (Shared.sem fun _ _ _ => True) (start config ticks jobs s) c →
        NoRanLost a jobs c := by
  intro hall
  have hrun : bothExpire.map (fun c => (haveReturned c, c.state.sdl.e2tInstance address₁,
      (c.state.sdl.nodeb "RAN1").map (·.associatedE2TInstanceAddress))) =
      some (true, none, some address₁) := by decide +kernel
  obtain ⟨c, hc, hfacts⟩ := Option.map_eq_some_iff.1 hrun
  simp only [Prod.mk.injEq] at hfacts
  obtain ⟨hret, hgone, hran⟩ := hfacts
  obtain ⟨nb, hnb, hassoc⟩ := Option.map_eq_some_iff.1 hran
  have hlost := hall _ _ _ _ address₁ c registered_twoTerminations (by decide +kernel)
    (Pool.reach_of_follow (Shared.sem_of_execAt fun _ _ _ _ => trivial) hc)
  exact hlost.gone (finished_of_haveReturned hret) hgone "RAN1" nb hnb hassoc

end NearRtRic.E2Manager.Expiry
