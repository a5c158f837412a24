/-
# E2_TERM_INITs side by side

Any number of E2_TERM_INITs, and the keep-alive worker with its Shutdowns, under
any interleaving.  The existence of an instance is checked before the mutex is
taken, so two handlers of one new address may both find nothing and both add it:
the second overwrites the instance and lists the address twice
(`not_commutes_of_reach`).

Nothing else goes wrong.  In the runs in which an address is not stored whenever
`AddE2TInstance` is entered for it (`NewIsNew`), the list and the instances agree
whenever nobody holds the mutex, and no stored instance is overwritten by a new
one (`commutes_of_reach`).

The argument is by rely and guarantee.  A thread that holds the mutex relies on
the others not to list, add or remove an address; the worker, which alone removes
instances, relies on the instances it has read to stay stored.
-/

import NearRtRic.E2Manager.Concurrent

namespace NearRtRic.E2Manager.Arrivals

open Effect Program

variable {ι : Type} {t u : Option ι} {s s' s'' : Shared ι}

/-! ### What the threads rely on and guarantee -/

/-- The list has no duplicates, and it agrees with the instances whenever nobody
is inside the instances manager. -/
structure Inv (s : Shared ι) : Prop where
  wellKeyed : s.sdl.WellKeyed
  nodup : s.sdl.addresses.Nodup
  registered : s.mux = none → Registered s.sdl

/-- What the steps of the other threads do to thread `u`. -/
structure Rely (u : Option ι) (s s' : Shared ι) : Prop where
  inv : Inv s'
  /-- Nobody else takes the mutex for `u`, or away from it. -/
  mux : ∀ m, s'.mux = some (u, m) ↔ s.mux = some (u, m)
  /-- While `u` holds it the registry stays as it is. -/
  same : ∀ m, s.mux = some (u, m) → SameRegistry s.sdl s'.sdl
  /-- Nobody but the worker removes an instance. -/
  stored : u = none → ∀ a, (s.sdl.e2tInstance a).isSome → (s'.sdl.e2tInstance a).isSome

/-- The rely of thread `u`. -/
def Interference (u : Option ι) (s s' : Shared ι) : Prop := Inv s → Rely u s s'

instance : Std.Refl (Interference u) :=
  ⟨fun _ h => ⟨h, fun _ => Iff.rfl, fun _ _ => .rfl h.wellKeyed, fun _ _ ha => ha⟩⟩

instance : IsTrans (Shared ι) (Interference u) where
  trans _ _ _ h₁ h₂ h := by
    have hr₁ := h₁ h
    have hr₂ := h₂ hr₁.inv
    exact {
      inv := hr₂.inv
      mux := fun m => (hr₂.mux m).trans (hr₁.mux m)
      same := fun m hm => (hr₁.same m hm).trans (hr₂.same m ((hr₁.mux m).2 hm))
      stored := fun hu a ha => hr₂.stored hu a (hr₁.stored hu a ha) }

/-- What a step of thread `t` guarantees: it keeps the relies of the others, and
where `t` is in `AddE2TInstance` it saves over no stored instance. -/
structure Guarantee (t : Option ι) (o : Call) (s s' : Shared ι) : Prop where
  others : ∀ u, u ≠ t → Interference u s s'
  fresh : ∀ a i, o = .saveE2TInstance i → s.mux = some (t, .addE2TInstance a) →
    s.sdl.e2tInstance i.address = none

/-- The call enters `AddE2TInstance` for an address that is stored. -/
def entersStored (o : Call) (s : Sdl) : Bool :=
  match o with
  | .lock (.addE2TInstance a) => (s.e2tInstance a).isSome
  | _ => false

/-- The condition on the steps: `AddE2TInstance` is not entered for an address
that is stored. -/
def NewIsNew (_ : Option ι) (o : Call) (s : Shared ι) : Prop := entersStored o s.sdl = false

/-- A thread outside the instances manager, with the addresses that it knows to
be stored if it is the worker. -/
structure Idle (t : Option ι) (as : List String) (s : Shared ι) : Prop where
  inv : Inv s
  free : ∀ m, s.mux ≠ some (t, m)
  stored : t = none → ∀ a ∈ as, (s.sdl.e2tInstance a).isSome

/-- A thread inside method `m`, with what it knows of the store. -/
structure Inside (t : Option ι) (m : MuxMethod) (as : List String) (X : Sdl → Prop)
    (s : Shared ι) : Prop where
  inv : Inv s
  holds : s.mux = some (t, m)
  stored : t = none → ∀ a ∈ as, (s.sdl.e2tInstance a).isSome
  facts : X s.sdl

/-- What is known of the registry alone stays true while the mutex is held. -/
def OfRegistry (X : Sdl → Prop) : Prop := ∀ s s', SameRegistry s s' → X s → X s'

/-- What is known of a thread outside the manager stays true whatever the others do: the worker
alone removes instances, so that those it knows of are still stored. -/
theorem Idle.stable {as : List String} (h : Interference t s s') (hs : Idle t as s) :
    Idle t as s' where
  inv := (h hs.inv).inv
  free m hm := hs.free m (((h hs.inv).mux m).1 hm)
  stored ht a ha := (h hs.inv).stored ht a (hs.stored ht a ha)

/-- Knowing more addresses to be stored is knowing fewer. -/
theorem Idle.weaken {as as' : List String} (hs : Idle t as s) (h : as' ⊆ as) : Idle t as' s :=
  ⟨hs.inv, hs.free, fun ht a ha => hs.stored ht a (h ha)⟩

/-- What a thread inside the manager knows of the registry stays true: the others leave it alone
while the mutex is held. -/
theorem Inside.stable {m : MuxMethod} {as : List String} {X : Sdl → Prop} (hX : OfRegistry X)
    (h : Interference t s s') (hs : Inside t m as X s) : Inside t m as X s' where
  inv := (h hs.inv).inv
  holds := ((h hs.inv).mux m).2 hs.holds
  stored ht a ha := (h hs.inv).stored ht a (hs.stored ht a ha)
  facts := hX _ _ ((h hs.inv).same m hs.holds) hs.facts

/-- Knowing more of the store is knowing less. -/
theorem Inside.mono {m : MuxMethod} {as : List String} {X Y : Sdl → Prop}
    (hs : Inside t m as X s) (h : X s.sdl → Y s.sdl) : Inside t m as Y s :=
  ⟨hs.inv, hs.holds, hs.stored, h hs.facts⟩

/-- The agreement of list and instances is read off the registry. -/
theorem ofRegistry_registered : OfRegistry Registered := fun _ _ h hs => hs.same h

/-- So is whether an instance is stored. -/
theorem ofRegistry_stored (a : String) : OfRegistry fun s => (s.e2tInstance a).isSome :=
  fun _ _ h hs => (h.stored a).trans hs

/-- So are two such facts together. -/
theorem ofRegistry_and {X Y : Sdl → Prop} (hX : OfRegistry X) (hY : OfRegistry Y) :
    OfRegistry fun s => X s ∧ Y s := fun s s' h hs => ⟨hX s s' h hs.1, hY s s' h hs.2⟩

/-- So is anything about the list of addresses. -/
theorem ofRegistry_addresses (p : List String → Prop) : OfRegistry fun s => p s.addresses := by
  intro s s' h hs
  show p s'.addresses
  rw [h.addresses]
  exact hs

/-- A step that leaves the mutex and the registry as they are. -/
theorem Inv.of_same (h : Inv s) (hmux : s'.mux = s.mux) (hsame : SameRegistry s.sdl s'.sdl) :
    Inv s' where
  wellKeyed := hsame.wellKeyed
  nodup := hsame.addresses ▸ h.nodup
  registered hnone := (h.registered (hmux ▸ hnone)).same hsame

/-- A step that leaves the mutex and the registry disturbs nobody. -/
theorem interference_of_same (hmux : s'.mux = s.mux) (hsame : SameRegistry s.sdl s'.sdl) :
    Interference u s s' := fun h =>
  ⟨h.of_same hmux hsame, fun m => by rw [hmux], fun _ _ => hsame,
    fun _ a ha => (hsame.stored a).trans ha⟩

/-- A step by the thread that holds the mutex. -/
theorem interference_of_holds {m : MuxMethod} (hut : u ≠ t) (hholds : s.mux = some (t, m))
    (hmux : s'.mux = s.mux) (hinv : Inv s')
    (hkeep : u = none → ∀ a, (s.sdl.e2tInstance a).isSome → (s'.sdl.e2tInstance a).isSome) :
    Interference u s s' := fun _ =>
  ⟨hinv, fun m' => by rw [hmux], fun m' hm' => by
    rw [hholds] at hm'
    exact absurd (Prod.mk.inj (Option.some.inj hm')).1.symm hut, hkeep⟩

/-! ### The rules for one thread -/

/-- A part of thread `t` between two calls of the instances manager. -/
abbrev SafeFor {α : Type} (t : Option ι) (p : Prog α) (Q : α → Shared ι → Prop) (s : Shared ι) :
    Prop := p.Safe (Shared.sem NewIsNew t) (Interference t) (Guarantee t) Q s

/-- A program that any thread runs from outside the manager to outside it. -/
def Tame {α : Type} (t : Option ι) (p : Prog α) : Prop :=
  ∀ as s, Idle t as s → SafeFor t p (fun _ => Idle t as) s

section Rules

variable {α β : Type}

/-- A program that returns at once is tame. -/
theorem tame_ret (a : α) : Tame t (pure a : Prog α) := fun _ _ hs =>
  safe_ret_of (fun _ _ => Idle.stable) hs

/-- Two tame programs in sequence are tame. -/
theorem tame_bind {p : Prog α} {f : α → Prog β} (hp : Tame t p) (hf : ∀ a, Tame t (f a)) :
    Tame t (p >>= f) := fun as s hs => (hp as s hs).bind fun a s' hs' => hf a as s' hs'

/-- The rule of a call outside the manager that leaves the registry as it is. -/
theorem safe_call_idle (o : Call) (ho : o.IsPlain) {k : o.Answer → Prog β}
    {Q : β → Shared ι → Prop} {as : List String} {B : o.Answer → List String}
    {Y : o.Answer → Prop}
    (hstep : ∀ s c, Idle t as s → Admits false c → SameRegistry s.sdl (exec o c s.sdl).2 ∧
      Y (exec o c s.sdl).1 ∧
      (t = none → ∀ a ∈ B (exec o c s.sdl).1, (s.sdl.e2tInstance a).isSome))
    (hs : Idle t as s) (hk : ∀ r s', Y r → Idle t (B r) s' → SafeFor t (k r) Q s') :
    SafeFor t (call o >>= k) Q s := by
  refine safe_call_of (fun _ _ => Idle.stable) hs fun s₁ r s₂ h₁ hsem => ?_
  obtain ⟨-, ⟨c, hc, hexec⟩, hmux, -⟩ := Shared.sem_plain ho hsem
  obtain ⟨hsame, hY, hstored⟩ := hstep s₁ c h₁ hc
  simp only [hexec] at hsame hY hstored
  refine ⟨⟨fun _ _ => interference_of_same hmux hsame, fun a _ _ hm => absurd hm (h₁.free _)⟩,
    hk r s₂ hY ⟨h₁.inv.of_same hmux hsame, fun m => ?_, fun ht a ha => ?_⟩⟩
  · rw [hmux]
    exact h₁.free m
  · exact (hsame.stored a).trans (hstored ht a ha)

/-- A plain call that leaves the registry is tame. -/
theorem tame_quiet {o : Call} (hq : Quiet o) (ho : o.IsPlain) : Tame t (call o) := by
  intro as s hs
  rw [← bind_ret (call o)]
  exact safe_call_idle o ho (B := fun _ => as) (Y := fun _ => True)
    (fun s c h _ => ⟨hq c s.sdl h.inv.wellKeyed, trivial, h.stored⟩) hs
    fun _ _ _ h => safe_ret_of (fun _ _ => Idle.stable) h

/-- The rule of a call inside a method. -/
theorem safe_call_inside (o : Call) (ho : o.IsPlain) {k : o.Answer → Prog β}
    {Q : β → Shared ι → Prop} {m : MuxMethod} {as as' : List String} {X : Sdl → Prop}
    {Y : o.Answer → Sdl → Prop} (hsub : as' ⊆ as) (hX : OfRegistry X)
    (hstep : ∀ s c, s.WellKeyed → X s → Admits false c → (exec o c s).2.WellKeyed ∧
      (exec o c s).2.addresses.Nodup ∧ Y (exec o c s).1 (exec o c s).2 ∧
      ∀ b, (t = none → b ∈ as') → (s.e2tInstance b).isSome →
        ((exec o c s).2.e2tInstance b).isSome)
    (hfresh : ∀ s a i, X s → m = .addE2TInstance a → o = .saveE2TInstance i →
      s.e2tInstance i.address = none)
    (hs : Inside t m as X s)
    (hk : ∀ r s', Inside t m as' (Y r) s' → SafeFor t (k r) Q s') :
    SafeFor t (call o >>= k) Q s := by
  refine safe_call_of (fun _ _ => Inside.stable hX) hs fun s₁ r s₂ h₁ hsem => ?_
  obtain ⟨-, ⟨c, hc, hexec⟩, hmux, -⟩ := Shared.sem_plain ho hsem
  obtain ⟨hwell, hnodup, hY, hkeep⟩ := hstep s₁.sdl c h₁.inv.wellKeyed h₁.facts hc
  simp only [hexec] at hwell hnodup hY hkeep
  have hinv : Inv s₂ := ⟨hwell, hnodup, fun hnone => by rw [hmux, h₁.holds] at hnone; cases hnone⟩
  refine ⟨⟨fun u hu => ?_, fun a i ho' hm => ?_⟩, hk r s₂ ⟨hinv, hmux.trans h₁.holds, ?_, hY⟩⟩
  · refine interference_of_holds hu h₁.holds hmux hinv fun hnone b hb => hkeep b (fun ht => ?_) hb
    exact absurd (hnone.trans ht.symm) hu
  · rw [h₁.holds] at hm
    exact hfresh s₁.sdl a i h₁.facts (Prod.mk.inj (Option.some.inj hm)).2 ho'
  · exact fun ht b hb => hkeep b (fun _ => hb) (h₁.stored ht b (hsub hb))

/-- The rule of the mutex: a method is entered with the registry in order, and
leaves it so. -/
theorem safe_withMutex {m : MuxMethod} {body : Prog α} {as as' : List String}
    (h : ∀ s, Inside t m as (fun d => Registered d ∧
        ∀ a, m = .addE2TInstance a → ¬ (d.e2tInstance a).isSome) s →
      SafeFor t body (fun _ => Inside t m as' Registered) s) (hs : Idle t as s) :
    SafeFor t (withMutex m body) (fun _ => Idle t as') s := by
  refine safe_call_of (fun _ _ => Idle.stable) hs fun s₁ r s₂ h₁ hsem => ?_
  obtain ⟨hnew, hmux, rfl⟩ := Shared.sem_lock hsem
  have hreg := h₁.inv.registered hmux
  have hinv : Inv { s₁ with mux := some (t, m) } := ⟨h₁.inv.wellKeyed, h₁.inv.nodup, nofun⟩
  refine ⟨⟨fun u hu _ => ⟨hinv, fun m' => ?_, fun m' hm' => ?_, fun _ _ ha => ha⟩, nofun⟩, ?_⟩
  · rw [hmux]
    exact ⟨fun heq => absurd (Prod.mk.inj (Option.some.inj heq)).1.symm hu, nofun⟩
  · rw [hmux] at hm'
    cases hm'
  refine (h _ ⟨hinv, rfl, h₁.stored, hreg, fun a ha => ?_⟩).bind fun x s₃ h₃ => ?_
  · subst ha
    rw [show (s₁.sdl.e2tInstance a).isSome = false from hnew]
    exact nofun
  refine safe_call_of (fun _ _ => Inside.stable ofRegistry_registered) h₃
    fun s₄ r s₅ h₄ hsem => ?_
  obtain rfl := Shared.sem_unlock hsem
  have hinv : Inv ({ s₄ with mux := none } : Shared ι) :=
    ⟨h₄.inv.wellKeyed, h₄.inv.nodup, fun _ => h₄.facts⟩
  refine ⟨⟨fun u hu _ => ⟨hinv, fun m' => ?_, fun m' hm' => ?_, fun _ _ ha => ha⟩, nofun⟩, ?_⟩
  · rw [h₄.holds]
    exact ⟨nofun, fun heq => absurd (Prod.mk.inj (Option.some.inj heq)).1.symm hu⟩
  · rw [h₄.holds] at hm'
    exact absurd (Prod.mk.inj (Option.some.inj hm')).1.symm hu
  · exact safe_ret_of (fun _ _ => Idle.stable) ⟨hinv, nofun, h₄.stored⟩

end Rules

/-! ### The methods of the instances manager -/

/-- Reading the clock changes nothing. -/
theorem exec_now_snd (c : Outcome) (s : Sdl) : (exec .now c s).2 = s := rfl

/-- `RemoveRanFromInstance` writes an instance that is stored. -/
theorem tame_removeRanFromInstance (r a : String) :
    Tame t (E2TInstancesManager.removeRanFromInstance r a) := by
  intro as s hs
  refine safe_withMutex (fun s₁ h₁ => ?_) hs
  have h₁ := h₁.mono And.left
  refine safe_call_inside (.getE2TInstance a) trivial
    (Y := fun x d => Registered d ∧ ∀ i, x = .ok i → i.address = a ∧ (d.e2tInstance a).isSome)
    (List.Subset.refl _) ofRegistry_registered (fun s c hwell hreg hc => ?_) nofun h₁ ?_
  · rw [show exec (.getE2TInstance a) c s = _ from storeRead_ok hc]
    refine ⟨hwell, hreg.nodup, ⟨hreg, fun i hi => ?_⟩, fun _ _ hb => hb⟩
    have hstored := hwell.getE2TInstance_eq_ok.1 hi
    exact ⟨(hwell.e2tInstance hstored).1, by rw [hstored]; rfl⟩
  · intro x s₂ h₂
    rcases x with e | i
    · exact safe_ret_of (fun _ _ => Inside.stable ofRegistry_registered) (h₂.mono And.left)
    obtain ⟨haddr, -⟩ := h₂.facts.2 i rfl
    refine safe_call_inside (.saveE2TInstance _) trivial
      (X := fun d => Registered d ∧ (d.e2tInstance a).isSome)
      (Y := fun _ d => Registered d) (List.Subset.refl _)
      (ofRegistry_and ofRegistry_registered (ofRegistry_stored a))
      (fun s c hwell hX hc => ?_) (fun _ _ _ _ hm => by cases hm)
      (h₂.mono fun hX => ⟨hX.1, (hX.2 i rfl).2⟩) fun x s₃ h₃ => ?_
    · have hne : a ≠ "" := by
        obtain ⟨i', hi'⟩ := Option.isSome_iff_exists.1 hX.2
        exact (hwell.e2tInstance hi').2
      have hsame := SameRegistry.putInstance hwell
        (i := { i with associatedRanList := i.associatedRanList.filter (· ≠ r) })
        (by rw [haddr]; exact hX.2)
      rw [exec_saveE2TInstance hc (i := { i with
        associatedRanList := i.associatedRanList.filter (· ≠ r) }) (haddr.trans_ne hne)]
      exact ⟨hsame.wellKeyed, (hX.1.same hsame).nodup, hX.1.same hsame,
        fun b _ hb => (hsame.stored b).trans hb⟩
    · rcases x with e | ⟨⟩ <;>
        exact safe_ret_of (fun _ _ => Inside.stable ofRegistry_registered) h₃

/-- The list agrees with the instances but for `a`, which is stored and not yet
listed. -/
structure Adding (a : String) (s : Sdl) : Prop where
  nodup : s.addresses.Nodup
  not_mem : a ∉ s.addresses
  stored : ∀ b, (s.e2tInstance b).isSome ↔ b ∈ s.addresses ∨ b = a

/-- The list agrees with the instances but for `a`, which is listed and no longer
stored. -/
structure Removing (a : String) (s : Sdl) : Prop where
  nodup : s.addresses.Nodup
  mem : a ∈ s.addresses
  stored : ∀ b, (s.e2tInstance b).isSome ↔ b ∈ s.addresses ∧ b ≠ a

/-- That an address is being added is read off the registry. -/
theorem ofRegistry_adding (a : String) : OfRegistry (Adding a) := fun _ _ h hs =>
  ⟨h.addresses ▸ hs.nodup, h.addresses ▸ hs.not_mem, fun b => by
    rw [h.stored b, h.addresses, hs.stored b]⟩

/-- So is that one is being removed. -/
theorem ofRegistry_removing (a : String) : OfRegistry (Removing a) := fun _ _ h hs =>
  ⟨h.addresses ▸ hs.nodup, h.addresses ▸ hs.mem, fun b => by
    rw [h.stored b, h.addresses, hs.stored b]⟩

/-- The first half of adding: the instance of a new address is stored. -/
theorem Adding.putInstance {a : String} {s : Sdl} (hs : Registered s)
    (hnot : ¬ (s.e2tInstance a).isSome) {i : E2TInstance} (hi : i.address = a) :
    Adding a (s.putInstance i) := by
  subst hi
  refine ⟨by rw [Sdl.addresses_putInstance]; exact hs.nodup, ?_, fun b => ?_⟩
  · rw [Sdl.addresses_putInstance, hs.mem_addresses]
    exact hnot
  · rw [Sdl.addresses_putInstance, Sdl.e2tInstance_putInstance, hs.mem_addresses]
    by_cases hb : b = i.address
    · subst hb
      simp
    · simp [hb]

/-- The second half: its address is listed, and both agree again. -/
theorem Adding.putAddresses {a : String} {s : Sdl} (hwell : s.WellKeyed) (hs : Adding a s) :
    Registered (s.putAddresses (s.addresses ++ [a])) where
  wellKeyed := hwell.putAddresses _
  nodup := by
    rw [Sdl.addresses_putAddresses, List.nodup_append]
    refine ⟨hs.nodup, List.nodup_singleton a, ?_⟩
    rintro x hx y hy rfl
    rw [List.mem_singleton.1 hy] at hx
    exact hs.not_mem hx
  mem_addresses b := by
    rw [Sdl.addresses_putAddresses, Sdl.e2tInstance_putAddresses, hs.stored b, List.mem_append,
      List.mem_singleton]

/-- The first half of removing: the instance is deleted. -/
theorem Removing.dropInstance {a : String} {s : Sdl} (hs : Registered s)
    (ha : (s.e2tInstance a).isSome) : Removing a (s.dropInstance a) := by
  refine ⟨by rw [Sdl.addresses_dropInstance]; exact hs.nodup, ?_, fun b => ?_⟩
  · rw [Sdl.addresses_dropInstance, hs.mem_addresses]
    exact ha
  · rw [Sdl.addresses_dropInstance, Sdl.e2tInstance_dropInstance, hs.mem_addresses]
    by_cases hb : b = a
    · subst hb
      simp
    · simp [hb]

/-- The second half: its address is taken from the list, and both agree again. -/
theorem Removing.putAddresses {a : String} {s : Sdl} (hwell : s.WellKeyed) (hs : Removing a s) :
    Registered (s.putAddresses (E2TInstancesManager.removeAddressFromList s.addresses a)) where
  wellKeyed := hwell.putAddresses _
  nodup := by
    rw [Sdl.addresses_putAddresses]
    exact hs.nodup.filter _
  mem_addresses b := by
    rw [Sdl.addresses_putAddresses, Sdl.e2tInstance_putAddresses, hs.stored b,
      E2TInstancesManager.removeAddressFromList, List.mem_filter, decide_eq_true_iff]

/-- `AddE2TInstance` of an address that is not stored. -/
theorem safe_addE2TInstance {a : String} (hne : a ≠ "") (podName : String) {j : ι}
    (hs : Idle (some j) [] s) :
    SafeFor (some j) (E2TInstancesManager.addE2TInstance a podName)
      (fun _ => Idle (some j) []) s := by
  have hnotStored : OfRegistry fun d => ¬ (d.e2tInstance a).isSome := fun s s' h hs hstored =>
    hs ((h.stored a).symm.trans hstored)
  have hX := ofRegistry_and ofRegistry_registered hnotStored
  refine safe_withMutex (fun s₁ h₁ => ?_) hs
  have h₁ : Inside (some j) _ [] (fun d => Registered d ∧ ¬ (d.e2tInstance a).isSome) s₁ :=
    h₁.mono fun h => ⟨h.1, h.2 a rfl⟩
  refine safe_call_inside .now trivial (Y := fun _ d => Registered d ∧ ¬ (d.e2tInstance a).isSome)
    (List.Subset.refl _) hX (fun s c hwell h hc => ?_) nofun h₁ fun now s₂ h₂ => ?_
  · rw [exec_now_snd]
    exact ⟨hwell, h.1.nodup, h, fun _ _ hb => hb⟩
  refine safe_call_inside (.saveE2TInstance _) trivial (Y := fun r d => r = .ok () ∧ Adding a d)
    (List.Subset.refl _) hX (fun s c hwell h hc => ?_) (fun s b i h _ hi => ?_) h₂ fun r s₃ h₃ => ?_
  · rw [exec_saveE2TInstance hc (show (newE2TInstance a podName now).address ≠ "" from hne)]
    have hadding := Adding.putInstance h.1 h.2 (i := newE2TInstance a podName now) rfl
    refine ⟨hwell.putInstance hne, hadding.nodup, ⟨rfl, hadding⟩, fun b _ hb => ?_⟩
    rw [hadding.stored b, Sdl.addresses_putInstance]
    exact .inl ((h.1.mem_addresses b).2 hb)
  · cases hi
    exact Option.not_isSome_iff_eq_none.1 h.2
  obtain ⟨rfl, -⟩ := h₃.facts
  refine safe_call_inside .getE2TAddresses trivial (Y := fun r d => Adding a d ∧
      (r = .ok d.addresses ∨ r = .error .resourceNotFound ∧ d.addresses = []))
    (List.Subset.refl _) (ofRegistry_adding a) (fun s c hwell h hc => ?_) nofun
    (h₃.mono And.right) fun r s₄ h₄ => ?_
  · rw [show exec .getE2TAddresses c s = _ from storeRead_ok hc]
    exact ⟨hwell, h.nodup, ⟨h, getE2TAddresses_cases s⟩, fun _ _ hb => hb⟩
  -- the list that is saved is the stored one with the address at its end
  have hsave : ∀ as, s₄.sdl.addresses ++ [a] = as →
      SafeFor (some j) (RNibDataService.saveE2TAddresses as)
        (fun _ => Inside (some j) (.addE2TInstance a) [] Registered) s₄ := by
    intro as has
    rw [← bind_ret (RNibDataService.saveE2TAddresses as)]
    refine safe_call_inside (.saveE2TAddresses as) trivial
      (X := fun d => Adding a d ∧ d.addresses ++ [a] = as) (Y := fun _ d => Registered d)
      (List.Subset.refl _)
      (ofRegistry_and (ofRegistry_adding a) (ofRegistry_addresses (· ++ [a] = as)))
      (fun s c hwell h hc => ?_) (fun _ _ _ _ _ ho => by cases ho)
      (h₄.mono fun h => ⟨h.1, has⟩) fun r s₅ h₅ => ?_
    · obtain ⟨hadding, rfl⟩ := h
      have hreg := hadding.putAddresses hwell
      rw [show exec (.saveE2TAddresses _) c s = _ from storeWrite_ok hc (saveE2TAddresses_eq _ s)]
      exact ⟨hreg.wellKeyed, hreg.nodup, hreg, fun b _ hb => by simpa using hb⟩
    · exact safe_ret_of (fun _ _ => Inside.stable ofRegistry_registered) h₅
  rcases h₄.facts.2 with rfl | ⟨rfl, hnil⟩
  · exact hsave _ rfl
  · exact hsave _ (by rw [hnil]; rfl)

/-- `RemoveE2TInstance` by the worker, of an address that it knows to be stored. -/
theorem safe_removeE2TInstance {a : String} {as : List String} (hnot : a ∉ as)
    {s : Shared ι} (hs : Idle none (a :: as) s) :
    SafeFor none (E2TInstancesManager.removeE2TInstance a) (fun _ => Idle none as) s := by
  refine safe_withMutex (fun s₁ h₁ => ?_) hs
  have h₁ : Inside none _ _ (fun d => Registered d ∧ (d.e2tInstance a).isSome) s₁ :=
    ⟨h₁.inv, h₁.holds, h₁.stored, h₁.facts.1, h₁.stored rfl a (List.mem_cons_self ..)⟩
  refine safe_call_inside (.removeE2TInstance a) trivial (Y := fun r d => r = .ok () ∧ Removing a d)
    (List.subset_cons_self a as) (ofRegistry_and ofRegistry_registered (ofRegistry_stored a))
    (fun s c hwell h hc => ?_) nofun h₁ fun r s₂ h₂ => ?_
  · have hne : a ≠ "" := by
      obtain ⟨i, hi⟩ := Option.isSome_iff_exists.1 h.2
      exact (hwell.e2tInstance hi).2
    have hremoving := Removing.dropInstance h.1 h.2
    rw [show exec (.removeE2TInstance a) c s = _ from
      storeWrite_ok hc (removeE2TInstance_of_ne hne s)]
    refine ⟨hwell.dropInstance a, hremoving.nodup, ⟨rfl, hremoving⟩, fun b hb hstored => ?_⟩
    rw [hremoving.stored b, Sdl.addresses_dropInstance]
    exact ⟨(h.1.mem_addresses b).2 hstored, fun heq => hnot (heq ▸ hb rfl)⟩
  obtain ⟨rfl, -⟩ := h₂.facts
  refine safe_call_inside .getE2TAddresses trivial
    (Y := fun r d => r = .ok d.addresses ∧ Removing a d)
    (List.Subset.refl _) (ofRegistry_removing a) (fun s c hwell h hc => ?_) nofun
    (h₂.mono And.right) fun r s₃ h₃ => ?_
  · rw [show exec .getE2TAddresses c s = _ from storeRead_ok hc]
    refine ⟨hwell, h.nodup, ⟨?_, h⟩, fun _ _ hb => hb⟩
    rcases getE2TAddresses_cases s with heq | ⟨-, hnil⟩
    · exact heq
    · exact absurd (hnil ▸ h.mem) List.not_mem_nil
  obtain ⟨rfl, -⟩ := h₃.facts
  refine safe_call_inside (.saveE2TAddresses _) trivial
    (X := fun d => Removing a d ∧ d.addresses = s₃.sdl.addresses) (Y := fun _ d => Registered d)
    (List.Subset.refl _)
    (ofRegistry_and (ofRegistry_removing a) (ofRegistry_addresses (· = s₃.sdl.addresses)))
    (fun s c hwell h hc => ?_) nofun (h₃.mono fun h => ⟨h.2, rfl⟩) fun r s₄ h₄ => ?_
  · have hreg := h.1.putAddresses hwell
    rw [h.2] at hreg
    rw [show exec (.saveE2TAddresses _) c s = _ from storeWrite_ok hc (saveE2TAddresses_eq _ s)]
    exact ⟨hreg.wellKeyed, hreg.nodup, hreg, fun b _ hb => by simpa using hb⟩
  · rcases r with e | ⟨⟩ <;>
      exact safe_ret_of (fun _ _ => Inside.stable ofRegistry_registered) h₄

/-! ### The threads -/

/-- Programs that disconnect RANs are made of tame ones. -/
theorem disconnects_tame : Disconnects fun α (p : Prog α) => Tame t p where
  ret := tame_ret
  bind := tame_bind
  quiet := tame_quiet
  removeRanFromInstance := tame_removeRanFromInstance

/-- The loop that clears associations is tame: it writes records alone. -/
theorem tame_clearNodebsAssociation (rs : List String) :
    Tame t (E2TShutdownManager.clearNodebsAssociation rs) := by
  induction rs with
  | nil => exact tame_ret _
  | cons r rs ih =>
      refine tame_bind (tame_quiet (quiet_getNodeb r) trivial) fun x => ?_
      split
      · exact tame_ret _
      · exact ih
      · refine tame_bind (tame_quiet (quiet_updateNodebInfo _) trivial) fun x => ?_
        rcases x with e | ⟨⟩
        · exact tame_ret _
        · exact ih

/-- An E2_TERM_INIT. -/
theorem safe_handle (codecs : Codecs) (request : NotificationRequest) {j : ι}
    (hs : Idle (some j) [] s) :
    SafeFor (some j) (E2TermInitNotificationHandler.handle codecs request)
      (fun _ => Idle (some j) []) s := by
  rw [E2TermInitNotificationHandler.handle]
  split
  · exact tame_ret () [] s hs
  rename_i payload _
  split
  · exact tame_ret () [] s hs
  rename_i hne
  refine (tame_quiet (o := .getE2TInstance payload.address)
    (quiet_of_eq fun _ _ => storeRead_snd ..) trivial [] s hs).bind fun x s₁ h₁ => ?_
  split
  · refine (tame_quiet (o := .rmAddE2TInstance payload.address) (quiet_of_eq fun _ _ => rfl)
      trivial [] s₁ h₁).bind fun x s₂ h₂ => ?_
    rcases x with e | ⟨⟩
    · exact tame_ret () [] s₂ h₂
    · exact (safe_addE2TInstance hne payload.podName h₂).bind fun _ s₃ h₃ => tame_ret () [] s₃ h₃
  · exact tame_ret () [] s₁ h₁
  · split
    · exact tame_ret () [] s₁ h₁
    · split
      · exact tame_ret () [] s₁ h₁
      · exact disconnects_tame.handleExistingE2TInstance _ [] s₁ h₁

/-- Reading the clock is tame. -/
theorem tame_now : Tame t Time.now :=
  tame_quiet (o := .now) (quiet_of_eq fun _ _ => rfl) trivial

/-- Shutdown of an instance that the worker knows to be stored. -/
theorem safe_shutdown (config : Configuration) (i : E2TInstance) {as : List String}
    (hnot : i.address ∉ as) {s : Shared ι} (hs : Idle none (i.address :: as) s) :
    SafeFor none (E2TShutdownManager.shutdown config i) (fun _ => Idle none as) s := by
  have hrest : ∀ (x : Except Err Unit) (s : Shared ι), Idle none (i.address :: as) s →
      SafeFor none (pure x) (fun _ => Idle none as) s := fun x s h =>
    tame_ret x as s (h.weaken (List.subset_cons_self ..))
  refine (tame_now _ s hs).bind fun now s₁ h₁ => ?_
  split
  · exact hrest _ s₁ h₁
  refine (tame_now _ s₁ h₁).bind fun now s₂ h₂ => ?_
  refine safe_call_idle (.saveE2TInstance _) trivial (B := fun _ => i.address :: as)
    (Y := fun _ => True) (fun s c h hc => ?_) h₂ fun x s₃ _ h₃ => ?_
  · have hstored := h.stored rfl i.address (List.mem_cons_self ..)
    obtain ⟨i', hi'⟩ := Option.isSome_iff_exists.1 hstored
    rw [exec_saveE2TInstance hc (show (E2TShutdownManager.marked i now).address ≠ "" from
      (h.inv.wellKeyed.e2tInstance hi').2)]
    exact ⟨.putInstance h.inv.wellKeyed hstored, trivial, h.stored⟩
  rcases x with e | ⟨⟩
  · exact hrest _ s₃ h₃
  refine (tame_clearNodebsAssociation _ _ s₃ h₃).bind fun x s₄ h₄ => ?_
  rcases x with e | ⟨⟩
  · exact hrest _ s₄ h₄
  refine (tame_quiet (o := .rmDeleteE2TInstance _ _) (quiet_of_eq fun _ _ => rfl) trivial _ s₄
    h₄).bind fun x s₅ h₅ => safe_removeE2TInstance hnot h₅

/-- The loop over the instances that the worker has read. -/
theorem safe_shutdownExpired (config : Configuration) (is : List E2TInstance)
    (hnodup : (is.map (·.address)).Nodup) {s : Shared ι}
    (hs : Idle none (is.map (·.address)) s) :
    SafeFor none (E2TKeepAliveWorker.shutdownExpired config is) (fun _ => Idle none []) s := by
  induction is generalizing s with
  | nil => exact tame_ret () [] s hs
  | cons i is ih =>
      rw [List.map_cons, List.nodup_cons] at hnodup
      have hone : SafeFor none (E2TKeepAliveWorker.shutdownIfExpired config i)
          (fun _ => Idle none (is.map (·.address))) s := by
        refine (tame_now _ s hs).bind fun now s₁ h₁ => ?_
        split
        · exact (safe_shutdown config i hnodup.1 h₁).bind fun _ s₂ h₂ => tame_ret () _ s₂ h₂
        · exact tame_ret () _ s₁ (h₁.weaken (List.subset_cons_self ..))
      exact hone.bind fun _ s₁ h₁ => ih hnodup.2 h₁

/-- What the worker reads: instances that are stored, no two with one address. -/
theorem safe_getE2TInstancesNoLogs {s : Shared ι} (hs : Idle none [] s) :
    SafeFor none E2TInstancesManager.getE2TInstancesNoLogs
      (fun x s' => Idle none [] s' ∧ ∀ is, x = .ok is →
        (is.map (·.address)).Nodup ∧ Idle none (is.map (·.address)) s') s := by
  have hret : ∀ (x : Except Err (List E2TInstance)) (s : Shared ι), Idle none [] s →
      (∀ is, x = .ok is → (is.map (·.address)).Nodup ∧ Idle none (is.map (·.address)) s) →
      SafeFor none (pure x) (fun x s' => Idle none [] s' ∧ ∀ is, x = .ok is →
        (is.map (·.address)).Nodup ∧ Idle none (is.map (·.address)) s') s := fun x s h h' =>
    safe_ret_of (fun _ _ hR h => ⟨h.1.stable hR, fun is his =>
      ⟨(h.2 is his).1, (h.2 is his).2.stable hR⟩⟩) ⟨h, h'⟩
  have hnil : ∀ s : Shared ι, Idle none [] s →
      ∀ is : List E2TInstance, .ok [] = (.ok is : Except Err _) →
      (is.map (·.address)).Nodup ∧ Idle none (is.map (·.address)) s := by
    rintro s h is his
    obtain rfl := Except.ok.inj his
    exact ⟨List.nodup_nil, h⟩
  refine safe_call_idle .getE2TAddresses trivial (B := fun _ => [])
    (Y := fun r => ∀ as, r = .ok as → as.Nodup) (fun s c h hc => ?_) hs fun r s₁ hr h₁ => ?_
  · rw [show exec .getE2TAddresses c s.sdl = _ from storeRead_ok hc]
    refine ⟨.rfl h.inv.wellKeyed, fun as has => ?_, nofun⟩
    rcases getE2TAddresses_cases s.sdl with heq | ⟨heq, -⟩
    · rw [heq] at has
      exact Except.ok.inj has ▸ h.inv.nodup
    · rw [heq] at has
      cases has
  split
  · exact hret _ s₁ h₁ (hnil s₁ h₁)
  · exact hret _ s₁ h₁ nofun
  · exact hret _ s₁ h₁ (hnil s₁ h₁)
  rename_i a as
  rw [← bind_ret (RNibDataService.getE2TInstances (a :: as))]
  refine safe_call_idle (.getE2TInstances (a :: as)) trivial
    (B := fun r => (r.toOption.getD []).map (·.address))
    (Y := fun r => ∀ is, r = .ok is → (is.map (·.address)).Nodup) (fun s c h hc => ?_) h₁
    fun r s₂ hr h₂ => ?_
  · rw [show exec (.getE2TInstances (a :: as)) c s.sdl = _ from storeRead_ok hc]
    refine ⟨.rfl h.inv.wellKeyed, fun is his => ?_, fun _ b hb => ?_⟩
    · obtain rfl := Except.ok.inj his
      exact (hr _ rfl).sublist (h.inv.wellKeyed.map_address_sublist _)
    · obtain ⟨i, hi, rfl⟩ := List.mem_map.1 hb
      obtain ⟨b', -, hb'⟩ := List.mem_filterMap.1 hi
      rw [(h.inv.wellKeyed.e2tInstance hb').1, hb']
      rfl
  · refine hret r s₂ (h₂.weaken (List.nil_subset _)) fun is his => ⟨hr is his, ?_⟩
    subst his
    exact h₂

/-- **One round of the worker**, which starts and ends outside the manager and knows of no
instance then. -/
theorem safe_e2TKeepAliveExpired (config : Configuration) {s : Shared ι} (hs : Idle none [] s) :
    SafeFor none (E2TKeepAliveWorker.e2TKeepAliveExpired config) (fun _ => Idle none []) s := by
  refine (safe_getE2TInstancesNoLogs hs).bind fun x s₁ h₁ => ?_
  rcases x with e | is
  · exact tame_ret () [] s₁ h₁.1
  · obtain ⟨hnodup, hidle⟩ := h₁.2 is rfl
    exact safe_shutdownExpired config is hnodup hidle

/-- The keep-alive worker. -/
theorem safe_execute (config : Configuration) (ticks : Nat) {s : Shared ι}
    (hs : Idle none [] s) :
    SafeFor none (E2TKeepAliveWorker.execute config ticks) (fun _ => Idle none []) s := by
  induction ticks generalizing s with
  | zero => exact tame_ret () [] s hs
  | succ ticks ih => exact (safe_e2TKeepAliveExpired config hs).bind fun _ s₁ h₁ => ih h₁

/-! ### Every interleaving -/

/-- The worker and a handler for each E2_TERM_INIT, about to start on a store. -/
def start (codecs : Codecs) (config : Configuration) (ticks : Nat)
    (requests : ι → NotificationRequest) (s : Sdl) : Pool e2mgr Unit (Shared ι) (Option ι) where
  thread
    | none => E2TKeepAliveWorker.execute config ticks
    | some j => E2TermInitNotificationHandler.handle codecs (requests j)
  state := { sdl := s }

/-- The handlings commute safely, as far as they have come. -/
structure Commutes (c : Pool e2mgr Unit (Shared ι) (Option ι)) : Prop where
  /-- When all have finished, no address is listed twice. -/
  nodup : c.Finished → c.state.sdl.addresses.Nodup
  /-- When all have finished, the listed addresses are those of the stored instances. -/
  mem_addresses : c.Finished → ∀ a, a ∈ c.state.sdl.addresses ↔ (c.state.sdl.e2tInstance a).isSome
  /-- A new instance that `AddE2TInstance` is about to save replaces no stored one. -/
  fresh : ∀ t a i k, c.state.mux = some (t, .addE2TInstance a) →
    c.thread t = .call (.saveE2TInstance i) k → c.state.sdl.e2tInstance i.address = none

variable [DecidableEq ι]

/-- The run lemma: every thread is where it belongs. -/
theorem allSafe_of_reach {codecs : Codecs} {config : Configuration} {ticks : Nat}
    {requests : ι → NotificationRequest} {s : Sdl} (hs : Registered s)
    {c : Pool e2mgr Unit (Shared ι) (Option ι)}
    (h : Pool.Reach (Shared.sem NewIsNew) (start codecs config ticks requests s) c) :
    Pool.AllSafe (Shared.sem NewIsNew) Interference Guarantee (fun t _ => Idle t []) c := by
  refine Pool.safe_of_reach (fun t u htu o s s' hG => hG.others u (Ne.symm htu)) (fun t => ?_) h
  have hidle : ∀ t : Option ι, Idle t [] { sdl := s } := fun t =>
    ⟨⟨hs.wellKeyed, hs.nodup, fun _ => hs⟩, nofun, nofun⟩
  cases t with
  | none => exact safe_execute config ticks (hidle none)
  | some j => exact safe_handle codecs (requests j) (hidle (some j))

/-- **E2_TERM_INITs commute safely** in every run in which `AddE2TInstance` is
entered for no address that is stored. -/
theorem commutes_of_reach {codecs : Codecs} {config : Configuration} {ticks : Nat}
    {requests : ι → NotificationRequest} {s : Sdl} (hs : Registered s)
    {c : Pool e2mgr Unit (Shared ι) (Option ι)}
    (h : Pool.Reach (Shared.sem NewIsNew) (start codecs config ticks requests s) c) :
    Commutes c := by
  have hall := allSafe_of_reach hs h
  have hreg : c.Finished → Registered c.state.sdl := by
    intro hfin
    have hidle : ∀ t, Idle t [] c.state := fun t => by
      obtain ⟨a, ha⟩ := hfin t
      exact hall.post ha
    refine (hidle none).inv.registered ?_
    cases hmux : c.state.mux with
    | none => rfl
    | some holder => exact absurd hmux ((hidle holder.1).free holder.2)
  refine ⟨fun hfin => (hreg hfin).nodup, fun hfin => (hreg hfin).mem_addresses, ?_⟩
  intro t a i k hmux hk
  have ht := hall t
  rw [hk] at ht
  obtain ⟨hG, -⟩ := ht c.state (Std.Refl.refl _) _ _
    ⟨rfl, default, admits_default false, show _ = some (_, _) from rfl⟩
  exact hG.fresh a i rfl hmux

end NearRtRic.E2Manager.Arrivals

namespace NearRtRic.E2Manager.Deployment

open Effect Arrivals

/-- An E2_TERM_INIT of each address. -/
def initOf (address : String) : NotificationRequest :=
  { ranName := "", payload := termInitJson address }

/-- The steps of a handler that adds its instance, but for the read at its start. -/
def adding (j : Bool) : List (Option Bool × Int64) := List.replicate 7 (some j, 0)

/-- Two handlers, of the two addresses: both read before either adds. -/
def bothArrive : Option (Pool e2mgr Unit (Shared Bool) (Option Bool)) :=
  (start codecs {} 0 (fun j => initOf (if j then address₁ else address₂)) .empty).follow
    (Shared.execAt fun _ o s => !entersStored o s.sdl)
    ([(some true, 0), (some false, 0)] ++ adding true ++ adding false)

/-- Two handlers of one address: both find nothing, and both add it. -/
def sameArrives : Option (Pool e2mgr Unit (Shared Bool) (Option Bool)) :=
  (start codecs {} 0 (fun _ => initOf address₁) .empty).follow
    (Shared.execAt fun _ _ _ => true)
    ([(some true, 0), (some false, 0)] ++ adding true ++ adding false)

end NearRtRic.E2Manager.Deployment

namespace NearRtRic.E2Manager.Arrivals

open Effect Deployment

/-- Two terminations that arrive together. -/
theorem commutes_of_reach_bothArrive : ∃ c, bothArrive = some c ∧ c.Finished ∧
    c.state.sdl.addresses = [address₁, address₂] ∧ Commutes c := by
  have hrun : bothArrive.map (fun c => (haveReturned c, c.state.sdl.addresses)) =
      some (true, [address₁, address₂]) := by decide +kernel
  obtain ⟨c, hc, hfacts⟩ := Option.map_eq_some_iff.1 hrun
  obtain ⟨hret, haddr⟩ := Prod.mk.inj hfacts
  refine ⟨c, hc, finished_of_haveReturned hret, haddr, ?_⟩
  refine commutes_of_reach sound_empty.registered
    (Pool.reach_of_follow (Shared.sem_of_execAt ?_) hc)
  intro t o s hcheck
  simpa [NewIsNew] using hcheck

/-- **Two E2_TERM_INITs of one new address may both add it.** -/
theorem not_commutes_of_reach :
    ¬ ∀ (codecs : Codecs) (config : Configuration) (ticks : Nat)
      (requests : Bool → NotificationRequest) (s : Sdl)
      (c : Pool e2mgr Unit (Shared Bool) (Option Bool)), Registered s →
      Pool.Reach (Shared.sem fun _ _ _ => True) (start codecs config ticks requests s) c →
        Commutes c := by
  intro hall
  have hrun : sameArrives.map (fun c => (haveReturned c, c.state.sdl.addresses)) =
      some (true, [address₁, address₁]) := by decide +kernel
  obtain ⟨c, hc, hfacts⟩ := Option.map_eq_some_iff.1 hrun
  obtain ⟨hret, haddr⟩ := Prod.mk.inj hfacts
  have hcommutes := hall _ _ _ _ _ c sound_empty.registered
    (Pool.reach_of_follow (Shared.sem_of_execAt fun _ _ _ _ => trivial) hc)
  have hnodup := hcommutes.nodup (finished_of_haveReturned hret)
  rw [haddr] at hnodup
  exact (List.nodup_cons.1 hnodup).1 (List.mem_singleton_self _)

end NearRtRic.E2Manager.Arrivals
