/-
# RANs on their way out

Delete-all takes a RAN to SHUTTING_DOWN and, after a sleep, to SHUT_DOWN, and
every other handler runs between its phases.  Two relations between the stores
before and after an event say what these can do to a RAN that is shutting down.

`ShuttingDownFrom`: whoever is shutting down afterwards was so before, in the
very same record.  All events satisfy it (`Event.shuttingDownFrom`), so a RAN
that a sweep did not find shutting down stays out of that status until the next
sweep.

`Held`: a RAN that was shutting down is still on its way out, or was
disconnected with an instance that lists it (`Event.held`).
-/

import NearRtRic.E2Manager.Events

namespace NearRtRic.E2Manager

open Effect

/-! ### What an event does to a RAN that is shutting down -/

/-- Whoever is shutting down in `s'` is so in `s`, with the same record. -/
def ShuttingDownFrom (s s' : Sdl) : Prop :=
  ∀ r nb, s'.nodeb r = some nb → nb.connectionStatus = .SHUTTING_DOWN → s.nodeb r = some nb

/-- Whoever is shutting down in `s` is on its way out in `s'`, or is disconnected
for a reason `D`. -/
def Held (D : String → Prop) (s s' : Sdl) : Prop :=
  ∀ r nb, s.nodeb r = some nb → nb.connectionStatus = .SHUTTING_DOWN →
    ∃ nb', s'.nodeb r = some nb' ∧
      (nb'.connectionStatus.Down ∨ nb'.connectionStatus = .DISCONNECTED ∧ D r)

section Relations

variable {b : Bool} {s s' s'' : Sdl} {D : String → Prop}

/-- Doing nothing begins no shutdown. -/
theorem ShuttingDownFrom.rfl : ShuttingDownFrom s s := fun _ _ h _ => h

/-- Two steps that begin no shutdown begin none together. -/
theorem ShuttingDownFrom.trans (h₁ : ShuttingDownFrom s s') (h₂ : ShuttingDownFrom s' s'') :
    ShuttingDownFrom s s'' := fun r nb h hst => h₁ r nb (h₂ r nb h hst) hst

/-- A step that leaves the RANs' records as they are begins no shutdown. -/
theorem ShuttingDownFrom.of_nodeb_eq (h : s'.nodeb = s.nodeb) : ShuttingDownFrom s s' :=
  fun _ _ hr _ => h ▸ hr

/-- The record of one RAN changes, to another status. -/
theorem ShuttingDownFrom.of_update {r : String} {nb : NodebInfo}
    (h : s'.nodeb = Function.update s.nodeb r (some nb))
    (hst : nb.connectionStatus ≠ .SHUTTING_DOWN) : ShuttingDownFrom s s' := by
  intro r' nb' hr' hst'
  rw [h, Function.update_apply] at hr'
  split at hr'
  · obtain rfl := Option.some.inj hr'
    exact absurd hst' hst
  · exact hr'

/-- Records that are kept keep whoever is shutting down. -/
theorem Held.of_kept (h : ∀ r nb, s.nodeb r = some nb → nb.connectionStatus = .SHUTTING_DOWN →
    s'.nodeb r = some nb) : Held D s s' :=
  fun r nb hr hst => ⟨nb, h r nb hr hst, .inl (.inl hst)⟩

/-- The association writes its own RAN's record and no other. -/
@[simp] theorem nodeb_associate (a : String) (nb : NodebInfo) (up : Bool) :
    (E2TAssociationManager.associate a nb up s).nodeb = Function.update s.nodeb nb.ranName
      (some (E2TAssociationManager.associated a nb (answer up .routingManager))) := by
  cases up <;> simp [E2TAssociationManager.associate]

/-- The status the association leaves behind is neither shutting down nor shut down. -/
theorem associated_not_down (a : String) (nb : NodebInfo) (e : Except Err Unit) :
    ¬ (E2TAssociationManager.associated a nb e).connectionStatus.Down := by
  cases e <;> simp [E2TAssociationManager.associated, ConnectionStatus.Down]

/-- **A move changes the record of its RAN only,** which was not shutting down
and is not afterwards. -/
theorem RanMove.nodeb_eq {C : NodebInfo → Prop} {r : String} (hs : s.WellKeyed)
    (h : RanMove b C r s s') :
    (∀ nb, s.nodeb r = some nb → nb.connectionStatus ≠ .SHUTTING_DOWN) ∧
      ∃ nb, nb.connectionStatus ≠ .SHUTTING_DOWN ∧
        s'.nodeb = Function.update s.nodeb r (some nb) := by
  cases h with
  | create hr ha hid hnb hassoc hst hsave hup =>
      rename_i s₁ a id nb up
      refine ⟨fun nb h => ?_, E2TAssociationManager.associated a nb (answer up .routingManager),
        fun h => associated_not_down a nb _ (.inl h), ?_⟩
      · rw [hr] at h
        cases h
      · rw [nodeb_associate, (saveNodeb_ok hsave).2.1, hid, hnb, Function.update_idem]
  | associate hr hst hC ha hnb hup =>
      rename_i a nb nb' up
      refine ⟨fun nb₁ h₁ => ?_, E2TAssociationManager.associated a nb' (answer up .routingManager),
        fun h => associated_not_down a nb' _ (.inl h), ?_⟩
      · rw [hr] at h₁
        exact Option.some.inj h₁ ▸ hst
      · rw [nodeb_associate, hnb.ranName, (hs.nodeb hr).1]
  | restatus hr hst hnb hst' =>
      rename_i nb nb'
      refine ⟨fun nb₁ h₁ => ?_, nb', ?_, ?_⟩
      · rw [hr] at h₁
        exact Option.some.inj h₁ ▸ hst
      · rcases hst' with hst' | hst'
        · exact fun h => hst' (.inl h)
        · rwa [hst']
      · rw [Sdl.nodeb_putNodeb, hnb.ranName, (hs.nodeb hr).1]
  | resave hr hst hnb hst' hid hsave =>
      rename_i id nb nb'
      refine ⟨fun nb₁ h₁ => ?_, nb', fun h => hst' (.inl h), ?_⟩
      · rw [hr] at h₁
        exact Option.some.inj h₁ ▸ hst
      · rw [(saveNodeb_ok hsave).2.1, hid]

/-- A move of the association begins no shutdown. -/
theorem RanMove.shuttingDownFrom {C : NodebInfo → Prop} {r : String} (hs : s.WellKeyed)
    (h : RanMove b C r s s') : ShuttingDownFrom s s' := by
  obtain ⟨-, nb, hst, heq⟩ := h.nodeb_eq hs
  exact .of_update heq hst

/-- Nor does it touch the record of a RAN that is shutting down. -/
theorem RanMove.keeps {C : NodebInfo → Prop} {r r' : String} {nb : NodebInfo} (hs : s.WellKeyed)
    (h : RanMove b C r s s') (hr' : s.nodeb r' = some nb)
    (hst : nb.connectionStatus = .SHUTTING_DOWN) : s'.nodeb r' = some nb := by
  obtain ⟨hnot, nb', -, heq⟩ := h.nodeb_eq hs
  have hne : r' ≠ r := by
    rintro rfl
    exact hnot nb hr' hst
  rwa [heq, Function.update_of_ne hne]

/-- Several moves begin no shutdown. -/
theorem RanMoves.shuttingDownFrom {C : NodebInfo → Prop} {r : String} (hs : Sound s)
    (h : RanMoves b C r s s') : ShuttingDownFrom s s' := by
  induction h with
  | refl => exact .rfl
  | tail hms hm ih => exact ih.trans (hm.shuttingDownFrom (hs.ranMoves hms).wellKeyed)

/-- Nor do they touch the record of a RAN that is shutting down. -/
theorem RanMoves.keeps {C : NodebInfo → Prop} {r r' : String} {nb : NodebInfo} (hs : Sound s)
    (h : RanMoves b C r s s') (hr' : s.nodeb r' = some nb)
    (hst : nb.connectionStatus = .SHUTTING_DOWN) : s'.nodeb r' = some nb := by
  induction h with
  | refl => exact hr'
  | tail hms hm ih => exact hm.keeps (hs.ranMoves hms).wellKeyed ih hst

open RanDisconnectionManager

/-- A disconnected RAN is not shutting down. -/
theorem disconnected_not_shuttingDown (nb : NodebInfo) :
    (disconnected nb).connectionStatus ≠ .SHUTTING_DOWN := by
  unfold disconnected
  split <;> simp_all

/-- A RAN on its way out stays there when its connection is lost. -/
theorem disconnected_down {nb : NodebInfo} (h : nb.connectionStatus.Down) :
    (disconnected nb).connectionStatus.Down := by
  unfold disconnected
  rcases h with h | h <;> simp [h, ConnectionStatus.Down]

/-- Disconnecting a RAN begins no shutdown. -/
theorem shuttingDownFrom_disconnect (hs : s.WellKeyed) (r : String) :
    ShuttingDownFrom s (disconnect r s) := by
  intro r' nb hr' hst
  rw [nodeb_disconnect hs, Function.update_apply] at hr'
  split at hr'
  · obtain ⟨nb₀, -, rfl⟩ := Option.map_eq_some_iff.1 hr'
    exact absurd hst (disconnected_not_shuttingDown nb₀)
  · exact hr'

/-- The loss of a connection keeps whoever is on its way out there. -/
theorem down_disconnect (hs : s.WellKeyed) (r : String) {r' : String} {nb : NodebInfo}
    (hr' : s.nodeb r' = some nb) (hst : nb.connectionStatus.Down) :
    ∃ nb', (disconnect r s).nodeb r' = some nb' ∧ nb'.connectionStatus.Down := by
  rw [nodeb_disconnect hs, Function.update_apply]
  split
  · subst r'
    exact ⟨disconnected nb, by rw [hr', Option.map_some], disconnected_down hst⟩
  · exact ⟨nb, hr', hst⟩

/-- Disconnecting a list of RANs begins no shutdown. -/
theorem shuttingDownFrom_disconnectAll (hs : Sound s) (rs : List String) :
    ShuttingDownFrom s (disconnectAll rs s) := by
  induction rs generalizing s with
  | nil => exact .rfl
  | cons r rs ih =>
      exact (shuttingDownFrom_disconnect hs.wellKeyed r).trans (ih (hs.disconnect r))

/-- A RAN that is going down or is down stays so while a list of RANs is disconnected. -/
theorem down_disconnectAll (hs : Sound s) (rs : List String) {r : String} {nb : NodebInfo}
    (hr : s.nodeb r = some nb) (hst : nb.connectionStatus.Down) :
    ∃ nb', (disconnectAll rs s).nodeb r = some nb' ∧ nb'.connectionStatus.Down := by
  induction rs generalizing s nb with
  | nil => exact ⟨nb, hr, hst⟩
  | cons r₁ rs ih =>
      obtain ⟨nb₁, hr₁, hst₁⟩ := down_disconnect hs.wellKeyed r₁ hr hst
      exact ih (hs.disconnect r₁) hr₁ hst₁

/-- After a shutdown a record is as it was, or, for a RAN that the instance
lists, disconnected. -/
theorem nodeb_down (hs : s.WellKeyed) {a : String} {i : E2TInstance}
    (hi : s.e2tInstance a = some i) (now : Int64) (r : String) :
    (E2TShutdownManager.down i now s).nodeb r = s.nodeb r ∨
      r ∈ i.associatedRanList ∧ (E2TShutdownManager.down i now s).nodeb r =
        (s.nodeb r).map E2TShutdownManager.disassociated := by
  have hmark : (s.putInstance (E2TShutdownManager.marked i now)).WellKeyed :=
    hs.putInstance (by simpa using hs.address_ne hi)
  have hclear := E2TShutdownManager.nodeb_clearAssociation hmark i.associatedRanList r
  unfold E2TShutdownManager.down
  split <;> rename_i heq <;> rw [heq] at hclear <;> simpa [Sdl.deregister] using hclear

end Relations

namespace Event

variable {b : Bool} {codecs : Codecs} {config : Configuration} {s s' : Sdl}

/-- No event starts to shut a RAN down. -/
theorem shuttingDownFrom (hs : Sound s) {e : Event} (h : e.Effect b codecs s s') :
    ShuttingDownFrom s s' := by
  cases e with
  | e2SetupRequest request =>
      rcases h with rfl | h
      · exact .rfl
      · exact h.shuttingDownFrom hs.wellKeyed
  | setupRequest protocol request => exact RanMoves.shuttingDownFrom hs h
  | setupResponse msgType request => exact RanMoves.shuttingDownFrom hs h
  | ranConnectionLost request =>
      obtain rfl := h
      exact shuttingDownFrom_disconnect hs.wellKeyed _
  | e2TermInit request =>
      rcases h with rfl | ⟨a, podName, t, -, -, rfl⟩ | ⟨rs, rfl⟩
      · exact .rfl
      · exact .of_nodeb_eq (by simp [Sdl.register])
      · exact shuttingDownFrom_disconnectAll hs rs
  | keepAliveResponse a =>
      rcases h with rfl | ⟨i, t, -, rfl⟩
      · exact .rfl
      · exact .of_nodeb_eq (by simp)
  | keepAliveExpired a =>
      rcases h with rfl | ⟨i, now, hi, rfl⟩
      · exact .rfl
      · intro r nb hr hst
        rcases nodeb_down hs.wellKeyed hi now r with heq | ⟨-, heq⟩
        · rwa [← heq]
        · rw [heq] at hr
          obtain ⟨nb₀, -, rfl⟩ := Option.map_eq_some_iff.1 hr
          simp [E2TShutdownManager.disassociated] at hst

/-- The RANs that an event may disconnect although they are shutting down. -/
def Drops : Event → Sdl → String → Prop
  | keepAliveExpired a, s, r => ∃ i, s.e2tInstance a = some i ∧ r ∈ i.associatedRanList
  | _, _, _ => False

/-- **What an event can do to a RAN that is shutting down.** -/
theorem held (hs : Sound s) {e : Event} (h : e.Effect b codecs s s') : Held (e.Drops s) s s' := by
  cases e with
  | e2SetupRequest request =>
      rcases h with rfl | h
      · exact .of_kept fun _ _ hr _ => hr
      · exact .of_kept fun _ _ => h.keeps hs.wellKeyed
  | setupRequest protocol request => exact .of_kept fun _ _ => RanMoves.keeps hs h
  | setupResponse msgType request => exact .of_kept fun _ _ => RanMoves.keeps hs h
  | ranConnectionLost request =>
      obtain rfl := h
      intro r nb hr hst
      obtain ⟨nb', hr', hst'⟩ := down_disconnect hs.wellKeyed request.ranName hr (.inl hst)
      exact ⟨nb', hr', .inl hst'⟩
  | e2TermInit request =>
      rcases h with rfl | ⟨a, podName, t, -, -, rfl⟩ | ⟨rs, rfl⟩
      · exact .of_kept fun _ _ hr _ => hr
      · exact .of_kept fun _ _ hr _ => by simpa [Sdl.register] using hr
      · intro r nb hr hst
        obtain ⟨nb', hr', hst'⟩ := down_disconnectAll hs rs hr (.inl hst)
        exact ⟨nb', hr', .inl hst'⟩
  | keepAliveResponse a =>
      rcases h with rfl | ⟨i, t, -, rfl⟩
      · exact .of_kept fun _ _ hr _ => hr
      · exact .of_kept fun _ _ hr _ => by simpa using hr
  | keepAliveExpired a =>
      rcases h with rfl | ⟨i, now, hi, rfl⟩
      · exact .of_kept fun _ _ hr _ => hr
      · intro r nb hr hst
        rcases nodeb_down hs.wellKeyed hi now r with heq | ⟨hmem, heq⟩
        · exact ⟨nb, heq.trans hr, .inl (.inl hst)⟩
        · rw [hr, Option.map_some] at heq
          exact ⟨_, heq, .inr ⟨by simp [E2TShutdownManager.disassociated], i, hi, hmem⟩⟩

end Event

end NearRtRic.E2Manager
