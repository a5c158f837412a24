/-
# Under whose name an indication goes

An indication is relayed with the RAN name of the connection that it was read on.  Where the
setup requests on a connection say one name, that of the gNB behind it, this is the gNB's
name, or none before the setup (`fromRan_step`).

Going back, a message for a RAN is sent on the connection that `sctpMap` has under its name.
A name that is empty is not in the map (`keyed_step`), so what is addressed to a connection
without a name goes nowhere.
-/

import NearRtRic.E2Term.Presence

namespace NearRtRic.E2Term

open CString Termination

/-- An indication goes under the name of the gNB that it is from, or under none. -/
def Draft.FromRan (identity : Nat → Bytes) (d : Draft) : Prop :=
  d.mtype = .RIC_INDICATION →
    ∃ p n, d.about = some p ∧ d.meid = some n ∧ 0 ∉ n ∧ (n = [] ∨ n = identity p)

/-- The same of a message, whose name is read as a C string. -/
def Submission.FromRan (identity : Nat → Bytes) (m : Submission) : Prop :=
  m.message.mtype = some .RIC_INDICATION →
    ∃ p n, m.about = some p ∧ visible m.message.meid = n ∧ (n = [] ∨ n = identity p)

/-- There is no connection under the empty name. -/
def Keyed (s : Termination) : Prop := ∀ q, s.sctpMap.lookup [] ≠ some q

variable {identity : Nat → Bytes} {s s' : Termination} {p : Nat} {cu : ConnectedCU} {pdu : E2apPdu}

/-- A message of another type is no indication. -/
theorem fromRan_of_ne {d : Draft} (h : d.mtype ≠ .RIC_INDICATION) : d.FromRan identity :=
  fun hmtype => absurd hmtype h

/-- What a connection's messages are relayed as has its own name. -/
theorem fromRan_messageDrafts (hown : Own identity s) {bytes : Bytes} {d : Draft}
    (hd : d ∈ s.messageDrafts p bytes pdu) : d.FromRan identity := by
  unfold messageDrafts at hd
  split at hd
  · cases hd
  · rename_i cu hcu
    rw [List.mem_append, Option.mem_toList, Option.mem_toList] at hd
    have hname := And.intro (zero_notMem_visible cu.enodbName) (hown p cu hcu)
    rcases hd with hd | hd
    · unfold relayDraft at hd
      dsimp only at hd
      split at hd
      · cases hd
      · obtain rfl := Option.some.inj hd
        exact fun _ => ⟨p, _, rfl, rfl, hname⟩
      · obtain ⟨id, -, rfl⟩ := Option.map_eq_some_iff.1 hd
        exact fun _ => ⟨p, _, rfl, rfl, hname⟩
    · obtain ⟨ies, payload, -, rfl⟩ := setup_of_setupDraft hd
      exact fromRan_of_ne (by simp)

/-- An announced failure is no indication. -/
theorem fromRan_failureDrafts {text : Bytes} {d : Draft} (hd : d ∈ s.failureDrafts p text) :
    d.FromRan identity := by
  unfold failureDrafts at hd
  split at hd
  · cases hd
  · obtain rfl := List.mem_singleton.1 hd
    exact fromRan_of_ne (by simp)

/-- Nor is what a clearing announces. -/
theorem fromRan_clearDrafts {keys : List Bytes} {d : Draft} (hd : d ∈ s.clearDrafts keys) :
    d.FromRan identity := by
  induction keys generalizing s with
  | nil => cases hd
  | cons key keys ih =>
      rcases List.mem_append.1 hd with hd | hd
      · split at hd
        · cases hd
        · split at hd
          · cases hd
          · exact fromRan_failureDrafts hd
      · exact ih hd

/-! ### The names in the map -/

/-- To erase a name stores nothing under the empty one. -/
theorem Keyed.erase (h : Keyed s) (key : Bytes) : Keyed (s.erase key) :=
  fun q hq => h q (lookup_erase_eq.1 hq).2

/-- Nor does to clean up a record. -/
theorem Keyed.cleanHashEntry (h : Keyed s) (hcu : s.peers p = some cu) :
    Keyed (s.cleanHashEntry p) := by
  rw [cleanHashEntry_of_live hcu]
  exact fun q hq => h q (lookup_erase_eq.1 (lookup_erase_eq.1 hq).2).2

/-- The name that a setup writes to the map is the one that it says. -/
theorem Keyed.handlePdu (h : Keyed s) (hinv : Inv s) (hcu : s.peers p = some cu)
    (hkeep : s.keepsName p pdu.toPdu)
    (hone : ∀ ies payload, pdu.setup = some (ies, payload) → names ies = [identity p]) :
    Keyed (s.handlePdu p pdu.toPdu) := by
  cases hsetup : pdu.setup with
  | none =>
      rw [toPdu_of_no_setup hsetup]
      exact h
  | some setup =>
      obtain ⟨ies, payload⟩ := setup
      have hn := hone ies payload hsetup
      rw [toPdu_of_setup hsetup] at hkeep ⊢
      obtain ⟨-, hlen⟩ := hkeep.2 cu hcu (identity p) (hn ▸ List.mem_singleton_self _)
      obtain ⟨b, -, -, hname, hrun⟩ := collectIes_of_names_singleton (p := p)
        cu.enodbName s.sctpMap hn
      rw [handlePdu_e2setup hcu, collectSetup, hrun,
        visible_memcpy hname.no_nul (hinv.clean hcu) hlen]
      intro q hq
      rcases lookup_insert_eq.1 hq with ⟨heq, -⟩ | ⟨-, hq⟩
      · exact hname.ne_nil heq.symm
      · exact h q hq

/-! ### One round -/

/-- The reads of an open connection. -/
theorem fromRan_reads (hinv : Inv s) (hown : Own identity s) (hkeyed : Keyed s)
    (hlive : (s.peers p).isSome) {reads : List SctpRead}
    (hkeep : s.allKeepNames p (handled reads).1)
    (hone : ∀ bytes pdu ies payload, .message bytes (some pdu) ∈ reads →
      pdu.setup = some (ies, payload) → names ies = [identity p]) :
    (∀ d ∈ s.readDrafts p reads, d.FromRan identity) ∧
      Keyed ((handled reads).1.foldl (fun s pdu => s.handlePdu p pdu) s) ∧
      (((handled reads).1.foldl (fun s pdu => s.handlePdu p pdu) s).peers p).isSome := by
  induction reads generalizing s with
  | nil => exact ⟨nofun, hkeyed, hlive⟩
  | cons read reads ih =>
      have hrest : ∀ bytes pdu ies payload, .message bytes (some pdu) ∈ reads →
          pdu.setup = some (ies, payload) → names ies = [identity p] :=
        fun bytes pdu ies payload hmem =>
          hone bytes pdu ies payload (List.mem_cons_of_mem read hmem)
      cases read with
      | eintr => exact ih hinv hown hkeyed hlive hkeep hrest
      | eagain => exact ⟨nofun, hkeyed, hlive⟩
      | eof => exact ⟨fun d hd => fromRan_failureDrafts hd, hkeyed, hlive⟩
      | error => exact ⟨fun d hd => fromRan_failureDrafts hd, hkeyed, hlive⟩
      | message bytes decoded =>
          cases decoded with
          | none => exact ⟨nofun, hkeyed, hlive⟩
          | some pdu =>
              obtain ⟨hkeep, hkeeps⟩ := hkeep
              obtain ⟨cu, hcu⟩ := Option.isSome_iff_exists.1 hlive
              have hfirst : ∀ ies payload, pdu.setup = some (ies, payload) →
                  names ies = [identity p] :=
                fun ies payload => hone bytes pdu ies payload List.mem_cons_self
              have hown' := (tells_handlePdu hinv hown hcu hkeep hfirst bytes).2
              have hkeyed' := hkeyed.handlePdu hinv hcu hkeep hfirst
              obtain ⟨cu', hcu'⟩ := handlePdu_peers hcu pdu.toPdu
              obtain ⟨hdrafts, hend⟩ := ih (hinv.handlePdu hcu hkeep) hown' hkeyed'
                (Option.isSome_of_eq_some hcu') hkeeps hrest
              refine ⟨fun d hd => ?_, hend⟩
              rcases List.mem_append.1 hd with hd | hd
              · exact fromRan_messageDrafts hown hd
              · exact hdrafts d hd

/-- **One round**: its indications go under the names of their gNBs. -/
theorem fromRan_step (hinv : Inv s) (hown : Own identity s) (hkeyed : Keyed s)
    (ka_message : Bytes) {e : RelayEvent} (hkeep : s.keepsNames e.toEvent)
    (hone : e.OneIdentity identity) :
    (∀ d ∈ e.drafts ka_message s, d.FromRan identity) ∧ Keyed (s.step e.toEvent) := by
  cases e with
  | accept hostName portNumber addToEpoll =>
      refine ⟨fun _ hd => absurd hd List.not_mem_nil, ?_⟩
      unfold RelayEvent.toEvent step accept
      dsimp only
      split
      · exact hkeyed
      · exact hkeyed
  | data p reads =>
      obtain ⟨hlive, hkeep⟩ := hkeep
      obtain ⟨cu, hcu⟩ := Option.isSome_iff_exists.1 hlive
      obtain ⟨hdrafts, hend, hopen⟩ := fromRan_reads hinv hown hkeyed hlive hkeep
        fun bytes pdu ies payload hmem hsetup =>
          hone p ies payload ⟨reads, bytes, pdu, rfl, hmem, hsetup⟩
      refine ⟨fun d hd => ?_, ?_⟩
      · rw [RelayEvent.drafts, if_pos hlive] at hd
        exact hdrafts d hd
      · rw [RelayEvent.toEvent, step, receiveDataFromSctp, deref_of_live hcu]
        dsimp only
        split
        · obtain ⟨cu', hcu'⟩ := Option.isSome_iff_exists.1 hopen
          exact hend.cleanHashEntry hcu'
        · exact hend
  | error p =>
      obtain ⟨cu, hcu⟩ := Option.isSome_iff_exists.1 hkeep
      have herased : (s.erase (visible cu.enodbName)).peers p = some cu := hcu
      refine ⟨fun d hd => fromRan_failureDrafts hd, ?_⟩
      rw [RelayEvent.toEvent, step, handlepoll_error_of_live hcu]
      exact (hkeyed.erase _).cleanHashEntry herased
  | rmr m =>
      cases m with
      | keepAlive =>
          refine ⟨fun d hd => ?_, hkeyed⟩
          obtain rfl := List.mem_singleton.1 hd
          exact fromRan_of_ne (by simp)
      | clearAll order =>
          refine ⟨fun d hd => fromRan_clearDrafts hd, fun q hq => ?_⟩
          have hempty : (∅ : SctpMap).lookup [] = some q := hq
          rw [AList.lookup_empty] at hempty
          cases hempty
      | downlink enodbName messageType sent =>
          have hrun : s.sendMessagetoCu enodbName messageType sent = s :=
            sendMessagetoCu_of_live messageType sent fun q hq => by
              obtain ⟨cu, hcu⟩ := Option.isSome_iff_exists.1 (hinv.stored_live hq)
              exact ⟨cu, hcu, hinv.not_connected hcu⟩
          refine ⟨fun _ hd => absurd hd List.not_mem_nil, ?_⟩
          rw [RelayEvent.toEvent, step, receiveXappMessages, hrun]
          exact hkeyed
      | other => exact ⟨fun _ hd => absurd hd List.not_mem_nil, hkeyed⟩
  | inotify => exact ⟨fun _ hd => absurd hd List.not_mem_nil, hkeyed⟩

/-- The same of the messages that are handed to RMR, where no name was left in a buffer and
identities leave room for the NUL behind them. -/
theorem Relay.fromRan_round {S : Surroundings} (ka_message : Bytes) {r : Relay}
    (htidy : S.Tidy) (hblank : r.rmr.Blank) (hfits : ∀ p, (identity p).length < RMR_MAX_MEID)
    (hinv : Inv r.termination) (hown : Own identity r.termination) (hkeyed : Keyed r.termination)
    {e : RelayEvent} (hkeep : r.termination.keepsNames e.toEvent)
    (hone : e.OneIdentity identity) :
    Keyed (r.round S ka_message e).termination ∧
      ∃ sent, (r.round S ka_message e).rmr.log = r.rmr.log ++ sent ∧
        ∀ m ∈ sent, m.FromRan identity := by
  obtain ⟨hterm, hsays⟩ := @Relay.round_spec S ka_message r e
  obtain ⟨sent, hlog, htranscript⟩ := hsays.log
  obtain ⟨hdrafts, hkeyed'⟩ := E2Term.fromRan_step hinv hown hkeyed ka_message hkeep hone
  refine ⟨hterm ▸ hkeyed', sent, hlog, fun m hm hmtype => ?_⟩
  obtain ⟨d, hd, n, hsent⟩ := htranscript.mem hm
  have hindication : d.mtype = .RIC_INDICATION :=
    Option.some.inj (hsent.written.mtype.symm.trans hmtype)
  obtain ⟨p, name, habout, hmeid, hzero, hname⟩ := hdrafts d hd hindication
  obtain ⟨field, hfield, hclear⟩ := hsent.written.meid name hmeid
  have hlength : name.length < RMR_MAX_MEID := by
    rcases hname with rfl | rfl
    · decide
    · exact hfits p
  refine ⟨p, name, hsent.about.trans habout, ?_, hname⟩
  rw [hfield, S.visible_bytes2meid (hclear (.inl ⟨htidy, hblank⟩)) hzero hlength]

end NearRtRic.E2Term
