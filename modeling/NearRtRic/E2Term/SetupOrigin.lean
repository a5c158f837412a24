/-
# Whom a setup request is from

The message of type `RIC_E2_SETUP_REQ` carries the name of the RAN as its `meid`, which was
built from the identity in a setup request, and the payload that was printed for it.
`FromSetup` says so of a message: its name, as far as the field has room, is one that a setup
request on the same connection says, or it is empty, where no usable identity was in any of
them.

`fromSetup_run` is about the runs whose events keep names (`NearRtRic.E2Term.Peers`).  In
others the end of an old name may show behind a shorter one.
-/

import NearRtRic.E2Term.Relay

namespace NearRtRic.E2Term

open CString Termination

/-- The elements and the printed payload of a setup request. -/
def E2apPdu.setup (pdu : E2apPdu) : Option (List SetupIe × Bytes) :=
  match pdu.present, pdu.procedureCode, pdu.setupPayload with
  | .initiatingMessage, .E2setup, some payload => some (pdu.setupIes, payload)
  | _, _, _ => none

/-- The setup request `(ies, payload)` is read on the connection `p`. -/
def RelayEvent.Reads (e : RelayEvent) (p : Nat) (ies : List SetupIe) (payload : Bytes) : Prop :=
  ∃ reads bytes pdu, e = .data p reads ∧ .message bytes (some pdu) ∈ reads ∧
    pdu.setup = some (ies, payload)

variable (es : List RelayEvent)

/-- A setup request on the connection `p` says the name `n`. -/
def Said (p : Nat) (n : Bytes) : Prop :=
  ∃ e ∈ es, ∃ ies payload, e.Reads p ies payload ∧ n ∈ names ies

/-- The payload is that of a setup request. -/
def Printed (payload : Bytes) : Prop := ∃ e ∈ es, ∃ p ies, e.Reads p ies payload

/-- The name is empty, or a setup request on the connection says it. -/
def SaidOrEmpty (p : Nat) (n : Bytes) : Prop := n = [] ∨ Said es p n

/-- Whom a draft is from that is a setup request. -/
def Draft.FromSetup (d : Draft) : Prop :=
  d.mtype = .RIC_E2_SETUP_REQ →
    ∃ p n, d.about = some p ∧ d.meid = some n ∧ 0 ∉ n ∧ SaidOrEmpty es p n ∧ Printed es d.payload

/-- Whom a message is from that is a setup request. -/
def Submission.FromSetup (m : Submission) : Prop :=
  m.message.mtype = some .RIC_E2_SETUP_REQ →
    ∃ p n, m.about = some p ∧ nameIn m.message.meid = n.take RMR_MAX_MEID ∧
      SaidOrEmpty es p n ∧ Printed es m.message.payload

/-- Every connection has a name that its setup requests say. -/
def Named (s : Termination) : Prop :=
  ∀ p cu, s.peers p = some cu → SaidOrEmpty es p (visible cu.enodbName)

/-- The events keep names, at the point where they are handled. -/
def Termination.KeepNames : Termination → List RelayEvent → Prop
  | _, [] => True
  | s, e :: es => s.keepsNames e.toEvent ∧ (s.step e.toEvent).KeepNames es

variable {es} {s s' : Termination} {p : Nat} {cu : ConnectedCU} {pdu : E2apPdu}

/-- What the record sees of a setup are its names. -/
theorem toPdu_of_setup {ies : List SetupIe} {payload : Bytes}
    (h : pdu.setup = some (ies, payload)) : pdu.toPdu = .e2setup ies := by
  unfold E2apPdu.setup at h
  split at h
  · rename_i hpresent hcode hpayload
    obtain ⟨rfl, -⟩ := Prod.mk.inj (Option.some.inj h)
    unfold E2apPdu.toPdu
    rw [hpresent, hcode, hpayload]
  · cases h

/-- It sees nothing of other messages. -/
theorem toPdu_of_no_setup (h : pdu.setup = none) : pdu.toPdu = .other := by
  unfold E2apPdu.toPdu
  split
  · rename_i hpresent hcode hpayload
    unfold E2apPdu.setup at h
    rw [hpresent, hcode, hpayload] at h
    cases h
  · rfl

/-! ### One message -/

/-- A setup request that says one name leaves it in the connection and in the message. -/
theorem visible_collectSetup (hinv : Inv s) (hcu : s.peers p = some cu) {ies : List SetupIe}
    (hkeep : s.keepsName p (.e2setup ies)) {n : Bytes} (hn : names ies = [n]) :
    visible (s.collectSetup p cu ies).1.enodbName = n ∧
      visible (s.collectSetup p cu ies).1.message = n := by
  obtain ⟨-, hlen⟩ := hkeep.2 cu hcu n (hn ▸ List.mem_singleton_self n)
  obtain ⟨b, -, rfl, hname, hrun⟩ := collectIes_of_names_singleton (p := p)
    cu.enodbName s.sctpMap hn
  unfold collectSetup
  rw [hrun]
  dsimp only
  exact ⟨rfl, visible_memcpy hname.no_nul (hinv.clean hcu) hlen⟩

/-- The names that a setup leaves, in the connection and in the message. -/
theorem saidOrEmpty_collectSetup (hinv : Inv s) (hnamed : Named es s) (hcu : s.peers p = some cu)
    {ies : List SetupIe} (hkeep : s.keepsName p (.e2setup ies))
    (hsaid : ∀ n ∈ names ies, Said es p n) :
    SaidOrEmpty es p (visible (s.collectSetup p cu ies).1.enodbName) ∧
      SaidOrEmpty es p (visible (s.collectSetup p cu ies).1.message) := by
  cases hn : names ies with
  | nil =>
      unfold collectSetup
      rw [collectIes_of_names_nil _ hn]
      exact ⟨.inl rfl, hnamed p cu hcu⟩
  | cons n rest =>
      have hmem : n ∈ names ies := hn ▸ List.mem_cons_self
      have hone := (hkeep.2 cu hcu n hmem).1
      obtain ⟨henodbName, hmessage⟩ := visible_collectSetup hinv hcu hkeep hone
      rw [henodbName, hmessage]
      exact ⟨.inr (hsaid n hmem), .inr (hsaid n hmem)⟩

/-- A message that keeps the names of its peer, and whose names were said, leaves names that were
said. -/
theorem Named.handlePdu (hnamed : Named es s) (hinv : Inv s) (hcu : s.peers p = some cu)
    (hkeep : s.keepsName p pdu.toPdu)
    (hsaid : ∀ ies payload, pdu.setup = some (ies, payload) → ∀ n ∈ names ies, Said es p n) :
    Named es (s.handlePdu p pdu.toPdu) := by
  cases hsetup : pdu.setup with
  | none =>
      rw [toPdu_of_no_setup hsetup]
      exact hnamed
  | some setup =>
      obtain ⟨ies, payload⟩ := setup
      rw [toPdu_of_setup hsetup] at hkeep ⊢
      rw [handlePdu_e2setup hcu]
      intro q cu' hq
      rcases peers_update_eq.1 hq with ⟨rfl, heq⟩ | ⟨-, hq⟩
      · obtain rfl := Option.some.inj heq
        exact (saidOrEmpty_collectSetup hinv hnamed hcu hkeep (hsaid ies payload hsetup)).1
      · exact hnamed q cu' hq

/-- No message is relayed as a setup request. -/
theorem relayedAs_ne_setup {present : Present} {code : ProcedureCode} {mtype : MessageType}
    {sub_id : Option (RICrequestID → Int)} (h : relayedAs present code = some (mtype, sub_id)) :
    mtype ≠ .RIC_E2_SETUP_REQ := by
  rintro rfl
  cases present <;> cases code <;> cases h

/-- What is relayed announces no setup. -/
theorem fromSetup_relayDraft {bytes : Bytes} {d : Draft} (hd : relayDraft p cu bytes pdu = some d) :
    d.FromSetup es := by
  unfold relayDraft at hd
  dsimp only at hd
  split at hd
  · cases hd
  · rename_i mtype heq
    obtain rfl := Option.some.inj hd
    exact fun h => absurd h (relayedAs_ne_setup heq)
  · rename_i mtype sub_id heq
    obtain ⟨id, -, rfl⟩ := Option.map_eq_some_iff.1 hd
    exact fun h => absurd h (relayedAs_ne_setup heq)

/-- The draft of a setup carries the name that its IEs come to, and its text. -/
theorem setup_of_setupDraft {d : Draft} (hd : s.setupDraft p cu pdu = some d) :
    ∃ ies payload, pdu.setup = some (ies, payload) ∧
      d = ⟨some p, .RIC_E2_SETUP_REQ, some (visible (s.collectSetup p cu ies).1.message), none,
        payload⟩ := by
  unfold setupDraft at hd
  split at hd
  · rename_i payload hpresent hcode hpayload
    dsimp only at hd
    split at hd
    · obtain rfl := Option.some.inj hd
      refine ⟨pdu.setupIes, payload, ?_, rfl⟩
      unfold E2apPdu.setup
      rw [hpresent, hcode, hpayload]
    · cases hd
  · cases hd

/-- The messages that are sent for one that is read. -/
theorem fromSetup_messageDrafts (hinv : Inv s) (hnamed : Named es s)
    (hkeep : s.keepsName p pdu.toPdu)
    (hsetups : ∀ ies payload, pdu.setup = some (ies, payload) →
      (∀ n ∈ names ies, Said es p n) ∧ Printed es payload) {bytes : Bytes} {d : Draft}
    (hd : d ∈ s.messageDrafts p bytes pdu) : d.FromSetup es := by
  unfold messageDrafts at hd
  cases hcu : s.peers p with
  | none =>
      rw [hcu] at hd
      cases hd
  | some cu =>
      rw [hcu, List.mem_append, Option.mem_toList, Option.mem_toList] at hd
      rcases hd with hd | hd
      · exact fromSetup_relayDraft hd
      · obtain ⟨ies, payload, hsetup, rfl⟩ := setup_of_setupDraft hd
        obtain ⟨hsaid, hprinted⟩ := hsetups ies payload hsetup
        rw [toPdu_of_setup hsetup] at hkeep
        exact fun _ => ⟨p, _, rfl, rfl, zero_notMem_visible _,
          (saidOrEmpty_collectSetup hinv hnamed hcu hkeep hsaid).2, hprinted⟩

/-- A lost connection announces no setup. -/
theorem fromSetup_failureDrafts {text : Bytes} {d : Draft} (hd : d ∈ s.failureDrafts p text) :
    d.FromSetup es := by
  unfold failureDrafts at hd
  split at hd
  · cases hd
  · obtain rfl := List.mem_singleton.1 hd
    exact nofun

/-! ### One round -/

/-- The reads of an open connection. -/
theorem fromSetup_reads (hinv : Inv s) (hnamed : Named es s) (hlive : (s.peers p).isSome)
    {reads : List SctpRead} (hkeep : s.allKeepNames p (handled reads).1)
    (hsetups : ∀ bytes pdu ies payload, .message bytes (some pdu) ∈ reads →
      pdu.setup = some (ies, payload) → (∀ n ∈ names ies, Said es p n) ∧ Printed es payload) :
    (∀ d ∈ s.readDrafts p reads, d.FromSetup es) ∧
      Named es ((handled reads).1.foldl (fun s pdu => s.handlePdu p pdu) s) := by
  induction reads generalizing s with
  | nil => exact ⟨nofun, hnamed⟩
  | cons read reads ih =>
      have hrest : ∀ bytes pdu ies payload, .message bytes (some pdu) ∈ reads →
          pdu.setup = some (ies, payload) → (∀ n ∈ names ies, Said es p n) ∧ Printed es payload :=
        fun bytes pdu ies payload hmem =>
          hsetups bytes pdu ies payload (List.mem_cons_of_mem read hmem)
      cases read with
      | eintr => exact ih hinv hnamed hlive hkeep hrest
      | eagain => exact ⟨nofun, hnamed⟩
      | eof => exact ⟨fun d hd => fromSetup_failureDrafts hd, hnamed⟩
      | error => exact ⟨fun d hd => fromSetup_failureDrafts hd, hnamed⟩
      | message bytes decoded =>
          cases decoded with
          | none => exact ⟨nofun, hnamed⟩
          | some pdu =>
              obtain ⟨hkeep, hkeeps⟩ := hkeep
              obtain ⟨cu, hcu⟩ := Option.isSome_iff_exists.1 hlive
              have hfirst := hsetups bytes pdu
              have hnamed' := hnamed.handlePdu hinv hcu hkeep fun ies payload hsetup =>
                (hfirst ies payload List.mem_cons_self hsetup).1
              obtain ⟨cu', hcu'⟩ := handlePdu_peers hcu pdu.toPdu
              obtain ⟨hdrafts, hend⟩ := ih (hinv.handlePdu hcu hkeep) hnamed'
                (by rw [hcu']; rfl) hkeeps hrest
              refine ⟨fun d hd => ?_, hend⟩
              rcases List.mem_append.1 hd with hd | hd
              · exact fromSetup_messageDrafts hinv hnamed hkeep
                  (fun ies payload => hfirst ies payload List.mem_cons_self) hd
              · exact hdrafts d hd

/-- The connections of `s'` are connections of `s`, as they were. -/
def Shrinks (s s' : Termination) : Prop := ∀ q cu, s'.peers q = some cu → s.peers q = some cu

/-- Where records only go, names stay said. -/
theorem Named.shrinks (hnamed : Named es s) (h : Shrinks s s') : Named es s' :=
  fun q cu hq => hnamed q cu (h q cu hq)

/-- One step after another. -/
theorem Shrinks.trans {s'' : Termination} (h : Shrinks s s') (h' : Shrinks s' s'') :
    Shrinks s s'' := fun q cu hq => h q cu (h' q cu hq)

/-- An access through a pointer, that goes on to let records go. -/
theorem shrinks_deref {k : ConnectedCU → Termination} (hk : ∀ cu, Shrinks s (k cu)) (p : Nat) :
    Shrinks s (s.deref p k) := by
  unfold deref
  cases s.peers p with
  | none => exact fun _ _ h => h
  | some cu => exact hk cu

/-- A free lets one go. -/
theorem shrinks_free (p : Nat) : Shrinks s (s.free p) := by
  refine shrinks_deref (fun _ q cu hq => ?_) p
  rcases peers_update_eq.1 hq with ⟨-, heq⟩ | ⟨-, hq⟩
  · cases heq
  · exact hq

/-- To erase a name lets none go. -/
theorem shrinks_erase (key : Bytes) : Shrinks s (s.erase key) := fun _ _ h => h

/-- `cleanHashEntry` lets one go. -/
theorem shrinks_cleanHashEntry (p : Nat) : Shrinks s (s.cleanHashEntry p) :=
  shrinks_deref (fun _ => (shrinks_erase _).trans ((shrinks_erase _).trans (shrinks_free p))) p

/-- Names that are cleared let theirs go. -/
theorem shrinks_clearKeys (keys : List Bytes) : Shrinks s (keys.foldl clearKey s) := by
  induction keys generalizing s with
  | nil => exact fun _ _ h => h
  | cons key keys ih =>
      refine Shrinks.trans ?_ ih
      unfold clearKey
      split
      · exact fun _ _ h => h
      · split
        · exact fun _ _ h => h
        · exact shrinks_free _

/-- A message to a peer lets its record go where it cannot be sent. -/
theorem shrinks_sendMessagetoCu (enodbName : Bytes) (messageType : Nat) (sent : Bool) :
    Shrinks s (s.sendMessagetoCu enodbName messageType sent) := by
  unfold sendMessagetoCu
  split
  · exact fun _ _ h => h
  · rename_i q _
    refine shrinks_deref (fun cu => ?_) q
    split
    · exact fun _ _ h => h
    · dsimp only
      refine (shrinks_cleanHashEntry q).trans ?_
      cases (s.cleanHashEntry q).sctpMap.lookup _ with
      | none => exact fun _ _ h => h
      | some q' => exact fun r cu hr => shrinks_free q' r cu hr

/-- A clearing announces no setup. -/
theorem fromSetup_clearDrafts {keys : List Bytes} {d : Draft} (hd : d ∈ s.clearDrafts keys) :
    d.FromSetup es := by
  induction keys generalizing s with
  | nil => cases hd
  | cons key keys ih =>
      rcases List.mem_append.1 hd with hd | hd
      · split at hd
        · cases hd
        · split at hd
          · cases hd
          · exact fromSetup_failureDrafts hd
      · exact ih hd

/-- **One round**: its setup requests are from setup requests, and names stay said. -/
theorem fromSetup_step (hinv : Inv s) (hnamed : Named es s) (ka_message : Bytes) {e : RelayEvent}
    (he : e ∈ es) (hkeep : s.keepsNames e.toEvent) :
    (∀ d ∈ e.drafts ka_message s, d.FromSetup es) ∧ Named es (s.step e.toEvent) := by
  cases e with
  | accept hostName portNumber addToEpoll =>
      refine ⟨fun _ hd => absurd hd List.not_mem_nil, fun q cu hq => ?_⟩
      unfold RelayEvent.toEvent step accept at hq
      dsimp only at hq
      split at hq
      · rcases peers_update_eq.1 hq with ⟨-, heq⟩ | ⟨-, hq⟩
        · obtain rfl := Option.some.inj heq
          exact .inl rfl
        · exact hnamed q cu hq
      · exact hnamed q cu hq
  | data p reads =>
      obtain ⟨hlive, hkeep⟩ := hkeep
      obtain ⟨cu, hcu⟩ := Option.isSome_iff_exists.1 hlive
      obtain ⟨hdrafts, hend⟩ := fromSetup_reads hinv hnamed hlive hkeep
        fun bytes pdu ies payload hmem hsetup =>
          have hreads : (RelayEvent.data p reads).Reads p ies payload :=
            ⟨reads, bytes, pdu, rfl, hmem, hsetup⟩
          ⟨fun n hn => ⟨_, he, ies, payload, hreads, hn⟩, _, he, p, ies, hreads⟩
      refine ⟨fun d hd => ?_, ?_⟩
      · rw [RelayEvent.drafts, if_pos hlive] at hd
        exact hdrafts d hd
      · rw [RelayEvent.toEvent, step, receiveDataFromSctp, deref_of_live hcu]
        dsimp only
        split
        · exact hend.shrinks (shrinks_cleanHashEntry p)
        · exact hend
  | error p =>
      refine ⟨fun d hd => fromSetup_failureDrafts hd, hnamed.shrinks ?_⟩
      exact shrinks_deref (fun _ => (shrinks_erase _).trans (shrinks_cleanHashEntry p)) p
  | rmr m =>
      cases m with
      | keepAlive =>
          refine ⟨fun d hd => ?_, hnamed⟩
          obtain rfl := List.mem_singleton.1 hd
          intro hmtype
          cases hmtype
      | clearAll order =>
          exact ⟨fun d hd => fromSetup_clearDrafts hd,
            hnamed.shrinks (shrinks_clearKeys s.sctpMap.keys)⟩
      | downlink enodbName messageType sent =>
          exact ⟨fun _ hd => absurd hd List.not_mem_nil,
            hnamed.shrinks (shrinks_sendMessagetoCu enodbName messageType sent)⟩
      | other => exact ⟨fun _ hd => absurd hd List.not_mem_nil, hnamed⟩
  | inotify => exact ⟨fun _ hd => absurd hd List.not_mem_nil, hnamed⟩

/-! ### Runs -/

/-- In a run that keeps names every setup that is announced was asked for under its name. -/
theorem fromSetup_drafts (hinv : Inv s) (hnamed : Named es s) (ka_message : Bytes)
    {rest : List RelayEvent} (hrest : ∀ e ∈ rest, e ∈ es) (hkeep : s.KeepNames rest) {d : Draft}
    (hd : d ∈ s.drafts ka_message rest) : d.FromSetup es := by
  induction rest generalizing s with
  | nil => cases hd
  | cons e rest ih =>
      obtain ⟨hdrafts, hnamed'⟩ := fromSetup_step hinv hnamed ka_message
        (hrest e List.mem_cons_self) hkeep.1
      rcases List.mem_append.1 hd with hd | hd
      · exact hdrafts d hd
      · exact ih (hinv.step e.toEvent hkeep.1) hnamed'
          (fun e' he' => hrest e' (List.mem_cons_of_mem e he')) hkeep.2 hd

/-- Every message of a transcript is one of its drafts. -/
theorem Transcript.mem {S : Surroundings} {clean : Prop} {n : Nat} {log : List Submission}
    {ds : List Draft} (h : Transcript S clean n log ds) {m : Submission} (hm : m ∈ log) :
    ∃ d ∈ ds, ∃ k, d.SentAs S clean k m := by
  induction h with
  | nil n => cases hm
  | cons hd _ ih =>
      rcases List.mem_cons.1 hm with rfl | hm
      · exact ⟨_, List.mem_cons_self, _, hd⟩
      · obtain ⟨d, hd, hsent⟩ := ih hm
        exact ⟨d, List.mem_cons_of_mem _ hd, hsent⟩

/-- **The setup requests of a run are from setup requests.** -/
theorem fromSetup_run {S : Surroundings} {ka_message : Bytes} {r : Relay}
    (hkeep : start.KeepNames es) (hrun : (Relay.start S).run S ka_message es = some r)
    {m : Submission} (hm : m ∈ r.rmr.log) : m.FromSetup es := by
  obtain ⟨d, hd, n, hsent⟩ := (Relay.transcript_run hrun).mem hm
  have hfrom : d.FromSetup es :=
    fromSetup_drafts Inv.start nofun ka_message (fun _ h => h) hkeep hd
  intro hmtype
  have hsetup : d.mtype = .RIC_E2_SETUP_REQ :=
    Option.some.inj (hsent.written.mtype.symm.trans hmtype)
  obtain ⟨p, name, habout, hmeid, hzero, hname, hprinted⟩ := hfrom hsetup
  obtain ⟨field, hfield, hclear⟩ := hsent.written.meid name hmeid
  refine ⟨p, name, hsent.about.trans habout, ?_, hname, hsent.written.payload ▸ hprinted⟩
  rw [hfield, S.nameIn_bytes2meid (hclear (.inr hsetup)) hzero]

end NearRtRic.E2Term
