/-
# Who is present

Two of the messages that go to the E2 manager are about the presence of a RAN: its setup
request, and the loss of its connection.  They are read as words here, `setUp n` and
`gone n`.  `Tells s s' ws` says that between two states the words `ws` were said, and that
they can be relied on: a RAN whose last word is a setup has an open connection.  A name is
what the field of a message has room for.

`tells_step` is about one round of the listener, where every setup request on a connection
says the same name, and says it: one that ends before the identity is relayed under what the
buffer of the connection holds, and takes the name away.  A gNB that comes with another
identity on the same connection is heard of under both, and the loss of the connection under
the second only.
-/

import NearRtRic.E2Term.SetupOrigin
import NearRtRic.Trace.Since

namespace NearRtRic.E2Term

open CString Termination Trace

/-- What a message says about the presence of a RAN. -/
inductive Word where
  | setUp (n : Bytes)
  | gone (n : Bytes)
  deriving DecidableEq, Repr

def word (mtype : Option MessageType) (meid : Option Bytes) : Option Word :=
  match mtype, meid with
  | some .RIC_E2_SETUP_REQ, some n => some (.setUp n)
  | some .RIC_SCTP_CONNECTION_FAILURE, some n => some (.gone n)
  | _, _ => none

def Draft.word (d : Draft) : Option Word :=
  E2Term.word (some d.mtype) (d.meid.map (·.take RMR_MAX_MEID))

def Submission.word (s : Submission) : Option Word :=
  E2Term.word s.message.mtype (some (nameIn s.message.meid))

/-- The last word about the name is that it has set up. -/
def UpIn (ws : List Word) (n : Bytes) : Prop := Since (· = .setUp n) (· = .gone n) ws

/-- The connection `p` is open, and `n` is what a message has room for of its name. -/
def SetUpAs (s : Termination) (p : Nat) (n : Bytes) : Prop :=
  ∃ cu, s.peers p = some cu ∧ (visible cu.enodbName).take RMR_MAX_MEID = n

/-- The setup requests on a connection say the name of its identity. -/
def RelayEvent.OneIdentity (identity : Nat → Bytes) (e : RelayEvent) : Prop :=
  ∀ p ies payload, e.Reads p ies payload → names ies = [identity p]

/-- A connection has no name yet, or that of its identity. -/
def Own (identity : Nat → Bytes) (s : Termination) : Prop :=
  ∀ p cu, s.peers p = some cu → visible cu.enodbName = [] ∨ visible cu.enodbName = identity p

/-- The words between two states. -/
structure Tells (s s' : Termination) (ws : List Word) : Prop where
  /-- Who is no longer there is gone. -/
  stays : ∀ p n, n ≠ [] → SetUpAs s p n → SetUpAs s' p n ∨ .gone n ∈ ws
  /-- Who set up last is there. -/
  setUp : ∀ n, n ≠ [] → UpIn ws n → ∃ p, SetUpAs s' p n

variable {identity : Nat → Bytes} {s s' s'' : Termination} {ws ws' : List Word} {p : Nat}
  {cu : ConnectedCU} {pdu : E2apPdu}

/-- After one word a name is up exactly where the word sets it up. -/
theorem upIn_singleton {w : Word} {n : Bytes} : UpIn [w] n ↔ w = .setUp n :=
  @since_singleton _ (· = Word.setUp n) _ w

namespace Tells

/-- Nothing is said, and the connections are those that they were. -/
theorem silent (h : s'.peers = s.peers) : Tells s s' [] where
  stays p n _ hp := .inl (by rwa [SetUpAs, h])
  setUp n _ hn := absurd hn not_since_nil

/-- One step after another. -/
theorem trans (h : Tells s s' ws) (h' : Tells s' s'' ws') : Tells s s'' (ws ++ ws') where
  stays p n hn hp := by
    rcases h.stays p n hn hp with hp | hgone
    · exact (h'.stays p n hn hp).imp_right (List.mem_append_right ws)
    · exact .inr (List.mem_append_left ws' hgone)
  setUp n hn hup := by
    rcases since_append.1 hup with hup | ⟨hup, hnot⟩
    · exact h'.setUp n hn hup
    · obtain ⟨p, hp⟩ := h.setUp n hn hup
      refine ⟨p, (h'.stays p n hn hp).resolve_right fun hgone => ?_⟩
      exact hnot _ hgone rfl

/-- A connection is closed and announced as gone. -/
theorem close (hcu : s.peers p = some cu) (hpeers : ∀ q, q ≠ p → s'.peers q = s.peers q) :
    Tells s s' [.gone ((visible cu.enodbName).take RMR_MAX_MEID)] where
  stays q n _ hq := by
    by_cases hqp : q = p
    · subst hqp
      obtain ⟨cu', hcu', rfl⟩ := hq
      obtain rfl := Option.some.inj (hcu.symm.trans hcu')
      exact .inr (List.mem_singleton_self _)
    · exact .inl (by rwa [SetUpAs, hpeers q hqp])
  setUp n _ hup := by cases upIn_singleton.1 hup

/-- Only the connections matter. -/
theorem congr (h : Tells s s' ws) (hpeers : s''.peers = s'.peers) : Tells s s'' ws := by
  have htrans := h.trans (.silent hpeers)
  rwa [List.append_nil] at htrans

end Tells

/-- Where records only go, the others keep their names. -/
theorem Own.shrinks (h : Own identity s) (hs : Shrinks s s') : Own identity s' :=
  fun q cu hq => h q cu (hs q cu hq)

/-! ### Words -/

/-- A message of another type is no word. -/
theorem word_of_ne {mtype : MessageType} (hsetup : mtype ≠ .RIC_E2_SETUP_REQ)
    (hfailure : mtype ≠ .RIC_SCTP_CONNECTION_FAILURE) (meid : Option Bytes) :
    word (some mtype) meid = none := by
  unfold word
  split
  · rename_i heq
    exact absurd (Option.some.inj heq) hsetup
  · rename_i heq
    exact absurd (Option.some.inj heq) hfailure
  · rfl

/-- What is relayed is no word. -/
theorem word_relayDraft {bytes : Bytes} {d : Draft} (hd : relayDraft p cu bytes pdu = some d) :
    d.word = none := by
  unfold relayDraft at hd
  dsimp only at hd
  split at hd
  · cases hd
  · rename_i heq
    obtain rfl := Option.some.inj hd
    exact word_of_ne (relayedAs_ne_setup heq) (relayedAs_ne heq) _
  · rename_i heq
    obtain ⟨id, -, rfl⟩ := Option.map_eq_some_iff.1 hd
    exact word_of_ne (relayedAs_ne_setup heq) (relayedAs_ne heq) _

/-- Nor are there words among it. -/
theorem words_relayDraft (p : Nat) (cu : ConnectedCU) (bytes : Bytes) (pdu : E2apPdu) :
    (relayDraft p cu bytes pdu).toList.filterMap Draft.word = [] := by
  cases h : relayDraft p cu bytes pdu with
  | none => rfl
  | some d => simp [word_relayDraft h]

/-- A lost connection says that its name is gone. -/
theorem words_failureDrafts (hcu : s.peers p = some cu) (text : Bytes) :
    (s.failureDrafts p text).filterMap Draft.word =
      [.gone ((visible cu.enodbName).take RMR_MAX_MEID)] := by
  rw [failureDrafts, hcu]
  rfl

/-- The words of a setup request that says the name of the connection. -/
theorem words_setupDraft (hinv : Inv s) (hcu : s.peers p = some cu) {n : Bytes}
    {ies : List SetupIe} {payload : Bytes} (hsetup : pdu.setup = some (ies, payload))
    (hkeep : s.keepsName p (.e2setup ies)) (hn : names ies = [n]) :
    (s.setupDraft p cu pdu).toList.filterMap Draft.word ∈
        [[], [.setUp (n.take RMR_MAX_MEID)]] ∧
      visible (s.collectSetup p cu ies).1.enodbName = n := by
  obtain ⟨henodbName, hmessage⟩ := visible_collectSetup hinv hcu hkeep hn
  refine ⟨?_, henodbName⟩
  cases hd : s.setupDraft p cu pdu with
  | none => exact List.mem_cons_self
  | some d =>
      obtain ⟨ies', payload', hsetup', rfl⟩ := setup_of_setupDraft hd
      obtain ⟨rfl, rfl⟩ := Prod.mk.inj (Option.some.inj (hsetup.symm.trans hsetup'))
      rw [hmessage]
      exact List.mem_cons_of_mem _ List.mem_cons_self

/-! ### One message -/

/-- A message tells of the setup it asks for, if the names are those of its peer. -/
theorem tells_handlePdu (hinv : Inv s) (hown : Own identity s) (hcu : s.peers p = some cu)
    (hkeep : s.keepsName p pdu.toPdu)
    (hone : ∀ ies payload, pdu.setup = some (ies, payload) → names ies = [identity p])
    (bytes : Bytes) :
    Tells s (s.handlePdu p pdu.toPdu) ((s.messageDrafts p bytes pdu).filterMap Draft.word) ∧
      Own identity (s.handlePdu p pdu.toPdu) := by
  rw [messageDrafts, hcu]
  dsimp only
  rw [List.filterMap_append, words_relayDraft, List.nil_append]
  cases hsetup : pdu.setup with
  | none =>
      have hdraft : s.setupDraft p cu pdu = none := by
        by_contra hne
        obtain ⟨d, hd⟩ := Option.ne_none_iff_exists'.1 hne
        obtain ⟨ies, payload, hsome, -⟩ := setup_of_setupDraft hd
        rw [hsetup] at hsome
        cases hsome
      rw [toPdu_of_no_setup hsetup, hdraft]
      exact ⟨.silent rfl, hown⟩
  | some setup =>
      obtain ⟨ies, payload⟩ := setup
      have hn := hone ies payload hsetup
      rw [toPdu_of_setup hsetup] at hkeep ⊢
      obtain ⟨hwords, hname⟩ := words_setupDraft hinv hcu hsetup hkeep hn
      rw [handlePdu_e2setup hcu]
      -- the connection has its name afterwards, whether a message is sent or not
      have hnow : SetUpAs { s with
          peers := Function.update s.peers p
            (some { cu with enodbName := (s.collectSetup p cu ies).1.enodbName })
          sctpMap := (s.collectSetup p cu ies).1.sctpMap } p
          ((identity p).take RMR_MAX_MEID) :=
        ⟨_, Function.update_self .., congrArg (·.take RMR_MAX_MEID) hname⟩
      refine ⟨⟨fun q n hne hq => .inl ?_, fun n _ hup => ⟨p, ?_⟩⟩, fun q cu' hq => ?_⟩
      · by_cases hqp : q = p
        · subst hqp
          obtain ⟨cu', hcu', rfl⟩ := hq
          rw [(hown q cu' hcu').resolve_left fun hnil => hne (by rw [hnil]; rfl)]
          exact hnow
        · obtain ⟨cu', hcu', hvisible⟩ := hq
          exact ⟨cu', (Function.update_of_ne hqp ..).trans hcu', hvisible⟩
      · rcases List.mem_cons.1 hwords with hnil | hone
        · rw [hnil] at hup
          exact absurd hup not_since_nil
        · rw [List.mem_singleton.1 hone] at hup
          exact Word.setUp.inj (upIn_singleton.1 hup) ▸ hnow
      · rcases peers_update_eq.1 hq with ⟨rfl, heq⟩ | ⟨-, hq⟩
        · obtain rfl := Option.some.inj heq
          exact .inr hname
        · exact hown q cu' hq

/-! ### One round -/

/-- A record that is cleaned up is told to be gone. -/
theorem tells_cleanHashEntry (hcu : s.peers p = some cu) (text : Bytes) :
    Tells s (s.cleanHashEntry p) ((s.failureDrafts p text).filterMap Draft.word) := by
  rw [words_failureDrafts hcu]
  refine .close hcu fun q hq => ?_
  rw [cleanHashEntry_of_live hcu]
  exact Function.update_of_ne hq ..

/-- The reads of an open connection, which is closed behind them or not. -/
theorem tells_reads (hinv : Inv s) (hown : Own identity s) (hlive : (s.peers p).isSome)
    {reads : List SctpRead} (hkeep : s.allKeepNames p (handled reads).1)
    (hone : ∀ bytes pdu ies payload, .message bytes (some pdu) ∈ reads →
      pdu.setup = some (ies, payload) → names ies = [identity p]) :
    let s' := (handled reads).1.foldl (fun s pdu => s.handlePdu p pdu) s
    Tells s (if (handled reads).2 then s'.cleanHashEntry p else s')
        ((s.readDrafts p reads).filterMap Draft.word) ∧
      Own identity (if (handled reads).2 then s'.cleanHashEntry p else s') := by
  dsimp only
  obtain ⟨cu, hcu⟩ := Option.isSome_iff_exists.1 hlive
  induction reads generalizing s cu with
  | nil => exact ⟨.silent rfl, hown⟩
  | cons read reads ih =>
      have hrest : ∀ bytes pdu ies payload, .message bytes (some pdu) ∈ reads →
          pdu.setup = some (ies, payload) → names ies = [identity p] :=
        fun bytes pdu ies payload hmem =>
          hone bytes pdu ies payload (List.mem_cons_of_mem read hmem)
      cases read with
      | eintr => exact ih hinv hown hlive hkeep hrest cu hcu
      | eagain => exact ⟨.silent rfl, hown⟩
      | eof => exact ⟨tells_cleanHashEntry hcu _, hown.shrinks (shrinks_cleanHashEntry p)⟩
      | error => exact ⟨tells_cleanHashEntry hcu _, hown.shrinks (shrinks_cleanHashEntry p)⟩
      | message bytes decoded =>
          cases decoded with
          | none => exact ⟨.silent rfl, hown⟩
          | some pdu =>
              obtain ⟨hkeep, hkeeps⟩ := hkeep
              obtain ⟨htells, hown'⟩ := tells_handlePdu hinv hown hcu hkeep
                (fun ies payload => hone bytes pdu ies payload List.mem_cons_self) bytes
              obtain ⟨cu', hcu'⟩ := handlePdu_peers hcu pdu.toPdu
              obtain ⟨htells', hown''⟩ := ih (hinv.handlePdu hcu hkeep) hown' (by rw [hcu']; rfl)
                hkeeps hrest cu' hcu'
              rw [readDrafts, List.filterMap_append]
              exact ⟨htells.trans htells', hown''⟩

/-- So is one that is freed, if there is one. -/
theorem tells_free (text : Bytes) :
    Tells s (s.free p) ((s.failureDrafts p text).filterMap Draft.word) := by
  cases hcu : s.peers p with
  | none =>
      rw [failureDrafts, free, deref, hcu]
      exact .silent rfl
  | some cu =>
      rw [words_failureDrafts hcu]
      refine .close hcu fun q hq => ?_
      rw [free, deref_of_live hcu]
      exact Function.update_of_ne hq ..

/-- The keys of `RIC_SCTP_CLEAR_ALL`. -/
theorem tells_clearKeys (keys : List Bytes) :
    Tells s (keys.foldl clearKey s) ((s.clearDrafts keys).filterMap Draft.word) := by
  induction keys generalizing s with
  | nil => exact .silent rfl
  | cons key keys ih =>
      rw [clearDrafts, List.filterMap_append, List.foldl_cons]
      refine Tells.trans ?_ ih
      unfold clearKey
      split
      · exact .silent rfl
      · cases s.sctpMap.lookup key with
        | none => exact .silent rfl
        | some p => exact tells_free _

/-- No connection is marked as connected, so that none is closed by what is sent on it. -/
theorem peers_sendMessagetoCu (hinv : Inv s) (enodbName : Bytes) (messageType : Nat)
    (sent : Bool) : (s.sendMessagetoCu enodbName messageType sent).peers = s.peers := by
  unfold sendMessagetoCu
  split
  · rfl
  · rename_i q _
    unfold deref
    cases hq : s.peers q with
    | none => rfl
    | some cu =>
        dsimp only
        rw [hinv.not_connected hq, if_pos (by simp)]

/-- **One round**, where the connections keep their identities. -/
theorem tells_step (hinv : Inv s) (hown : Own identity s) (ka_message : Bytes) {e : RelayEvent}
    (hkeep : s.keepsNames e.toEvent) (hone : e.OneIdentity identity) :
    Tells s (s.step e.toEvent) ((e.drafts ka_message s).filterMap Draft.word) ∧
      Own identity (s.step e.toEvent) := by
  cases e with
  | accept hostName portNumber addToEpoll =>
      unfold RelayEvent.toEvent step accept
      dsimp only
      split
      · refine ⟨⟨fun q n _ hq => .inl ?_, fun n _ hup => absurd hup not_since_nil⟩,
          fun q cu hq => ?_⟩
        · obtain ⟨cu, hcu, hn⟩ := hq
          have hne : q ≠ s.next := by
            rintro rfl
            rw [hinv.fresh le_rfl] at hcu
            cases hcu
          exact ⟨cu, (Function.update_of_ne hne ..).trans hcu, hn⟩
        · rcases peers_update_eq.1 hq with ⟨-, heq⟩ | ⟨-, hq⟩
          · obtain rfl := Option.some.inj heq
            exact .inl rfl
          · exact hown q cu hq
      · exact ⟨.silent rfl, hown⟩
  | data p reads =>
      obtain ⟨hlive, hkeep⟩ := hkeep
      obtain ⟨cu, hcu⟩ := Option.isSome_iff_exists.1 hlive
      rw [RelayEvent.drafts, if_pos hlive, RelayEvent.toEvent, step, receiveDataFromSctp,
        deref_of_live hcu]
      exact tells_reads hinv hown hlive hkeep fun bytes pdu ies payload hmem hsetup =>
        hone p ies payload ⟨reads, bytes, pdu, rfl, hmem, hsetup⟩
  | error p =>
      obtain ⟨cu, hcu⟩ := Option.isSome_iff_exists.1 hkeep
      have hclean : (s.erase (visible cu.enodbName)).peers p = some cu := hcu
      rw [RelayEvent.toEvent, step, handlepoll_error_of_live hcu]
      refine ⟨?_, hown.shrinks ((shrinks_erase _).trans (shrinks_cleanHashEntry p))⟩
      rw [RelayEvent.drafts, words_failureDrafts hcu]
      refine .close hcu fun q hq => ?_
      rw [cleanHashEntry_of_live hclean]
      exact Function.update_of_ne hq ..
  | rmr m =>
      cases m with
      | keepAlive => exact ⟨.silent rfl, hown⟩
      | clearAll order =>
          have htells := tells_clearKeys (s := s) (Relay.inOrder order s.sctpMap.keys)
          rw [foldl_clearKey_perm (Relay.perm_inOrder order s.sctpMap.keys)] at htells
          exact ⟨htells.congr rfl, hown.shrinks (shrinks_clearKeys s.sctpMap.keys)⟩
      | downlink enodbName messageType sent =>
          have hpeers := peers_sendMessagetoCu hinv enodbName messageType sent
          exact ⟨.silent hpeers, hown.shrinks fun q cu hq => hpeers ▸ hq⟩
      | other => exact ⟨.silent rfl, hown⟩
  | inotify => exact ⟨.silent rfl, hown⟩

/-! ### The messages -/

/-- The name of a RAN is in the message, which is an answer otherwise. -/
def Draft.Addressed (d : Draft) : Prop :=
  (∃ n, d.meid = some n ∧ 0 ∉ n) ∨ d.mtype = .E2_TERM_KEEP_ALIVE_RESP

/-- An announced failure has an address. -/
theorem addressed_failureDrafts {text : Bytes} {d : Draft} (hd : d ∈ s.failureDrafts p text) :
    d.Addressed := by
  unfold failureDrafts at hd
  split at hd
  · cases hd
  · obtain rfl := List.mem_singleton.1 hd
    exact .inl ⟨_, rfl, zero_notMem_visible _⟩

/-- So has what a message is relayed as. -/
theorem addressed_messageDrafts {bytes : Bytes} {d : Draft} (hd : d ∈ s.messageDrafts p bytes pdu) :
    d.Addressed := by
  unfold messageDrafts at hd
  split at hd
  · cases hd
  · rename_i cu _
    rw [List.mem_append, Option.mem_toList, Option.mem_toList] at hd
    rcases hd with hd | hd
    · unfold relayDraft at hd
      dsimp only at hd
      split at hd
      · cases hd
      · obtain rfl := Option.some.inj hd
        exact .inl ⟨_, rfl, zero_notMem_visible _⟩
      · obtain ⟨id, -, rfl⟩ := Option.map_eq_some_iff.1 hd
        exact .inl ⟨_, rfl, zero_notMem_visible _⟩
    · obtain ⟨ies, payload, -, rfl⟩ := setup_of_setupDraft hd
      exact .inl ⟨_, rfl, zero_notMem_visible _⟩

/-- So has what is read from a connection. -/
theorem addressed_readDrafts {reads : List SctpRead} {d : Draft} (hd : d ∈ s.readDrafts p reads) :
    d.Addressed := by
  induction reads generalizing s with
  | nil => cases hd
  | cons read reads ih =>
      cases read with
      | eintr => exact ih hd
      | eagain => cases hd
      | eof => exact addressed_failureDrafts hd
      | error => exact addressed_failureDrafts hd
      | message bytes decoded =>
          cases decoded with
          | none => cases hd
          | some pdu =>
              rcases List.mem_append.1 hd with hd | hd
              · exact addressed_messageDrafts hd
              · exact ih hd

/-- So has what a clearing announces. -/
theorem addressed_clearDrafts {keys : List Bytes} {d : Draft} (hd : d ∈ s.clearDrafts keys) :
    d.Addressed := by
  induction keys generalizing s with
  | nil => cases hd
  | cons key keys ih =>
      rcases List.mem_append.1 hd with hd | hd
      · split at hd
        · cases hd
        · split at hd
          · cases hd
          · exact addressed_failureDrafts hd
      · exact ih hd

/-- So has all that an event leads to. -/
theorem addressed_drafts {ka_message : Bytes} {e : RelayEvent} {d : Draft}
    (hd : d ∈ e.drafts ka_message s) : d.Addressed := by
  cases e with
  | data p reads =>
      rw [RelayEvent.drafts] at hd
      split at hd
      · exact addressed_readDrafts hd
      · cases hd
  | error p => exact addressed_failureDrafts hd
  | rmr m =>
      cases m with
      | keepAlive =>
          obtain rfl := List.mem_singleton.1 hd
          exact .inr rfl
      | clearAll order => exact addressed_clearDrafts hd
      | downlink enodbName messageType sent => cases hd
      | other => cases hd
  | accept hostName portNumber addToEpoll => cases hd
  | inotify => cases hd

/-- The words of the messages are those of their drafts, where no name was left in a buffer. -/
theorem Transcript.words {S : Surroundings} {clean : Prop} {n : Nat} {log : List Submission}
    {ds : List Draft} (h : Transcript S clean n log ds) (hclean : clean)
    (hds : ∀ d ∈ ds, d.Addressed) :
    log.filterMap Submission.word = ds.filterMap Draft.word := by
  induction h with
  | nil n => rfl
  | @cons n m d log ds hd _ ih =>
      have hword : m.word = d.word := by
        unfold Submission.word Draft.word
        rw [hd.written.mtype]
        rcases hds d List.mem_cons_self with ⟨name, hname, hzero⟩ | hmtype
        · obtain ⟨field, hfield, hclear⟩ := hd.written.meid name hname
          rw [hfield, S.nameIn_bytes2meid (hclear (.inl hclean)) hzero, hname]
          rfl
        · rw [hmtype]
          rfl
      rw [List.filterMap_cons, List.filterMap_cons, hword,
        ih fun d' hd' => hds d' (List.mem_cons_of_mem d hd')]

/-- **One round of the listener**: what it sends tells who is there. -/
theorem Relay.tells_round {S : Surroundings} (ka_message : Bytes) {r : Relay}
    (htidy : S.Tidy) (hblank : r.rmr.Blank) (hinv : Inv r.termination)
    (hown : Own identity r.termination) {e : RelayEvent}
    (hkeep : r.termination.keepsNames e.toEvent) (hone : e.OneIdentity identity) :
    ∃ sent, (r.round S ka_message e).rmr.log = r.rmr.log ++ sent ∧
      Tells r.termination (r.round S ka_message e).termination
        (sent.filterMap Submission.word) ∧
      (r.round S ka_message e).rmr.Blank ∧ Inv (r.round S ka_message e).termination ∧
      Own identity (r.round S ka_message e).termination := by
  obtain ⟨hterm, hsays⟩ := @Relay.round_spec S ka_message r e
  obtain ⟨sent, hlog, htranscript⟩ := hsays.log
  obtain ⟨htells, hown'⟩ := E2Term.tells_step hinv hown ka_message hkeep hone
  refine ⟨sent, hlog, ?_, hsays.blank htidy hblank, ?_, ?_⟩
  · rwa [htranscript.words ⟨htidy, hblank⟩ fun d => addressed_drafts, hterm]
  · rw [hterm]
    exact hinv.step e.toEvent hkeep
  · rwa [hterm]

end NearRtRic.E2Term
