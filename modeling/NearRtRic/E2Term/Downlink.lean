/-
# Where downlink messages go

A node that reconnects before its old association is given up has two connections
with one RAN name.  `Routed` says that a message for the name goes to the one of
them that completed its setup last.

`sctpMap` cannot keep that: a connection that is closed erases its name, whoever
is stored under it.  `routable` states when no event does harm: an identity is not
shorter than the name it replaces, a setup that is given up takes no name of
another open connection, and a connection is closed only when no other open one
has set up under its name.  `routed_of_reached` is the run theorem, `not_routed` the
run in which the old connection's end makes the new one unroutable.
-/

import NearRtRic.E2Term.Peers

namespace NearRtRic.E2Term

open CString

/-- The names under which a message completes a setup. -/
def completedNames : Pdu → List Bytes
  | .e2setup ies => if accepted ies then names ies else []
  | .other => []

/-- The setups that an event completes, the latest first. -/
def Event.completions : Event → List (Bytes × Nat)
  | .data p pdus _ => (pdus.flatMap completedNames).reverse.map fun n => (n, p)
  | _ => []

/-- The first entry for a name whose connection is open. -/
def latestIn (log : List (Bytes × Nat)) (isOpen : Nat → Bool) (n : Bytes) : Option Nat :=
  (log.find? fun c => c.1 = n && isOpen c.2).map (·.2)

/-- The listener, and the setups completed so far, the latest first. -/
structure Monitored where
  term : Termination
  completed : List (Bytes × Nat)

namespace Monitored

def start : Monitored := ⟨E2Term.start, []⟩

def step (m : Monitored) (e : Event) : Monitored :=
  ⟨m.term.step e, e.completions ++ m.completed⟩

def run (m : Monitored) (es : List Event) : Monitored := es.foldl step m

/-- Without `RIC_SCTP_CLEAR_ALL` a connection is closed exactly when its peer is freed. -/
def isOpen (m : Monitored) (p : Nat) : Bool := (m.term.peers p).isSome

/-- The open connection that completed a setup under a name last. -/
def latest (m : Monitored) (n : Bytes) : Option Nat := latestIn m.completed m.isOpen n

/-- **Downlink messages follow the latest setup.** -/
def Routed (m : Monitored) : Prop := ∀ n p, m.latest n = some p → m.term.sendsOn n = some p

/-- A setup names its connection once at most, by a name that is not shorter than the one it
replaces; if it is given up, no other open connection has that name. -/
def namesRoutable (m : Monitored) (p : Nat) : Pdu → Prop
  | .e2setup ies => ∀ n ∈ names ies, names ies = [n] ∧
      (∀ cu, m.term.peers p = some cu → (visible cu.enodbName).length ≤ n.length) ∧
      (accepted ies ∨ ∀ q, q ≠ p → m.isOpen q → (n, q) ∉ m.completed)
  | .other => True

/-- The monitor after one message of the connection `p`. -/
def read (m : Monitored) (p : Nat) (pdu : Pdu) : Monitored :=
  ⟨m.term.handlePdu p pdu, (completedNames pdu).reverse.map (fun n => (n, p)) ++ m.completed⟩

def allNamesRoutable (m : Monitored) (p : Nat) : List Pdu → Prop
  | [] => True
  | pdu :: pdus => m.namesRoutable p pdu ∧ (m.read p pdu).allNamesRoutable p pdus

/-- No other open connection has set up under the RAN name of `p`, nor under a name whose
latest setup is the one of `p`. -/
def closable (m : Monitored) (p : Nat) : Prop :=
  ∀ q, q ≠ p → m.isOpen q → ∀ n, (n, q) ∈ m.completed →
    (∀ cu, m.term.peers p = some cu → n ≠ visible cu.enodbName) ∧ m.latest n ≠ some p

/-- The condition on an event. -/
def routable (m : Monitored) : Event → Prop
  | .data p pdus done => m.isOpen p ∧ m.allNamesRoutable p pdus ∧
      (done → (pdus.foldl (fun m pdu => m.read p pdu) m).closable p)
  | .error p => m.isOpen p ∧ m.closable p
  | _ => True

/-- The states that accepts, setups, closes and errors, each routable, lead to. -/
inductive Reached : Monitored → Prop
  | start : Reached start
  | step {m : Monitored} (e : Event) :
      Reached m → e ≠ .rmr .clearAll → m.routable e → Reached (m.step e)

/-! ### The latest setup -/

variable {m : Monitored} {n : Bytes} {p : Nat} {cu : ConnectedCU}

/-- A connection is open while it has a record. -/
theorem isOpen_iff : m.isOpen p ↔ ∃ cu, m.term.peers p = some cu := Option.isSome_iff_exists

/-- The latest connection of a name has completed a setup, and is open. -/
theorem latest_mem (h : m.latest n = some p) : (n, p) ∈ m.completed ∧ m.isOpen p := by
  obtain ⟨⟨n', p'⟩, hfind, rfl⟩ := Option.map_eq_some_iff.1 h
  have hsome := List.find?_some hfind
  simp only [Bool.and_eq_true, decide_eq_true_eq] at hsome
  obtain ⟨rfl, hopen⟩ := hsome
  exact ⟨List.mem_of_find?_eq_some hfind, hopen⟩

/-- The latest is the first in the log that is open. -/
theorem latestIn_cons (c : Bytes × Nat) (log : List (Bytes × Nat)) (isOpen : Nat → Bool)
    (n : Bytes) : latestIn (c :: log) isOpen n =
      if c.1 = n ∧ isOpen c.2 then some c.2 else latestIn log isOpen n := by
  unfold latestIn
  rw [List.find?_cons]
  split
  · rename_i hc
    rw [if_pos (by simpa using hc)]
    rfl
  · rename_i hc
    rw [if_neg (by simpa using hc)]

/-- It depends on which of its connections are open only. -/
theorem latestIn_congr {log : List (Bytes × Nat)} {f g : Nat → Bool}
    (h : ∀ c ∈ log, f c.2 = g c.2) : latestIn log f n = latestIn log g n := by
  induction log with
  | nil => rfl
  | cons c log ih =>
      rw [latestIn_cons, latestIn_cons, h c List.mem_cons_self,
        ih fun c' hc' => h c' (List.mem_cons_of_mem c hc')]

/-- Closing a connection passes its names on to the next open connection. -/
theorem latestIn_close {log : List (Bytes × Nat)} {isOpen : Nat → Bool} {q : Nat}
    (h : latestIn log (fun q => decide (q ≠ p) && isOpen q) n = some q) :
    latestIn log isOpen n = some p ∨ latestIn log isOpen n = some q := by
  induction log with
  | nil => cases h
  | cons c log ih =>
      rw [latestIn_cons] at h ⊢
      by_cases hc : c.1 = n ∧ isOpen c.2
      · rw [if_pos hc]
        by_cases hcp : c.2 = p
        · exact .inl (congrArg some hcp)
        · rw [if_pos (by simpa [hcp] using hc)] at h
          exact .inr h
      · rw [if_neg hc]
        rw [if_neg (fun hc' => hc (by simp_all))] at h
        exact ih h

/-! ### The invariant -/

/-- `Routed`, with what is known of the connections and of the setups completed. -/
structure Inv (m : Monitored) : Prop where
  routed : ∀ n p, m.latest n = some p → m.term.sctpMap.lookup n = some p
  clean : ∀ {p cu}, m.term.peers p = some cu → Clean cu.enodbName
  not_connected : ∀ {p cu}, m.term.peers p = some cu → cu.isConnected = false
  fresh : ∀ {p}, m.term.next ≤ p → m.term.peers p = none
  logged : ∀ {n p}, (n, p) ∈ m.completed → IsName n ∧ p < m.term.next

/-- At the start no setup has been completed. -/
theorem Inv.start : Inv start where
  routed := nofun
  clean := nofun
  not_connected := nofun
  fresh := fun _ => rfl
  logged := nofun

/-- The records are in order. -/
theorem Inv.tidy (h : Inv m) : Termination.Tidy m.term.peers m.term.next :=
  ⟨h.clean, h.not_connected, h.fresh⟩

/-- RAN names have no NUL in them, so they are the keys they are looked up by. -/
theorem Inv.toRouted (h : Inv m) : Routed m := by
  intro n p hn
  have hname := (h.logged (latest_mem hn).1).1
  unfold Termination.sendsOn
  rw [visible_eq_self hname.no_nul]
  exact h.routed n p hn

/-- Writing the name field of an open connection, with a map and a log that stay routed. -/
theorem Inv.update (h : Inv m) (hp : m.term.peers p = some cu) {b : Bytes} (hb : Clean b)
    {sm : SctpMap} {log : List (Bytes × Nat)}
    (hlog : ∀ {n q}, (n, q) ∈ log → IsName n ∧ q < m.term.next)
    (hrouted : ∀ n q, latestIn log m.isOpen n = some q → sm.lookup n = some q) :
    Inv ⟨{ m.term with
      peers := Function.update m.term.peers p (some { cu with enodbName := b })
      sctpMap := sm }, log⟩ := by
  have hopen : ∀ q, (Function.update m.term.peers p (some { cu with enodbName := b }) q).isSome =
      m.isOpen q := by
    intro q
    by_cases hqp : q = p
    · subst hqp
      simp [isOpen, hp]
    · rw [Function.update_of_ne hqp]
      rfl
  have htidy := h.tidy.update hp hb
  refine ⟨fun n q hn => hrouted n q ?_, htidy.clean, htidy.not_connected, htidy.fresh, hlog⟩
  rw [← hn]
  exact congrArg (latestIn log · n) (funext fun q => (hopen q).symm)

/-- **One message that may be routed keeps the invariant**, and its connection open. -/
theorem Inv.read (h : Inv m) (hp : m.term.peers p = some cu) {pdu : Pdu}
    (hroute : m.namesRoutable p pdu) : Inv (m.read p pdu) := by
  cases pdu with
  | other => exact h
  | e2setup ies =>
      have hterm := Termination.handlePdu_e2setup hp ies
      unfold Termination.collectSetup at hterm
      have hcompleted :
          completedNames (.e2setup ies) = if accepted ies then names ies else [] := rfl
      unfold Monitored.read
      rw [hterm, hcompleted]
      cases hn : names ies with
      | nil =>
          rw [Termination.collectIes_of_names_nil _ hn, ite_self]
          exact h.update hp (Or.inl rfl) h.logged h.routed
      | cons n rest =>
          have hmem : n ∈ names ies := hn ▸ List.mem_cons_self
          obtain ⟨hone, hlen, habort⟩ := hroute n hmem
          obtain rfl : rest = [] := (List.cons.inj (hn.symm.trans hone)).2
          obtain ⟨b, hclean, rfl, hname, hrun⟩ :=
            Termination.collectIes_of_names_singleton (p := p) cu.enodbName m.term.sctpMap hn
          have hkey : visible (memcpy (visible b) cu.enodbName) = visible b :=
            visible_memcpy hname.no_nul (h.clean hp) (hlen cu hp)
          rw [hrun, hkey]
          cases hacc : accepted ies with
          | true =>
              -- the setup is completed: it is the latest, and it is in the map
              refine h.update hp hclean (fun {n q} hmem => ?_) fun n q hlatest => ?_
              · rcases List.mem_cons.1 hmem with heq | hmem
                · obtain ⟨rfl, rfl⟩ := Prod.mk.inj heq
                  exact ⟨hname, h.tidy.lt_next hp⟩
                · exact h.logged hmem
              · have hlatest :
                    latestIn ((visible b, p) :: m.completed) m.isOpen n = some q := hlatest
                rw [latestIn_cons] at hlatest
                split at hlatest
                · rename_i hc
                  obtain rfl := Option.some.inj hlatest
                  obtain rfl := hc.1
                  exact AList.lookup_insert _
                · rename_i hc
                  have hne : n ≠ visible b := by
                    rintro rfl
                    exact hc ⟨rfl, isOpen_iff.2 ⟨cu, hp⟩⟩
                  rw [AList.lookup_insert_ne hne]
                  exact h.routed n q hlatest
          | false =>
              -- it is given up after the map was written
              refine h.update hp hclean h.logged fun n q hlatest => ?_
              have hlatest : m.latest n = some q := hlatest
              by_cases hne : n = visible b
              · subst hne
                obtain ⟨hlogged, hqopen⟩ := latest_mem hlatest
                have hqp : q = p := by
                  by_contra hqp
                  rcases habort with hacc' | hnone
                  · rw [hacc] at hacc'
                    cases hacc'
                  · exact hnone q hqp hqopen hlogged
                subst hqp
                exact AList.lookup_insert _
              · rw [AList.lookup_insert_ne hne]
                exact h.routed n q hlatest

/-- The messages of one event, and what they complete. -/
theorem Inv.readAll (h : Inv m) (hp : m.isOpen p) {pdus : List Pdu}
    (hroute : m.allNamesRoutable p pdus) :
    Inv (pdus.foldl (fun m pdu => m.read p pdu) m) ∧
      (pdus.foldl (fun m pdu => m.read p pdu) m).isOpen p ∧
      pdus.foldl (fun m pdu => m.read p pdu) m =
        ⟨pdus.foldl (fun s pdu => s.handlePdu p pdu) m.term,
          ((pdus.flatMap completedNames).reverse.map fun n => (n, p)) ++ m.completed⟩ := by
  induction pdus generalizing m with
  | nil => exact ⟨h, hp, rfl⟩
  | cons pdu pdus ih =>
      obtain ⟨cu, hcu⟩ := isOpen_iff.1 hp
      obtain ⟨cu', hcu'⟩ := Termination.handlePdu_peers hcu pdu
      have hp' : (m.read p pdu).isOpen p := isOpen_iff.2 ⟨cu', hcu'⟩
      obtain ⟨hinv, hopen, heq⟩ := ih (h.read hcu hroute.1) hp' hroute.2
      refine ⟨hinv, hopen, heq.trans ?_⟩
      rw [List.flatMap_cons, List.reverse_append, List.map_append, List.append_assoc]
      rfl

/-- A connection that is closed: its peer is freed, and of the names only its own is erased,
beside a `host:` key. -/
theorem Inv.close (h : Inv m) (hp : m.term.peers p = some cu) (hclose : m.closable p)
    {s' : Termination} (hnext : s'.next = m.term.next)
    (hpeers : s'.peers = Function.update m.term.peers p none)
    (hmap : ∀ {n q}, m.term.sctpMap.lookup n = some q → n ≠ visible cu.enodbName →
      n ≠ Termination.hostKey cu → s'.sctpMap.lookup n = some q) :
    Inv ⟨s', m.completed⟩ := by
  have htidy : Termination.Tidy s'.peers s'.next := by
    rw [hpeers, hnext]
    exact h.tidy.free p
  have hopen : (fun q => (s'.peers q).isSome) = fun q => decide (q ≠ p) && m.isOpen q := by
    funext q
    rw [hpeers]
    by_cases hqp : q = p
    · subst hqp
      simp
    · rw [Function.update_of_ne hqp]
      simp [hqp, isOpen]
  refine ⟨fun n q hlatest => ?_, htidy.clean, htidy.not_connected, htidy.fresh,
    fun hmem => ⟨(h.logged hmem).1, hnext ▸ (h.logged hmem).2⟩⟩
  obtain ⟨hmem, hqopen⟩ := latest_mem hlatest
  have hqopen : (decide (q ≠ p) && m.isOpen q) = true :=
    (congrFun hopen q).symm.trans hqopen
  rw [Bool.and_eq_true, decide_eq_true_eq] at hqopen
  obtain ⟨hname, hother⟩ := hclose q hqopen.1 hqopen.2 n hmem
  have hlatest : latestIn m.completed (fun q => decide (q ≠ p) && m.isOpen q) n = some q := by
    rw [← hopen]
    exact hlatest
  rcases latestIn_close hlatest with hl | hl
  · exact absurd hl hother
  · refine hmap (h.routed n q hl) (hname cu hp) ?_
    -- a RAN name does not begin like a `host:` key
    rintro rfl
    exact (h.logged hmem).1.head_ne rfl

/-- An accepted connection completes no setup. -/
theorem Inv.accept (h : Inv m) (hostName : Bytes) (portNumber : Nat) (addToEpoll : Bool) :
    Inv ⟨m.term.accept hostName portNumber addToEpoll, m.completed⟩ := by
  unfold Termination.accept
  cases addToEpoll with
  | false => exact h
  | true =>
      rw [if_pos rfl]
      have htidy := h.tidy.accept hostName portNumber
      refine ⟨fun n q hlatest => h.routed n q ?_, htidy.clean, htidy.not_connected, htidy.fresh,
        fun hmem => ⟨(h.logged hmem).1, ?_⟩⟩
      · -- the new connection has completed nothing
        rw [← hlatest]
        have hold : ∀ c ∈ m.completed, m.isOpen c.2 = (Function.update m.term.peers m.term.next
            (some ⟨hostName, portNumber, [], false⟩) c.2).isSome := by
          intro c hc
          have hlt := (h.logged hc).2
          rw [Function.update_of_ne (by omega)]
          rfl
        exact latestIn_congr hold
      · have := (h.logged hmem).2
        dsimp only
        omega

/-- A downlink message leaves the connections and the map as they are. -/
theorem Inv.downlink (h : Inv m) (name : Bytes) (messageType : Nat) (sent : Bool) :
    Inv ⟨m.term.sendMessagetoCu name messageType sent, m.completed⟩ := by
  unfold Termination.sendMessagetoCu
  split
  · exact h
  · rename_i q hq
    unfold Termination.deref
    split
    · rename_i cu hcu
      dsimp only
      rw [h.not_connected hcu, if_pos (by simp)]
      exact h
    · exact ⟨h.routed, h.clean, h.not_connected, h.fresh, h.logged⟩

/-- **One event that is routable keeps the invariant.** -/
theorem Inv.step (h : Inv m) {e : Event} (hclear : e ≠ .rmr .clearAll) (hroute : m.routable e) :
    Inv (m.step e) := by
  cases e with
  | accept hostName portNumber addToEpoll => exact h.accept hostName portNumber addToEpoll
  | data p pdus done =>
      obtain ⟨hopen, hnames, hclose⟩ := hroute
      obtain ⟨cu, hcu⟩ := isOpen_iff.1 hopen
      obtain ⟨hinv, hopen', heq⟩ := h.readAll hopen hnames
      obtain ⟨cu', hcu'⟩ := isOpen_iff.1 hopen'
      have hrun : m.term.step (.data p pdus done) = if done then
          (pdus.foldl (fun s pdu => s.handlePdu p pdu) m.term).cleanHashEntry p
          else pdus.foldl (fun s pdu => s.handlePdu p pdu) m.term :=
        Termination.deref_of_live hcu _
      unfold Monitored.step
      rw [hrun]
      rw [heq] at hinv hcu' hclose
      cases done with
      | false => exact hinv
      | true =>
          have hclean := Termination.cleanHashEntry_of_live hcu'
          rw [if_pos rfl, hclean]
          refine hinv.close hcu' (hclose rfl) rfl rfl fun hn hname hhost => ?_
          exact Termination.lookup_erase_eq.2 ⟨hname, Termination.lookup_erase_eq.2 ⟨hhost, hn⟩⟩
  | error p =>
      obtain ⟨hopen, hclose⟩ := hroute
      obtain ⟨cu, hcu⟩ := isOpen_iff.1 hopen
      have hrun : m.term.step (.error p) =
          (m.term.erase (visible cu.enodbName)).cleanHashEntry p :=
        Termination.handlepoll_error_of_live hcu
      have hclean := Termination.cleanHashEntry_of_live
        (s := m.term.erase (visible cu.enodbName)) hcu
      unfold Monitored.step
      rw [hrun, hclean]
      refine h.close hcu hclose rfl rfl fun hn hname hhost => ?_
      exact Termination.lookup_erase_eq.2 ⟨hname, Termination.lookup_erase_eq.2
        ⟨hhost, Termination.lookup_erase_eq.2 ⟨hname, hn⟩⟩⟩
  | rmr msg =>
      cases msg with
      | clearAll => exact absurd rfl hclear
      | downlink name messageType sent => exact h.downlink name messageType sent
      | other => exact h
  | inotify => exact h

/-- **Downlink messages follow the latest setup** in a run whose events are routable. -/
theorem routed_of_reached (h : Reached m) : Routed m := by
  have hinv : Inv m := by
    induction h with
    | start => exact Inv.start
    | step e _ hclear hroute ih => exact ih.step hclear hroute
  exact hinv.toRouted

/-- Two connections set up under one name: messages go to the second. -/
theorem routed_of_reached_reconnect :
    Routed (start.run [.accept (ascii "10.0.2.101") 36422 true,
      .accept (ascii "10.0.2.101") 36423 true,
      .data 0 [.e2setup [.globalE2nodeID Termination.gnbA]] false,
      .data 1 [.e2setup [.globalE2nodeID Termination.gnbA]] false]) := by
  have hroute : ∀ (m : Monitored) (p : Nat),
      (∀ cu, m.term.peers p = some cu → cu.enodbName = []) →
      m.namesRoutable p (.e2setup [.globalE2nodeID Termination.gnbA]) := by
    intro m p hnew n hn
    have hnames : names [.globalE2nodeID Termination.gnbA] = [ascii "gnb:208-092-b5c67711"] := by
      decide
    rw [hnames] at hn ⊢
    obtain rfl := List.mem_singleton.1 hn
    refine ⟨rfl, fun cu hcu => ?_, .inl (by decide)⟩
    rw [hnew cu hcu]
    exact Nat.zero_le _
  refine routed_of_reached (.step (.data 1 [.e2setup [_]] false)
    (.step (.data 0 [.e2setup [_]] false)
      (.step (.accept _ 36423 true) (.step (.accept _ 36422 true) .start nofun trivial) nofun
        trivial)
      nofun ⟨rfl, ⟨hroute _ _ ?_, trivial⟩, nofun⟩)
    nofun ⟨by decide +kernel, ⟨hroute _ _ ?_, trivial⟩, nofun⟩)
  · rintro cu hcu
    obtain rfl : (⟨ascii "10.0.2.101", 36422, [], false⟩ : ConnectedCU) = cu :=
      Option.some.inj hcu
    rfl
  · rintro cu hcu
    obtain rfl : (⟨ascii "10.0.2.101", 36423, [], false⟩ : ConnectedCU) = cu :=
      Option.some.inj hcu
    rfl

/-- **A node that reconnects before its old connection ends** is not reachable once that
one is closed. -/
theorem not_routed :
    ¬ Routed (start.run [.accept (ascii "10.0.2.101") 36422 true,
      .accept (ascii "10.0.2.101") 36423 true,
      .data 0 [.e2setup [.globalE2nodeID Termination.gnbA]] false,
      .data 1 [.e2setup [.globalE2nodeID Termination.gnbA]] false, .data 0 [] true]) := by
  intro h
  have hsent := h (ascii "gnb:208-092-b5c67711") 1 (by decide +kernel)
  revert hsent
  decide +kernel

end Monitored

end NearRtRic.E2Term
