/-
# The peers that `sctpMap` refers to

`Sound` is what the map owes to the rest of the listener: the peers stored in it
are allocated, each under the name in its `enodbName` only, and none is read or
freed after it was freed.

A setup that is repeated on a connection breaks it.  `collectSetup` clears the
connection's name and stores the connection under the new one, without taking
it out from under the old one; the close that follows erases the new name alone,
and the old one keeps a freed peer.  `keepsName` is the condition under which
that cannot happen, `sound_of_reached` the run theorem and `not_sound` a run of
the listener as it is.
-/

import NearRtRic.E2Term.Listener

namespace NearRtRic.E2Term

open CString

/-- The RAN names that a setup stores the connection under: those of its usable
identities, up to the element that ends the loop. -/
def names : List SetupIe → List Bytes
  | [] => []
  | .globalE2nodeID id :: ies => (ranName id).elim [] fun n => n :: names ies
  | .ranFunctions decodes :: ies => if decodes then names ies else []
  | .other :: ies => names ies

/-- Whether the loop runs to the end of the elements. -/
def accepted : List SetupIe → Bool
  | [] => true
  | .globalE2nodeID id :: ies => (ranName id).isSome && accepted ies
  | .ranFunctions decodes :: ies => decodes && accepted ies
  | .other :: ies => accepted ies

namespace Termination

/-- Every value stored in `sctpMap` is allocated, and stored under its own name only;
nothing was used after it was freed. -/
structure Sound (s : Termination) : Prop where
  stored_live : ∀ {n p}, s.sctpMap.lookup n = some p → (s.peers p).isSome
  name_eq : ∀ {n p cu}, s.peers p = some cu → s.sctpMap.lookup n = some p →
    n = visible cu.enodbName
  no_fault : s.fault = false

/-- States that are reached from the start by events that meet a condition. -/
inductive Reached (cond : Termination → Event → Prop) : Termination → Prop
  | start : Reached cond start
  | step {s : Termination} (e : Event) : Reached cond s → cond s e → Reached cond (s.step e)

/-! ### What the operations do -/

variable {s : Termination} {p : Nat} {cu : ConnectedCU}

/-- An access through a pointer to a live record. -/
theorem deref_of_live (h : s.peers p = some cu) (k : ConnectedCU → Termination) :
    s.deref p k = k cu := by
  rw [deref, h]

/-- What is stored after a name was erased. -/
theorem lookup_erase_eq {m : SctpMap} {key n : Bytes} {q : Nat} :
    (m.erase key).lookup n = some q ↔ n ≠ key ∧ m.lookup n = some q := by
  by_cases hn : n = key
  · subst hn
    rw [AList.lookup_erase]
    exact ⟨nofun, fun h => absurd rfl h.1⟩
  · rw [AList.lookup_erase_ne hn]
    exact ⟨fun h => ⟨hn, h⟩, fun h => h.2⟩

/-- What is stored after a name was inserted. -/
theorem lookup_insert_eq {m : SctpMap} {key n : Bytes} {q : Nat} :
    (m.insert key p).lookup n = some q ↔ n = key ∧ q = p ∨ n ≠ key ∧ m.lookup n = some q := by
  by_cases hn : n = key
  · subst hn
    rw [AList.lookup_insert]
    constructor
    · exact fun h => .inl ⟨rfl, (Option.some.inj h).symm⟩
    · rintro (⟨-, rfl⟩ | ⟨hne, -⟩)
      · rfl
      · exact absurd rfl hne
  · rw [AList.lookup_insert_ne hn]
    constructor
    · exact fun h => .inr ⟨hn, h⟩
    · rintro (⟨heq, -⟩ | ⟨-, h⟩)
      · exact absurd heq hn
      · exact h

/-- The records after one was written. -/
theorem peers_update_eq {peers : Nat → Option ConnectedCU} {x : Option ConnectedCU} {q : Nat} :
    Function.update peers p x q = some cu ↔ q = p ∧ x = some cu ∨ q ≠ p ∧ peers q = some cu := by
  rw [Function.update_apply]
  by_cases hqp : q = p
  · simp [hqp]
  · simp [hqp]

/-- `cleanHashEntry` of a live record erases both names it may be stored under, and frees it. -/
theorem cleanHashEntry_of_live (h : s.peers p = some cu) :
    s.cleanHashEntry p = { s with
      peers := Function.update s.peers p none
      sctpMap := (s.sctpMap.erase (hostKey cu)).erase (visible cu.enodbName) } := by
  rw [cleanHashEntry, deref_of_live h]
  exact deref_of_live (s := (s.erase (hostKey cu)).erase (visible cu.enodbName)) h _

/-- An error on a live connection erases its name and cleans up. -/
theorem handlepoll_error_of_live (h : s.peers p = some cu) :
    s.handlepoll_error p = (s.erase (visible cu.enodbName)).cleanHashEntry p :=
  deref_of_live h _

/-- A message that goes to a live record, with its connection made, leaves the state as it is. -/
theorem sendMessagetoCu_of_live {name : Bytes} (messageType : Nat) (sent : Bool)
    (hlive : ∀ q, s.sendsOn name = some q →
      ∃ cu, s.peers q = some cu ∧ cu.isConnected = false) :
    s.sendMessagetoCu name messageType sent = s := by
  unfold sendMessagetoCu
  split
  · rfl
  · rename_i q hq
    obtain ⟨cu, hcu, hcon⟩ := hlive q hq
    rw [deref_of_live hcu, hcon, if_pos (by simp)]

/-- An E2 setup request leaves the name that it comes to in the record, and what it stored. -/
theorem handlePdu_e2setup (h : s.peers p = some cu) (ies : List SetupIe) :
    s.handlePdu p (.e2setup ies) = { s with
      peers := Function.update s.peers p
        (some { cu with enodbName := (s.collectSetup p cu ies).1.enodbName })
      sctpMap := (s.collectSetup p cu ies).1.sctpMap } :=
  deref_of_live h _

/-- A setup whose identities are all unusable, or behind the element that ends the
loop, leaves the cleared name and the map. -/
theorem collectIes_of_names_nil (r : Setup) {ies : List SetupIe} (h : names ies = []) :
    collectIes p r ies = (r, accepted ies) := by
  induction ies with
  | nil => rfl
  | cons ie ies ih =>
      cases ie with
      | globalE2nodeID id =>
          unfold names at h
          cases hname : ranName id with
          | none =>
              unfold collectIes accepted
              rw [(buildRanName_eq_none r.enodbName).2 hname, hname]
              rfl
          | some n =>
              rw [hname] at h
              cases h
      | ranFunctions decodes =>
          unfold names at h
          unfold collectIes accepted
          cases decodes with
          | true => rw [if_pos rfl, Bool.true_and, ih h]
          | false => rfl
      | other => exact ih h

/-- **What a setup with one usable identity does**: the connection takes its name, and
the map the name laid over the connection's old one. -/
theorem collectIes_of_names_singleton (old : Bytes) (m : SctpMap) {ies : List SetupIe} {n : Bytes}
    (h : names ies = [n]) :
    ∃ b, Clean b ∧ visible b = n ∧ IsName n ∧
      collectIes p ⟨[], old, m⟩ ies =
        (⟨b, memcpy n old, m.insert (visible (memcpy n old)) p⟩, accepted ies) := by
  induction ies with
  | nil => cases h
  | cons ie ies ih =>
      cases ie with
      | globalE2nodeID id =>
          unfold names at h
          cases hname : ranName id with
          | none =>
              rw [hname] at h
              cases h
          | some n' =>
              rw [hname] at h
              obtain ⟨rfl, hnil⟩ := List.cons.inj h
              obtain ⟨b, hb, rfl⟩ := Option.map_eq_some_iff.1 hname
              obtain ⟨hclean, hisname⟩ := buildRanName_nil hb
              refine ⟨b, hclean, rfl, hisname, ?_⟩
              unfold collectIes accepted
              rw [hb, hname]
              exact collectIes_of_names_nil _ hnil
      | ranFunctions decodes =>
          unfold names at h
          unfold collectIes accepted
          cases decodes with
          | true => exact ih h
          | false => cases h
      | other => exact ih h

/-! ### The invariant -/

/-- What the peers have whatever the map says. -/
structure Tidy (peers : Nat → Option ConnectedCU) (next : Nat) : Prop where
  clean : ∀ {p cu}, peers p = some cu → Clean cu.enodbName
  not_connected : ∀ {p cu}, peers p = some cu → cu.isConnected = false
  fresh : ∀ {p}, next ≤ p → peers p = none

section

variable {peers : Nat → Option ConnectedCU} {next : Nat}

/-- A peer that is allocated has a number that was given. -/
theorem Tidy.lt_next (h : Tidy peers next) (hp : peers p = some cu) : p < next := by
  by_contra hlt
  rw [h.fresh (by omega)] at hp
  cases hp

/-- The name field of a peer is written. -/
theorem Tidy.update (h : Tidy peers next) (hp : peers p = some cu) {b : Bytes} (hb : Clean b) :
    Tidy (Function.update peers p (some { cu with enodbName := b })) next where
  clean hq := by
    rcases peers_update_eq.1 hq with ⟨-, heq⟩ | ⟨-, hq⟩
    · obtain rfl := Option.some.inj heq
      exact hb
    · exact h.clean hq
  not_connected hq := by
    rcases peers_update_eq.1 hq with ⟨-, heq⟩ | ⟨-, hq⟩
    · obtain rfl := Option.some.inj heq
      have hcon := h.not_connected hp
      exact hcon
    · exact h.not_connected hq
  fresh {q} hq := by
    have hlt := h.lt_next hp
    rw [Function.update_of_ne (by omega)]
    exact h.fresh hq

/-- The records without one of them. -/
theorem Tidy.free (h : Tidy peers next) (p : Nat) : Tidy (Function.update peers p none) next where
  clean hq := by
    rcases peers_update_eq.1 hq with ⟨-, heq⟩ | ⟨-, hq⟩
    · cases heq
    · exact h.clean hq
  not_connected hq := by
    rcases peers_update_eq.1 hq with ⟨-, heq⟩ | ⟨-, hq⟩
    · cases heq
    · exact h.not_connected hq
  fresh {q} hq := by
    rw [Function.update_apply]
    split
    · rfl
    · exact h.fresh hq

/-- The records with a new one. -/
theorem Tidy.accept (h : Tidy peers next) (hostName : Bytes) (portNumber : Nat) :
    Tidy (Function.update peers next (some ⟨hostName, portNumber, [], false⟩)) (next + 1) where
  clean hq := by
    rcases peers_update_eq.1 hq with ⟨-, heq⟩ | ⟨-, hq⟩
    · obtain rfl := Option.some.inj heq
      exact .inl rfl
    · exact h.clean hq
  not_connected hq := by
    rcases peers_update_eq.1 hq with ⟨-, heq⟩ | ⟨-, hq⟩
    · obtain rfl := Option.some.inj heq
      rfl
    · exact h.not_connected hq
  fresh {q} hq := by
    rw [Function.update_of_ne (by omega)]
    exact h.fresh (by omega)

end

/-- `Sound`, with what the listener's other operations keep besides: name fields are
clean, no connection is marked as connected, and the next number is not in use. -/
structure Inv (s : Termination) : Prop extends Sound s where
  clean : ∀ {p cu}, s.peers p = some cu → Clean cu.enodbName
  not_connected : ∀ {p cu}, s.peers p = some cu → cu.isConnected = false
  fresh : ∀ {p}, s.next ≤ p → s.peers p = none

/-- A setup keeps the name of a connection that is stored, and gives any other
connection one name at most, which is not shorter than the one it had. -/
def keepsName (s : Termination) (p : Nat) : Pdu → Prop
  | .e2setup ies =>
      (∀ n, s.sctpMap.lookup n = some p → names ies = [n]) ∧
      ∀ cu, s.peers p = some cu → ∀ n ∈ names ies,
        names ies = [n] ∧ (visible cu.enodbName).length ≤ n.length
  | .other => True

/-- Every message that is read keeps names, at the point where it is handled. -/
def allKeepNames (s : Termination) (p : Nat) : List Pdu → Prop
  | [] => True
  | pdu :: pdus => s.keepsName p pdu ∧ (s.handlePdu p pdu).allKeepNames p pdus

/-- The condition on an event: it is not about a connection that is freed already, and its
setups keep names. -/
def keepsNames (s : Termination) : Event → Prop
  | .data p pdus _ => (s.peers p).isSome ∧ s.allKeepNames p pdus
  | .error p => (s.peers p).isSome
  | _ => True

/-- At the start there is no record. -/
theorem Inv.start : Inv start where
  stored_live := nofun
  name_eq := nofun
  no_fault := rfl
  clean := nofun
  not_connected := nofun
  fresh := fun _ => rfl

/-- The records of a state in order are in order. -/
theorem Inv.tidy (h : Inv s) : Tidy s.peers s.next := ⟨h.clean, h.not_connected, h.fresh⟩

/-- No name is stored for a record yet to come. -/
theorem Inv.next_notStored (h : Inv s) (n : Bytes) : s.sctpMap.lookup n ≠ some s.next := by
  intro hn
  have hlive := h.stored_live hn
  rw [h.fresh (le_refl _)] at hlive
  cases hlive

/-- Changing one live peer, and the map about it alone. -/
theorem Inv.update (h : Inv s) (hp : s.peers p = some cu) {b : Bytes} {m : SctpMap} (hb : Clean b)
    (hother : ∀ {n q}, q ≠ p → m.lookup n = some q → s.sctpMap.lookup n = some q)
    (hself : ∀ {n}, m.lookup n = some p → n = visible b) :
    Inv { s with peers := Function.update s.peers p (some { cu with enodbName := b })
                 sctpMap := m } := by
  have htidy := h.tidy.update hp hb
  refine ⟨⟨fun {n q} hn => ?_, fun {n q cu'} hq hn => ?_, h.no_fault⟩, htidy.clean,
    htidy.not_connected, htidy.fresh⟩
  · by_cases hqp : q = p
    · subst hqp
      simp
    · simpa [Function.update_of_ne hqp] using h.stored_live (hother hqp hn)
  · rcases peers_update_eq.1 hq with ⟨rfl, heq⟩ | ⟨hqp, hq⟩
    · obtain rfl := Option.some.inj heq
      exact hself hn
    · exact h.name_eq hq (hother hqp hn)

/-- A setup that keeps the name of its connection keeps the invariant. -/
theorem Inv.handlePdu (h : Inv s) (hp : s.peers p = some cu) {pdu : Pdu}
    (hkeep : s.keepsName p pdu) : Inv (s.handlePdu p pdu) := by
  cases pdu with
  | other => exact h
  | e2setup ies =>
      obtain ⟨hstored, hnames⟩ := hkeep
      rw [handlePdu_e2setup hp]
      unfold collectSetup
      cases hn : names ies with
      | nil =>
          rw [collectIes_of_names_nil _ hn]
          refine h.update hp (Or.inl rfl) (fun _ hm => hm) fun {n} hm => ?_
          have := hstored n hm
          rw [hn] at this
          cases this
      | cons n rest =>
          have hmem : n ∈ names ies := hn ▸ List.mem_cons_self
          obtain ⟨hone, hlen⟩ := hnames cu hp n hmem
          obtain ⟨b, hclean, rfl, hname, hrun⟩ := collectIes_of_names_singleton (p := p)
            cu.enodbName s.sctpMap hone
          rw [hrun]
          have hkey : visible (memcpy (visible b) cu.enodbName) = visible b :=
            visible_memcpy hname.no_nul (h.clean hp) hlen
          rw [hkey]
          refine h.update hp hclean (fun {n q} hqp hm => ?_) fun {n} hm => ?_
          · rcases lookup_insert_eq.1 hm with ⟨-, rfl⟩ | ⟨-, hm⟩
            · exact absurd rfl hqp
            · exact hm
          · rcases lookup_insert_eq.1 hm with ⟨rfl, -⟩ | ⟨-, hm⟩
            · rfl
            · have := hstored n hm
              rw [hone] at this
              exact (List.cons.inj this).1.symm

/-- Handling a message leaves the connection it came on allocated. -/
theorem handlePdu_peers (hp : s.peers p = some cu) (pdu : Pdu) :
    ∃ cu', (s.handlePdu p pdu).peers p = some cu' := by
  cases pdu with
  | other => exact ⟨cu, hp⟩
  | e2setup ies =>
      rw [handlePdu_e2setup hp]
      exact ⟨_, Function.update_self ..⟩

/-- The messages of a read keep the state in order, and the record live. -/
theorem Inv.handlePdus (h : Inv s) (hp : s.peers p = some cu) {pdus : List Pdu}
    (hkeep : s.allKeepNames p pdus) :
    Inv (pdus.foldl (fun s pdu => s.handlePdu p pdu) s) ∧
      ∃ cu', (pdus.foldl (fun s pdu => s.handlePdu p pdu) s).peers p = some cu' := by
  induction pdus generalizing s cu with
  | nil => exact ⟨h, cu, hp⟩
  | cons pdu pdus ih =>
      obtain ⟨cu', hp'⟩ := handlePdu_peers hp pdu
      exact ih (h.handlePdu hp hkeep.1) hp' hkeep.2

/-- To erase a name keeps it in order. -/
theorem Inv.erase (h : Inv s) (key : Bytes) : Inv (s.erase key) where
  stored_live hn := h.stored_live (lookup_erase_eq.1 hn).2
  name_eq hp hn := h.name_eq hp (lookup_erase_eq.1 hn).2
  no_fault := h.no_fault
  clean := h.clean
  not_connected := h.not_connected
  fresh := h.fresh

/-- A live peer is freed when its name has been erased. -/
theorem Inv.cleanHashEntry (h : Inv s) (hp : s.peers p = some cu) : Inv (s.cleanHashEntry p) := by
  rw [cleanHashEntry_of_live hp]
  have htidy := h.tidy.free p
  refine ⟨⟨fun {n q} hn => ?_, fun {n q cu'} hq hn => ?_, h.no_fault⟩, htidy.clean,
    htidy.not_connected, htidy.fresh⟩
  · obtain ⟨hne, hrest⟩ := lookup_erase_eq.1 hn
    obtain ⟨-, hbefore⟩ := lookup_erase_eq.1 hrest
    have hqp : q ≠ p := by
      rintro rfl
      exact hne (h.name_eq hp hbefore)
    simpa [Function.update_of_ne hqp] using h.stored_live hbefore
  · obtain ⟨-, hn⟩ := lookup_erase_eq.1 hn
    rcases peers_update_eq.1 hq with ⟨-, heq⟩ | ⟨-, hq⟩
    · cases heq
    · exact h.name_eq hq (lookup_erase_eq.1 hn).2

/-- So does to accept a connection. -/
theorem Inv.accept (h : Inv s) (hostName : Bytes) (portNumber : Nat) (addToEpoll : Bool) :
    Inv (s.accept hostName portNumber addToEpoll) := by
  unfold Termination.accept
  cases addToEpoll with
  | false => exact h
  | true =>
      have hne : ∀ {n q}, s.sctpMap.lookup n = some q → q ≠ s.next := by
        rintro n q hn rfl
        exact h.next_notStored n hn
      have htidy := h.tidy.accept hostName portNumber
      rw [if_pos rfl]
      refine ⟨⟨fun {n q} hn => ?_, fun {n q cu'} hq hn => ?_, h.no_fault⟩, htidy.clean,
        htidy.not_connected, htidy.fresh⟩
      · simpa [Function.update_of_ne (hne hn)] using h.stored_live hn
      · exact h.name_eq ((Function.update_of_ne (hne hn) _ _).symm.trans hq) hn

/-- **What `RIC_SCTP_CLEAR_ALL` frees.**  As long as the keys refer to live and to
different peers, the loop over them uses no peer after it was freed, and frees some
of those that were allocated. -/
theorem clearKeys_spec {keys : List Bytes} (hnodup : keys.Nodup)
    (hlive : ∀ k ∈ keys, ∀ p, s.sctpMap.lookup k = some p → (s.peers p).isSome)
    (hinj : ∀ k ∈ keys, ∀ k' ∈ keys, ∀ p, s.sctpMap.lookup k = some p →
      s.sctpMap.lookup k' = some p → k = k')
    (hfault : s.fault = false) :
    (keys.foldl clearKey s).fault = false ∧ (keys.foldl clearKey s).next = s.next ∧
      ∀ q, (keys.foldl clearKey s).peers q = s.peers q ∨
        (keys.foldl clearKey s).peers q = none := by
  induction keys generalizing s with
  | nil => exact ⟨hfault, rfl, fun q => .inl rfl⟩
  | cons k keys ih =>
      obtain ⟨hk, hnodup⟩ := List.nodup_cons.1 hnodup
      rw [List.foldl_cons]
      -- one key either frees nothing or the live peer it refers to
      have hstep : s.clearKey k = s ∨ ∃ p, s.sctpMap.lookup k = some p ∧
          s.clearKey k = { s with peers := Function.update s.peers p none } := by
        unfold clearKey
        split
        · exact .inl rfl
        · split
          · exact .inl rfl
          · rename_i p hp
            obtain ⟨cu, hcu⟩ := Option.isSome_iff_exists.1 (hlive k List.mem_cons_self p hp)
            exact .inr ⟨p, hp, deref_of_live hcu _⟩
      rcases hstep with heq | ⟨p, hp, heq⟩
      · rw [heq]
        exact ih hnodup (fun k' hk' => hlive k' (List.mem_cons_of_mem k hk'))
          (fun k₁ h₁ k₂ h₂ =>
            hinj k₁ (List.mem_cons_of_mem k h₁) k₂ (List.mem_cons_of_mem k h₂)) hfault
      · rw [heq]
        have hother : ∀ k' ∈ keys, ∀ q, s.sctpMap.lookup k' = some q → q ≠ p := by
          rintro k' hk' q hq rfl
          have := hinj k List.mem_cons_self k' (List.mem_cons_of_mem k hk') q hp hq
          exact hk (this ▸ hk')
        obtain ⟨hf, hnext, hpeers⟩ := ih (s := { s with peers := Function.update s.peers p none })
          hnodup
          (fun k' hk' q hq => by
            simpa [Function.update_of_ne (hother k' hk' q hq)] using
              hlive k' (List.mem_cons_of_mem k hk') q hq)
          (fun k₁ h₁ k₂ h₂ =>
            hinj k₁ (List.mem_cons_of_mem k h₁) k₂ (List.mem_cons_of_mem k h₂)) hfault
        refine ⟨hf, hnext, fun q => ?_⟩
        rcases hpeers q with hq | hq
        · by_cases hqp : q = p
          · subst hqp
            exact .inr (hq.trans (Function.update_self ..))
          · exact .inl (hq.trans (Function.update_of_ne hqp _ _))
        · exact .inr hq

/-- So does to clear all names. -/
theorem Inv.clearAll (h : Inv s) : Inv s.clearAll := by
  obtain ⟨hfault, hnext, hpeers⟩ := clearKeys_spec (s := s) s.sctpMap.keys_nodup
    (fun k _ p hp => h.stored_live hp)
    (fun k _ k' _ p hp hp' => by
      obtain ⟨cu, hcu⟩ := Option.isSome_iff_exists.1 (h.stored_live hp)
      exact (h.name_eq hcu hp).trans (h.name_eq hcu hp').symm)
    h.no_fault
  have hold : ∀ {q cu'}, s.clearAll.peers q = some cu' → s.peers q = some cu' := by
    intro q cu' hq
    rcases hpeers q with heq | heq
    · exact heq.symm.trans hq
    · cases heq.symm.trans hq
  have hempty : ∀ {n q}, s.clearAll.sctpMap.lookup n ≠ some q := by
    intro n q hn
    have : (∅ : SctpMap).lookup n = some q := hn
    rw [AList.lookup_empty] at this
    cases this
  refine ⟨⟨fun hn => absurd hn hempty, fun _ hn => absurd hn hempty, hfault⟩,
    fun hq => h.clean (hold hq), fun hq => h.not_connected (hold hq), fun {q} hq => ?_⟩
  have hq : s.next ≤ q := hnext ▸ hq
  rcases hpeers q with heq | heq
  · exact heq.trans (h.fresh hq)
  · exact heq

/-! ### Runs -/

/-- **One event that meets the condition keeps the invariant.** -/
theorem Inv.step (h : Inv s) (e : Event) (hkeep : s.keepsNames e) : Inv (s.step e) := by
  cases e with
  | accept hostName portNumber addToEpoll => exact h.accept hostName portNumber addToEpoll
  | data p pdus done =>
      obtain ⟨hlive, hkeep⟩ := hkeep
      obtain ⟨cu, hcu⟩ := Option.isSome_iff_exists.1 hlive
      obtain ⟨hinv, cu', hcu'⟩ := h.handlePdus hcu hkeep
      have hrun : s.step (.data p pdus done) = if done then
          (pdus.foldl (fun s pdu => s.handlePdu p pdu) s).cleanHashEntry p
          else pdus.foldl (fun s pdu => s.handlePdu p pdu) s := deref_of_live hcu _
      rw [hrun]
      split
      · exact hinv.cleanHashEntry hcu'
      · exact hinv
  | error p =>
      obtain ⟨cu, hcu⟩ := Option.isSome_iff_exists.1 hkeep
      have hrun : s.step (.error p) = (s.erase (visible cu.enodbName)).cleanHashEntry p :=
        handlepoll_error_of_live hcu
      rw [hrun]
      exact (h.erase _).cleanHashEntry hcu
  | rmr m =>
      cases m with
      | clearAll => exact h.clearAll
      | downlink name messageType sent =>
          have hrun : s.step (.rmr (.downlink name messageType sent)) = s :=
            sendMessagetoCu_of_live messageType sent fun q hq => by
              obtain ⟨cu, hcu⟩ := Option.isSome_iff_exists.1 (h.stored_live hq)
              exact ⟨cu, hcu, h.not_connected hcu⟩
          rw [hrun]
          exact h
      | other => exact h
  | inotify => exact h

/-- **`sctpMap` never refers to a freed peer** in a run whose events keep names. -/
theorem sound_of_reached (h : Reached keepsNames s) : Sound s := by
  have hinv : Inv s := by
    induction h with
    | start => exact Inv.start
    | step e _ hkeep ih => exact ih.step e hkeep
  exact hinv.toSound

/-- The identities of two gNBs. -/
def gnbA : GlobalE2nodeID := .gNB ⟨0x02, 0xf8, 0x29⟩ (some [0xb5, 0xc6, 0x77, 0x11])

def gnbB : GlobalE2nodeID := .gNB ⟨0x02, 0xf8, 0x29⟩ (some [0xb5, 0xc6, 0x77, 0x22])

/-- A connection is accepted, sets up and is closed. -/
theorem sound_of_reached_setup :
    Sound (start.run [.accept (ascii "10.0.2.101") 36422 true,
      .data 0 [.e2setup [.globalE2nodeID gnbA]] false, .data 0 [] true]) := by
  refine sound_of_reached (.step (.data 0 [] true) (.step (.data 0 [.e2setup [_]] false)
    (.step (.accept (ascii "10.0.2.101") 36422 true) .start trivial) ⟨rfl, ⟨?_, ?_⟩, trivial⟩)
    ⟨?_, trivial⟩)
  · decide +kernel
  · intro n hn
    cases hn
  · rintro cu hcu n hn
    obtain rfl : (⟨ascii "10.0.2.101", 36422, [], false⟩ : ConnectedCU) = cu :=
      Option.some.inj hcu
    have hnames : names [.globalE2nodeID gnbA] = [ascii "gnb:208-092-b5c67711"] := by decide
    rw [hnames] at hn ⊢
    obtain rfl := List.mem_singleton.1 hn
    exact ⟨rfl, Nat.zero_le _⟩

/-- **A node that sets up twice, with different identities, and disconnects** leaves a
freed peer in the map, under the first name. -/
theorem not_sound :
    ¬ Sound (start.run [.accept (ascii "10.0.2.101") 36422 true,
      .data 0 [.e2setup [.globalE2nodeID gnbA]] false,
      .data 0 [.e2setup [.globalE2nodeID gnbB]] false, .data 0 [] true]) := by
  intro h
  have hlive := h.stored_live (n := ascii "gnb:208-092-b5c67711") (p := 0) (by decide +kernel)
  revert hlive
  decide +kernel

end Termination

end NearRtRic.E2Term
