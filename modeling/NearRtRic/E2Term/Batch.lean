/-
# The events of one epoll batch

`epoll_wait` returns several events at once, each with the address of the peer it is
about, and the listener handles them in order.  A peer that is freed in between is
still referred to by the events behind.

`step_frees` finds the two ways in which an event frees a peer: it is about that
peer, or it is a `RIC_SCTP_CLEAR_ALL`, which frees all that are stored under a RAN
name.  A batch has one event for a connection at most, so the first way does no
harm; `noStale_iff` says that the second is exactly what does.
-/

import NearRtRic.E2Term.Peers

namespace NearRtRic.E2Term

open CString

/-- The peer in an event's data pointer, which its handling reads. -/
def Event.peer? : Event → Option Nat
  | .data p _ _ => some p
  | .error p => some p
  | _ => none

/-- A key that `RIC_SCTP_CLEAR_ALL` goes through. -/
def cleared (key : Bytes) : Bool :=
  !((ascii "host:").isPrefixOf key || (ascii "msg:").isPrefixOf key)

namespace Termination

/-- What `epoll_wait` returns: events of registered connections, one for each at most. -/
structure Batch (s : Termination) (es : List Event) : Prop where
  nodup : (es.filterMap Event.peer?).Nodup
  live : ∀ e ∈ es, ∀ p, e.peer? = some p → (s.peers p).isSome

/-- No event of the batch frees a peer that an event behind it refers to. -/
def NoStale (s : Termination) (es : List Event) : Prop :=
  ∀ pre e post, es = pre ++ e :: post → ∀ p, ((s.run pre).peers p).isSome →
    (s.run (pre ++ [e])).peers p = none → ∀ e' ∈ post, e'.peer? ≠ some p

/-- Behind a `RIC_SCTP_CLEAR_ALL` there is no event of a connection that is stored under
a RAN name when it is handled. -/
def NoneCleared (s : Termination) (es : List Event) : Prop :=
  ∀ pre post, es = pre ++ .rmr .clearAll :: post → ∀ e' ∈ post, ∀ p, e'.peer? = some p →
    ∀ n, (s.run pre).sctpMap.lookup n = some p → cleared n = false

/-! ### What frees a peer -/

variable {s : Termination} {p q : Nat} {cu : ConnectedCU}

/-- Events in a row. -/
theorem run_append (s : Termination) (es es' : List Event) :
    s.run (es ++ es') = (s.run es).run es' := List.foldl_append

/-- An access through a pointer leaves the records that what follows it leaves. -/
theorem deref_peers (k : ConnectedCU → Termination) (h : ∀ cu, (k cu).peers p = s.peers p) :
    (s.deref q k).peers p = s.peers p := by
  unfold deref
  split
  · exact h _
  · rfl

/-- `free` leaves the records of the other peers. -/
theorem free_peers_of_ne (h : p ≠ q) : (s.free q).peers p = s.peers p :=
  deref_peers _ fun _ => Function.update_of_ne h _ _

/-- So does `cleanHashEntry`. -/
theorem cleanHashEntry_peers_of_ne (h : p ≠ q) : (s.cleanHashEntry q).peers p = s.peers p :=
  deref_peers _ fun _ => free_peers_of_ne h

/-- A message of `q` writes the record of `q` only. -/
theorem handlePdu_peers_of_ne (h : p ≠ q) (pdu : Pdu) :
    (s.handlePdu q pdu).peers p = s.peers p := by
  cases pdu with
  | other => rfl
  | e2setup ies => exact deref_peers _ fun _ => Function.update_of_ne h _ _

/-- So do all its messages. -/
theorem handlePdus_peers_of_ne (h : p ≠ q) (pdus : List Pdu) :
    (pdus.foldl (fun s pdu => s.handlePdu q pdu) s).peers p = s.peers p := by
  induction pdus generalizing s with
  | nil => rfl
  | cons pdu pdus ih => exact ih.trans (handlePdu_peers_of_ne h pdu)

/-- The handling of an event of a connection leaves the other peers as they are. -/
theorem step_peers_of_ne {e : Event} (he : e.peer? = some q) (h : p ≠ q) :
    (s.step e).peers p = s.peers p := by
  cases e with
  | data q' pdus done =>
      obtain rfl := Option.some.inj he
      refine deref_peers _ fun _ => ?_
      dsimp only
      split
      · exact (cleanHashEntry_peers_of_ne h).trans (handlePdus_peers_of_ne h pdus)
      · exact handlePdus_peers_of_ne h pdus
  | error q' =>
      obtain rfl := Option.some.inj he
      refine deref_peers _ fun _ => ?_
      exact cleanHashEntry_peers_of_ne (s := s.erase _) h
  | accept hostName portNumber addToEpoll => cases he
  | rmr m => cases he
  | inotify => cases he

/-- A key that is cleared frees the record stored under it, and no other. -/
theorem clearKey_peers (k : Bytes) :
    (s.clearKey k).sctpMap = s.sctpMap ∧ (s.clearKey k).peers p =
      if cleared k ∧ s.sctpMap.lookup k = some p then none else s.peers p := by
  unfold clearKey cleared
  split
  · rename_i hk
    rw [hk, if_neg (by simp)]
    exact ⟨rfl, rfl⟩
  · rename_i hk
    have hk : ((ascii "host:").isPrefixOf k || (ascii "msg:").isPrefixOf k) = false :=
      Bool.eq_false_iff.2 hk
    rw [hk]
    split
    · rename_i hnone
      rw [if_neg (by rw [hnone]; simp)]
      exact ⟨rfl, rfl⟩
    · rename_i q hq
      rw [hq]
      unfold free deref
      split
      · by_cases hpq : p = q
        · subst hpq
          simp
        · have hqp : ¬ q = p := fun h => hpq h.symm
          simp [hqp, Function.update_of_ne hpq]
      · rename_i hdead
        refine ⟨rfl, ?_⟩
        by_cases hpq : p = q
        · subst hpq
          simp [hdead]
        · have hqp : ¬ q = p := fun h => hpq h.symm
          simp [hqp]

/-- Two peers are freed in either order. -/
theorem free_comm (s : Termination) (p q : Nat) : (s.free p).free q = (s.free q).free p := by
  unfold free deref
  by_cases hpq : p = q
  · rw [hpq]
  · cases hp : s.peers p with
    | none => cases hq : s.peers q <;> simp [hp, Function.update_of_ne hpq]
    | some cu =>
        cases hq : s.peers q with
        | none => simp [hp, hq, Function.update_of_ne (Ne.symm hpq)]
        | some cu' =>
            simp [hp, hq, Function.update_of_ne hpq, Function.update_of_ne (Ne.symm hpq),
              Function.update_comm hpq]

/-- What `RIC_SCTP_CLEAR_ALL` does with a key depends on the map only, which it leaves. -/
theorem clearKey_eq (s : Termination) (k : Bytes) : s.clearKey k =
    if cleared k then (s.sctpMap.lookup k).elim s s.free else s := by
  unfold clearKey cleared
  cases (ascii "host:").isPrefixOf k || (ascii "msg:").isPrefixOf k with
  | true => rfl
  | false => cases s.sctpMap.lookup k <;> rfl

/-- Two keys can be cleared in either order. -/
theorem clearKey_comm (s : Termination) (k k' : Bytes) :
    (s.clearKey k).clearKey k' = (s.clearKey k').clearKey k := by
  have hmap : ∀ (s : Termination) (k : Bytes), (s.clearKey k).sctpMap = s.sctpMap :=
    fun s k => (clearKey_peers (p := 0) k).1
  rw [clearKey_eq (s.clearKey k) k', clearKey_eq (s.clearKey k') k, hmap, hmap, clearKey_eq s k,
    clearKey_eq s k']
  cases hk : cleared k <;> cases hk' : cleared k' <;> try rfl
  cases hp : s.sctpMap.lookup k <;> cases hq : s.sctpMap.lookup k' <;> try rfl
  exact free_comm s _ _

/-- **The order of the keys does not matter** to the connections that are left. -/
theorem foldl_clearKey_perm {keys keys' : List Bytes} (h : keys.Perm keys') :
    keys.foldl clearKey s = keys'.foldl clearKey s :=
  h.foldl_eq' (fun k _ k' _ s => clearKey_comm s k k') s

/-- `RIC_SCTP_CLEAR_ALL` frees exactly the peers that are stored under a RAN name. -/
theorem clearAll_peers : s.clearAll.peers p = none ↔
    s.peers p = none ∨ ∃ n, cleared n ∧ s.sctpMap.lookup n = some p := by
  have hloop : ∀ (keys : List Bytes) (s : Termination), (keys.foldl clearKey s).peers p = none ↔
      s.peers p = none ∨ ∃ n ∈ keys, cleared n ∧ s.sctpMap.lookup n = some p := by
    intro keys
    induction keys with
    | nil => simp
    | cons k keys ih =>
        intro s
        obtain ⟨hmap, hpeers⟩ := clearKey_peers (s := s) (p := p) k
        rw [List.foldl_cons, ih, hmap, hpeers]
        by_cases hk : cleared k ∧ s.sctpMap.lookup k = some p
        · rw [if_pos hk]
          exact ⟨fun _ => .inr ⟨k, List.mem_cons_self, hk⟩, fun _ => .inl rfl⟩
        · rw [if_neg hk]
          simp only [List.exists_mem_cons_iff, hk, false_or]
  refine (hloop s.sctpMap.keys s).trans (or_congr_right ?_)
  constructor
  · rintro ⟨n, -, hn⟩
    exact ⟨n, hn⟩
  · rintro ⟨n, hn, hlookup⟩
    refine ⟨n, ?_, hn, hlookup⟩
    have hmem : n ∈ s.sctpMap := AList.lookup_isSome.1 (by rw [hlookup]; rfl)
    exact AList.mem_keys.1 hmem

/-! ### Connections in progress -/

/-- The peers of `s'` are peers of `s`, with the same mark. -/
def Kept (s s' : Termination) : Prop :=
  ∀ q cu', s'.peers q = some cu' → ∃ cu, s.peers q = some cu ∧ cu'.isConnected = cu.isConnected

/-- Nothing happened. -/
theorem Kept.rfl : Kept s s := fun _ cu' hq => ⟨cu', hq, Eq.refl _⟩

/-- One step after another. -/
theorem Kept.trans {s₁ s₂ s₃ : Termination} (h₁ : Kept s₁ s₂) (h₂ : Kept s₂ s₃) : Kept s₁ s₃ := by
  intro q cu₃ hq
  obtain ⟨cu₂, hq₂, heq₂⟩ := h₂ q cu₃ hq
  obtain ⟨cu₁, hq₁, heq₁⟩ := h₁ q cu₂ hq₂
  exact ⟨cu₁, hq₁, heq₂.trans heq₁⟩

/-- An access through a pointer keeps what it goes on to keep. -/
theorem Kept.deref {k : ConnectedCU → Termination} (h : ∀ cu, s.peers p = some cu → Kept s (k cu)) :
    Kept s (s.deref p k) := by
  unfold Termination.deref
  split
  · rename_i cu hcu
    exact h cu hcu
  · exact Kept.rfl

/-- A free adds no peer. -/
theorem Kept.free (s : Termination) (p : Nat) : Kept s (s.free p) := by
  refine Kept.deref fun _ _ q cu' hq => ?_
  rcases peers_update_eq.1 hq with ⟨-, heq⟩ | ⟨-, hq⟩
  · cases heq
  · exact ⟨cu', hq, Eq.refl _⟩

/-- Nor does `cleanHashEntry`. -/
theorem Kept.cleanHashEntry (s : Termination) (p : Nat) : Kept s (s.cleanHashEntry p) :=
  Kept.deref fun cu _ => Kept.free ((s.erase (hostKey cu)).erase (visible cu.enodbName)) p

/-- A message leaves the mark of its peer. -/
theorem Kept.handlePdu (s : Termination) (p : Nat) (pdu : Pdu) : Kept s (s.handlePdu p pdu) := by
  cases pdu with
  | other => exact Kept.rfl
  | e2setup ies =>
      refine Kept.deref fun cu hcu q cu' hq => ?_
      rcases peers_update_eq.1 hq with ⟨rfl, heq⟩ | ⟨-, hq⟩
      · obtain rfl := Option.some.inj heq
        exact ⟨cu, hcu, Eq.refl _⟩
      · exact ⟨cu', hq, Eq.refl _⟩

/-- What each step keeps all of them keep. -/
theorem Kept.foldl {α : Type} {f : Termination → α → Termination} (hf : ∀ s a, Kept s (f s a))
    (s : Termination) (l : List α) : Kept s (l.foldl f s) := by
  induction l generalizing s with
  | nil => exact Kept.rfl
  | cons a l ih => exact (hf s a).trans (ih (f s a))

/-- `RIC_SCTP_CLEAR_ALL` adds no peer. -/
theorem Kept.clearAll (s : Termination) : Kept s s.clearAll := by
  have hkey : ∀ (s : Termination) (k : Bytes), Kept s (s.clearKey k) := by
    intro s k
    unfold clearKey
    split
    · exact Kept.rfl
    · split
      · exact Kept.rfl
      · exact Kept.free s _
  exact Kept.foldl hkey s s.sctpMap.keys

/-- Nor does a message to a peer, sent or not. -/
theorem Kept.sendMessagetoCu (s : Termination) (name : Bytes) (messageType : Nat) (sent : Bool) :
    Kept s (s.sendMessagetoCu name messageType sent) := by
  unfold Termination.sendMessagetoCu
  split
  · exact Kept.rfl
  · rename_i p _
    refine Kept.deref fun cu _ => ?_
    dsimp only
    split
    · exact Kept.rfl
    · refine (Kept.cleanHashEntry s p).trans ?_
      cases (s.cleanHashEntry p).sctpMap.lookup _ with
      | none => exact Kept.rfl
      | some q => exact Kept.free _ q

/-- Every event but an accept leaves the marks as they are. -/
theorem Kept.step (s : Termination) (e : Event) (he : ∀ h n b, e ≠ .accept h n b) :
    Kept s (s.step e) := by
  cases e with
  | accept hostName portNumber addToEpoll => exact absurd (Eq.refl _) (he _ _ _)
  | data p pdus done =>
      refine Kept.deref fun _ _ => ?_
      have hread := Kept.foldl (fun s pdu => Kept.handlePdu s p pdu) s pdus
      dsimp only
      split
      · exact hread.trans (Kept.cleanHashEntry _ p)
      · exact hread
  | error p => exact Kept.deref fun cu _ => Kept.cleanHashEntry (s.erase (visible cu.enodbName)) p
  | rmr m =>
      cases m with
      | clearAll => exact Kept.clearAll s
      | downlink name messageType sent => exact Kept.sendMessagetoCu s name messageType sent
      | other => exact Kept.rfl
  | inotify => exact Kept.rfl

/-- No connection is ever marked as connected. -/
theorem not_connected_of_reached {cond : Termination → Event → Prop} (h : Reached cond s)
    (hp : s.peers p = some cu) : cu.isConnected = false := by
  induction h generalizing p cu with
  | start => cases hp
  | @step s e _ _ ih =>
      have hkept : (∀ h n b, e ≠ .accept h n b) → cu.isConnected = false := by
        intro he
        obtain ⟨cu', hp', heq⟩ := Kept.step s e he p cu hp
        exact heq.trans (ih hp')
      cases e with
      | accept hostName portNumber addToEpoll =>
          cases addToEpoll with
          | false => exact ih hp
          | true =>
              have hnew : Function.update s.peers s.next
                  (some ⟨hostName, portNumber, [], false⟩) p = some cu := hp
              rcases peers_update_eq.1 hnew with ⟨-, heq⟩ | ⟨-, hnew⟩
              · obtain rfl := Option.some.inj heq
                exact Eq.refl _
              · exact ih hnew
      | data q pdus done => exact hkept nofun
      | error q => exact hkept nofun
      | rmr m => exact hkept nofun
      | inotify => exact hkept nofun

/-! ### Batches -/

/-- **The two ways in which an event frees a peer.** -/
theorem step_frees {cond : Termination → Event → Prop} (h : Reached cond s)
    (hlive : (s.peers p).isSome) {e : Event} (hfree : (s.step e).peers p = none) :
    e.peer? = some p ∨ e = .rmr .clearAll ∧ ∃ n, cleared n ∧ s.sctpMap.lookup n = some p := by
  obtain ⟨cu, hcu⟩ := Option.isSome_iff_exists.1 hlive
  have hother : ∀ q, e.peer? = some q → e.peer? = some p := by
    intro q hq
    by_contra hpq
    have hne : p ≠ q := by
      rintro rfl
      exact hpq hq
    rw [step_peers_of_ne hq hne, hcu] at hfree
    cases hfree
  cases e with
  | accept hostName portNumber addToEpoll =>
      have hkeep : (s.accept hostName portNumber addToEpoll).peers p ≠ none := by
        unfold accept
        cases addToEpoll with
        | false => simp [hcu]
        | true =>
            rw [if_pos rfl]
            dsimp only
            by_cases hpn : p = s.next
            · subst hpn
              simp
            · rw [Function.update_of_ne hpn, hcu]
              simp
      exact absurd hfree hkeep
  | data q pdus done => exact .inl (hother q rfl)
  | error q => exact .inl (hother q rfl)
  | rmr m =>
      cases m with
      | clearAll =>
          rcases clearAll_peers.1 hfree with hdead | hstored
          · rw [hcu] at hdead
            cases hdead
          · exact .inr ⟨rfl, hstored⟩
      | downlink name messageType sent =>
          -- the connection is still in progress: a send that fails frees nothing
          have hkeep : (s.sendMessagetoCu name messageType sent).peers p = s.peers p := by
            unfold sendMessagetoCu
            split
            · rfl
            · unfold deref
              split
              · rename_i cu' hcu'
                dsimp only
                rw [not_connected_of_reached h hcu', if_pos (by simp)]
              · rfl
          rw [show (s.step (.rmr (.downlink name messageType sent))).peers p = s.peers p from hkeep,
            hcu] at hfree
          cases hfree
      | other =>
          have hsame : s.peers p = none := hfree
          rw [hcu] at hsame
          cases hsame
  | inotify =>
      have hsame : s.peers p = none := hfree
      rw [hcu] at hsame
      cases hsame

/-- The events of a batch lead to reached states. -/
theorem Reached.run (h : Reached (fun _ _ => True) s) (es : List Event) :
    Reached (fun _ _ => True) (s.run es) := by
  induction es generalizing s with
  | nil => exact h
  | cons e es ih => exact ih (h.step e trivial)

/-- A peer that a run frees is freed by one of its events. -/
theorem exists_step_frees {pre : List Event} (hstart : (s.peers p).isSome)
    (hend : (s.run pre).peers p = none) : ∃ pre₁ e pre₂, pre = pre₁ ++ e :: pre₂ ∧
      ((s.run pre₁).peers p).isSome ∧ (s.run (pre₁ ++ [e])).peers p = none := by
  induction pre generalizing s with
  | nil =>
      have hsame : s.peers p = none := hend
      rw [hsame] at hstart
      cases hstart
  | cons e pre ih =>
      by_cases hlive : ((s.step e).peers p).isSome
      · obtain ⟨pre₁, e', pre₂, hpre, hbefore, hafter⟩ := ih hlive hend
        exact ⟨e :: pre₁, e', pre₂, by rw [hpre, List.cons_append], hbefore, hafter⟩
      · exact ⟨[], e, pre, rfl, hstart, Option.not_isSome_iff_eq_none.1 hlive⟩

/-- **When the events of a batch never touch a freed peer**: exactly when no event behind
a `RIC_SCTP_CLEAR_ALL` is about a connection that is stored under a RAN name at that
point. -/
theorem noStale_iff (h : Reached (fun _ _ => True) s) {es : List Event} (hbatch : s.Batch es) :
    s.NoStale es ↔ s.NoneCleared es := by
  constructor
  · intro hstale pre post hes e' he' p hp n hn
    by_contra hcleared
    have hcleared : cleared n = true := by simpa using hcleared
    have hmem : e' ∈ es := by
      rw [hes]
      exact List.mem_append_right pre (List.mem_cons_of_mem _ he')
    have hstart := hbatch.live e' hmem p hp
    -- the connection is allocated when the clear-all is handled, or was freed before
    by_cases hlive : ((s.run pre).peers p).isSome
    · refine hstale pre _ post hes p hlive ?_ e' he' hp
      rw [run_append]
      exact clearAll_peers.2 (.inr ⟨n, hcleared, hn⟩)
    · obtain ⟨pre₁, e, pre₂, hpre, hbefore, hafter⟩ :
          ∃ pre₁ e pre₂, pre = pre₁ ++ e :: pre₂ ∧ ((s.run pre₁).peers p).isSome ∧
            (s.run (pre₁ ++ [e])).peers p = none := by
        exact exists_step_frees hstart (Option.not_isSome_iff_eq_none.1 hlive)
      refine hstale pre₁ e (pre₂ ++ .rmr .clearAll :: post) (by simp [hes, hpre]) p hbefore hafter
        e' ?_ hp
      exact List.mem_append_right pre₂ (List.mem_cons_of_mem _ he')
  · intro hnone pre e post hes p hlive hfree e' he' hp
    rw [run_append] at hfree
    rcases step_frees (h.run pre) hlive hfree with heq | ⟨rfl, n, hcleared, hn⟩
    · -- two events about one connection
      have hnodup := hbatch.nodup
      rw [hes, List.filterMap_append, List.filterMap_cons, heq] at hnodup
      have hrest := (List.nodup_append.1 hnodup).2.1
      exact (List.nodup_cons.1 hrest).1 (List.mem_filterMap.2 ⟨e', he', hp⟩)
    · have := hnone pre post hes e' he' p hp n hn
      rw [hcleared] at this
      cases this

/-- What is left of a batch behind its first event. -/
theorem Batch.tail (h : Reached (fun _ _ => True) s) {e : Event} {es : List Event}
    (hbatch : s.Batch (e :: es)) (hnone : s.NoneCleared (e :: es)) : (s.step e).Batch es where
  nodup := by
    have hnodup := hbatch.nodup
    rw [List.filterMap_cons] at hnodup
    split at hnodup
    · exact hnodup
    · exact (List.nodup_cons.1 hnodup).2
  live e' he' p hp := by
    have hlive := hbatch.live e' (List.mem_cons_of_mem e he') p hp
    by_contra hdead
    rcases step_frees h hlive (Option.not_isSome_iff_eq_none.1 hdead) with heq | ⟨rfl, n, hn, hp'⟩
    · have hnodup := hbatch.nodup
      rw [List.filterMap_cons, heq] at hnodup
      exact (List.nodup_cons.1 hnodup).1 (List.mem_filterMap.2 ⟨e', he', hp⟩)
    · have := hnone [] es rfl e' he' p hp n hp'
      rw [hn] at this
      cases this

/-- What holds of a batch holds of its rest, behind the first event. -/
theorem NoneCleared.tail {e : Event} {es : List Event} (h : s.NoneCleared (e :: es)) :
    (s.step e).NoneCleared es :=
  fun pre post hes => h (e :: pre) post (by rw [hes, List.cons_append])

/-- The setups of an event keep names, whether or not its connection is open. -/
def setsUpKeeping (s : Termination) : Event → Prop
  | .data p pdus _ => s.allKeepNames p pdus
  | _ => True

/-- The setups of a batch keep names, each at the point where it is handled. -/
def KeepsNames : Termination → List Event → Prop
  | _, [] => True
  | s, e :: es => s.setsUpKeeping e ∧ (s.step e).KeepsNames es

/-- The first event of a batch is about an open connection. -/
theorem Batch.keepsNames {e : Event} {es : List Event} (h : s.Batch (e :: es))
    (hkeep : s.setsUpKeeping e) : s.keepsNames e := by
  have hlive := h.live e List.mem_cons_self
  cases e with
  | data p pdus done => exact ⟨hlive p rfl, hkeep⟩
  | error p => exact hlive p rfl
  | accept hostName portNumber addToEpoll => trivial
  | rmr m => trivial
  | inotify => trivial

/-- A state that is reached under a condition is reached without it. -/
theorem Reached.unconditional {cond : Termination → Event → Prop} (h : Reached cond s) :
    Reached (fun _ _ => True) s := by
  induction h with
  | start => exact .start
  | step e _ _ ih => exact ih.step e trivial

/-- The gNB's connection ends in the same batch, before the clear-all: that one frees
nothing any more. -/
theorem noStale_endOfStream :
    (start.run [.accept (ascii "10.0.2.101") 36422 true,
      .data 0 [.e2setup [.globalE2nodeID gnbA]] false]).NoStale
      [.data 0 [] true, .rmr .clearAll] := by
  refine (noStale_iff (Reached.start.run _) ⟨by decide, ?_⟩).2 ?_
  · intro e he p hp
    have hcases : e = .data 0 [] true ∨ e = .rmr .clearAll := by simpa using he
    rcases hcases with rfl | rfl
    · obtain rfl := Option.some.inj hp
      decide +kernel
    · cases hp
  · intro pre post hes e' he'
    have hlength := congrArg List.length hes
    match pre, post with
    | [], _ => cases hes
    | [_], [] => cases he'
    | [_], _ :: _ => simp at hlength
    | _ :: _ :: _, _ => simp at hlength

/-- **A clear-all with the end of a stream behind it in the batch**: the second reads
the peer that the first has freed. -/
theorem not_noStale :
    let s := start.run [.accept (ascii "10.0.2.101") 36422 true,
      .data 0 [.e2setup [.globalE2nodeID gnbA]] false]
    let es := [.rmr .clearAll, .data 0 [] true]
    Reached (fun _ _ => True) s ∧ s.Batch es ∧ ¬ s.NoStale es := by
  refine ⟨Reached.start.run _, ⟨by decide, ?_⟩, fun h => ?_⟩
  · intro e he p hp
    have hcases : e = .rmr .clearAll ∨ e = .data 0 [] true := by simpa using he
    rcases hcases with rfl | rfl
    · cases hp
    · obtain rfl := Option.some.inj hp
      decide +kernel
  · exact h [] (.rmr .clearAll) [.data 0 [] true] rfl 0 (by decide +kernel) (by decide +kernel)
      (.data 0 [] true) (List.mem_singleton.2 rfl) rfl

end Termination

end NearRtRic.E2Term
