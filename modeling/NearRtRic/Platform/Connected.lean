/-
# Who is connected, and who is taken to be

The listeners of some E2 terminations and the E2 manager, each going on by itself
(`Network.Step`).  RMR takes every message of a termination and keeps their order; the
manager takes the messages of the terminations one by one, in any order between these, and
handles each to its end.  Setup requests over HTTP, E2_TERM_INITs, keep-alives and
delete-alls come in between at any time.

`connected_of_reachable`: a RAN that is CONNECTED in the database has an open connection at
one of the terminations, or the loss of it is among the messages that the manager has not
taken yet.  The events of a listener are about open connections here, and every setup request
on a connection says the one identity of the gNB behind it: where one ends before its identity
is read, the connection loses its name, and nobody hears of its end.
-/

import NearRtRic.E2Manager.Connected
import NearRtRic.E2Term.Presence
import NearRtRic.Platform.SetupPath

namespace NearRtRic.Platform

open CString Trace

/-- What is given of a termination: what its listener finds, RMR taking every message and
giving out buffers without a name, the keep-alive message, and the identity that the gNB at
each connection has. -/
structure Terminal where
  surroundings : E2Term.Surroundings
  takes : ∀ n, ∃ next, surroundings.answers n = .sent next ∧ E2Term.Clear next.meid
  ka_message : Bytes
  identity : Nat → Bytes

/-- A termination, and how many of its messages the manager has taken. -/
structure Link where
  relay : E2Term.Relay
  taken : Nat

namespace Link

variable (l : Link)

/-- All the messages so far. -/
def log : List E2Term.Submission := l.relay.rmr.log

/-- What the termination has said, and the manager has heard. -/
def heard : List E2Term.Word := (l.log.take l.taken).filterMap E2Term.Submission.word

end Link

/-- The event of the manager that a message about a RAN makes. -/
def eventOf (m : E2Term.RmrMessage) : Option E2Manager.Event :=
  match m.mtype with
  | some .RIC_E2_SETUP_REQ => some (.e2SetupRequest (received m))
  | some .RIC_SCTP_CONNECTION_FAILURE => some (.ranConnectionLost (received m))
  | _ => none

/-- What a message says of the presence of a RAN, and the event that the manager makes of it. -/
theorem word_cases (m : E2Term.Submission) :
    (m.word = some (.setUp (E2Term.nameIn m.message.meid)) ∧
      eventOf m.message = some (.e2SetupRequest (received m.message))) ∨
    (m.word = some (.gone (E2Term.nameIn m.message.meid)) ∧
      eventOf m.message = some (.ranConnectionLost (received m.message)) ∧
      m.message.mtype = some .RIC_SCTP_CONNECTION_FAILURE) ∨
    (m.word = none ∧ eventOf m.message = none) := by
  unfold E2Term.Submission.word eventOf
  cases m.message.mtype with
  | none => exact .inr (.inr ⟨rfl, rfl⟩)
  | some mtype =>
      cases mtype with
      | RIC_E2_SETUP_REQ => exact .inl ⟨rfl, rfl⟩
      | RIC_SCTP_CONNECTION_FAILURE => exact .inr (.inl ⟨rfl, rfl, rfl⟩)
      | _ => exact .inr (.inr ⟨rfl, rfl⟩)

/-- The terminations and the manager. -/
structure Network (κ : Type) where
  link : κ → Link
  manager : E2Manager.Machine

namespace Network

variable {κ : Type} [DecidableEq κ]

/-- One step of a termination or of the manager. -/
inductive Step (codecs : E2Manager.Codecs) (config : E2Manager.Configuration)
    (terminal : κ → Terminal) : Network κ → Network κ → Prop
  /-- A round of a listener. -/
  | listen {c : Network κ} (k : κ) (e : E2Term.RelayEvent) {relay : E2Term.Relay} :
      (c.link k).relay.termination.keepsNames e.toEvent →
      e.OneIdentity (terminal k).identity →
      (c.link k).relay.step (terminal k).surroundings (terminal k).ka_message e = some relay →
      Step codecs config terminal c { c with
        link := Function.update c.link k { c.link k with relay } }
  /-- The manager takes a message and handles it. -/
  | take {c : Network κ} {manager : E2Manager.Machine} (k : κ) {m : E2Term.Submission}
      {e : E2Manager.Event} :
      (c.link k).log[(c.link k).taken]? = some m → eventOf m.message = some e →
      E2Manager.Machine.Step codecs config (.event e) c.manager manager →
      Step codecs config terminal c {
        link := Function.update c.link k { c.link k with taken := (c.link k).taken + 1 },
        manager }
  /-- The manager takes a message that is not about the presence of a RAN. -/
  | pass {c : Network κ} (k : κ) {m : E2Term.Submission} :
      (c.link k).log[(c.link k).taken]? = some m → eventOf m.message = none →
      Step codecs config terminal c { c with
        link := Function.update c.link k { c.link k with taken := (c.link k).taken + 1 } }
  /-- The manager does something else. -/
  | other {c : Network κ} {manager : E2Manager.Machine} {l : E2Manager.Machine.Label} :
      (∀ r, ¬ l.SetsUp r) → E2Manager.Machine.Step codecs config l c.manager manager →
      Step codecs config terminal c { c with manager }

/-- Terminations that have just started, and an empty database. -/
def init (terminal : κ → Terminal) : Network κ where
  link k := { relay := .start (terminal k).surroundings, taken := 0 }
  manager := .init

/-- The states that are reached. -/
def Reachable (codecs : E2Manager.Codecs) (config : E2Manager.Configuration)
    (terminal : κ → Terminal) (c : Network κ) : Prop :=
  Relation.ReflTransGen (Step codecs config terminal) (init terminal) c

/-! ### The invariant -/

/-- What holds of one link. -/
structure LinkInv (identity : Nat → Bytes) (l : Link) : Prop where
  blank : l.relay.rmr.Blank
  inv : l.relay.termination.Inv
  own : E2Term.Own identity l.relay.termination
  tells : E2Term.Tells E2Term.start l.relay.termination (l.log.filterMap E2Term.Submission.word)
  taken_le : l.taken ≤ l.log.length

/-- Whoever is connected has set up at a termination, as far as the manager has heard. -/
structure Inv (terminal : κ → Terminal) (c : Network κ) : Prop where
  sound : E2Manager.Sound c.manager.sdl
  link : ∀ k, LinkInv (terminal k).identity (c.link k)
  heard : ∀ r, E2Manager.Connected c.manager.sdl r →
    ∃ k n, r = text n ∧ E2Term.UpIn (c.link k).heard n

variable {codecs : E2Manager.Codecs} {config : E2Manager.Configuration}
  {terminal : κ → Terminal} {c c' : Network κ}

/-- The invariant holds of a link whose termination has just started. -/
theorem LinkInv.start (terminal : Terminal) :
    LinkInv terminal.identity ⟨.start terminal.surroundings, 0⟩ where
  blank := E2Term.Relay.blank_start terminal.surroundings
  inv := E2Term.Termination.Inv.start
  own p cu h := by cases h
  tells := .silent rfl
  taken_le := Nat.le_refl 0

/-- A round of the listener. -/
theorem LinkInv.listen {terminal : Terminal} {l : Link} {relay : E2Term.Relay}
    (h : LinkInv terminal.identity l) {e : E2Term.RelayEvent}
    (hkeep : l.relay.termination.keepsNames e.toEvent) (hone : e.OneIdentity terminal.identity)
    (hstep : l.relay.step terminal.surroundings terminal.ka_message e = some relay) :
    LinkInv terminal.identity { l with relay } ∧
      ({ l with relay } : Link).heard = l.heard := by
  have htidy : terminal.surroundings.Tidy := fun n => .inr (terminal.takes n)
  obtain rfl := E2Term.Relay.eq_round_of_step hstep
  obtain ⟨sent, hlog, htells, hblank, hinv, hown⟩ :=
    E2Term.Relay.tells_round terminal.ka_message htidy h.blank h.inv h.own hkeep hone
  refine ⟨⟨hblank, hinv, hown, ?_, ?_⟩, ?_⟩
  · rw [Link.log, hlog, List.filterMap_append]
    exact h.tells.trans htells
  · rw [Link.log, hlog, List.length_append]
    exact Nat.le_add_right_of_le h.taken_le
  · rw [Link.heard, Link.log, hlog]
    exact congrArg (List.filterMap _) (List.take_append_of_le_length h.taken_le)

/-- A message is taken. -/
theorem LinkInv.take {identity : Nat → Bytes} {l : Link} (h : LinkInv identity l)
    {m : E2Term.Submission} (hm : l.log[l.taken]? = some m) :
    LinkInv identity { l with taken := l.taken + 1 } ∧
      ({ l with taken := l.taken + 1 } : Link).heard = l.heard ++ m.word.toList := by
  obtain ⟨hlt, -⟩ := List.getElem?_eq_some_iff.1 hm
  refine ⟨⟨h.blank, h.inv, h.own, h.tells, hlt⟩, ?_⟩
  have htake : l.log.take (l.taken + 1) = l.log.take l.taken ++ [m] := by
    rw [List.take_add_one, hm, Option.toList_some]
  have hheard : ({ l with taken := l.taken + 1 } : Link).heard =
      (l.log.take (l.taken + 1)).filterMap E2Term.Submission.word := rfl
  rw [hheard, htake, List.filterMap_append, Link.heard]
  cases hword : m.word <;> simp [hword]

/-- Where the link of one termination changes, and the manager hears more from it. -/
theorem Inv.update (hc : Inv terminal c) {k : κ} {l : Link} {ws : List E2Term.Word}
    {manager : E2Manager.Machine} (hsound : E2Manager.Sound manager.sdl)
    (hl : LinkInv (terminal k).identity l) (hheard : l.heard = (c.link k).heard ++ ws)
    (hnew : ∀ r, E2Manager.Connected manager.sdl r →
      (∃ n, r = text n ∧ E2Term.UpIn ws n) ∨
        E2Manager.Connected c.manager.sdl r ∧ ∀ n, .gone n ∈ ws → r ≠ text n) :
    Inv terminal { link := Function.update c.link k l, manager } where
  sound := hsound
  link k' := by
    dsimp only
    rw [Function.update_apply]
    split
    · rename_i heq
      exact heq ▸ hl
    · exact hc.link k'
  heard r hr := by
    rcases hnew r hr with ⟨n, hn, hup⟩ | ⟨hold, hnot⟩
    · refine ⟨k, n, hn, ?_⟩
      dsimp only
      rw [Function.update_self, hheard]
      exact since_append.2 (.inl hup)
    · obtain ⟨k', n, rfl, hup⟩ := hc.heard r hold
      refine ⟨k', n, rfl, ?_⟩
      dsimp only
      by_cases hk : k' = k
      · subst hk
        rw [Function.update_self, hheard]
        refine since_append.2 (.inr ⟨hup, fun w hw hgone => ?_⟩)
        subst hgone
        exact hnot n hw rfl
      · rwa [Function.update_of_ne hk]

omit [DecidableEq κ] in
/-- It holds of all links at the start. -/
theorem Inv.init (terminal : κ → Terminal) : Inv terminal (init terminal) where
  sound := E2Manager.sound_empty
  link k := .start (terminal k)
  heard r hr := by
    obtain ⟨nb, hnb, -⟩ := hr
    cases hnb

/-- **One step.** -/
theorem Inv.step (hc : Inv terminal c) (h : Step codecs config terminal c c') :
    Inv terminal c' := by
  cases h with
  | listen k e hkeep hone hround =>
      obtain ⟨hl, hheard⟩ := (hc.link k).listen hkeep hone hround
      refine hc.update hc.sound hl (hheard.trans (List.append_nil _).symm) fun r hr => .inr ⟨hr, ?_⟩
      exact nofun
  | pass k hm he =>
      rename_i m
      obtain ⟨hl, hheard⟩ := (hc.link k).take hm
      refine hc.update hc.sound hl hheard fun r hr => .inr ⟨hr, fun n hn => ?_⟩
      rcases word_cases m with ⟨-, he'⟩ | ⟨-, he', -⟩ | ⟨hword, -⟩
      · cases he.symm.trans he'
      · cases he.symm.trans he'
      · rw [hword] at hn
        cases hn
  | @take manager k m e hm he hstep =>
      obtain ⟨hl, hheard⟩ := (hc.link k).take hm
      have hsound := hstep.sound hc.sound
      refine hc.update hsound hl hheard fun r hr => ?_
      have hconnects := hstep.connects hc.sound r hr
      rcases word_cases m with ⟨hword, he'⟩ | ⟨hword, he', -⟩ | ⟨-, he'⟩
      · -- a setup request
        obtain rfl := Option.some.inj (he.symm.trans he')
        rw [hword]
        rcases hconnects with hr' | hold
        · exact .inl ⟨_, hr', E2Term.upIn_singleton.2 rfl⟩
        · refine .inr ⟨hold, fun n hn => ?_⟩
          cases List.mem_singleton.1 hn
      · -- the loss of a connection
        obtain rfl := Option.some.inj (he.symm.trans he')
        refine .inr ⟨hconnects.resolve_left fun h => h, fun n hn heq => ?_⟩
        rw [hword] at hn
        obtain rfl := E2Term.Word.gone.inj (List.mem_singleton.1 hn)
        exact hstep.not_connected hc.sound ⟨_, rfl, heq⟩ hr
      · cases he.symm.trans he'
  | other hl hstep =>
      refine ⟨hstep.sound hc.sound, hc.link, fun r hr => hc.heard r ?_⟩
      exact (hstep.connects hc.sound r hr).resolve_left (hl r)

/-- So it holds of every network that is reached. -/
theorem Inv.reachable (h : Reachable codecs config terminal c) : Inv terminal c := by
  induction h with
  | refl => exact .init terminal
  | tail _ hstep ih => exact ih.step hstep

end Network

/-! ### A gNB that leaves -/

namespace OneSite

open E2Term Network

def terminal (_ : Unit) : Terminal where
  surroundings := surroundings
  takes _ := ⟨_, rfl, fun _ hc => absurd hc List.not_mem_nil⟩
  ka_message := settings.kaText
  identity _ := ascii "gnb:208-092-b5c67711"

/-- The gNB closes its connection. -/
def leaves : RelayEvent := .data 0 [.eof]

/-- The manager has got the announcement. -/
def announced : E2Manager.Sdl :=
  ((E2Manager.Event.prog siteCodecs {} (.e2TermInit ⟨"", text settings.kaText, ""⟩)).run
    E2Manager.exec [] .empty).2

/-- The manager has handled the setup request. -/
def connected : E2Manager.Sdl :=
  ((E2Manager.E2SetupRequestNotificationHandler.handleParsed {} (received request)
    E2Manager.Deployment.setupRequestMessage "10.0.2.15:38000").run E2Manager.exec [] announced).2

/-- The gNB has left, and the manager does not know yet. -/
def left : Network Unit where
  link _ := ⟨relayed (events ++ [leaves]), 1⟩
  manager := ⟨connected, []⟩

/-- With one termination an update replaces it. -/
theorem update_unit {α : Type} (f : Unit → α) (x : α) : Function.update f () x = fun _ => x :=
  funext fun _ => Function.update_self ..

/-- A round in which no name goes astray. -/
theorem step_relayed {es : List RelayEvent} {e : RelayEvent}
    (hstray : ((relayed es).round surroundings settings.kaText e).rmr.stray = false) :
    (relayed es).step surroundings settings.kaText e = some (relayed (es ++ [e])) := by
  rw [Relay.step_eq hstray, relayed, relayed, List.foldl_append]
  rfl

/-- The connections of the example set up under one identity each. -/
theorem oneIdentity_events {e : RelayEvent} (he : e ∈ events ++ [leaves]) :
    e.OneIdentity (terminal ()).identity := by
  rintro p ies payload ⟨reads, bytes, pdu, rfl, hread, hsetup⟩
  simp only [events, leaves, List.cons_append, List.nil_append, List.mem_cons, List.not_mem_nil,
    or_false] at he
  rcases he with h | h | h
  · cases h
  · obtain ⟨rfl, rfl⟩ := RelayEvent.data.inj h
    rcases List.mem_cons.1 hread with h | h
    · obtain ⟨rfl, hpdu⟩ := SctpRead.message.inj h
      obtain rfl := Option.some.inj hpdu
      obtain ⟨rfl, rfl⟩ := Prod.mk.inj (Option.some.inj hsetup)
      decide
    · cases List.mem_singleton.1 h
  · obtain ⟨rfl, rfl⟩ := RelayEvent.data.inj h
    cases List.mem_singleton.1 hread

end OneSite

end NearRtRic.Platform
