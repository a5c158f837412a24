/-
# The request table

`set_request_status` looks for an entry with the id's text and then writes under the
id's pointer.  Where the response has its id in a buffer of its own, that makes a
second entry, which no call deletes; where the entry has gone since it was looked for,
it makes a new one.  In the runs in which neither happens (`keyed`) the table has the
entries of the calls in progress and no others, no two of them with one text (`Inv`).
`Inv.step` has a case for each kind of step; those of a request call are listed by
`Advances`.
-/

import NearRtRic.Xapp.Subscriptions

namespace NearRtRic.Xapp

open CString

/-- A response that is processed by a step answers a request that waits for it. -/
def Handler.answers (h : Handler) (a : Action) (c : Nat) : Bool :=
  match a with
  | .respond r =>
      match h.responses[r]?, h.requests[c]? with
      | some resp, some q => resp.stage = .writing && q.stage.awaiting && h.sameId q.id resp.id
      | _, _ => false
  | _ => false

/-- A handler, and the requests whose response was processed while they waited for it. -/
structure Monitored where
  handler : Handler
  answered : Nat → Bool

namespace Monitored

def step (m : Monitored) (a : Action) : Option Monitored :=
  (m.handler.step a).map fun h => ⟨h, fun c => m.answered c || m.handler.answers a c⟩

def run (m : Monitored) : List Action → Option Monitored
  | [] => some m
  | a :: as => (m.step a).bind (run · as)

def start (buffer : Nat → Bytes) : Monitored := ⟨Handler.start buffer, fun _ => false⟩

/-- The condition on a step: a status is written under a key of the table. -/
def keyed (m : Monitored) : Action → Bool
  | .respond r => m.handler.responses[r]?.all fun resp =>
      resp.stage ≠ .writing || resp.id ∈ m.handler.statusTable.keys
  | _ => true

/-- The states that runs of such steps lead to. -/
inductive Reached : Monitored → Prop
  | start (buffer : Nat → Bytes) : Reached (start buffer)
  | step {m m' : Monitored} (a : Action) :
      Reached m → m.keyed a → m.step a = some m' → Reached m'

end Monitored

/-! ### Lookups after a step -/

namespace Handler

variable {h h' : Handler} {c d p : Nat} {q q' : Request} {st : Stage} {lock : Option Nat}
  {table : AList fun _ : Nat => SubscriptionStatus}

/-- A move sets the stage of its own call and of no other. -/
theorem requests_move (hq : h.requests[c]? = some q) :
    (h.move c st lock table).requests[d]? = some q' ↔
      d = c ∧ q' = { q with stage := st } ∨ d ≠ c ∧ h.requests[d]? = some q' := by
  unfold move
  rw [List.getElem?_modify]
  by_cases hd : d = c
  · subst hd
    simp [hq, eq_comm]
  · have hcd : ¬ c = d := fun h => hd h.symm
    simp [hd, hcd]

/-- The call itself has the new stage. -/
theorem requests_move_self (hq : h.requests[c]? = some q) :
    (h.move c st lock table).requests[c]? = some { q with stage := st } :=
  (requests_move hq).2 (.inl ⟨rfl, rfl⟩)

/-- Two buffers hold the same id if they are seen to. -/
theorem sameId_iff {p q : Nat} : h.sameId p q ↔ visible (h.buffer p) = visible (h.buffer q) := by
  simp [sameId]

/-- A transaction is present if some key of the table holds its id. -/
theorem transactionPresent_iff {id : Nat} :
    h.transactionPresent id ↔ ∃ p ∈ h.statusTable, h.sameId p id := by
  simp [transactionPresent, AList.mem_keys]

/-- What one step of the request `q`, the call `c`, makes of the handler. -/
inductive Advances (h : Handler) (c : Nat) (q : Request) : Handler → Prop
  | reject : q.stage = .entered → h.dataLock = none → h.transactionPresent q.id →
      Advances h c q (h.move c (.returned .errDuplicate) none h.statusTable)
  | enter : q.stage = .entered → h.dataLock = none → ¬ h.transactionPresent q.id →
      Advances h c q (h.move c .adding (some c) h.statusTable)
  | add : q.stage = .adding →
      Advances h c q (h.move c .added none (h.statusTable.insert q.id .requestPending))
  | relock : q.stage = .added → h.dataLock = none →
      Advances h c q (h.move c .sending (some c) h.statusTable)
  | transmit (sent : Bool) : q.stage = .sending →
      Advances h c q (h.move c (if sent then .sent else .deleting .errTx) h.dataLock h.statusTable)
  | wait : q.stage = .sent → Advances h c q (h.move c .waiting none h.statusTable)
  | wake : q.stage = .waiting → h.dataLock = none →
      Advances h c q (h.move c .woken (some c) h.statusTable)
  | decide (found : Option Nat) (timedOut : Bool) (res : Result) : q.stage = .woken →
      h.finds q.id found → verdict (found.bind h.statusTable.lookup) timedOut = some res →
      Advances h c q (h.move c (.deleting res) h.dataLock h.statusTable)
  | retry (found : Option Nat) (timedOut : Bool) : q.stage = .woken →
      h.finds q.id found → verdict (found.bind h.statusTable.lookup) timedOut = none →
      Advances h c q (h.move c .waiting none h.statusTable)
  | delete (res : Result) : q.stage = .deleting res →
      Advances h c q (h.move c (.returned res) none (h.statusTable.erase q.id))

/-- A step of a call is one of those in `Advances`. -/
theorem advances_of_advance {ch : Choice} (hstep : h.advance c ch = some h') :
    ∃ q, h.requests[c]? = some q ∧ Advances h c q h' := by
  unfold advance at hstep
  cases hq : h.requests[c]? with
  | none =>
      rw [hq] at hstep
      cases hstep
  | some q =>
      refine ⟨q, rfl, ?_⟩
      rw [hq] at hstep
      dsimp only at hstep
      cases hst : q.stage with
      | entered =>
          rw [hst] at hstep
          dsimp only at hstep
          split at hstep
          · cases hstep
          · rename_i hfree
            split at hstep
            · rename_i hpresent
              cases hstep
              exact .reject hst (not_not.1 hfree) hpresent
            · rename_i habsent
              cases hstep
              exact .enter hst (not_not.1 hfree) habsent
      | adding =>
          rw [hst] at hstep
          cases hstep
          exact .add hst
      | added =>
          rw [hst] at hstep
          dsimp only at hstep
          split at hstep
          · cases hstep
          · rename_i hfree
            cases hstep
            exact .relock hst (not_not.1 hfree)
      | sending =>
          rw [hst] at hstep
          cases hstep
          exact .transmit ch.sent hst
      | sent =>
          rw [hst] at hstep
          cases hstep
          exact .wait hst
      | waiting =>
          rw [hst] at hstep
          dsimp only at hstep
          split at hstep
          · cases hstep
          · rename_i hfree
            cases hstep
            exact .wake hst (not_not.1 hfree)
      | woken =>
          rw [hst] at hstep
          dsimp only at hstep
          split at hstep
          · rename_i hfinds
            split at hstep
            · rename_i res hres
              cases hstep
              exact .decide _ _ res hst hfinds hres
            · rename_i hnone
              cases hstep
              exact .retry _ _ hst hfinds hnone
          · cases hstep
      | deleting res =>
          rw [hst] at hstep
          cases hstep
          exact .delete res hst
      | returned res =>
          rw [hst] at hstep
          cases hstep

end Handler

/-! ### The invariant -/

/-- What the call returns is decided, or its status is. -/
def Settled (h : Handler) (q : Request) : Prop :=
  q.stage.awaiting ∧ h.statusTable.lookup q.id = some .requestSuccess ∨
    q.stage = .deleting .success ∨ q.stage = .returned .success

/-- The table has the entries of the calls in progress and no others. -/
structure Inv (m : Monitored) : Prop where
  registered : ∀ {p}, p ∈ m.handler.statusTable ↔
    ∃ (c : Nat) (q : Request), m.handler.requests[c]? = some q ∧ q.stage.registered ∧ q.id = p
  unique : ∀ {c d : Nat} {q q' : Request}, m.handler.requests[c]? = some q →
    m.handler.requests[d]? = some q' → q.stage.registered → q'.stage.registered →
      m.handler.sameId q.id q'.id → c = d
  lock : ∀ {c : Nat}, m.handler.dataLock = some c ↔
    ∃ q : Request, m.handler.requests[c]? = some q ∧ q.stage.holds
  adding : ∀ {c : Nat} {q : Request}, m.handler.requests[c]? = some q → q.stage = .adding →
    ¬ m.handler.transactionPresent q.id
  status : ∀ {p s}, m.handler.statusTable.lookup p = some s →
    s = .requestPending ∨ s = .requestSuccess
  decided : ∀ {c : Nat} {q : Request} {res : Result}, m.handler.requests[c]? = some q →
    q.stage = .deleting res → res = .success ∨ res = .errTx
  answered : ∀ {c}, m.answered c → ∃ q, m.handler.requests[c]? = some q ∧ Settled m.handler q

variable {m m' : Monitored} {c d : Nat} {q q' : Request}

/-- At the start there is no call. -/
theorem Inv.start (buffer : Nat → Bytes) : Inv (Monitored.start buffer) where
  registered := by simp [Monitored.start, Handler.start]
  unique := nofun
  lock := by simp [Monitored.start, Handler.start]
  adding := nofun
  status := nofun
  decided := nofun
  answered := nofun

/-- A call that goes on to await its status, where it did, stays settled. -/
theorem Settled.move {h : Handler} {st st' : Stage} (hs : Settled h q) (hst : q.stage = st)
    (hawait : st.awaiting → st'.awaiting) (hdel : st ≠ .deleting .success)
    (hret : st ≠ .returned .success) : Settled h { q with stage := st' } := by
  rcases hs with ⟨hs, hlookup⟩ | hs | hs
  · exact .inl ⟨hawait (hst ▸ hs), hlookup⟩
  · exact absurd (hst.symm.trans hs) hdel
  · exact absurd (hst.symm.trans hs) hret

/-- A call that waits for its response has its entry in the table. -/
theorem Stage.registered_of_awaiting {st : Stage} (h : st.awaiting) : st.registered := by
  cases st <;> first | rfl | cases h

namespace Inv

variable {st : Stage} {lock : Option Nat} {table : AList fun _ : Nat => SubscriptionStatus}

/-- A registered call has its id in the table. -/
theorem mem_table (h : Inv m) (hq : m.handler.requests[c]? = some q) (hreg : q.stage.registered) :
    q.id ∈ m.handler.statusTable :=
  h.registered.2 ⟨c, q, hq, hreg, rfl⟩

/-- The call with an entry for the text of `id`, if there is one. -/
theorem exists_of_present (h : Inv m) {id : Nat} (hp : m.handler.transactionPresent id) :
      ∃ (d : Nat) (q' : Request), m.handler.requests[d]? = some q' ∧ q'.stage.registered ∧
      m.handler.sameId q'.id id := by
  obtain ⟨p, hmem, hsame⟩ := Handler.transactionPresent_iff.1 hp
  obtain ⟨d, q', hq', hreg, rfl⟩ := h.registered.1 hmem
  exact ⟨d, q', hq', hreg, hsame⟩

/-- A call at a stage with the lock has it. -/
theorem dataLock_of_holds (h : Inv m) (hq : m.handler.requests[c]? = some q)
    (hholds : q.stage.holds) : m.handler.dataLock = some c :=
  h.lock.2 ⟨q, hq, hholds⟩

/-- A call that moves has the lock or finds it free, and leaves it free or has it then. -/
theorem lock_move (h : Inv m) (hq : m.handler.requests[c]? = some q)
    (hold : m.handler.dataLock = none ∨ m.handler.dataLock = some c)
    (hnew : lock = if st.holds then some c else none) :
    lock = some d ↔ ∃ q' : Request,
      (m.handler.move c st lock table).requests[d]? = some q' ∧ q'.stage.holds := by
  rw [hnew]
  constructor
  · intro hlock
    split at hlock
    · rename_i hholds
      obtain rfl := Option.some.inj hlock
      exact ⟨_, Handler.requests_move_self hq, hholds⟩
    · cases hlock
  · rintro ⟨q', hd, hholds⟩
    rcases (Handler.requests_move hq).1 hd with ⟨rfl, rfl⟩ | ⟨hdc, hd⟩
    · rw [if_pos hholds]
    · -- another call has the lock
      have hlock := h.dataLock_of_holds hd hholds
      rw [hlock] at hold
      rcases hold with hold | hold
      · cases hold
      · exact absurd (Option.some.inj hold) hdc

/-- No other call is between its look at the table and its entry. -/
theorem not_adding (h : Inv m) (hold : m.handler.dataLock = none ∨ m.handler.dataLock = some c)
    (hd : m.handler.requests[d]? = some q') (hdc : d ≠ c) : q'.stage ≠ .adding := by
  intro hst
  have hlock : m.handler.dataLock = some d := h.dataLock_of_holds hd (by rw [hst]; rfl)
  rw [hlock] at hold
  rcases hold with hold | hold
  · cases hold
  · exact hdc (Option.some.inj hold)

/-- Only the call that moves can find its id absent. -/
theorem adding_move (h : Inv m) (hq : m.handler.requests[c]? = some q)
    (hold : m.handler.dataLock = none ∨ m.handler.dataLock = some c)
    (hadd : st = .adding → ¬ (m.handler.move c st lock table).transactionPresent q.id)
    (hd : (m.handler.move c st lock table).requests[d]? = some q') (hst : q'.stage = .adding) :
    ¬ (m.handler.move c st lock table).transactionPresent q'.id := by
  rcases (Handler.requests_move hq).1 hd with ⟨rfl, rfl⟩ | ⟨hdc, hd⟩
  · exact hadd hst
  · exact absurd hst (h.not_adding hold hd hdc)

/-- After a move, too, a result that is decided is a success or a failure to send. -/
theorem decided_move (h : Inv m) (hq : m.handler.requests[c]? = some q)
    (hdec : ∀ res, st = .deleting res → res = .success ∨ res = .errTx) {res : Result}
    (hd : (m.handler.move c st lock table).requests[d]? = some q')
    (hst : q'.stage = .deleting res) : res = .success ∨ res = .errTx := by
  rcases (Handler.requests_move hq).1 hd with ⟨rfl, rfl⟩ | ⟨-, hd⟩
  · exact hdec res hst
  · exact h.decided hd hst

/-- **A move that leaves the table alone.** -/
theorem move (h : Inv m) (hq : m.handler.requests[c]? = some q)
    (hold : m.handler.dataLock = none ∨ m.handler.dataLock = some c)
    (hnew : lock = if st.holds then some c else none)
    (hreg : st.registered = q.stage.registered)
    (hadd : st = .adding → ¬ m.handler.transactionPresent q.id)
    (hdec : ∀ res, st = .deleting res → res = .success ∨ res = .errTx)
    (hset : Settled m.handler q → Settled m.handler { q with stage := st }) :
    Inv ⟨m.handler.move c st lock m.handler.statusTable, m.answered⟩ where
  registered := by
    intro p
    refine h.registered.trans ⟨?_, ?_⟩
    · rintro ⟨d, q', hd, hr, hp⟩
      by_cases hdc : d = c
      · subst hdc
        obtain rfl := Option.some.inj (hq.symm.trans hd)
        exact ⟨d, _, Handler.requests_move_self hq, hreg.trans hr, hp⟩
      · exact ⟨d, q', (Handler.requests_move hq).2 (.inr ⟨hdc, hd⟩), hr, hp⟩
    · rintro ⟨d, q', hd, hr, hp⟩
      rcases (Handler.requests_move hq).1 hd with ⟨rfl, rfl⟩ | ⟨-, hd⟩
      · exact ⟨d, q, hq, hreg.symm.trans hr, hp⟩
      · exact ⟨d, q', hd, hr, hp⟩
  unique := by
    intro a b qa qb ha hb hra hrb hsame
    rcases (Handler.requests_move hq).1 ha with ⟨rfl, rfl⟩ | ⟨-, ha'⟩ <;>
      rcases (Handler.requests_move hq).1 hb with ⟨rfl, rfl⟩ | ⟨-, hb'⟩
    · rfl
    · exact h.unique hq hb' (hreg.symm.trans hra) hrb hsame
    · exact h.unique ha' hq hra (hreg.symm.trans hrb) hsame
    · exact h.unique ha' hb' hra hrb hsame
  lock := h.lock_move hq hold hnew
  adding := h.adding_move hq hold hadd
  status := h.status
  decided := h.decided_move hq hdec
  answered := by
    intro d hd
    obtain ⟨q', hq', hs⟩ := h.answered hd
    by_cases hdc : d = c
    · subst hdc
      obtain rfl := Option.some.inj (hq.symm.trans hq')
      exact ⟨_, Handler.requests_move_self hq, hset hs⟩
    · exact ⟨q', (Handler.requests_move hq).2 (.inr ⟨hdc, hq'⟩), hs⟩

/-- The entry of a call that found none for its id. -/
theorem add (h : Inv m) (hq : m.handler.requests[c]? = some q) (hst : q.stage = .adding) :
    Inv ⟨m.handler.move c .added none (m.handler.statusTable.insert q.id .requestPending),
      m.answered⟩ := by
  have hold : m.handler.dataLock = some c := h.dataLock_of_holds hq (by rw [hst]; rfl)
  have habsent := h.adding hq hst
  -- no registered call has its id
  have hother : ∀ {d : Nat} {q' : Request}, m.handler.requests[d]? = some q' → q'.stage.registered →
      m.handler.sameId q'.id q.id → False := by
    intro d q' hd hr hsame
    exact habsent (Handler.transactionPresent_iff.2 ⟨q'.id, h.mem_table hd hr, hsame⟩)
  have hne : ∀ {d : Nat} {q' : Request}, m.handler.requests[d]? = some q' →
      q'.stage.registered → q'.id ≠ q.id := by
    intro d q' hd hr heq
    exact hother hd hr (Handler.sameId_iff.2 (by rw [heq]))
  constructor
  case registered =>
    intro p
    refine (AList.mem_insert _).trans ⟨?_, ?_⟩
    · rintro (rfl | hp)
      · exact ⟨c, _, Handler.requests_move_self hq, rfl, rfl⟩
      · obtain ⟨d, q', hd, hr, rfl⟩ := h.registered.1 hp
        have hdc : d ≠ c := by
          rintro rfl
          obtain rfl := Option.some.inj (hq.symm.trans hd)
          rw [hst] at hr
          cases hr
        exact ⟨d, q', (Handler.requests_move hq).2 (.inr ⟨hdc, hd⟩), hr, rfl⟩
    · rintro ⟨d, q', hd, hr, rfl⟩
      rcases (Handler.requests_move hq).1 hd with ⟨rfl, rfl⟩ | ⟨-, hd⟩
      · exact .inl rfl
      · exact .inr (h.mem_table hd hr)
  case unique =>
    intro a b qa qb ha hb hra hrb hsame
    rcases (Handler.requests_move hq).1 ha with ⟨rfl, rfl⟩ | ⟨-, ha'⟩ <;>
      rcases (Handler.requests_move hq).1 hb with ⟨rfl, rfl⟩ | ⟨-, hb'⟩
    · rfl
    · exact (hother hb' hrb (Handler.sameId_iff.2 (Handler.sameId_iff.1 hsame).symm)).elim
    · exact (hother ha' hra hsame).elim
    · exact h.unique ha' hb' hra hrb hsame
  case lock => exact h.lock_move hq (.inr hold) rfl
  case adding => exact h.adding_move hq (.inr hold) nofun
  case status =>
    intro p s hs
    by_cases hp : p = q.id
    · subst hp
      exact .inl (Option.some.inj (hs.symm.trans (AList.lookup_insert _)))
    · exact h.status ((AList.lookup_insert_ne hp).symm.trans hs)
  case decided => exact fun hd => h.decided_move hq (fun _ hdel => by cases hdel) hd
  case answered =>
    intro d hd
    obtain ⟨q', hq', hs⟩ := h.answered hd
    have hdc : d ≠ c := by
      rintro rfl
      obtain rfl := Option.some.inj (hq.symm.trans hq')
      unfold Settled at hs
      rw [hst] at hs
      rcases hs with ⟨hs, -⟩ | hs | hs <;> cases hs
    refine ⟨q', (Handler.requests_move hq).2 (.inr ⟨hdc, hq'⟩), ?_⟩
    rcases hs with ⟨hawait, hlookup⟩ | hs
    · have hne := hne hq' (Stage.registered_of_awaiting hawait)
      exact .inl ⟨hawait, (AList.lookup_insert_ne hne).trans hlookup⟩
    · exact .inr hs

/-- The end of a call: its entry was the only one for its id. -/
theorem delete (h : Inv m) (hq : m.handler.requests[c]? = some q) {res : Result}
    (hst : q.stage = .deleting res) :
    Inv ⟨m.handler.move c (.returned res) none (m.handler.statusTable.erase q.id), m.answered⟩ := by
  have hold : m.handler.dataLock = some c := h.dataLock_of_holds hq (by rw [hst]; rfl)
  have hcreg : q.stage.registered := by rw [hst]; rfl
  have hne : ∀ {d : Nat} {q' : Request}, m.handler.requests[d]? = some q' →
      q'.stage.registered → d ≠ c → q'.id ≠ q.id := by
    intro d q' hd hr hdc heq
    exact hdc (h.unique hd hq hr hcreg (Handler.sameId_iff.2 (by rw [heq])))
  constructor
  case registered =>
    intro p
    refine AList.mem_erase.trans ⟨?_, ?_⟩
    · rintro ⟨hp, hmem⟩
      obtain ⟨d, q', hd, hr, rfl⟩ := h.registered.1 hmem
      have hdc : d ≠ c := by
        rintro rfl
        obtain rfl := Option.some.inj (hq.symm.trans hd)
        exact hp rfl
      exact ⟨d, q', (Handler.requests_move hq).2 (.inr ⟨hdc, hd⟩), hr, rfl⟩
    · rintro ⟨d, q', hd, hr, rfl⟩
      rcases (Handler.requests_move hq).1 hd with ⟨rfl, rfl⟩ | ⟨hdc, hd⟩
      · cases hr
      · exact ⟨hne hd hr hdc, h.mem_table hd hr⟩
  case unique =>
    intro a b qa qb ha hb hra hrb hsame
    rcases (Handler.requests_move hq).1 ha with ⟨rfl, rfl⟩ | ⟨-, ha⟩
    · cases hra
    · rcases (Handler.requests_move hq).1 hb with ⟨rfl, rfl⟩ | ⟨-, hb⟩
      · cases hrb
      · exact h.unique ha hb hra hrb hsame
  case lock => exact h.lock_move hq (.inr hold) rfl
  case adding => exact h.adding_move hq (.inr hold) nofun
  case status =>
    intro p s hs
    by_cases hp : p = q.id
    · subst hp
      have hnone := AList.lookup_erase q.id m.handler.statusTable
      cases hs.symm.trans hnone
    · exact h.status ((AList.lookup_erase_ne hp).symm.trans hs)
  case decided => exact fun hd => h.decided_move hq (fun _ hdel => by cases hdel) hd
  case answered =>
    intro d hd
    obtain ⟨q', hq', hs⟩ := h.answered hd
    by_cases hdc : d = c
    · subst hdc
      obtain rfl := Option.some.inj (hq.symm.trans hq')
      refine ⟨_, Handler.requests_move_self hq, .inr (.inr ?_)⟩
      unfold Settled at hs
      rw [hst] at hs
      rcases hs with ⟨hs, -⟩ | hs | hs
      · cases hs
      · cases hs
        rfl
      · cases hs
    · refine ⟨q', (Handler.requests_move hq).2 (.inr ⟨hdc, hq'⟩), ?_⟩
      rcases hs with ⟨hawait, hlookup⟩ | hs
      · have hne := hne hq' (Stage.registered_of_awaiting hawait) hdc
        exact .inl ⟨hawait, (AList.lookup_erase_ne hne).trans hlookup⟩
      · exact .inr hs

/-- The key at which the search for a registered call's id stops is the call's own. -/
theorem found_eq (h : Inv m) (hq : m.handler.requests[c]? = some q) (hreg : q.stage.registered)
    {found : Option Nat} (hfinds : m.handler.finds q.id found) : found = some q.id := by
  cases found with
  | none =>
      have habsent : ¬ m.handler.transactionPresent q.id := by simpa [Handler.finds] using hfinds
      exact absurd (Handler.transactionPresent_iff.2
        ⟨q.id, h.mem_table hq hreg, Handler.sameId_iff.2 rfl⟩) habsent
  | some p =>
      obtain ⟨hmem, hsame⟩ : p ∈ m.handler.statusTable ∧ m.handler.sameId p q.id := by
        simpa [Handler.finds, AList.mem_keys] using hfinds
      obtain ⟨d, q', hd, hr, rfl⟩ := h.registered.1 hmem
      obtain rfl := h.unique hd hq hr hreg hsame
      obtain rfl := Option.some.inj (hd.symm.trans hq)
      rfl

/-- A call that does not wait again returns success. -/
theorem verdict_eq (h : Inv m) (hq : m.handler.requests[c]? = some q)
    (hreg : q.stage.registered) {found : Option Nat} (hfinds : m.handler.finds q.id found)
    {timedOut : Bool} {res : Result}
    (hres : Handler.verdict (found.bind m.handler.statusTable.lookup) timedOut = some res) :
    res = .success := by
  rw [h.found_eq hq hreg hfinds, Option.bind_some] at hres
  obtain ⟨s, hs⟩ := Option.isSome_iff_exists.1 (AList.lookup_isSome.2 (h.mem_table hq hreg))
  rw [hs] at hres
  rcases h.status hs with rfl | rfl
  · cases timedOut with
    | true => exact (Option.some.inj hres).symm
    | false => cases hres
  · exact (Option.some.inj hres).symm

/-- An answered call that looks for its status finds success. -/
theorem found_success (h : Inv m) (hq : m.handler.requests[c]? = some q)
    (hawait : q.stage.awaiting) {found : Option Nat} (hfinds : m.handler.finds q.id found)
    (hs : Settled m.handler q) :
    found.bind m.handler.statusTable.lookup = some .requestSuccess := by
  rw [h.found_eq hq (Stage.registered_of_awaiting hawait) hfinds]
  rcases hs with ⟨-, hs⟩ | hs | hs
  · exact hs
  · rw [hs] at hawait
    cases hawait
  · rw [hs] at hawait
    cases hawait

/-- **A step of a request call keeps the invariant.** -/
theorem advance (h : Inv m) (hq : m.handler.requests[c]? = some q) {h' : Handler}
    (hadv : Handler.Advances m.handler c q h') : Inv ⟨h', m.answered⟩ := by
  have hown : q.stage.holds → m.handler.dataLock = some c := h.dataLock_of_holds hq
  cases hadv with
  | reject hst hfree hpresent =>
      refine h.move hq (.inl hfree) rfl (by rw [hst]; rfl) nofun nofun fun hs => ?_
      exact hs.move hst nofun nofun nofun
  | enter hst hfree habsent =>
      refine h.move hq (.inl hfree) rfl (by rw [hst]; rfl) (fun _ => habsent) nofun fun hs => ?_
      exact hs.move hst nofun nofun nofun
  | add hst => exact h.add hq hst
  | relock hst hfree =>
      refine h.move hq (.inl hfree) rfl (by rw [hst]; rfl) nofun nofun fun hs => ?_
      exact hs.move hst nofun nofun nofun
  | transmit sent hst =>
      have hlock := hown (by rw [hst]; rfl)
      refine h.move hq (.inr hlock) ?_ ?_ ?_ ?_ fun hs => ?_
      · rw [hlock]
        cases sent <;> rfl
      · rw [hst]
        cases sent <;> rfl
      · cases sent <;> nofun
      · intro res hres
        cases sent with
        | true => cases hres
        | false => exact .inr (Stage.deleting.inj hres).symm
      · exact hs.move hst nofun nofun nofun
  | wait hst =>
      refine h.move hq (.inr (hown (by rw [hst]; rfl))) rfl (by rw [hst]; rfl) nofun nofun
        fun hs => ?_
      exact hs.move hst (fun _ => rfl) nofun nofun
  | wake hst hfree =>
      refine h.move hq (.inl hfree) rfl (by rw [hst]; rfl) nofun nofun fun hs => ?_
      exact hs.move hst (fun _ => rfl) nofun nofun
  | decide found timedOut res hst hfinds hres =>
      have hlock := hown (by rw [hst]; rfl)
      refine h.move hq (.inr hlock) hlock (by rw [hst]; rfl) nofun ?_ fun hs => ?_
      · intro res' hres'
        obtain rfl := Stage.deleting.inj hres'
        exact .inl (h.verdict_eq hq (by rw [hst]; rfl) hfinds hres)
      have hsuccess := h.found_success hq (by rw [hst]; rfl) hfinds hs
      rw [hsuccess] at hres
      obtain rfl := Option.some.inj hres
      exact .inr (.inl rfl)
  | retry found timedOut hst hfinds hnone =>
      refine h.move hq (.inr (hown (by rw [hst]; rfl))) rfl (by rw [hst]; rfl) nofun nofun
        fun hs => ?_
      have hsuccess := h.found_success hq (by rw [hst]; rfl) hfinds hs
      rw [hsuccess] at hnone
      cases hnone
  | delete res hst => exact h.delete hq hst

/-- A step that the request calls and the table have no part in. -/
theorem frame (h : Inv m) {h' : Handler} (hbuffer : h'.buffer = m.handler.buffer)
    (htable : h'.statusTable = m.handler.statusTable) (hlock : h'.dataLock = m.handler.dataLock)
    (hrequests : h'.requests = m.handler.requests) : Inv ⟨h', m.answered⟩ := by
  obtain ⟨_, _, _, _, _⟩ := h'
  subst hbuffer htable hlock hrequests
  exact ⟨h.registered, h.unique, h.lock, h.adding, h.status, h.decided, h.answered⟩

/-- A buffer that no call in progress uses is written. -/
theorem store (h : Inv m) {p : Nat} (huse : m.handler.inUse p = false) (text : Bytes) :
    Inv ⟨{ m.handler with buffer := Function.update m.handler.buffer p text }, m.answered⟩ := by
  have hne : ∀ {c : Nat} {q : Request}, m.handler.requests[c]? = some q → q.stage.result = none →
      q.id ≠ p := by
    intro c q hq hres hid
    unfold Handler.inUse at huse
    rw [Bool.or_eq_false_iff, List.any_eq_false] at huse
    have := huse.1 q (List.mem_of_getElem? hq)
    simp [hid, hres] at this
  have hreg : ∀ {st : Stage}, st.registered → st.result = none := by
    intro st hst
    cases st <;> first | rfl | cases hst
  have hkey : ∀ {k}, k ∈ m.handler.statusTable → k ≠ p := by
    intro k hk
    obtain ⟨c, q, hq, hr, rfl⟩ := h.registered.1 hk
    exact hne hq (hreg hr)
  have hsame : ∀ {i j}, i ≠ p → j ≠ p → Handler.sameId { m.handler with
      buffer := Function.update m.handler.buffer p text } i j = m.handler.sameId i j := by
    intro i j hi hj
    simp only [Handler.sameId, Function.update_of_ne hi, Function.update_of_ne hj]
  constructor
  case registered => exact h.registered
  case unique =>
    intro c d q q' hq hd hr hr' heq
    rw [hsame (hne hq (hreg hr)) (hne hd (hreg hr'))] at heq
    exact h.unique hq hd hr hr' heq
  case lock => exact h.lock
  case adding =>
    intro c q hq hst hpresent
    have hqp : q.id ≠ p := hne hq (by rw [hst]; rfl)
    obtain ⟨k, hk, heq⟩ := Handler.transactionPresent_iff.1 hpresent
    rw [hsame (hkey hk) hqp] at heq
    exact h.adding hq hst (Handler.transactionPresent_iff.2 ⟨k, hk, heq⟩)
  case status => exact h.status
  case decided => exact h.decided
  case answered => exact h.answered

/-- A new call has not done anything yet. -/
theorem request (h : Inv m) (p : Nat) :
    Inv ⟨{ m.handler with requests := m.handler.requests ++ [⟨p, .entered⟩] }, m.answered⟩ := by
  have hold : ∀ {c : Nat} {q : Request}, m.handler.requests[c]? = some q →
      (m.handler.requests ++ [⟨p, .entered⟩])[c]? = some q := by
    intro c q hq
    obtain ⟨hlt, -⟩ := List.getElem?_eq_some_iff.1 hq
    rw [List.getElem?_append_left hlt]
    exact hq
  have hnew : ∀ {c : Nat} {q : Request},
      (m.handler.requests ++ [⟨p, .entered⟩])[c]? = some q →
      m.handler.requests[c]? = some q ∨ q = ⟨p, .entered⟩ := by
    intro c q hq
    rw [List.getElem?_append] at hq
    split at hq
    · exact .inl hq
    · exact .inr (List.mem_singleton.1 (List.mem_of_getElem? hq))
  constructor
  case registered =>
    intro k
    refine h.registered.trans ⟨?_, ?_⟩
    · rintro ⟨c, q, hq, hr, hid⟩
      exact ⟨c, q, hold hq, hr, hid⟩
    · rintro ⟨c, q, hq, hr, hid⟩
      rcases hnew hq with hq | rfl
      · exact ⟨c, q, hq, hr, hid⟩
      · cases hr
  case unique =>
    intro c d q q' hq hd hr hr' hsame
    rcases hnew hq with hq | rfl
    · rcases hnew hd with hd | rfl
      · exact h.unique hq hd hr hr' hsame
      · cases hr'
    · cases hr
  case lock =>
    intro c
    refine h.lock.trans ⟨?_, ?_⟩
    · rintro ⟨q, hq, hholds⟩
      exact ⟨q, hold hq, hholds⟩
    · rintro ⟨q, hq, hholds⟩
      rcases hnew hq with hq | rfl
      · exact ⟨q, hq, hholds⟩
      · cases hholds
  case adding =>
    intro c q hq hst
    rcases hnew hq with hq | rfl
    · exact h.adding hq hst
    · cases hst
  case status => exact h.status
  case decided =>
    intro c q res hq hst
    rcases hnew hq with hq | rfl
    · exact h.decided hq hst
    · cases hst
  case answered =>
    intro c hc
    obtain ⟨q, hq, hs⟩ := h.answered hc
    exact ⟨q, hold hq, hs⟩

/-- A status that is written under a key of the table settles the call with that key, and
it is the only one that the response answers. -/
theorem write (h : Inv m) {resp : Response} (hkey : resp.id ∈ m.handler.statusTable)
    {h' : Handler} (hbuffer : h'.buffer = m.handler.buffer)
    (htable : h'.statusTable = m.handler.statusTable.insert resp.id .requestSuccess)
    (hlock : h'.dataLock = m.handler.dataLock) (hrequests : h'.requests = m.handler.requests)
    {answered : Nat → Bool} (hanswered : ∀ c, answered c → m.answered c ∨ ∃ q : Request,
      m.handler.requests[c]? = some q ∧ q.stage.awaiting ∧ m.handler.sameId q.id resp.id) :
    Inv ⟨h', answered⟩ := by
  obtain ⟨_, _, _, _, _⟩ := h'
  subst hbuffer htable hlock hrequests
  have hmem : ∀ {p}, p ∈ m.handler.statusTable.insert resp.id .requestSuccess ↔
      p ∈ m.handler.statusTable := by
    intro p
    rw [AList.mem_insert]
    refine ⟨?_, Or.inr⟩
    rintro (rfl | hp)
    · exact hkey
    · exact hp
  constructor
  case registered =>
    intro p
    exact hmem.trans h.registered
  case unique => exact h.unique
  case lock => exact h.lock
  case adding =>
    intro c q hq hst hpresent
    obtain ⟨p, hp, hsame⟩ := Handler.transactionPresent_iff.1 hpresent
    exact h.adding hq hst (Handler.transactionPresent_iff.2 ⟨p, hmem.1 hp, hsame⟩)
  case status =>
    intro p s hs
    by_cases hp : p = resp.id
    · subst hp
      exact .inr (Option.some.inj (hs.symm.trans (AList.lookup_insert _)))
    · exact h.status ((AList.lookup_insert_ne hp).symm.trans hs)
  case decided => exact h.decided
  case answered =>
    intro c hc
    rcases hanswered c hc with hc | ⟨q, hq, hawait, hsame⟩
    · obtain ⟨q, hq, hs⟩ := h.answered hc
      refine ⟨q, hq, ?_⟩
      rcases hs with ⟨hawait, hlookup⟩ | hs
      · refine .inl ⟨hawait, ?_⟩
        by_cases hid : q.id = resp.id
        · rw [hid]
          exact AList.lookup_insert _
        · exact (AList.lookup_insert_ne hid).trans hlookup
      · exact .inr hs
    · obtain ⟨d, q', hd, hr, hid⟩ := h.registered.1 hkey
      rw [← hid] at hsame
      obtain rfl := h.unique hq hd (Stage.registered_of_awaiting hawait) hr hsame
      obtain rfl := Option.some.inj (hq.symm.trans hd)
      refine ⟨q, hq, .inl ⟨hawait, ?_⟩⟩
      rw [hid]
      exact AList.lookup_insert _

/-- **A step of a response call keeps the invariant**, where it writes under a key. -/
theorem respond (h : Inv m) {r : Nat} (hk : m.keyed (.respond r)) {h' : Handler}
    (hstep : m.handler.respond r = some h') :
    Inv ⟨h', fun c => m.answered c || m.handler.answers (.respond r) c⟩ := by
  unfold Handler.respond at hstep
  cases hr : m.handler.responses[r]? with
  | none =>
      rw [hr] at hstep
      cases hstep
  | some resp =>
      rw [hr] at hstep
      dsimp only at hstep
      have hquiet : resp.stage ≠ .writing →
          (fun c => m.answered c || m.handler.answers (.respond r) c) = m.answered := by
        intro hst
        funext c
        unfold Handler.answers
        dsimp only
        rw [hr]
        cases m.handler.requests[c]? with
        | none => exact Bool.or_false _
        | some q => simp [hst]
      cases hst : resp.stage with
      | entered =>
          rw [hst] at hstep
          cases hstep
          rw [hquiet (by rw [hst]; nofun)]
          exact h.frame rfl rfl rfl rfl
      | found =>
          rw [hst] at hstep
          cases hstep
          rw [hquiet (by rw [hst]; nofun)]
          exact h.frame rfl rfl rfl rfl
      | writing =>
          have hkey : resp.id ∈ m.handler.statusTable := by
            simpa [Monitored.keyed, hr, hst, AList.mem_keys] using hk
          rw [hst] at hstep
          cases hstep
          refine h.write hkey ?_ ?_ ?_ ?_ fun c hc => ?_
          iterate 4 rfl
          rw [Bool.or_eq_true] at hc
          refine hc.imp_right fun hc => ?_
          unfold Handler.answers at hc
          dsimp only at hc
          rw [hr] at hc
          cases hq : m.handler.requests[c]? with
          | none =>
              rw [hq] at hc
              cases hc
          | some q =>
              rw [hq] at hc
              simp only [Bool.and_eq_true] at hc
              exact ⟨q, rfl, hc.1.2, hc.2⟩
      | notifying =>
          rw [hst] at hstep
          cases hstep
          rw [hquiet (by rw [hst]; nofun)]
          exact h.frame rfl rfl rfl rfl
      | returned =>
          rw [hst] at hstep
          cases hstep

/-- Only a step of a response call answers a request. -/
theorem answered_eq {a : Action} (ha : ∀ r, a ≠ .respond r) :
    (fun c => m.answered c || m.handler.answers a c) = m.answered := by
  funext c
  cases a with
  | respond r => exact absurd rfl (ha r)
  | store _ _ | manageSubscriptionRequest _ | manageSubscriptionResponse _ | advance _ _ =>
      exact Bool.or_false _

/-- **Every step that writes under keys only keeps the invariant.** -/
theorem step (h : Inv m) {a : Action} (hk : m.keyed a) (hstep : m.step a = some m') : Inv m' := by
  obtain ⟨h', hstep', rfl⟩ := Option.map_eq_some_iff.1 hstep
  cases a with
  | store p text =>
      rw [answered_eq (by nofun)]
      dsimp only [Handler.step] at hstep'
      split at hstep'
      · cases hstep'
      · rename_i huse
        cases hstep'
        exact h.store (Bool.eq_false_iff.2 huse) text
  | manageSubscriptionRequest p =>
      rw [answered_eq (by nofun)]
      cases hstep'
      exact h.request p
  | manageSubscriptionResponse p =>
      rw [answered_eq (by nofun)]
      cases hstep'
      exact h.frame rfl rfl rfl rfl
  | advance c ch =>
      rw [answered_eq (by nofun)]
      obtain ⟨q, hq, hadv⟩ := Handler.advances_of_advance hstep'
      exact h.advance hq hadv
  | respond r => exact h.respond hk hstep'

end Inv

/-- The invariant holds in every covered run. -/
theorem Monitored.Reached.inv (h : m.Reached) : Inv m := by
  induction h with
  | start buffer => exact Inv.start buffer
  | step a _ hk hstep ih => exact ih.step hk hstep

end NearRtRic.Xapp
