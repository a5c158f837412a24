/-
# The rendezvous of subscription requests and responses

A request whose response comes in time returns `SUBSCR_SUCCESS`, a call that returns
leaves no entry for its id, and a request is rejected as a duplicate only beside a
pending one with its id (`Agrees`).

`agrees_of_reached` is for the runs in which a status is written under a key of the
table only.  `not_agrees` is the run of one request and its response in two buffers:
the entry that the response makes stays, and the next request with the id is rejected.
-/

import NearRtRic.Xapp.RequestTable

namespace NearRtRic.Xapp

open CString

namespace Monitored

/-- The request calls in progress lead from `m` to `m'` by steps of theirs. -/
inductive Drives : Monitored → Monitored → Prop
  | refl (m : Monitored) : Drives m m
  | step {m m₁ m₂ : Monitored} {c : Nat} {ch : Choice} :
      m.step (.advance c ch) = some m₁ → Drives m₁ m₂ → Drives m m₂

/-- The call can return success, by steps of the request calls in progress alone. -/
def CanReturn (m : Monitored) (c : Nat) : Prop :=
  ∃ m', m.Drives m' ∧ m'.handler.result c = some .success

/-- The call returns in the step from `m` to `m'`. -/
def Returns (m m' : Monitored) (c : Nat) (res : Result) : Prop :=
  m.handler.result c = none ∧ m'.handler.result c = some res

/-- What the two sides of a subscription agree on. -/
structure Agrees (m : Monitored) : Prop where
  /-- An answered request returns nothing but success. -/
  success : ∀ c res, m.answered c → m.handler.result c = some res → res = .success
  /-- And it can return at any time. -/
  returns : ∀ c, m.answered c → m.CanReturn c
  /-- A call that returns leaves no entry for its id, but for the entry that it was
  rejected for. -/
  cleared : ∀ a m' c res q, m.step a = some m' → m.Returns m' c res →
    m'.handler.requests[c]? = some q → res ≠ .errDuplicate → ¬ m'.handler.transactionPresent q.id
  /-- A call is rejected beside another one with its id that is pending. -/
  duplicate : ∀ a m' c q, m.step a = some m' → m.Returns m' c .errDuplicate →
    m'.handler.requests[c]? = some q → ∃ d q', d ≠ c ∧ m'.handler.pending d ∧
      m'.handler.requests[d]? = some q' ∧ m'.handler.sameId q'.id q.id

end Monitored

variable {m m' : Monitored} {c d : Nat} {q q' : Request}

/-! ### Calls that go on to their return -/

/-- A step of a request call. -/
theorem Monitored.step_advance {ch : Choice} {h' : Handler}
    (hstep : m.handler.advance c ch = some h') :
    m.step (.advance c ch) = some ⟨h', m.answered⟩ := by
  have hanswers : (fun d => m.answered d || m.handler.answers (.advance c ch) d) = m.answered :=
    funext fun d => Bool.or_false _
  unfold Monitored.step
  rw [show m.handler.step (.advance c ch) = some h' from hstep, hanswers]
  rfl

/-- Steps after steps. -/
theorem Monitored.Drives.trans {m₁ m₂ m₃ : Monitored} (h : m₁.Drives m₂) (h' : m₂.Drives m₃) :
    m₁.Drives m₃ := by
  induction h with
  | refl m => exact h'
  | step hstep _ ih => exact .step hstep (ih h')

/-- One step of a request call. -/
theorem Monitored.Drives.one {ch : Choice} {h' : Handler}
    (hstep : m.handler.advance c ch = some h') : m.Drives ⟨h', m.answered⟩ :=
  .step (Monitored.step_advance hstep) (.refl _)

/-- These steps keep the invariant. -/
theorem Monitored.Drives.inv (h : m.Drives m') (hinv : Inv m) : Inv m' := by
  induction h with
  | refl m => exact hinv
  | step hstep _ ih => exact ih (hinv.step (a := .advance _ _) rfl hstep)

namespace Handler

variable {h : Handler} (ch : Choice)

/-- The id is added to the table as pending, and the lock released. -/
theorem advance_adding (hq : h.requests[c]? = some q) (hst : q.stage = .adding) :
    h.advance c ch =
      some (h.move c .added none (h.statusTable.insert q.id .requestPending)) := by
  unfold advance
  rw [hq]
  dsimp only
  rw [hst]

/-- The request is sent, or the call is on its way to report that it was not. -/
theorem advance_sending (hq : h.requests[c]? = some q) (hst : q.stage = .sending) :
    h.advance c ch =
      some (h.move c (if ch.sent then .sent else .deleting .errTx) h.dataLock h.statusTable) := by
  unfold advance
  rw [hq]
  dsimp only
  rw [hst]

/-- The sender waits, without the lock. -/
theorem advance_sent (hq : h.requests[c]? = some q) (hst : q.stage = .sent) :
    h.advance c ch = some (h.move c .waiting none h.statusTable) := by
  unfold advance
  rw [hq]
  dsimp only
  rw [hst]

/-- It wakes up as soon as it gets the lock. -/
theorem advance_waiting (hq : h.requests[c]? = some q) (hst : q.stage = .waiting)
    (hfree : h.dataLock = none) :
    h.advance c ch = some (h.move c .woken (some c) h.statusTable) := by
  unfold advance
  rw [hq]
  dsimp only
  rw [hst]
  exact if_neg (not_not.2 hfree)

/-- It decides by the status that it finds, or by the time. -/
theorem advance_woken (hq : h.requests[c]? = some q) (hst : q.stage = .woken)
    (hfinds : h.finds q.id ch.found) {res : Result}
    (hres : verdict (ch.found.bind h.statusTable.lookup) ch.timedOut = some res) :
    h.advance c ch = some (h.move c (.deleting res) h.dataLock h.statusTable) := by
  unfold advance
  rw [hq]
  dsimp only
  rw [hst]
  dsimp only
  rw [if_pos hfinds, hres]

/-- It deletes the entry of its id and returns. -/
theorem advance_deleting (hq : h.requests[c]? = some q) {res : Result}
    (hst : q.stage = .deleting res) :
    h.advance c ch = some (h.move c (.returned res) none (h.statusTable.erase q.id)) := by
  unfold advance
  rw [hq]
  dsimp only
  rw [hst]

end Handler

/-- The call `d` can go on until it releases the lock, the other calls staying where they
are. -/
def Monitored.Frees (m : Monitored) (d : Nat) : Prop :=
  ∃ m', m.Drives m' ∧ m'.handler.dataLock = none ∧ m'.answered = m.answered ∧
    ∀ (c : Nat) (q : Request), c ≠ d → m.handler.requests[c]? = some q →
      m'.handler.requests[c]? = some q

/-- A step that releases the lock. -/
theorem Monitored.Frees.of_move {ch : Choice} {st : Stage}
    {table : AList fun _ : Nat => SubscriptionStatus}
    (hq : m.handler.requests[d]? = some q)
    (hstep : m.handler.advance d ch = some (m.handler.move d st none table)) : m.Frees d :=
  ⟨_, .one hstep, rfl, rfl, fun _ _ hcd hc => (Handler.requests_move hq).2 (.inr ⟨hcd, hc⟩)⟩

/-- A step before others that do. -/
theorem Monitored.Frees.step {ch : Choice} {st : Stage} {lock : Option Nat}
    {table : AList fun _ : Nat => SubscriptionStatus}
    (hq : m.handler.requests[d]? = some q)
    (hstep : m.handler.advance d ch = some (m.handler.move d st lock table))
    (h : Frees ⟨m.handler.move d st lock table, m.answered⟩ d) : m.Frees d := by
  obtain ⟨m', hdrives, hfree, hanswered, hother⟩ := h
  refine ⟨m', (Drives.one hstep).trans hdrives, hfree, hanswered, fun c q' hcd hc => ?_⟩
  exact hother c q' hcd ((Handler.requests_move hq).2 (.inr ⟨hcd, hc⟩))

namespace Inv

/-- A registered call that looks for its status finds its own key. -/
theorem finds_self (h : Inv m) (hq : m.handler.requests[c]? = some q)
    (hreg : q.stage.registered) : m.handler.finds q.id (some q.id) := by
  have hmem := h.mem_table hq hreg
  have hsame : m.handler.sameId q.id q.id := Handler.sameId_iff.2 rfl
  simp only [Handler.finds, Bool.and_eq_true, decide_eq_true_eq]
  exact ⟨AList.mem_keys.1 hmem, hsame⟩

/-- Whoever has the lock can release it. -/
theorem frees (h : Inv m) (hlock : m.handler.dataLock = some d) : m.Frees d := by
  obtain ⟨q, hq, hholds⟩ := h.lock.1 hlock
  have hself : ∀ {st lock table}, (m.handler.move d st lock table).requests[d]? =
      some { q with stage := st } := Handler.requests_move_self hq
  cases hst : q.stage with
  | adding => exact .of_move hq (Handler.advance_adding {} hq hst)
  | sending =>
      refine .step hq (Handler.advance_sending {} hq hst) ?_
      exact .of_move hself (Handler.advance_sent {} hself rfl)
  | sent => exact .of_move hq (Handler.advance_sent {} hq hst)
  | woken =>
      -- whatever its status is, it can be late enough to return
      have hreg : q.stage.registered := by rw [hst]; rfl
      obtain ⟨s, hs⟩ := Option.isSome_iff_exists.1 (AList.lookup_isSome.2 (h.mem_table hq hreg))
      have hres : Handler.verdict ((some q.id).bind m.handler.statusTable.lookup) true =
          some .success := by
        rw [Option.bind_some, hs]
        rcases h.status hs with rfl | rfl
        · rfl
        · rfl
      refine .step hq (Handler.advance_woken { found := some q.id, timedOut := true } hq hst
        (h.finds_self hq hreg) hres) ?_
      exact .of_move hself (Handler.advance_deleting {} hself rfl)
  | deleting res => exact .of_move hq (Handler.advance_deleting {} hq hst)
  | entered =>
      rw [hst] at hholds
      cases hholds
  | added =>
      rw [hst] at hholds
      cases hholds
  | waiting =>
      rw [hst] at hholds
      cases hholds
  | returned res =>
      rw [hst] at hholds
      cases hholds

/-- A call that can return behind some steps can return before them. -/
theorem canReturn_of_drives (hdrives : m.Drives m') (h : m'.CanReturn c) : m.CanReturn c := by
  obtain ⟨m'', hrest, hres⟩ := h
  exact ⟨m'', hdrives.trans hrest, hres⟩

/-- On its way to report success a call can return. -/
theorem canReturn_of_deleting (hq : m.handler.requests[c]? = some q)
    (hst : q.stage = .deleting .success) : m.CanReturn c := by
  refine ⟨_, .one (Handler.advance_deleting {} hq hst), ?_⟩
  unfold Handler.result
  rw [Handler.requests_move_self hq]
  rfl

/-- It can return when it is awake and its status is settled. -/
theorem canReturn_of_woken (h : Inv m) (hq : m.handler.requests[c]? = some q)
    (hst : q.stage = .woken) (hs : Settled m.handler q) : m.CanReturn c := by
  have hawait : q.stage.awaiting := by rw [hst]; rfl
  have hfinds := h.finds_self hq (Stage.registered_of_awaiting hawait)
  have hres := congrArg (Handler.verdict · false) (h.found_success hq hawait hfinds hs)
  refine canReturn_of_drives
    (.one (Handler.advance_woken { found := some q.id } hq hst hfinds hres)) ?_
  exact canReturn_of_deleting (Handler.requests_move_self hq) rfl

/-- Or when it waits for a lock that is free. -/
theorem canReturn_of_waiting_free (h : Inv m) (hq : m.handler.requests[c]? = some q)
    (hst : q.stage = .waiting) (hs : Settled m.handler q) (hfree : m.handler.dataLock = none) :
    m.CanReturn c := by
  have hstep := Handler.advance_waiting {} hq hst hfree
  have hinv : Inv ⟨_, m.answered⟩ := (Monitored.Drives.one hstep).inv h
  refine canReturn_of_drives (.one hstep) ?_
  refine hinv.canReturn_of_woken (Handler.requests_move_self hq) rfl ?_
  exact hs.move hst (fun _ => rfl) nofun nofun

/-- Or when another call has the lock, which can release it first. -/
theorem canReturn_of_waiting (h : Inv m) (hanswered : m.answered c)
    (hq : m.handler.requests[c]? = some q) (hst : q.stage = .waiting) : m.CanReturn c := by
  -- the lock is released first
  have hfrees : ∃ m', m.Drives m' ∧ m'.handler.dataLock = none ∧ m'.answered = m.answered ∧
      m'.handler.requests[c]? = some q := by
    cases hlock : m.handler.dataLock with
    | none => exact ⟨m, .refl m, hlock, rfl, hq⟩
    | some d =>
        have hcd : c ≠ d := by
          rintro rfl
          obtain ⟨q', hq', hholds⟩ := h.lock.1 hlock
          obtain rfl := Option.some.inj (hq.symm.trans hq')
          rw [hst] at hholds
          cases hholds
        obtain ⟨m', hdrives, hfree, heq, hother⟩ := h.frees hlock
        exact ⟨m', hdrives, hfree, heq, hother c q hcd hq⟩
  obtain ⟨m', hdrives, hfree, heq, hq'⟩ := hfrees
  have hinv := hdrives.inv h
  refine canReturn_of_drives hdrives ?_
  obtain ⟨q'', hq'', hs⟩ := hinv.answered (heq ▸ hanswered)
  obtain rfl := Option.some.inj (hq'.symm.trans hq'')
  exact hinv.canReturn_of_waiting_free hq' hst hs hfree

/-- **An answered call can return success**, wherever the calls are. -/
theorem canReturn (h : Inv m) (hanswered : m.answered c) : m.CanReturn c := by
  obtain ⟨q, hq, hs⟩ := h.answered hanswered
  rcases hs with ⟨hawait, hlookup⟩ | hst | hst
  · have hs : Settled m.handler q := .inl ⟨hawait, hlookup⟩
    cases hst : q.stage with
    | sent =>
        have hstep := Handler.advance_sent {} hq hst
        have hinv : Inv ⟨_, m.answered⟩ := (Monitored.Drives.one hstep).inv h
        refine canReturn_of_drives (.one hstep) ?_
        exact hinv.canReturn_of_waiting hanswered (Handler.requests_move_self hq) rfl
    | waiting => exact h.canReturn_of_waiting hanswered hq hst
    | woken => exact h.canReturn_of_woken hq hst hs
    | entered | adding | added | sending | deleting res | returned res =>
        rw [hst] at hawait
        cases hawait
  · exact canReturn_of_deleting hq hst
  · refine ⟨m, .refl m, ?_⟩
    unfold Handler.result
    rw [hq, Option.bind_some, hst]
    rfl

end Inv

/-! ### What the calls return -/

namespace Handler

variable {h h' : Handler} {a : Action} {res : Result}

/-- A move sets the result of its own call and of no other. -/
theorem result_move (hq : h.requests[c]? = some q) {st : Stage} {lock : Option Nat}
    {table : AList fun _ : Nat => SubscriptionStatus} :
    (h.move c st lock table).result d = if d = c then st.result else h.result d := by
  unfold result move
  rw [List.getElem?_modify]
  by_cases hdc : d = c
  · subst hdc
    simp [hq]
  · have hcd : ¬ c = d := fun h => hdc h.symm
    simp [hdc, hcd]

/-- **A call returns in two ways**: rejected by what it finds, or after it has deleted its
entry. -/
theorem returns_cases (hstep : h.step a = some h') (hnone : h.result c = none)
    (hres : h'.result c = some res) : ∃ q, h.requests[c]? = some q ∧
      (h.transactionPresent q.id ∧ res = .errDuplicate ∧ q.stage = .entered ∧
          h' = h.move c (.returned .errDuplicate) none h.statusTable ∨
        q.stage = .deleting res ∧
          h' = h.move c (.returned res) none (h.statusTable.erase q.id)) := by
  have hsame : h'.requests ≠ h.requests := by
    intro heq
    unfold result at hnone hres
    rw [heq, hnone] at hres
    cases hres
  cases a with
  | store p text =>
      dsimp only [step] at hstep
      split at hstep
      · cases hstep
      · cases hstep
        exact absurd rfl hsame
  | manageSubscriptionRequest p =>
      cases hstep
      unfold result at hnone hres
      dsimp only at hres
      rw [List.getElem?_append] at hres
      split at hres
      · rw [hnone] at hres
        cases hres
      · obtain ⟨q, hq, hstage⟩ := Option.bind_eq_some_iff.1 hres
        obtain rfl := List.mem_singleton.1 (List.mem_of_getElem? hq)
        cases hstage
  | manageSubscriptionResponse p =>
      cases hstep
      exact absurd rfl hsame
  | advance d ch =>
      obtain ⟨q, hq, hadv⟩ := advances_of_advance hstep
      have hmove : ∀ {st lock table}, h' = h.move d st lock table →
          c = d ∧ st.result = some res := by
        rintro st lock table rfl
        rw [result_move hq] at hres
        split at hres
        · rename_i hcd
          exact ⟨hcd, hres⟩
        · rw [hnone] at hres
          cases hres
      cases hadv with
      | reject hst hfree hpresent =>
          obtain ⟨rfl, hst'⟩ := hmove rfl
          obtain rfl := Option.some.inj hst'
          exact ⟨q, hq, .inl ⟨hpresent, rfl, hst, rfl⟩⟩
      | delete res' hst =>
          obtain ⟨rfl, hst'⟩ := hmove rfl
          obtain rfl := Option.some.inj hst'
          exact ⟨q, hq, .inr ⟨hst, rfl⟩⟩
      | transmit sent hst =>
          obtain ⟨-, hst'⟩ := hmove rfl
          cases sent <;> cases hst'
      | enter | add | relock | wait | wake | decide | retry =>
          obtain ⟨-, hst'⟩ := hmove rfl
          cases hst'
  | respond r =>
      dsimp only [step] at hstep
      refine absurd ?_ hsame
      unfold respond at hstep
      split at hstep
      · cases hstep
      · split at hstep <;> cases hstep <;> rfl

end Handler

/-- **What the invariant gives.** -/
theorem Inv.agrees (h : Inv m) : m.Agrees where
  success := by
    intro c res hanswered hres
    obtain ⟨q, hq, hs⟩ := h.answered hanswered
    unfold Handler.result at hres
    rw [hq, Option.bind_some] at hres
    rcases hs with ⟨hawait, -⟩ | hst | hst
    · cases hst : q.stage with
      | returned res' =>
          rw [hst] at hawait
          cases hawait
      | entered | adding | added | sending | sent | waiting | woken | deleting res' =>
          rw [hst] at hres
          cases hres
    · rw [hst] at hres
      cases hres
    · rw [hst] at hres
      exact (Option.some.inj hres).symm
  returns := fun c hanswered => h.canReturn hanswered
  cleared := by
    intro a m' c res q hstep hret hq' hdup hpresent
    obtain ⟨h', hstep', rfl⟩ := Option.map_eq_some_iff.1 hstep
    obtain ⟨q₀, hq, hcase⟩ := Handler.returns_cases hstep' hret.1 hret.2
    rcases hcase with ⟨-, hres, -⟩ | ⟨hst, rfl⟩
    · exact hdup hres
    · obtain rfl := Option.some.inj ((Handler.requests_move_self hq).symm.trans hq')
      obtain ⟨p, hp, hsame⟩ := Handler.transactionPresent_iff.1 hpresent
      obtain ⟨hne, hmem⟩ := AList.mem_erase.1 hp
      -- another entry with its text would be the one of another call
      obtain ⟨d, q', hd, hr, rfl⟩ := h.registered.1 hmem
      obtain rfl := h.unique hd hq hr (by rw [hst]; rfl) hsame
      obtain rfl := Option.some.inj (hd.symm.trans hq)
      exact hne rfl
  duplicate := by
    intro a m' c q hstep hret hq'
    obtain ⟨h', hstep', rfl⟩ := Option.map_eq_some_iff.1 hstep
    obtain ⟨q₀, hq, hcase⟩ := Handler.returns_cases hstep' hret.1 hret.2
    rcases hcase with ⟨hpresent, -, hst, rfl⟩ | ⟨hst, -⟩
    · obtain rfl := Option.some.inj ((Handler.requests_move_self hq).symm.trans hq')
      obtain ⟨d, q', hd, hr, hsame⟩ := h.exists_of_present hpresent
      have hdc : d ≠ c := by
        rintro rfl
        obtain rfl := Option.some.inj (hd.symm.trans hq)
        rw [hst] at hr
        cases hr
      have hd' : (m.handler.move c (.returned .errDuplicate) none
          m.handler.statusTable).requests[d]? = some q' :=
        (Handler.requests_move hq).2 (.inr ⟨hdc, hd⟩)
      refine ⟨d, q', hdc, ?_, hd', hsame⟩
      unfold Handler.pending
      dsimp only
      rw [hd']
      exact hr
    · rcases h.decided hq hst with hres | hres <;> cases hres

/-- **Requests and responses agree** in every run in which a status is written under keys of
the table only. -/
theorem agrees_of_reached (h : m.Reached) : m.Agrees := h.inv.agrees

/-- A run that stops where a status would be written under a new key. -/
def Monitored.keyedRun (m : Monitored) : List Action → Option Monitored
  | [] => some m
  | a :: as => if m.keyed a then (m.step a).bind (keyedRun · as) else none

/-- A run that was not stopped is one that is covered. -/
theorem Monitored.Reached.keyedRun (h : m.Reached) {as : List Action}
    (hrun : m.keyedRun as = some m') : m'.Reached := by
  induction as generalizing m with
  | nil =>
      obtain rfl := Option.some.inj hrun
      exact h
  | cons a as ih =>
      unfold Monitored.keyedRun at hrun
      split at hrun
      · rename_i hk
        obtain ⟨m₁, hstep, hrest⟩ := Option.bind_eq_some_iff.1 hrun
        exact ih (h.step a hk hstep) hrest
      · cases hrun

/-- A request in buffer 0 and its response in buffer `p`, up to where the request has read
the status at the key `p`. -/
def exchange (p : Nat) : List Action :=
  [.manageSubscriptionRequest 0, .advance 0 {}, .advance 0 {}, .advance 0 {}, .advance 0 {},
    .advance 0 {}, .manageSubscriptionResponse p, .respond 0, .respond 0, .respond 0, .respond 0,
    .advance 0 {}, .advance 0 { found := some p }]

/-- The request returns in a run that is covered, of a response in its buffer. -/
theorem agrees_of_reached_exchange : ∃ m : Monitored, m.answered 0 ∧
    m.handler.result 0 = some .success ∧ m.Agrees := by
  have hrun : ((Monitored.start fun _ => ascii "gnb").keyedRun (exchange 0 ++ [.advance 0 {}])).any
      fun m => m.answered 0 && m.handler.result 0 = some .success := by
    decide +kernel
  obtain ⟨m, hm, hany⟩ := (Option.any_eq_true ..).1 hrun
  simp only [Bool.and_eq_true, decide_eq_true_eq] at hany
  exact ⟨m, hany.1, hany.2, agrees_of_reached ((Monitored.Reached.start _).keyedRun hm)⟩

/-- The entry of a response in another buffer is there when the request returns. -/
theorem not_agrees : ∃ (as : List Action) (m : Monitored),
    (Monitored.start fun _ => ascii "gnb").run as = some m ∧ ¬ m.Agrees := by
  have hrun : ((Monitored.start fun _ => ascii "gnb").run (exchange 1)).any fun m =>
      (m.step (.advance 0 {})).any fun m' => m.handler.result 0 = none &&
        m'.handler.requests[0]? = some ⟨0, .returned .success⟩ &&
        m'.handler.transactionPresent 0 := by
    decide +kernel
  obtain ⟨m, hm, hany⟩ := (Option.any_eq_true ..).1 hrun
  obtain ⟨m', hstep, hany⟩ := (Option.any_eq_true ..).1 hany
  simp only [Bool.and_eq_true, decide_eq_true_eq] at hany
  obtain ⟨⟨hnone, hq⟩, hpresent⟩ := hany
  refine ⟨exchange 1, m, hm, fun h => ?_⟩
  refine h.cleared _ m' 0 .success _ hstep ⟨hnone, ?_⟩ hq nofun hpresent
  unfold Handler.result
  rw [hq]
  rfl

-- The next request with the id is rejected, beside no call that is pending.
example : ((Monitored.start fun _ => ascii "gnb").run (exchange 1 ++
    [.advance 0 {}, .manageSubscriptionRequest 0, .advance 1 {}])).any (fun m =>
      m.handler.result 1 = some .errDuplicate && !m.handler.pending 0) = true := by
  decide +kernel

end NearRtRic.Xapp
