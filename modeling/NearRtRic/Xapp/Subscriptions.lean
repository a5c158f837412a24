/-
# Subscription requests and responses of the xApp

`SubscriptionHandler` in `subs_mgmt.hpp` and `subs_mgmt.cc`.  A thread that calls
`manage_subscription_request` puts the transaction id into `status_table`, sends the
message and waits on a condition variable; the thread that receives the response
calls `manage_subscription_response`, which writes the status and wakes the waiting
threads.  The first takes `_data_lock` around each of its steps, the second takes no
lock at all.

A transaction id is a pointer to a C string.  The table is a hash map from pointers;
`transaction_present` and `find_transaction` compare the strings that the keys point
to, `operator[]` and `find` the pointers.

One step of a call is what it does between two points at which another thread can
come in.  `find_transaction` returns an iterator into its own copy of the table; the
status is read through it after the copy is gone, and is taken to be the copied one.
`trans_table` and the decoding of the response for the log are left out.
-/

import Mathlib.Data.List.AList
import NearRtRic.CString.Basic

namespace NearRtRic.Xapp

open CString

/-- `Subscription_Status_Types`. -/
inductive SubscriptionStatus where
  | requestPending
  | requestSuccess
  | requestFailed
  | deleteRequestPending
  | deleteRequestSuccess
  | deleteRequestFailed
  | requestDuplicate
  deriving DecidableEq, Repr

/-- What `manage_subscription_request` returns, without `SUBSCR_`. -/
inductive Result where
  | success
  | errTx
  | errFail
  | errUnknown
  | errDuplicate
  deriving DecidableEq, Repr

/-- Where a call of `manage_subscription_request` is. -/
inductive Stage where
  /-- Before it has taken the lock for the first time. -/
  | entered
  /-- It has the lock and found no entry for its id. -/
  | adding
  /-- Its entry is in the table, and the lock released. -/
  | added
  /-- It has the lock again and is about to call `tx`. -/
  | sending
  /-- The message is out and the time recorded. -/
  | sent
  /-- In `wait_for`. -/
  | waiting
  /-- It has come out of `wait_for`, with the lock. -/
  | woken
  /-- It is about to delete its entry and return. -/
  | deleting (res : Result)
  | returned (res : Result)
  deriving DecidableEq, Repr

/-- The call has `_data_lock`. -/
def Stage.holds : Stage → Bool
  | .adding | .sending | .sent | .woken | .deleting _ => true
  | _ => false

/-- The call has put its entry into the table and not deleted it yet. -/
def Stage.registered : Stage → Bool
  | .added | .sending | .sent | .waiting | .woken | .deleting _ => true
  | _ => false

/-- The message is out, and what the call will return is not decided. -/
def Stage.awaiting : Stage → Bool
  | .sent | .waiting | .woken => true
  | _ => false

def Stage.result : Stage → Option Result
  | .returned res => some res
  | _ => none

/-- A call of `manage_subscription_request`. -/
structure Request where
  /-- The buffer of its transaction id. -/
  id : Nat
  stage : Stage
  deriving DecidableEq, Repr

/-- Where a call of `manage_subscription_response` is. -/
inductive ResponseStage where
  | entered
  /-- `is_request_entry` was true. -/
  | found
  /-- `transaction_present` was true in `set_request_status`. -/
  | writing
  /-- Before `notify_all`. -/
  | notifying
  | returned
  deriving DecidableEq, Repr

structure Response where
  id : Nat
  stage : ResponseStage
  deriving DecidableEq, Repr

/-- The handler, the buffers that ids are in, and the calls made so far. -/
structure Handler where
  buffer : Nat → Bytes
  statusTable : AList fun _ : Nat => SubscriptionStatus
  /-- The call that has `_data_lock`. -/
  dataLock : Option Nat
  requests : List Request
  responses : List Response

/-- What a step of a request depends on beside the state. -/
structure Choice where
  /-- What `tx` returns. -/
  sent : Bool := true
  /-- More than `_time_out` has passed since the message was sent. -/
  timedOut : Bool := false
  /-- The key at which `find_transaction` stops, in the order of the hash map. -/
  found : Option Nat := none

/-- A step of the system. -/
inductive Action where
  /-- A buffer is written that no call in progress has its id in. -/
  | store (p : Nat) (text : Bytes)
  | manageSubscriptionRequest (p : Nat)
  | manageSubscriptionResponse (p : Nat)
  /-- A request call goes on. -/
  | advance (c : Nat) (ch : Choice)
  /-- A response call goes on. -/
  | respond (r : Nat)

namespace Handler

variable (h : Handler)

/-- `strcmp` of the ids in two buffers is 0. -/
def sameId (p q : Nat) : Bool := visible (h.buffer p) = visible (h.buffer q)

def transactionPresent (id : Nat) : Bool := h.statusTable.keys.any (h.sameId · id)

/-- `find_transaction` stops at `found`. -/
def finds (id : Nat) : Option Nat → Bool
  | some p => p ∈ h.statusTable.keys && h.sameId p id
  | none => !h.transactionPresent id

/-- What the loop makes of a status, `none` being -1: a result, or to wait again. -/
def verdict : Option SubscriptionStatus → Bool → Option Result
  | some .requestSuccess, _ => some .success
  -- the response is taken to have come, instead of `SUBSCR_ERR_TIMEOUT`
  | some .requestPending, timedOut => if timedOut then some .success else none
  | some .requestFailed, _ => some .errFail
  | some .requestDuplicate, _ => some .errDuplicate
  | _, _ => some .errUnknown

/-- The call `c` goes to a stage, with the lock and the table as given. -/
def move (c : Nat) (stage : Stage) (lock : Option Nat)
    (table : AList fun _ : Nat => SubscriptionStatus) : Handler :=
  { h with
    statusTable := table
    dataLock := lock
    requests := h.requests.modify c fun q => { q with stage } }

/-- `manage_subscription_request`, one step. -/
def advance (c : Nat) (ch : Choice) : Option Handler :=
  match h.requests[c]? with
  | none => none
  | some q =>
      match q.stage with
      | .entered =>
          if h.dataLock ≠ none then none
          else if h.transactionPresent q.id then
            some (h.move c (.returned .errDuplicate) none h.statusTable)
          else some (h.move c .adding (some c) h.statusTable)
      | .adding => some (h.move c .added none (h.statusTable.insert q.id .requestPending))
      | .added =>
          if h.dataLock ≠ none then none else some (h.move c .sending (some c) h.statusTable)
      | .sending =>
          some (h.move c (if ch.sent then .sent else .deleting .errTx) h.dataLock h.statusTable)
      | .sent => some (h.move c .waiting none h.statusTable)
      -- woken up by a response, by the clock or spuriously
      | .waiting =>
          if h.dataLock ≠ none then none else some (h.move c .woken (some c) h.statusTable)
      | .woken =>
          if h.finds q.id ch.found then
            match verdict (ch.found.bind h.statusTable.lookup) ch.timedOut with
            | some res => some (h.move c (.deleting res) h.dataLock h.statusTable)
            | none => some (h.move c .waiting none h.statusTable)
          else none
      | .deleting res => some (h.move c (.returned res) none (h.statusTable.erase q.id))
      | .returned _ => none

def setResponse (r : Nat) (stage : ResponseStage) : Handler :=
  { h with responses := h.responses.modify r fun q => { q with stage } }

/-- `manage_subscription_response`, one step. -/
def respond (r : Nat) : Option Handler :=
  match h.responses[r]? with
  | none => none
  | some q =>
      match q.stage with
      | .entered => some (h.setResponse r (if h.transactionPresent q.id then .found else .returned))
      | .found =>
          some (h.setResponse r (if h.transactionPresent q.id then .writing else .notifying))
      | .writing =>
          some { h.setResponse r .notifying with
            statusTable := h.statusTable.insert q.id .requestSuccess }
      | .notifying => some (h.setResponse r .returned)
      | .returned => none

/-- A call in progress has its id in the buffer. -/
def inUse (p : Nat) : Bool :=
  h.requests.any (fun q => q.id = p && q.stage.result.isNone) ||
    h.responses.any fun q => q.id = p && q.stage ≠ .returned

def step : Action → Option Handler
  | .store p text => if h.inUse p then none else some { h with
      buffer := Function.update h.buffer p text }
  | .manageSubscriptionRequest p => some { h with requests := h.requests ++ [⟨p, .entered⟩] }
  | .manageSubscriptionResponse p => some { h with responses := h.responses ++ [⟨p, .entered⟩] }
  | .advance c ch => h.advance c ch
  | .respond r => h.respond r

/-- What a call has returned. -/
def result (c : Nat) : Option Result := h.requests[c]?.bind fun q => q.stage.result

/-- The call is pending: it has an entry in the table. -/
def pending (c : Nat) : Bool := h.requests[c]?.any fun q => q.stage.registered

end Handler

/-- A handler before its first call. -/
def Handler.start (buffer : Nat → Bytes) : Handler := ⟨buffer, ∅, none, [], []⟩

end NearRtRic.Xapp
