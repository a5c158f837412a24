/-
# `NGET` and `NDEL`

`NGET` scans the keyspace for the keys that match a pattern and fetches their
values page by page; `NDEL` removes them.  `NGET.NOATOMIC` runs on a thread of its
own and holds the lock of the thread-safe context for one page at a time, so other
clients write between the pages.

The loops of the source have no bound.  The model runs them for a number of
rounds, and answers `none` where the rounds did not suffice.
-/

import NearRtRic.Exstrings.RedisModule
import NearRtRic.Effect.Interleave

namespace NearRtRic.Exstrings

open Effect Program

/-- `ExstringsStatus`. -/
inductive ExstringsStatus
  | NO_ERRORS
  | ERROR_AND_REPLY_SENT
  | NOT_SET
  deriving DecidableEq, Repr

structure NgetArgs where
  key : Bytes
  count : Bytes
  deriving DecidableEq, Repr

/-- `def_count_str`: `50`. -/
def defCountStr : Bytes := [53, 48]

/-- The option `count`. -/
def countOption : Bytes := [99, 111, 117, 110, 116]

/-- `readNgetArgs`. -/
def readNgetArgs (stringToLongLong : Bytes → Option Int64) (argv : List Bytes) :
    Prog (ExstringsStatus × Option NgetArgs) :=
  match argv with
  | [_, key] => return (.NO_ERRORS, some ⟨key, defCountStr⟩)
  | [_, key, option, count] => do
      if ¬ CString.strcaseeq option countOption then
        call (.reply (.error "-ERR syntax error"))
        return (.ERROR_AND_REPLY_SENT, none)
      match stringToLongLong count with
      | some number =>
          if number < 1 then
            call (.reply (.error "-ERR value is not an integer or out of range"))
            return (.ERROR_AND_REPLY_SENT, none)
          return (.NO_ERRORS, some ⟨key, count⟩)
      | none =>
          call (.reply (.error "-ERR value is not an integer or out of range"))
          return (.ERROR_AND_REPLY_SENT, none)
  | _ => do
      call (.reply .wrongArity)
      return (.ERROR_AND_REPLY_SENT, none)

/-- `forwardIfError`, with what is left of the reply: nothing, once it was
forwarded and freed.  The status is overwritten in either case. -/
def forwardIfError {α : Type} (reply : Except String α) : Prog (ExstringsStatus × Option α) :=
  match reply with
  | .error message => do
      call (.reply (.callReply (.error message)))
      return (.NO_ERRORS, none)
  | .ok reply => return (.NO_ERRORS, some reply)

/-- `scanSome`: the next cursor, a page of keys unless it is empty, and the status.
The look into a reply that was freed is a panic. -/
def scanSome (args : NgetArgs) (cursor : Int64) :
    Prog (Int64 × Option (List Bytes) × ExstringsStatus) := do
  let (status, reply) ← forwardIfError (← call (.scan cursor args.key args.count))
  if status = .ERROR_AND_REPLY_SENT then return (cursor, none, status)
  let (cursor, keys) ← orPanic reply
  if keys.length = 0 then return (cursor, none, .NO_ERRORS)
  if ¬ (← call .alloc) then
    call (.reply (.error "-ERR Out of memory"))
    return (cursor, none, .ERROR_AND_REPLY_SENT)
  -- the array of the keys is not checked
  if ¬ (← call .alloc) then Program.panic
  return (cursor, some keys, .NO_ERRORS)

def lockThreadsafeContext (usingThreadsafeContext : Bool) : Prog Unit :=
  if usingThreadsafeContext then call .threadSafeContextLock else return ()

def unlockThreadsafeContext (usingThreadsafeContext : Bool) : Prog Unit :=
  if usingThreadsafeContext then call .threadSafeContextUnlock else return ()

/-- The inner loop of `Nget_RedisCommand`: a key is sent with the string it holds;
a key that holds none is passed over. -/
def emit : List Bytes → List (Option Bytes) → Nat → Prog Nat
  | key :: keys, some rms :: values, replylen => do
      call (.reply (.string key))
      call (.reply (.string rms))
      emit keys values (replylen + 2)
  | _ :: keys, none :: values, replylen => emit keys values replylen
  | [], _, replylen => return replylen
  | _ :: _, [], _ => Program.panic

/-- The outer loop of `Nget_RedisCommand`, at most so many rounds of it. -/
def ngetLoop (usingThreadsafeContext : Bool) (args : NgetArgs) :
    Nat → Int64 → Nat → Prog (Option (Status × Nat))
  | 0, _, _ => return none
  | rounds + 1, cursor, replylen => do
      lockThreadsafeContext usingThreadsafeContext
      let (cursor, scannedKeys, status) ← scanSome args cursor
      if status ≠ .NO_ERRORS then
        unlockThreadsafeContext usingThreadsafeContext
        return some (.ERR, replylen)
      match scannedKeys with
      | none =>
          unlockThreadsafeContext usingThreadsafeContext
          if cursor ≠ 0 then ngetLoop usingThreadsafeContext args rounds cursor replylen
          else return some (.OK, replylen)
      | some keys =>
          let reply ← call (.mget keys)
          unlockThreadsafeContext usingThreadsafeContext
          let (status, reply) ← forwardIfError reply
          if status ≠ .NO_ERRORS then return some (.ERR, replylen)
          let replylen ← emit keys (← orPanic reply) replylen
          if cursor ≠ 0 then ngetLoop usingThreadsafeContext args rounds cursor replylen
          else return some (.OK, replylen)

/-- `Nget_RedisCommand`. -/
def ngetRedisCommand (rounds : Nat) (args : NgetArgs) (usingThreadsafeContext : Bool) :
    Prog (Option Status) := do
  call (.reply .postponedArray)
  match ← ngetLoop usingThreadsafeContext args rounds 0 0 with
  | none => return none
  | some (status, replylen) =>
      call (.reply (.setArrayLength replylen))
      return some status

/-- `CallReplyInteger`. -/
def callReplyInteger : CallReply → Int
  | .integer n => n
  | _ => -2 ^ 63

/-- A reply, as an error or not. -/
def splitReply : Option CallReply → Except String (Option CallReply)
  | some (.error message) => .error message
  | reply => .ok reply

/-- The loop of `NDel_Atomic_RedisCommand`. -/
def ndelLoop (args : NgetArgs) : Nat → Int64 → Int → Prog (Option (Status × Int))
  | 0, _, _ => return none
  | rounds + 1, cursor, replylen => do
      let (cursor, scannedKeys, status) ← scanSome args cursor
      if status ≠ .NO_ERRORS then return some (.ERR, replylen)
      match scannedKeys with
      | none =>
          if cursor ≠ 0 then ndelLoop args rounds cursor replylen
          else return some (.OK, replylen)
      | some keys =>
          let reply ← call (.write (.UNLINK keys))
          let (status, reply) ← forwardIfError (splitReply reply)
          if status ≠ .NO_ERRORS then return some (.ERR, replylen)
          -- a NULL reply is dereferenced as one that was freed
          let reply ← orPanic (reply.bind id)
          let replylen := replylen + callReplyInteger reply
          if cursor ≠ 0 then ndelLoop args rounds cursor replylen
          else return some (.OK, replylen)

def nDelAtomicRedisCommand (rounds : Nat) (argv : List Bytes) : Prog (Option Status) :=
  match argv with
  | [_, key] => do
      match ← ndelLoop ⟨key, defCountStr⟩ rounds 0 0 with
      | none => return none
      | some (.OK, replylen) =>
          call (.reply (.longLong replylen))
          return some .OK
      | some (.ERR, _) => return some .ERR
  | _ => do
      call (.reply .wrongArity)
      return some .OK

section Commands

variable (stringToLongLong : Bytes → Option Int64)

def nGetAtomicRedisCommand (rounds : Nat) (argv : List Bytes) : Prog (Option Status) := do
  match ← readNgetArgs stringToLongLong argv with
  | (.NO_ERRORS, some args) => ngetRedisCommand rounds args false
  | _ => return some .ERR

/-- `NGet_NoAtomic_RedisCommand`, and the thread that it starts, which is
`NGet_NoAtomic_ThreadMain`. -/
def nGetNoAtomicRedisCommand (rounds : Nat) (argv : List Bytes) : Prog (Option Status) := do
  if ¬ (← call .alloc) then
    call (.reply (.error "-ERR Out of memory"))
    return some .ERR
  match ← readNgetArgs stringToLongLong argv with
  | (.NO_ERRORS, some args) =>
      let _ ← ngetRedisCommand rounds args true
      return some .OK
  | _ => return some .ERR

end Commands

end NearRtRic.Exstrings
