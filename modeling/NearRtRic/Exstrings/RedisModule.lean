/-
# What the `exstrings` module calls

`exstrings.c` adds commands to the database server.  A command is a program over
`redisModule`, the part of the module API that it uses: the inner calls of the
server's own commands, the replies to its client, the allocator, and the lock of
the thread-safe context.

`Redis` is the server with its keyspace: what a key holds, what the server's
write commands do, and how it scans.  `exec` is the meaning of the calls for a
command, with what its client has been sent.  The server is a parameter; reads
answer with what the keyspace holds.
-/

import NearRtRic.CString.Basic
import NearRtRic.Effect.Program

namespace NearRtRic.Exstrings

open Effect

abbrev Bytes := CString.Bytes

/-- The types of values that are not strings. -/
inductive Aggregate
  | LIST
  | HASH
  | SET
  | ZSET
  | MODULE
  | STREAM
  deriving DecidableEq, Repr

/-- What a key holds. -/
inductive Value
  | string (b : Bytes)
  | aggregate (type : Aggregate)
  deriving DecidableEq, Repr

/-- `REDISMODULE_KEYTYPE_...`. -/
inductive KeyType
  | EMPTY
  | STRING
  | aggregate (type : Aggregate)
  deriving DecidableEq, Repr

/-- `RedisModule_KeyType` of an opened key. -/
def KeyType.of : Option Value → KeyType
  | none => EMPTY
  | some (.string _) => STRING
  | some (.aggregate type) => aggregate type

/-- `REDISMODULE_OK` and `REDISMODULE_ERR`. -/
inductive Status
  | OK
  | ERR
  deriving DecidableEq, Repr

/-- A `RedisModuleCallReply`, as far as the module looks into one. -/
inductive CallReply
  | error (message : String)
  | null
  | string (b : Bytes)
  | integer (n : Int)
  | status (text : String)
  deriving DecidableEq, Repr

/-- The write commands that the module calls. -/
inductive Write
  | SET (argv : List Bytes)
  | MSET (argv : List Bytes)
  | UNLINK (argv : List Bytes)
  deriving DecidableEq, Repr

/-- What is sent to the client. -/
inductive Reply
  | null
  | error (message : String)
  | longLong (n : Int)
  | callReply (r : CallReply)
  | string (b : Bytes)
  /-- An array whose length is set later. -/
  | postponedArray
  | setArrayLength (n : Nat)
  | wrongArity
  deriving DecidableEq, Repr

/-- The calls of the module API.  `RedisModule_Call` answers `none` for NULL. -/
inductive Call
  /-- `RedisModule_OpenKey`, `_KeyType` and `_CloseKey`. -/
  | keyType (key : Bytes)
  | get (key : Bytes)
  | write (w : Write)
  | publish (channel message : Bytes)
  /-- `SCAN cursor MATCH key COUNT count`: an error, or the next cursor and a page. -/
  | scan (cursor : Int64) (key count : Bytes)
  /-- `MGET`: an error, or a string or nil for each key. -/
  | mget (keys : List Bytes)
  /-- `RedisModule_Alloc` succeeds. -/
  | alloc
  | reply (r : Reply)
  | threadSafeContextLock
  | threadSafeContextUnlock
  deriving DecidableEq, Repr

/-- The answers. -/
abbrev Call.Answer : Call → Type
  | keyType _ => KeyType
  | get _ | write _ | publish _ _ => Option CallReply
  | scan _ _ _ => Except String (Int64 × List Bytes)
  | mget _ => Except String (List (Option Bytes))
  | alloc => Bool
  | reply _ | threadSafeContextLock | threadSafeContextUnlock => Unit

/-- The interface of the commands. -/
abbrev redisModule : Interface where
  Op := Call
  Ans := Call.Answer

/-- A command, or a part of one. -/
abbrev Prog := Program redisModule

/-- Call the module API. -/
abbrev call (c : Call) : Prog c.Answer := @Program.perform redisModule c

/-- Reply to the client; the functions that do return `REDISMODULE_OK`. -/
def replyWith (r : Reply) : Prog Status := do
  call (.reply r)
  return .OK

/-- `REDISMODULE_ERRORMSG_WRONGTYPE`. -/
def wrongType : String := "WRONGTYPE Operation against a key holding the wrong kind of value"

/-- `ASSERT_NOERROR`: a reply that is NULL or an error ends the command. -/
def assertNoError (r : Option CallReply) (continue_ : CallReply → Prog Status) : Prog Status :=
  match r with
  | none => replyWith (.error "ERR reply is NULL")
  | some (.error message) => replyWith (.callReply (.error message))
  | some r => continue_ r

/-- `RedisModule_CallReplyStringPtr`: NULL unless the reply is a string. -/
def callReplyStringPtr : CallReply → Option Bytes
  | .string b => some b
  | _ => none

/-! ### The server -/

/-- The server, with states `D`. -/
structure Redis (D : Type) where
  /-- What a key holds. -/
  value : D → Bytes → Option Value
  /-- The server's own write commands. -/
  write : Write → D → Option CallReply × D
  /-- How many clients receive a message. -/
  publish : Bytes → Bytes → Nat
  /-- A call of `SCAN`: the next cursor, and a page. -/
  scan : D → Int64 → Bytes → Bytes → Int64 × List Bytes

/-- What a command sees and changes. -/
structure State (D : Type) where
  db : D
  /-- How often the thread holds the lock of its thread-safe context. -/
  held : Int := 0
  /-- The write commands that were called. -/
  writes : List Write := []
  /-- What the client was sent. -/
  replies : List Reply := []
  /-- A history variable: the states of the database during the command. -/
  instants : List D := [db]
  /-- A history variable: those in which the database was scanned. -/
  scanned : List D := []

/-- `GET`. -/
def getReply : Option Value → CallReply
  | none => .null
  | some (.string b) => .string b
  | some (.aggregate _) => .error wrongType

/-- The strings that some keys hold, as `MGET` answers. -/
def Value.asString : Value → Option Bytes
  | string b => some b
  | aggregate _ => none

variable {D : Type}

/-- The meaning of a call, which may fail where it can. -/
def exec (redis : Redis D) (o : Call) (fails : Bool) (s : State D) : o.Answer × State D :=
  match o with
  | .keyType key => (KeyType.of (redis.value s.db key), s)
  | .get key => (some (getReply (redis.value s.db key)), s)
  | .write w =>
      let r := redis.write w s.db
      (r.1, { s with db := r.2, writes := s.writes ++ [w], instants := s.instants ++ [r.2] })
  | .publish channel message => (some (.integer (redis.publish channel message)), s)
  | .scan cursor key count =>
      (if fails then .error "ERR" else .ok (redis.scan s.db cursor key count),
        { s with scanned := s.scanned ++ [s.db] })
  | .mget keys =>
      (if fails then .error "ERR"
        else .ok (keys.map fun k => (redis.value s.db k).bind Value.asString), s)
  | .alloc => (!fails, s)
  | .reply r => ((), { s with replies := s.replies ++ [r] })
  | .threadSafeContextLock => ((), { s with held := s.held + 1 })
  | .threadSafeContextUnlock => ((), { s with held := s.held - 1 })

/-! ### A small server

It knows no options of `SET`, no pattern but `*`, and keeps its keys in two
buckets, by the parity of their length. -/

namespace Small

/-- What each key holds. -/
abbrev Keyspace := List (Bytes × Value)

def put (key value : Bytes) (d : Keyspace) : Keyspace :=
  (key, .string value) :: d.filter fun e => e.1 ≠ key

def putAll : List Bytes → Keyspace → Keyspace
  | key :: value :: argv, d => putAll argv (put key value d)
  | _, d => d

/-- Whether a key matches a pattern. -/
def glob (pattern key : Bytes) : Bool := pattern = [42] ∨ pattern = key

/-- The bucket of a key, as the cursor that scans it. -/
def bucket (key : Bytes) : Int64 := if key.length % 2 = 0 then 0 else 1

/-- A decimal number without a sign. -/
def stringToLongLong (b : Bytes) : Option Int64 :=
  let n := b.foldl (fun n digit => 10 * n + (digit.toNat - 48)) 0
  if b ≠ [] ∧ (b.all fun digit => 48 ≤ digit ∧ digit ≤ 57) ∧ n ≤ 9223372036854775807 then
    some (Int64.ofNat n)
  else none

def redis : Redis Keyspace where
  value d key := d.lookup key
  write w d :=
    match w with
    | .SET (key :: value :: _) => (some (.status "OK"), put key value d)
    | .SET _ => (some (.error "ERR syntax error"), d)
    | .MSET argv => (some (.status "OK"), putAll argv d)
    | .UNLINK keys =>
        (some (.integer (d.countP fun e => e.1 ∈ keys)), d.filter fun e => e.1 ∉ keys)
  publish _ _ := 0
  scan d cursor pattern _ :=
    (if cursor = 0 then 1 else 0,
      (d.map Prod.fst).filter fun key => glob pattern key ∧ bucket key = cursor)

end Small

end NearRtRic.Exstrings
