/-
# The conditional commands

Ten commands write a key only if the string it holds is (`IE`), or is not (`NE`),
the given old value: `SETIE`, `SETNE`, `DELIE`, `DELNE` and their variants that
publish messages after the write.

All of them compare with `strncmp`.  Over two values of one length it stops at
the first NUL, so values that agree up to there count as equal.  A command
compares the whole value, on a given key and with given arguments, if and only if
the held and the old value are not such a pair (`comparesWholeValue_iff`).
-/

import NearRtRic.Exstrings.RedisModule

namespace NearRtRic.Exstrings

open Effect Program

/-! ### The commands -/

/-- `OBJ_OP_IE` and `OBJ_OP_NE`. -/
inductive Flag
  | IE
  | NE
  deriving DecidableEq, Repr

/-- The condition under which `setStringGenericCommand` and
`delStringGenericCommand` refuse. -/
def refuses (flag : Flag) (oldval : Bytes) (reply : CallReply) : Bool :=
  match flag, callReplyStringPtr reply with
  | .IE, none => true
  | .IE, some curval =>
      oldval.length ≠ curval.length ∨ CString.strncmp oldval curval curval.length ≠ 0
  | .NE, none => false
  | .NE, some curval =>
      oldval.length = curval.length ∧ CString.strncmp oldval curval curval.length = 0

/-- `replyContentsEqualString`. -/
def replyContentsEqualString (reply : CallReply) (expected : Bytes) : Bool :=
  match callReplyStringPtr reply with
  | none => false
  | some replyval =>
      expected.length = replyval.length ∧ CString.strncmp expected replyval replyval.length = 0

/-- `multiPubCommand`: a pair at a time.  The array is read past its end where its
length is odd. -/
def multiPubCommand : List Bytes → Prog Unit
  | [] => return ()
  | [_] => Program.panic
  | channel :: message :: channelMsgPairs => do
      let _ ← call (.publish channel message)
      multiPubCommand channelMsgPairs

/-- `setStringGenericCommand`: the options of the `SET` follow the old value. -/
def setStringGenericCommand (flag : Flag) (argv : List Bytes) : Prog Status :=
  match argv with
  | _ :: key :: value :: oldvalstr :: options => do
      let type ← call (.keyType key)
      if type = .EMPTY ∧ flag = .IE then replyWith .null
      else if type ≠ .EMPTY ∧ type ≠ .STRING then replyWith (.error wrongType)
      else
        assertNoError (← call (.get key)) fun reply => do
          if refuses flag oldvalstr reply then replyWith .null
          else
            assertNoError (← call (.write (.SET (key :: value :: options)))) fun reply =>
              replyWith (.callReply reply)
  | _ => replyWith .wrongArity

/-- `delStringGenericCommand`. -/
def delStringGenericCommand (flag : Flag) (argv : List Bytes) : Prog Status :=
  match argv with
  | [_, key, oldvalstr] => do
      let type ← call (.keyType key)
      if type = .EMPTY then replyWith (.longLong 0)
      else if type ≠ .STRING then replyWith (.error wrongType)
      else
        assertNoError (← call (.get key)) fun reply => do
          if refuses flag oldvalstr reply then replyWith (.longLong 0)
          else
            assertNoError (← call (.write (.UNLINK [key]))) fun reply =>
              replyWith (.callReply reply)
  | _ => replyWith .wrongArity

/-- `setPubStringCommon`. -/
def setPubStringCommon (keyValPairs channelMsgPairs : List Bytes) : Prog Status := do
  assertNoError (← call (.write (.MSET keyValPairs))) fun setReply => do
    multiPubCommand channelMsgPairs
    replyWith (.callReply setReply)

/-- `delPubStringCommon`: the messages are published only if a key was removed. -/
def delPubStringCommon (keys channelMsgPairs : List Bytes) : Prog Status := do
  assertNoError (← call (.write (.UNLINK keys))) fun reply => do
    match reply with
    | .null => replyWith .null
    | .integer 0 => replyWith (.callReply reply)
    | _ =>
        let _ ← replyWith (.callReply reply)
        multiPubCommand channelMsgPairs
        return .OK

/-- `setIENEPubStringCommon`. -/
def setIENEPubStringCommon (flag : Flag) (argv : List Bytes) : Prog Status :=
  match argv with
  | _ :: key :: value :: oldvalstr :: channelMsgPairs => do
      let type ← call (.keyType key)
      if flag = .IE ∧ type = .EMPTY then replyWith .null
      else if type ≠ .STRING ∧ type ≠ .EMPTY then replyWith (.error wrongType)
      else
        assertNoError (← call (.get key)) fun reply => do
          let isEqual := replyContentsEqualString reply oldvalstr
          if flag = .IE ∧ ¬ isEqual ∨ flag = .NE ∧ isEqual then replyWith .null
          else setPubStringCommon [key, value] channelMsgPairs
  | _ => Program.panic

/-- `delIENEPubStringCommon`. -/
def delIENEPubStringCommon (flag : Flag) (argv : List Bytes) : Prog Status :=
  match argv with
  | _ :: key :: oldvalstr :: channelMsgPairs => do
      let type ← call (.keyType key)
      if type = .EMPTY then replyWith (.longLong 0)
      else if type ≠ .STRING then replyWith (.error wrongType)
      else
        assertNoError (← call (.get key)) fun reply => do
          let isEqual := replyContentsEqualString reply oldvalstr
          if flag = .IE ∧ ¬ isEqual ∨ flag = .NE ∧ isEqual then replyWith (.longLong 0)
          else delPubStringCommon [key] channelMsgPairs
  | _ => Program.panic

/-- A command that checks the number of its arguments before its common part. -/
def withArity (ok : Nat → Bool) (common : List Bytes → Prog Status) (argv : List Bytes) :
    Prog Status := if ok argv.length then common argv else replyWith .wrongArity

def setIERedisCommand := setStringGenericCommand .IE

def setNERedisCommand := setStringGenericCommand .NE

def delIERedisCommand := delStringGenericCommand .IE

def delNERedisCommand := delStringGenericCommand .NE

def setIEPubRedisCommand := withArity (fun argc => argc = 6) (setIENEPubStringCommon .IE)

def setIEMPubRedisCommand :=
  withArity (fun argc => 6 ≤ argc ∧ argc % 2 = 0) (setIENEPubStringCommon .IE)

def setNEPubRedisCommand := withArity (fun argc => argc = 6) (setIENEPubStringCommon .NE)

def delIEPubRedisCommand := withArity (fun argc => argc = 5) (delIENEPubStringCommon .IE)

def delIEMPubRedisCommand :=
  withArity (fun argc => 5 ≤ argc ∧ argc % 2 ≠ 0) (delIENEPubStringCommon .IE)

def delNEPubRedisCommand := withArity (fun argc => argc = 5) (delIENEPubStringCommon .NE)

/-- The ten conditional commands, under the names they are created with. -/
inductive Command
  | setie
  | setne
  | delie
  | delne
  | setiepub
  | setiempub
  | setnepub
  | deliepub
  | deliempub
  | delnepub
  deriving DecidableEq, Repr

namespace Command

/-- The program of a command. -/
def prog : Command → List Bytes → Prog Status
  | setie => setIERedisCommand
  | setne => setNERedisCommand
  | delie => delIERedisCommand
  | delne => delNERedisCommand
  | setiepub => setIEPubRedisCommand
  | setiempub => setIEMPubRedisCommand
  | setnepub => setNEPubRedisCommand
  | deliepub => delIEPubRedisCommand
  | deliempub => delIEMPubRedisCommand
  | delnepub => delNEPubRedisCommand

/-- Whether the command writes on equality or on difference. -/
def flag : Command → Flag
  | setie | delie | setiepub | setiempub | deliepub | deliempub => .IE
  | setne | delne | setnepub | delnepub => .NE

/-- The numbers of arguments, the name of the command among them, that a command
accepts. -/
def arity : Command → Nat → Bool
  | setie | setne => fun argc => 4 ≤ argc
  | delie | delne => fun argc => argc = 3
  | setiepub | setnepub => fun argc => argc = 6
  | setiempub => fun argc => 6 ≤ argc ∧ argc % 2 = 0
  | deliepub | delnepub => fun argc => argc = 5
  | deliempub => fun argc => 5 ≤ argc ∧ argc % 2 ≠ 0

/-- The key that is tested and written. -/
def key (argv : List Bytes) : Bytes := argv.getD 1 []

/-- The old value that is given. -/
def oldValue : Command → List Bytes → Bytes
  | setie, argv | setne, argv | setiepub, argv | setiempub, argv | setnepub, argv => argv.getD 3 []
  | delie, argv | delne, argv | deliepub, argv | deliempub, argv | delnepub, argv => argv.getD 2 []

/-- The write that the command performs if its condition holds. -/
def write : Command → List Bytes → Write
  | setie, argv | setne, argv => .SET (argv.getD 1 [] :: argv.getD 2 [] :: argv.drop 4)
  | setiepub, argv | setiempub, argv | setnepub, argv => .MSET [argv.getD 1 [], argv.getD 2 []]
  | delie, argv | delne, argv | deliepub, argv | deliempub, argv | delnepub, argv =>
      .UNLINK [argv.getD 1 []]

/-- The condition on the held value under which it is to be performed. -/
def Wants (c : Command) (argv : List Bytes) (v : Bytes) : Prop :=
  match c.flag with
  | .IE => v = c.oldValue argv
  | .NE => v ≠ c.oldValue argv

instance (c : Command) (argv : List Bytes) (v : Bytes) : Decidable (c.Wants argv v) := by
  unfold Wants
  split <;> infer_instance

variable {D : Type} (redis : Redis D)

/-- The state after a command, its inner calls not failing. -/
def after (c : Command) (argv : List Bytes) (d : D) : State D :=
  ((c.prog argv).run (exec redis) [] { db := d }).2

/-- The command performed a write, and nothing else touched the keyspace. -/
def Performs (c : Command) (argv : List Bytes) (d : D) : Prop :=
  (c.after redis argv d).writes = [c.write argv] ∧
    (c.after redis argv d).db = (redis.write (c.write argv) d).2

/-- The command performed no write, and the keyspace is as it was. -/
def LeavesAlone (c : Command) (argv : List Bytes) (d : D) : Prop :=
  (c.after redis argv d).writes = [] ∧ (c.after redis argv d).db = d

/-- The command compares the whole value, if the key holds a string. -/
def ComparesWholeValue (c : Command) (argv : List Bytes) (d : D) : Prop :=
  ∀ v, redis.value d (key argv) = some (.string v) →
    if c.Wants argv v then c.Performs redis argv d else c.LeavesAlone redis argv d

/-- Two values that differ, though only after the first NUL of both. -/
def Confused (v w : Bytes) : Prop :=
  v ≠ w ∧ v.length = w.length ∧ CString.visible v = CString.visible w

instance (v w : Bytes) : Decidable (Confused v w) := inferInstanceAs (Decidable (_ ∧ _ ∧ _))

end Command

/-! ### What the comparison decides -/

/-- What the commands take for equal. -/
def agrees (oldval v : Bytes) : Bool :=
  oldval.length = v.length ∧ CString.visible oldval = CString.visible v

/-- The outcome of the comparison: the command goes on to its write. -/
def fires (flag : Flag) (oldval v : Bytes) : Bool :=
  match flag with
  | .IE => agrees oldval v
  | .NE => !agrees oldval v

/-- Length and `strncmp` agree exactly where lengths and visible parts do. -/
theorem strncmp_iff_agrees (oldval v : Bytes) :
    oldval.length = v.length ∧ CString.strncmp oldval v v.length = 0 ↔ agrees oldval v := by
  rw [agrees, decide_eq_true_iff]
  refine and_congr_right fun hlen => ?_
  rw [← hlen]
  exact CString.strncmp_eq_zero_iff hlen

/-- A held string is refused exactly where the command does not fire. -/
theorem refuses_iff (flag : Flag) (oldval v : Bytes) :
    refuses flag oldval (.string v) ↔ ¬ fires flag oldval v := by
  have h := strncmp_iff_agrees oldval v
  cases flag with
  | IE =>
      simp only [refuses, callReplyStringPtr, fires]
      rw [decide_eq_true_iff, ← h, not_and_or]
  | NE =>
      simp only [refuses, callReplyStringPtr, fires, Bool.not_eq_true', Bool.not_eq_false]
      rw [decide_eq_true_iff, h]

/-- The publishing commands compare in the same way. -/
theorem replyContentsEqualString_string (v expected : Bytes) :
    replyContentsEqualString (.string v) expected = agrees expected v := by
  simp only [replyContentsEqualString, callReplyStringPtr]
  rw [Bool.eq_iff_iff, decide_eq_true_iff, strncmp_iff_agrees]

/-- The two forms of the test agree. -/
theorem pub_refuses_iff (flag : Flag) (oldval v : Bytes) :
    (flag = .IE ∧ ¬ replyContentsEqualString (.string v) oldval ∨
      flag = .NE ∧ replyContentsEqualString (.string v) oldval) ↔ ¬ fires flag oldval v := by
  rw [replyContentsEqualString_string]
  cases flag <;> simp [fires]

/-! ### What the commands do -/

section Runs

variable {D : Type} {redis : Redis D}

/-- The write commands that were called, and the database they left. -/
def Wrote (writes : List Write) (d : D) (s : State D) : Prop := s.writes = writes ∧ s.db = d

/-- A program that ends, by returning or in undefined behaviour, after the
given writes. -/
def Ends {α : Type} (redis : Redis D) (p : Prog α) (writes : List Write) (d : D)
    (s : State D) : Prop :=
  p.Always (exec redis) (fun _ => True) (Wrote writes d) (fun _ => Wrote writes d) s

variable {ws : List Write} {d : D} {s : State D}

/-- A reply writes nothing. -/
theorem ends_replyWith (r : Reply) (h : Wrote ws d s) : Ends redis (replyWith r) ws d s :=
  fun _ _ => h

/-- Two programs in a row, the second of which writes nothing more. -/
theorem ends_bind {α β : Type} {p : Prog α} {f : α → Prog β} (hp : Ends redis p ws d s)
    (hf : ∀ a s', Wrote ws d s' → Ends redis (f a) ws d s') : Ends redis (p >>= f) ws d s :=
  always_bind_of hp hf

/-- Publications write nothing. -/
theorem ends_multiPubCommand (pairs : List Bytes) (h : Wrote ws d s) :
    Ends redis (multiPubCommand pairs) ws d s := by
  induction pairs using multiPubCommand.induct generalizing s with
  | case1 => exact h
  | case2 => exact h
  | case3 channel message pairs ih => exact fun _ _ => ih h

/-- Nor does the check of a reply, which may end the command. -/
theorem ends_assertNoError {r : Option CallReply} {k : CallReply → Prog Status}
    (hk : ∀ reply, Ends redis (k reply) ws d s) (h : Wrote ws d s) :
    Ends redis (assertNoError r k) ws d s := by
  rcases r with _ | reply
  · exact ends_replyWith _ h
  · cases reply with
    | error message => exact ends_replyWith _ h
    | null => exact hk _
    | string b => exact hk _
    | integer n => exact hk _
    | status text => exact hk _

/-- The end of all ten commands: a write, and replies and messages after it. -/
theorem ends_write (w : Write) {k : CallReply → Prog Status}
    (hk : ∀ reply s, Wrote [w] (redis.write w d).2 s →
      Ends redis (k reply) [w] (redis.write w d).2 s) (h : Wrote [] d s) :
    Ends redis (call (.write w) >>= fun r => assertNoError r k) [w] (redis.write w d).2 s := by
  intro c _
  have hwrote : Wrote [w] (redis.write w d).2 (exec redis (.write w) c s).2 := by
    obtain ⟨hw, rfl⟩ := h
    exact ⟨by simp [exec, hw], rfl⟩
  exact ends_assertNoError (fun reply => hk reply _ hwrote) hwrote

/-- The end of a publishing set performs its `MSET` and no other write. -/
theorem ends_setPubStringCommon (keyValPairs channelMsgPairs : List Bytes) (h : Wrote [] d s) :
    Ends redis (setPubStringCommon keyValPairs channelMsgPairs)
      [.MSET keyValPairs] (redis.write (.MSET keyValPairs) d).2 s :=
  ends_write _ (fun _ _ h₁ => ends_bind (ends_multiPubCommand _ h₁) fun _ _ h₂ =>
    ends_replyWith _ h₂) h

/-- The end of a publishing delete performs its `UNLINK` and no other write. -/
theorem ends_delPubStringCommon (keys channelMsgPairs : List Bytes) (h : Wrote [] d s) :
    Ends redis (delPubStringCommon keys channelMsgPairs)
      [.UNLINK keys] (redis.write (.UNLINK keys) d).2 s := by
  refine ends_write _ (fun reply s₁ h₁ => ?_) h
  split
  · exact ends_replyWith _ h₁
  · exact ends_replyWith _ h₁
  · exact ends_bind (ends_replyWith _ h₁) fun _ _ h₂ =>
      ends_bind (ends_multiPubCommand _ h₂) fun _ _ h₃ => h₃

/-- The first read of a command, of a key that holds a string. -/
theorem ends_keyType {key v : Bytes} (hv : redis.value d key = some (.string v)) {d' : D}
    {k : KeyType → Prog Status} (hk : Ends redis (k .STRING) ws d' { db := d }) :
    Ends redis (call (.keyType key) >>= k) ws d' { db := d } := by
  intro c _
  have htype : exec redis (.keyType key) c { db := d } = (.STRING, { db := d }) := by
    rw [exec, hv, KeyType.of]
  rw [htype]
  exact hk

/-- The second. -/
theorem ends_get {key v : Bytes} (hv : redis.value d key = some (.string v)) {d' : D}
    {k : CallReply → Prog Status} (hk : Ends redis (k (.string v)) ws d' { db := d }) :
    Ends redis (call (.get key) >>= fun r => assertNoError r k) ws d' { db := d } := by
  intro c _
  have hget : exec redis (.get key) c { db := d } = (some (.string v), { db := d }) := by
    rw [exec, hv, getReply]
  rw [hget]
  exact hk

/-- The command ends after the write `w` if it fired, and else without a write. -/
def EndsAs (redis : Redis D) (p : Prog Status) (w : Write) (fired : Bool) (d : D) : Prop :=
  if fired then Ends redis p [w] (redis.write w d).2 { db := d }
  else Ends redis p [] d { db := d }

variable {name key value oldval v : Bytes} (flag : Flag)

/-- Where the comparison is refused, the command replies. -/
theorem endsAs_compare {refused : Prop} [Decidable refused]
    (hrefused : refused ↔ ¬ fires flag oldval v) {w : Write} {p : Prog Status} {r : Reply}
    (hp : Ends redis p [w] (redis.write w d).2 { db := d }) :
    EndsAs redis (if refused then replyWith r else p) w (fires flag oldval v) d := by
  unfold EndsAs
  split
  · rename_i hfired
    rw [if_neg (hrefused.not.2 (not_not.2 hfired))]
    exact hp
  · rename_i hfired
    rw [if_pos (hrefused.2 hfired)]
    exact ends_replyWith _ ⟨rfl, rfl⟩

variable (hv : redis.value d key = some (.string v))
include hv

/-- The type of a key that holds a string is read first. -/
theorem endsAs_keyType {k : KeyType → Prog Status} {w : Write} {fired : Bool}
    (hk : EndsAs redis (k .STRING) w fired d) :
    EndsAs redis (call (.keyType key) >>= k) w fired d := by
  cases fired with
  | false => exact ends_keyType hv hk
  | true => exact ends_keyType hv hk

/-- The held string is read, and no error asserted. -/
theorem endsAs_get {k : CallReply → Prog Status} {w : Write} {fired : Bool}
    (hk : EndsAs redis (k (.string v)) w fired d) :
    EndsAs redis (call (.get key) >>= fun r => assertNoError r k) w fired d := by
  cases fired with
  | false => exact ends_get hv hk
  | true => exact ends_get hv hk

/-- SETIE and SETNE end as their comparison says. -/
theorem endsAs_setStringGenericCommand (options : List Bytes) :
    EndsAs redis (setStringGenericCommand flag (name :: key :: value :: oldval :: options))
      (.SET (key :: value :: options)) (fires flag oldval v) d := by
  unfold setStringGenericCommand
  refine endsAs_keyType hv (endsAs_get hv (endsAs_compare flag (refuses_iff flag oldval v) ?_))
  exact ends_write _ (fun _ _ h => ends_replyWith _ h) ⟨rfl, rfl⟩

/-- So do DELIE and DELNE. -/
theorem endsAs_delStringGenericCommand :
    EndsAs redis (delStringGenericCommand flag [name, key, oldval]) (.UNLINK [key])
      (fires flag oldval v) d := by
  unfold delStringGenericCommand
  refine endsAs_keyType hv (endsAs_get hv (endsAs_compare flag (refuses_iff flag oldval v) ?_))
  exact ends_write _ (fun _ _ h => ends_replyWith _ h) ⟨rfl, rfl⟩

/-- So does the common part of the publishing sets. -/
theorem endsAs_setIENEPubStringCommon (channelMsgPairs : List Bytes) :
    EndsAs redis (setIENEPubStringCommon flag (name :: key :: value :: oldval :: channelMsgPairs))
      (.MSET [key, value]) (fires flag oldval v) d := by
  unfold setIENEPubStringCommon
  refine endsAs_keyType hv ?_
  rw [if_neg (by rintro ⟨-, h⟩; cases h), if_neg (by rintro ⟨h, -⟩; exact h rfl)]
  refine endsAs_get hv (endsAs_compare flag (pub_refuses_iff flag oldval v) ?_)
  exact ends_setPubStringCommon _ _ ⟨rfl, rfl⟩

/-- So does the common part of the publishing deletes. -/
theorem endsAs_delIENEPubStringCommon (channelMsgPairs : List Bytes) :
    EndsAs redis (delIENEPubStringCommon flag (name :: key :: oldval :: channelMsgPairs))
      (.UNLINK [key]) (fires flag oldval v) d := by
  unfold delIENEPubStringCommon
  refine endsAs_keyType hv (endsAs_get hv (endsAs_compare flag (pub_refuses_iff flag oldval v) ?_))
  exact ends_delPubStringCommon _ _ ⟨rfl, rfl⟩

end Runs

namespace Command

variable {D : Type} {redis : Redis D} {c : Command} {argv : List Bytes} {d : D}

/-- Four arguments at least: the name, the key and two values. -/
theorem exists_of_le_length (h : 4 ≤ argv.length) :
    ∃ name key value oldval rest, argv = name :: key :: value :: oldval :: rest := by
  match argv, h with
  | name :: key :: value :: oldval :: rest, _ => exact ⟨name, key, value, oldval, rest, rfl⟩

/-- Three arguments: the name, the key and the old value. -/
theorem exists_of_length_eq (h : argv.length = 3) :
    ∃ name key oldval, argv = [name, key, oldval] := by
  match argv, h with
  | [name, key, oldval], _ => exact ⟨name, key, oldval, rfl⟩

/-- With a number of arguments that is accepted the common part runs. -/
theorem withArity_of_ok {ok : Nat → Bool} (h : ok argv.length) (common : List Bytes → Prog Status) :
    withArity ok common argv = common argv := if_pos h

/-- A publishing set that accepts its arguments. -/
theorem endsAs_setPub {ok : Nat → Bool} (h : ok argv.length) (h4 : 4 ≤ argv.length) (flag : Flag)
    {v : Bytes} (hv : redis.value d (key argv) = some (.string v)) :
    EndsAs redis (withArity ok (setIENEPubStringCommon flag) argv)
      (.MSET [argv.getD 1 [], argv.getD 2 []]) (fires flag (argv.getD 3 []) v) d := by
  rw [withArity_of_ok h]
  obtain ⟨name, key, value, oldval, rest, rfl⟩ := exists_of_le_length h4
  exact endsAs_setIENEPubStringCommon flag hv rest

/-- A publishing delete that accepts its arguments. -/
theorem endsAs_delPub {ok : Nat → Bool} (h : ok argv.length) (h4 : 4 ≤ argv.length) (flag : Flag)
    {v : Bytes} (hv : redis.value d (key argv) = some (.string v)) :
    EndsAs redis (withArity ok (delIENEPubStringCommon flag) argv)
      (.UNLINK [argv.getD 1 []]) (fires flag (argv.getD 2 []) v) d := by
  rw [withArity_of_ok h]
  obtain ⟨name, key, oldval, channel, rest, rfl⟩ := exists_of_le_length h4
  exact endsAs_delIENEPubStringCommon flag hv (channel :: rest)

/-- **What each command does** to a key that holds a string: it performs its write
where its comparison fires, and leaves the keyspace alone where it does not. -/
theorem endsAs_prog (harity : c.arity argv.length) {v : Bytes}
    (hv : redis.value d (key argv) = some (.string v)) :
    EndsAs redis (c.prog argv) (c.write argv) (fires c.flag (c.oldValue argv) v) d := by
  have hset : ∀ flag, 4 ≤ argv.length → EndsAs redis (setStringGenericCommand flag argv)
      (.SET (argv.getD 1 [] :: argv.getD 2 [] :: argv.drop 4)) (fires flag (argv.getD 3 []) v)
      d := by
    intro flag h4
    obtain ⟨name, key, value, oldval, rest, rfl⟩ := exists_of_le_length h4
    exact endsAs_setStringGenericCommand flag hv rest
  have hdel : ∀ flag, argv.length = 3 → EndsAs redis (delStringGenericCommand flag argv)
      (.UNLINK [argv.getD 1 []]) (fires flag (argv.getD 2 []) v) d := by
    intro flag h3
    obtain ⟨name, key, oldval, rfl⟩ := exists_of_length_eq h3
    exact endsAs_delStringGenericCommand flag hv
  have hlen := harity
  cases c <;> simp only [arity, decide_eq_true_iff] at hlen
  case setie => exact hset .IE hlen
  case setne => exact hset .NE hlen
  case delie => exact hdel .IE hlen
  case delne => exact hdel .NE hlen
  case setiepub => exact endsAs_setPub harity (by omega) .IE hv
  case setiempub => exact endsAs_setPub harity (by omega) .IE hv
  case setnepub => exact endsAs_setPub harity (by omega) .NE hv
  case deliepub => exact endsAs_delPub harity (by omega) .IE hv
  case deliempub => exact endsAs_delPub harity (by omega) .IE hv
  case delnepub => exact endsAs_delPub harity (by omega) .NE hv

/-- The run of a command, as its comparison comes out. -/
theorem performs_of_fires (harity : c.arity argv.length) {v : Bytes}
    (hv : redis.value d (key argv) = some (.string v))
    (hf : fires c.flag (c.oldValue argv) v) : c.Performs redis argv d := by
  have hends : EndsAs redis _ _ _ d := endsAs_prog harity hv
  rw [EndsAs, if_pos hf] at hends
  exact run_state_of_always hends (fun _ _ => trivial) trivial

/-- A command that does not fire leaves the keyspace alone. -/
theorem leavesAlone_of_not_fires (harity : c.arity argv.length) {v : Bytes}
    (hv : redis.value d (key argv) = some (.string v))
    (hf : ¬ fires c.flag (c.oldValue argv) v) : c.LeavesAlone redis argv d := by
  have hends : EndsAs redis _ _ _ d := endsAs_prog harity hv
  rw [EndsAs, if_neg hf] at hends
  exact run_state_of_always hends (fun _ _ => trivial) trivial

/-- It cannot do both. -/
theorem not_performs_of_leavesAlone (h : c.LeavesAlone redis argv d) :
    ¬ c.Performs redis argv d := fun h' => by
  have := h.1.symm.trans h'.1
  cases this

/-- The comparison is right exactly when the values are not confused. -/
theorem fires_iff_wants (v : Bytes) :
    (fires c.flag (c.oldValue argv) v ↔ c.Wants argv v) ↔ ¬ Confused v (c.oldValue argv) := by
  have hagrees : agrees (c.oldValue argv) v ↔
      v = c.oldValue argv ∨ Confused v (c.oldValue argv) := by
    rw [agrees, decide_eq_true_iff]
    constructor
    · rintro ⟨hlen, hvis⟩
      by_cases heq : v = c.oldValue argv
      · exact .inl heq
      · exact .inr ⟨heq, hlen.symm, hvis.symm⟩
    · rintro (rfl | ⟨-, hlen, hvis⟩)
      · exact ⟨rfl, rfl⟩
      · exact ⟨hlen.symm, hvis.symm⟩
  have hne : Confused v (c.oldValue argv) → v ≠ c.oldValue argv := fun h => h.1
  unfold fires Wants
  cases c.flag with
  | IE =>
      simp only [hagrees]
      tauto
  | NE =>
      simp only [Bool.not_eq_true', ← Bool.not_eq_true, hagrees]
      tauto

/-- **A conditional command compares the whole value if and only if** the value
that the key holds and the old value do not differ only after a NUL. -/
theorem comparesWholeValue_iff (harity : c.arity argv.length) :
    c.ComparesWholeValue redis argv d ↔
      ∀ v, redis.value d (key argv) = some (.string v) → ¬ Confused v (c.oldValue argv) := by
  refine forall₂_congr fun v hv => ?_
  rw [← fires_iff_wants]
  have hyes : fires c.flag (c.oldValue argv) v → c.Performs redis argv d :=
    performs_of_fires harity hv
  have hno : ¬ fires c.flag (c.oldValue argv) v → c.LeavesAlone redis argv d :=
    leavesAlone_of_not_fires harity hv
  split
  · rename_i hwants
    refine ⟨fun hperf => ⟨fun _ => hwants, fun _ => ?_⟩, fun h => hyes (h.2 hwants)⟩
    by_contra hf
    exact not_performs_of_leavesAlone (hno hf) hperf
  · rename_i hwants
    refine ⟨fun hleaves => ⟨fun hf => ?_, fun h => absurd h hwants⟩, fun h => hno fun hf =>
      hwants (h.1 hf)⟩
    exact absurd (hyes hf) (not_performs_of_leavesAlone hleaves)

/-- `SETIE k new ab` where `k` holds `ab`. -/
theorem comparesWholeValue_setie :
    arity setie 4 ∧ setie.ComparesWholeValue Small.redis
      [[115], [107], [99], [97, 98]] [([107], .string [97, 98])] := by
  refine ⟨rfl, (comparesWholeValue_iff (c := setie) rfl).2 fun v hv => ?_⟩
  obtain rfl : [97, 98] = v := by simpa [Small.redis, key] using hv
  decide

/-- `SETIE k new a\0c` where `k` holds `a\0b`: the key is overwritten. -/
theorem not_comparesWholeValue : ¬ ∀ (D : Type) (redis : Redis D) (c : Command)
    (argv : List Bytes) (d : D), c.arity argv.length → c.ComparesWholeValue redis argv d := by
  intro h
  have hset := h _ Small.redis setie [[115], [107], [99], [97, 0, 99]]
    [([107], .string [97, 0, 98])] rfl [97, 0, 98] rfl
  rw [if_neg (by decide)] at hset
  have hwrote : (setie.after Small.redis [[115], [107], [99], [97, 0, 99]]
      [([107], .string [97, 0, 98])]).writes ≠ [] := by decide +kernel
  exact hwrote hset.1

end Command

end NearRtRic.Exstrings
