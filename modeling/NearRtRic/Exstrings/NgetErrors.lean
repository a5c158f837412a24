/-
# Errors of the inner commands of `NGET` and `NDEL`

`forwardIfError` forwards an error reply, frees it, and then sets the status that
it should have left alone.  So its callers go on as if there had been no error,
and their next look into the reply is a look into freed memory.

Along every path through the commands, with whatever answers, a command that
returns has seen no error of an inner command (`clean_prog`).  An abort after such
an error is therefore never a clean one (`abortsCleanly_iff`).
-/

import NearRtRic.Exstrings.Nget

namespace NearRtRic.Exstrings

open Effect Program

/-! ### Errors on a path -/

instance (o : Call) : Nonempty o.Answer := by
  cases o with
  | keyType key => exact ⟨KeyType.EMPTY⟩
  | get key => exact ⟨none⟩
  | write w => exact ⟨none⟩
  | publish channel message => exact ⟨none⟩
  | scan cursor key count => exact ⟨Except.error ""⟩
  | mget keys => exact ⟨Except.error ""⟩
  | alloc => exact ⟨false⟩
  | reply r => exact ⟨()⟩
  | threadSafeContextLock => exact ⟨()⟩
  | threadSafeContextUnlock => exact ⟨()⟩

instance (o : redisModule.Op) : Nonempty (redisModule.Ans o) := inferInstanceAs (Nonempty o.Answer)

instance : DecidableEq redisModule.Op := inferInstanceAs (DecidableEq Call)

/-- The inner commands of `NGET` and `NDEL`. -/
def IsInner : Call → Bool
  | .scan _ _ _ | .mget _ | .write _ => true
  | _ => false

/-- An inner command that answered an error. -/
def IsError : Event redisModule → Prop
  | ⟨.scan _ _ _, r⟩ => ∃ message, r = Except.error message
  | ⟨.mget _, r⟩ => ∃ message, r = Except.error message
  | ⟨.write _, r⟩ => ∃ message, r = some (CallReply.error message)
  | _ => False

/-- An error that is sent to the client. -/
def IsErrorReply : Call → Bool
  | .reply (.error _) | .reply (.callReply (.error _)) | .reply .wrongArity => true
  | _ => false

/-- An element of the array that is sent, whose length is set at its end. -/
def IsElement : Call → Bool
  | .reply .postponedArray | .reply (.setArrayLength _) => false
  | .reply _ => true
  | _ => false

/-- After an error of an inner command there is no further one, one error is sent,
no freed reply is looked into, and the announced length is the number of elements. -/
def AbortsCleanly {α : Type} (tr : List (Event redisModule)) (rest : Prog α) : Prop :=
  ∀ pre e post, tr = pre ++ e :: post → IsError e →
    (∀ e' ∈ post, ¬ IsInner e'.1) ∧ (tr.map Sigma.fst).countP IsErrorReply = 1 ∧
      rest ≠ Program.panic ∧
      ∀ n, Call.reply (.setArrayLength n) ∈ tr.map Sigma.fst →
        n = (tr.map Sigma.fst).countP IsElement

/-! ### What returns has seen no error -/

/-- No inner command answered an error so far. -/
def Clean (tr : List (Event redisModule)) : Prop := ∀ e ∈ tr, ¬ IsError e

/-- A program that returns only where no inner command answered an error. -/
def Sound {α : Type} (p : Prog α) : Prop :=
  ∀ tr, Clean tr →
    p.Always answering (fun _ => True) (fun _ => True) (fun _ tr' => Clean tr') tr

section Sound

variable {α β : Type}

/-- One more event that is no error. -/
theorem Clean.append {tr : List (Event redisModule)} (h : Clean tr) {e : Event redisModule}
    (he : ¬ IsError e) : Clean (tr ++ [e]) := by
  intro e' he'
  rcases List.mem_append.1 he' with h' | h'
  · exact h e' h'
  · rwa [List.mem_singleton.1 h']

/-- A return calls nothing. -/
theorem sound_ret (a : α) : Sound (ret a : Prog α) := fun _ h => h

/-- A panic does not return. -/
theorem sound_panic : Sound (Program.panic : Prog α) := fun _ _ => trivial

/-- Two programs in a row. -/
theorem sound_bind {p : Prog α} {f : α → Prog β} (hp : Sound p) (hf : ∀ a, Sound (f a)) :
    Sound (p >>= f) := fun tr h => always_bind_of (hp tr h) fun a tr' h' => hf a tr' h'

/-- A call that is not an inner command. -/
theorem sound_call (o : Call) (ho : ¬ IsInner o) {k : o.Answer → Prog α} (hk : ∀ r, Sound (k r)) :
    Sound (call o >>= k) := by
  intro tr h answer _
  refine hk _ _ (h.append ?_)
  cases o <;> first | exact id | exact absurd rfl ho

/-- A reply is no inner command. -/
theorem sound_reply (r : Reply) {k : Unit → Prog α} (hk : Sound (k ())) :
    Sound (call (.reply r) >>= k) := sound_call (.reply r) Bool.false_ne_true fun _ => hk

/-- Nor is an access that may be undefined. -/
theorem sound_orPanic (a : Option α) {k : α → Prog β} (hk : ∀ a, Sound (k a)) :
    Sound (orPanic a >>= k) := by
  cases a with
  | none => exact sound_panic
  | some a => exact hk a

/-- A program that does not return: each of its paths ends in a panic. -/
def Doomed (p : Prog α) : Prop :=
  ∀ tr, p.Always answering (fun _ => True) (fun _ => True) (fun _ _ => False) tr

/-- A panic does not return. -/
theorem doomed_panic : Doomed (Program.panic : Prog α) := fun _ => trivial

/-- A call in front of a doomed program. -/
theorem doomed_call (o : Call) {k : o.Answer → Prog α} (hk : ∀ r, Doomed (k r)) :
    Doomed (call o >>= k) := fun _ _ _ => hk _ _

/-- **An inner command**: an error must doom what follows. -/
theorem sound_inner (o : Call) {k : o.Answer → Prog α} (hk : ∀ r, ¬ IsError ⟨o, r⟩ → Sound (k r))
    (hdoom : ∀ r, IsError ⟨o, r⟩ → Doomed (k r)) : Sound (call o >>= k) := by
  intro tr h answer _
  by_cases he : IsError ⟨o, answer o⟩
  · exact always_mono (hdoom _ he _) fun _ _ => False.elim
  · exact hk _ he _ (h.append he)

/-- **What `forwardIfError` leads to**: after an error there is nothing left to look
into. -/
theorem doomed_forwardIfError {γ : Type} (message : String)
    {k : ExstringsStatus × Option γ → Prog α} (hk : k (.NO_ERRORS, none) = Program.panic) :
    Doomed (forwardIfError (.error message) >>= k) := by
  refine doomed_call (.reply (.callReply (.error message))) fun _ => ?_
  rw [hk]
  exact doomed_panic

/-- Without an error `forwardIfError` goes on with the reply. -/
theorem sound_forwardIfError {γ : Type} (a : γ) {k : ExstringsStatus × Option γ → Prog α}
    (hk : Sound (k (.NO_ERRORS, some a))) : Sound (forwardIfError (.ok a) >>= k) := hk

/-- `SCAN` returns only without an error. -/
theorem sound_scanSome (args : NgetArgs) (cursor : Int64) : Sound (scanSome args cursor) := by
  refine sound_inner (.scan cursor args.key args.count) (fun reply he => ?_) ?_
  · rcases reply with message | ⟨cursor, keys⟩
    · exact absurd ⟨message, rfl⟩ he
    refine sound_forwardIfError _ ?_
    dsimp only
    rw [if_neg (by decide)]
    refine sound_orPanic _ fun ⟨cursor, keys⟩ => ?_
    dsimp only
    split
    · exact sound_ret _
    refine sound_call .alloc Bool.false_ne_true fun allocated => ?_
    split
    · exact sound_reply _ (sound_ret _)
    refine sound_call .alloc Bool.false_ne_true fun allocated => ?_
    split
    · exact sound_panic
    · exact sound_ret _
  · rintro _ ⟨message, rfl⟩
    exact doomed_forwardIfError message rfl

/-- The lock is no inner command. -/
theorem sound_lock (usingThreadsafeContext : Bool) :
    Sound (lockThreadsafeContext usingThreadsafeContext) := by
  cases usingThreadsafeContext with
  | false => exact sound_ret _
  | true => exact sound_call .threadSafeContextLock Bool.false_ne_true fun _ => sound_ret _

/-- Nor is its release. -/
theorem sound_unlock (usingThreadsafeContext : Bool) :
    Sound (unlockThreadsafeContext usingThreadsafeContext) := by
  cases usingThreadsafeContext with
  | false => exact sound_ret _
  | true => exact sound_call .threadSafeContextUnlock Bool.false_ne_true fun _ => sound_ret _

/-- A release in front of a doomed program. -/
theorem doomed_unlock (usingThreadsafeContext : Bool) {k : Unit → Prog α} (hk : Doomed (k ())) :
    Doomed (unlockThreadsafeContext usingThreadsafeContext >>= k) := by
  cases usingThreadsafeContext with
  | false => exact hk
  | true => exact doomed_call .threadSafeContextUnlock fun _ => hk

/-- Nothing but replies is called for the pairs of a page. -/
theorem sound_emit (keys : List Bytes) (values : List (Option Bytes)) (replylen : Nat) :
    Sound (emit keys values replylen) := by
  induction keys, values, replylen using emit.induct with
  | case1 key keys rms values replylen ih => exact sound_reply _ (sound_reply _ ih)
  | case2 key keys values replylen ih => exact ih
  | case3 values replylen => exact sound_ret _
  | case4 key keys replylen => exact sound_panic

/-- The rounds return only where no inner command answered an error. -/
theorem sound_ngetLoop (usingThreadsafeContext : Bool) (args : NgetArgs) (rounds : Nat)
    (cursor : Int64) (replylen : Nat) :
    Sound (ngetLoop usingThreadsafeContext args rounds cursor replylen) := by
  induction rounds generalizing cursor replylen with
  | zero => exact sound_ret _
  | succ rounds ih =>
      rw [ngetLoop]
      refine sound_bind (sound_lock _) fun _ => ?_
      refine sound_bind (sound_scanSome _ _) fun ⟨cursor, scannedKeys, status⟩ => ?_
      dsimp only
      split
      · exact sound_bind (sound_unlock _) fun _ => sound_ret _
      cases scannedKeys with
      | none =>
          refine sound_bind (sound_unlock _) fun _ => ?_
          split
          · exact ih _ _
          · exact sound_ret _
      | some keys =>
          refine sound_inner (.mget keys) (fun reply he => ?_) ?_
          · rcases reply with message | values
            · exact absurd ⟨message, rfl⟩ he
            refine sound_bind (sound_unlock _) fun _ => ?_
            refine sound_forwardIfError values ?_
            rw [if_neg (not_not.2 rfl)]
            refine sound_orPanic _ fun values => ?_
            refine sound_bind (sound_emit _ _ _) fun replylen => ?_
            split
            · exact ih _ _
            · exact sound_ret _
          · rintro _ ⟨message, rfl⟩
            exact doomed_unlock _ (doomed_forwardIfError message rfl)

/-- So does the whole of `NGET`. -/
theorem sound_ngetRedisCommand (rounds : Nat) (args : NgetArgs) (usingThreadsafeContext : Bool) :
    Sound (ngetRedisCommand rounds args usingThreadsafeContext) := by
  refine sound_reply _ (sound_bind (sound_ngetLoop _ _ _ _ _) fun result => ?_)
  cases result with
  | none => exact sound_ret _
  | some result => exact sound_reply _ (sound_ret _)

/-- A write that answered no error is passed on. -/
theorem splitReply_of_not_isError {w : Write} {reply : Option CallReply}
    (h : ¬ IsError ⟨.write w, reply⟩) : splitReply reply = .ok reply := by
  unfold splitReply
  split
  · rename_i message
    exact absurd ⟨message, rfl⟩ h
  · rfl

/-- The rounds of `NDEL` return only where no inner command answered an error. -/
theorem sound_ndelLoop (args : NgetArgs) (rounds : Nat) (cursor : Int64) (replylen : Int) :
    Sound (ndelLoop args rounds cursor replylen) := by
  induction rounds generalizing cursor replylen with
  | zero => exact sound_ret _
  | succ rounds ih =>
      rw [ndelLoop]
      refine sound_bind (sound_scanSome _ _) fun ⟨cursor, scannedKeys, status⟩ => ?_
      dsimp only
      split
      · exact sound_ret _
      cases scannedKeys with
      | none =>
          dsimp only
          split
          · exact ih _ _
          · exact sound_ret _
      | some keys =>
          refine sound_inner (.write (.UNLINK keys)) (fun reply he => ?_) ?_
          · rw [splitReply_of_not_isError he]
            refine sound_forwardIfError reply ?_
            rw [if_neg (not_not.2 rfl)]
            refine sound_orPanic _ fun reply => ?_
            split
            · exact ih _ _
            · exact sound_ret _
          · rintro _ ⟨message, rfl⟩
            exact doomed_forwardIfError message rfl

/-- The commands that scan the keyspace. -/
inductive Scanning
  | ngetAtomic
  | ngetNoatomic
  | ndelAtomic
  deriving DecidableEq, Repr

/-- The program of a command, for a number of rounds of its loop. -/
def Scanning.prog (stringToLongLong : Bytes → Option Int64) (rounds : Nat) (argv : List Bytes) :
    Scanning → Prog (Option Status)
  | ngetAtomic => nGetAtomicRedisCommand stringToLongLong rounds argv
  | ngetNoatomic => nGetNoAtomicRedisCommand stringToLongLong rounds argv
  | ndelAtomic => nDelAtomicRedisCommand rounds argv

/-- The arguments are read without an inner command. -/
theorem sound_readNgetArgs (stringToLongLong : Bytes → Option Int64) (argv : List Bytes) :
    Sound (readNgetArgs stringToLongLong argv) := by
  unfold readNgetArgs
  split
  · exact sound_ret _
  · split
    · exact sound_reply _ (sound_ret _)
    split
    · split
      · exact sound_reply _ (sound_ret _)
      · exact sound_ret _
    · exact sound_reply _ (sound_ret _)
  · exact sound_reply _ (sound_ret _)

/-- **A command that returns has seen no error of an inner command.** -/
theorem sound_prog (c : Scanning) (stringToLongLong : Bytes → Option Int64) (rounds : Nat)
    (argv : List Bytes) : Sound (c.prog stringToLongLong rounds argv) := by
  cases c with
  | ngetAtomic =>
      refine sound_bind (sound_readNgetArgs _ _) fun result => ?_
      split
      · exact sound_ngetRedisCommand _ _ _
      · exact sound_ret _
  | ngetNoatomic =>
      refine sound_call .alloc Bool.false_ne_true fun allocated => ?_
      split
      · exact sound_reply _ (sound_ret _)
      refine sound_bind (sound_readNgetArgs _ _) fun result => ?_
      split
      · exact sound_bind (sound_ngetRedisCommand _ _ _) fun _ => sound_ret _
      · exact sound_ret _
  | ndelAtomic =>
      simp only [Scanning.prog]
      unfold nDelAtomicRedisCommand
      split
      · refine sound_bind (sound_ndelLoop _ _ _ _) fun result => ?_
        split
        · exact sound_ret _
        · exact sound_reply _ (sound_ret _)
        · exact sound_ret _
      · exact sound_reply _ (sound_ret _)

/-- **An abort is clean if and only if there was nothing to abort for**: no path of
a command along which an inner command answers an error ends as it should. -/
theorem abortsCleanly_iff (c : Scanning) (stringToLongLong : Bytes → Option Int64) (rounds : Nat)
    (argv : List Bytes) {tr : List (Event redisModule)} {rest : Prog (Option Status)}
    (hpath : Path (c.prog stringToLongLong rounds argv) tr rest)
    (hend : rest = Program.panic ∨ ∃ result, rest = ret result) :
    AbortsCleanly tr rest ↔ ∀ e ∈ tr, ¬ IsError e := by
  have hsound := hpath.of_always (sound_prog c stringToLongLong rounds argv [] nofun)
  constructor
  · intro hclean e he herror
    obtain ⟨pre, post, rfl⟩ := List.append_of_mem he
    obtain ⟨-, -, hrest, -⟩ := hclean pre e post rfl herror
    obtain rfl | ⟨result, rfl⟩ := hend
    · exact hrest rfl
    · exact hsound e he herror
  · intro hnone pre e post htr herror
    exact absurd herror (hnone e (htr ▸ List.mem_append_right _ (List.mem_cons_self ..)))

/-- `NGET.ATOMIC k*` over two pages: the value of the first key is sent, and the `MGET` of
the second page answers an error. -/
def lateError : List (Event redisModule) :=
  [⟨.reply .postponedArray, ()⟩,
    ⟨.scan 0 [107, 42] defCountStr, .ok (1, [[107, 49]])⟩, ⟨.alloc, true⟩, ⟨.alloc, true⟩,
    ⟨.mget [[107, 49]], .ok [some [118]]⟩,
    ⟨.reply (.string [107, 49]), ()⟩, ⟨.reply (.string [118]), ()⟩,
    ⟨.scan 1 [107, 42] defCountStr, .ok (0, [[107, 50]])⟩, ⟨.alloc, true⟩, ⟨.alloc, true⟩,
    ⟨.mget [[107, 50]], .error "ERR"⟩, ⟨.reply (.callReply (.error "ERR")), ()⟩]

/-- It is a path of the command that ends in the use of the freed reply. -/
theorem path_lateError : Path (Scanning.ngetAtomic.prog (fun _ => none) 2 [[110], [107, 42]])
    lateError Program.panic :=
  .call (.call (.call (.call (.call (.call (.call (.call (.call (.call (.call (.call
    (.refl _))))))))))))

/-- At an error in the second round. -/
theorem abortsCleanly_iff_lateError :
    AbortsCleanly lateError (Program.panic : Prog (Option Status)) ↔
      ∀ e ∈ lateError, ¬ IsError e :=
  abortsCleanly_iff .ngetAtomic (fun _ => none) 2 [[110], [107, 42]] path_lateError (.inl rfl)

/-- `NDEL.ATOMIC k`, where the first `SCAN` answers an error. -/
theorem not_abortsCleanly : ¬ ∀ (c : Scanning) (stringToLongLong : Bytes → Option Int64)
    (rounds : Nat) (argv : List Bytes) (tr : List (Event redisModule))
    (rest : Prog (Option Status)), Path (c.prog stringToLongLong rounds argv) tr rest →
      (rest = Program.panic ∨ ∃ result, rest = ret result) → AbortsCleanly tr rest := by
  intro h
  have hpath : Path (Scanning.ndelAtomic.prog (fun _ => none) 1 [[110], [107]])
      [⟨.scan 0 [107] defCountStr, .error "ERR"⟩, ⟨.reply (.callReply (.error "ERR")), ()⟩]
      Program.panic := .call (.call (.refl _))
  exact (h _ _ _ _ _ _ hpath (.inl rfl) [] _ _ rfl ⟨"ERR", rfl⟩).2.2.1 rfl

end Sound

end NearRtRic.Exstrings
