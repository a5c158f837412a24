/-
# The law of the publishing commands

The calls of a command that change something or notify somebody are its write
and its publications, `effects`.  Whatever the keyspace and the arguments are,
they come in one of three ways (`Ended`): none at all; the write alone, if it was
refused or removed nothing; or the write and then one publication for each pair
that was given.  `publishesOnWrite` reads the law off this, and
`write_mem_effects_iff` says when the write is issued (`Issues`).

What the law takes from the server is what its write commands answer
(`Redis.Documented`).
-/

import NearRtRic.Exstrings.Publish

namespace NearRtRic.Exstrings

open Effect Program

/-! ### Effects -/

/-- `RedisModule_Call` answered neither NULL nor an error. -/
def accepted : Option CallReply → Bool
  | none | some (.error _) => false
  | some _ => true

section Law

variable {D : Type} (redis : Redis D)

/-- What the server says of its write commands: one that it refuses changes
nothing, `MSET` answers a status, and `UNLINK` the number of the keys it removed. -/
structure Redis.Documented : Prop where
  refused : ∀ w d, ¬ accepted (redis.write w d).1 → (redis.write w d).2 = d
  mset : ∀ argv d, accepted (redis.write (.MSET argv) d).1 →
    ∃ text, (redis.write (.MSET argv) d).1 = some (.status text)
  unlink : ∀ keys d, accepted (redis.write (.UNLINK keys) d).1 →
    ∃ n : Nat, (redis.write (.UNLINK keys) d).1 = some (.integer n) ∧
      (n = 0 → (redis.write (.UNLINK keys) d).2 = d) ∧
      (0 < n ↔ ∃ key ∈ keys, redis.value d key ≠ none ∧
        redis.value (redis.write (.UNLINK keys) d).2 key = none)

/-- The write took place: the `MSET` was performed, or at least one key was removed. -/
def TookPlace (w : Write) (d : D) : Prop :=
  match w with
  | .UNLINK keys => ∃ key ∈ keys, redis.value d key ≠ none ∧
      redis.value (redis.write w d).2 key = none
  | _ => accepted (redis.write w d).1

/-- The calls that change the keyspace or notify a client. -/
def IsEffect : Call → Bool
  | .write _ | .publish _ _ => true
  | _ => false

/-- The effects of a run, in order. -/
def effects (tr : List (Event redisModule)) : List Call := (tr.map Sigma.fst).filter IsEffect

/-- The replies by which a command says that it did nothing. -/
def IsQuiet : Reply → Bool
  | .null | .wrongArity | .callReply .null => true
  | .longLong n | .callReply (.integer n) => n = 0
  | .error message | .callReply (.error message) => message = wrongType
  | _ => false

/-- The publication of a pair. -/
def publication (p : Bytes × Bytes) : Call := .publish p.1 p.2

/-- The pairs of a list. -/
def pairUp : List Bytes → List (Bytes × Bytes)
  | channel :: message :: rest => (channel, message) :: pairUp rest
  | _ => []

/-- How a command with the write `w` and the pairs `ps` ends. -/
inductive Ended (w : Write) (ps : List (Bytes × Bytes)) (d : D) :
    State D × List (Event redisModule) → Prop
  | quiet {s tr} : effects tr = [] → s.db = d → Ended w ps d (s, tr)
  | withoutPublication {s tr} : ¬ TookPlace redis w d → effects tr = [.write w] →
      (redis.write w d).2 = d → s.db = d → Ended w ps d (s, tr)
  | published {s tr} : TookPlace redis w d → effects tr = .write w :: ps.map publication →
      ps ≠ [] → s.db = (redis.write w d).2 → (∀ r ∈ s.replies, ¬ IsQuiet r) →
      Ended w ps d (s, tr)

end Law

section Ends

variable {D : Type} {redis : Redis D} {w : Write} {ps : List (Bytes × Bytes)} {d : D}

/-- The command has only read so far. -/
def Fresh (d : D) (s : State D × List (Event redisModule)) : Prop :=
  s.1.db = d ∧ s.1.replies = [] ∧ effects s.2 = []

/-- A program that ends as the law says, if only reads precede it. -/
def EndsLawfully (redis : Redis D) (w : Write) (ps : List (Bytes × Bytes)) (d : D)
    (p : Prog Status) : Prop :=
  ∀ s, Fresh d s →
    p.Always (recording (exec redis)) (fun _ => True) (fun _ => False)
      (fun _ => Ended redis w ps d) s

/-- The effects of two runs in a row. -/
theorem effects_append (tr tr' : List (Event redisModule)) :
    effects (tr ++ tr') = effects tr ++ effects tr' := by
  simp [effects]

/-- A command that only replies ends quietly. -/
theorem lawful_replyWith (r : Reply) : EndsLawfully redis w ps d (replyWith r) := by
  rintro ⟨s, tr⟩ ⟨hdb, -, heff⟩ c -
  refine .quiet ?_ hdb
  rw [effects_append, heff]
  rfl

/-- A command has only read after one more read, too. -/
theorem Fresh.recording {s : State D × List (Event redisModule)} (h : Fresh d s) {o : Call}
    (ho : IsEffect o = false) {c : Bool} (hexec : (exec redis o c s.1).2 = s.1) :
    Fresh d (Program.recording (exec redis) o c s).2 := by
  obtain ⟨hdb, hreplies, heff⟩ := h
  rw [Program.recording, hexec]
  refine ⟨hdb, hreplies, ?_⟩
  rw [effects_append, heff]
  simp [effects, ho]

/-- A read of the type is no effect. -/
theorem lawful_keyType (key : Bytes) {k : KeyType → Prog Status}
    (hk : ∀ type, EndsLawfully redis w ps d (k type)) :
    EndsLawfully redis w ps d (call (.keyType key) >>= k) :=
  fun _ hs _ _ => hk _ _ (hs.recording rfl rfl)

/-- Nor is a read of the value. -/
theorem lawful_get (key : Bytes) {k : Option CallReply → Prog Status}
    (hk : ∀ reply, EndsLawfully redis w ps d (k reply)) :
    EndsLawfully redis w ps d (call (.get key) >>= k) :=
  fun _ hs _ _ => hk _ _ (hs.recording rfl rfl)

/-- An error in the reply ends the command, quietly. -/
theorem lawful_assertNoError {r : Option CallReply} {k : CallReply → Prog Status}
    (hk : ∀ reply, EndsLawfully redis w ps d (k reply)) :
    EndsLawfully redis w ps d (assertNoError r k) := by
  rcases r with _ | reply
  · exact lawful_replyWith _
  · cases reply with
    | error message => exact lawful_replyWith _
    | null => exact hk _
    | string b => exact hk _
    | integer n => exact hk _
    | status text => exact hk _

/-- `multiPubCommand` publishes the pairs in order, and does nothing else. -/
theorem always_multiPubCommand {pairs : List Bytes} (heven : pairs.length % 2 = 0)
    (s : State D) (tr : List (Event redisModule)) :
    (multiPubCommand pairs).Always (recording (exec redis)) (fun _ => True) (fun _ => False)
      (fun _ s' => s'.1 = s ∧ effects s'.2 = effects tr ++ (pairUp pairs).map publication)
      (s, tr) := by
  induction pairs using multiPubCommand.induct generalizing tr with
  | case1 => exact ⟨rfl, (List.append_nil _).symm⟩
  | case2 => simp at heven
  | case3 channel message pairs ih =>
      intro c _
      have hlen : pairs.length % 2 = 0 := by
        simp only [List.length_cons] at heven
        omega
      refine always_mono (ih hlen _) ?_
      rintro - ⟨s', tr'⟩ ⟨rfl, heff⟩
      refine ⟨rfl, heff.trans ?_⟩
      rw [effects_append, List.append_assoc]
      rfl

/-- The write was performed or refused just now. -/
def Written (redis : Redis D) (w : Write) (d : D) (s : State D × List (Event redisModule)) : Prop :=
  s.1.db = (redis.write w d).2 ∧ s.1.replies = [] ∧ effects s.2 = [.write w]

/-- After a write that is refused the command replies and publishes nothing. -/
theorem ended_of_refused (hdoc : redis.Documented)
    (hw : TookPlace redis w d → accepted (redis.write w d).1)
    (hr : ¬ accepted (redis.write w d).1) {s : State D × List (Event redisModule)}
    (hs : Written redis w d s) (r : Reply) :
    (replyWith r).Always (recording (exec redis)) (fun _ => True) (fun _ => False)
      (fun _ => Ended redis w ps d) s := by
  obtain ⟨s, tr⟩ := s
  obtain ⟨hdb, -, heff⟩ := hs
  intro c _
  refine .withoutPublication (mt hw hr) ?_ (hdoc.refused w d hr) (hdb.trans (hdoc.refused w d hr))
  rw [effects_append, heff]
  rfl

/-- A write whose reply is checked: it was refused, or the rest runs on its reply. -/
theorem lawful_write (hdoc : redis.Documented)
    (hw : TookPlace redis w d → accepted (redis.write w d).1) {k : CallReply → Prog Status}
    (hk : ∀ reply, (redis.write w d).1 = some reply → accepted (some reply) →
      ∀ s, Written redis w d s →
        (k reply).Always (recording (exec redis)) (fun _ => True) (fun _ => False)
          (fun _ => Ended redis w ps d) s) :
    EndsLawfully redis w ps d (call (.write w) >>= fun r => assertNoError r k) := by
  rintro ⟨s, tr⟩ ⟨rfl, hreplies, heff⟩ c -
  have hwritten : Written redis w s.db
      (recording (E := redisModule) (exec redis) (.write w) c (s, tr)).2 := by
    refine ⟨rfl, hreplies, ?_⟩
    rw [recording, effects_append, heff]
    rfl
  revert hwritten
  generalize (recording (E := redisModule) (exec redis) (.write w) c (s, tr)).2 = s'
  intro hwritten
  change (assertNoError (redis.write w s.db).1 k).Always _ _ _ _ s'
  rcases hr : (redis.write w s.db).1 with _ | reply
  · exact ended_of_refused hdoc hw (by rw [hr]; exact Bool.false_ne_true) hwritten _
  · cases reply with
    | error message =>
        exact ended_of_refused hdoc hw (by rw [hr]; exact Bool.false_ne_true) hwritten _
    | null => exact hk _ hr rfl _ hwritten
    | string b => exact hk _ hr rfl _ hwritten
    | integer n => exact hk _ hr rfl _ hwritten
    | status text => exact hk _ hr rfl _ hwritten

/-- Two strings make a pair. -/
theorem pairUp_ne_nil {pairs : List Bytes} (h : 2 ≤ pairs.length) : pairUp pairs ≠ [] := by
  match pairs, h with
  | _ :: _ :: _, _ => exact List.cons_ne_nil _ _

/-- The end of a publishing set obeys the law. -/
theorem lawful_setPubStringCommon (hdoc : redis.Documented) (keyValPairs : List Bytes)
    {pairs : List Bytes} (heven : pairs.length % 2 = 0) (htwo : 2 ≤ pairs.length) :
    EndsLawfully redis (.MSET keyValPairs) (pairUp pairs) d
      (setPubStringCommon keyValPairs pairs) := by
  refine lawful_write hdoc id fun reply hreply hacc s hs => ?_
  obtain ⟨s, tr⟩ := s
  obtain ⟨hdb, (hreplies : s.replies = []), heff⟩ := hs
  have hacc' : accepted (redis.write (.MSET keyValPairs) d).1 := by rwa [hreply]
  obtain ⟨text, htext⟩ := hdoc.mset keyValPairs d hacc'
  obtain rfl : reply = .status text := Option.some.inj (hreply.symm.trans htext)
  refine always_bind_of (always_multiPubCommand heven s tr) ?_
  rintro - ⟨s', tr'⟩ ⟨rfl, heff'⟩ c -
  refine .published hacc' ?_ (pairUp_ne_nil htwo) hdb ?_
  · rw [effects_append, heff', heff]
    exact List.append_nil _
  · intro r hr
    change r ∈ s'.replies ++ [Reply.callReply (.status text)] at hr
    rw [hreplies] at hr
    obtain rfl := List.mem_singleton.1 hr
    exact Bool.false_ne_true

/-- So does the end of a publishing delete, which looks at the number of removed keys. -/
theorem lawful_delPubStringCommon (hdoc : redis.Documented) (keys : List Bytes)
    {pairs : List Bytes} (heven : pairs.length % 2 = 0) (htwo : 2 ≤ pairs.length) :
    EndsLawfully redis (.UNLINK keys) (pairUp pairs) d (delPubStringCommon keys pairs) := by
  have hw : TookPlace redis (.UNLINK keys) d → accepted (redis.write (.UNLINK keys) d).1 := by
    rintro ⟨key, -, hbefore, hafter⟩
    by_contra hr
    rw [hdoc.refused _ d hr] at hafter
    exact hbefore hafter
  refine lawful_write hdoc hw fun reply hreply hacc s hs => ?_
  obtain ⟨s, tr⟩ := s
  obtain ⟨hdb, (hreplies : s.replies = []), heff⟩ := hs
  obtain ⟨n, hn, hzero, hpos⟩ := hdoc.unlink keys d (by rwa [hreply])
  obtain rfl : reply = .integer n := Option.some.inj (hreply.symm.trans hn)
  rcases Nat.eq_zero_or_pos n with rfl | hn'
  · intro c _
    refine .withoutPublication (mt hpos.2 (Nat.lt_irrefl 0)) ?_ (hzero rfl) (hdb.trans (hzero rfl))
    rw [effects_append, heff]
    rfl
  · have hne : (n : Int) ≠ 0 := by omega
    split
    · rename_i heq
      cases heq
    · rename_i heq
      exact absurd (CallReply.integer.inj heq) hne
    · refine (always_bind ..).2 ?_
      intro c _
      change (multiPubCommand pairs >>= fun _ => ret Status.OK).Always _ _ _ _ _
      refine always_bind_of (always_multiPubCommand heven _ _) ?_
      rintro - ⟨s', tr'⟩ ⟨rfl, heff'⟩
      refine .published (hpos.1 hn') ?_ (pairUp_ne_nil htwo) hdb ?_
      · rw [heff', effects_append, heff]
        rfl
      · intro r hr
        change r ∈ s.replies ++ [Reply.callReply (.integer n)] at hr
        rw [hreplies] at hr
        obtain rfl := List.mem_singleton.1 hr
        simpa [IsQuiet] using hn'.ne'

end Ends

namespace Publishing

variable (stringToLongLong : Bytes → Option Int64)

/-- The count that `argv[1]` gives. -/
def count (argv : List Bytes) : Nat :=
  ((stringToLongLong (argv.getD 1 [])).elim 0 Int64.toInt).toNat

/-- The write of a command. -/
def write : Publishing → List Bytes → Write
  | msetpub, argv => .MSET ((argv.drop 1).take (argv.length - 3))
  | msetmpub, argv => .MSET ((argv.drop 3).take (2 * count stringToLongLong argv))
  | setiepub, argv | setiempub, argv | setnepub, argv | setxxpub, argv | setnxpub, argv
  | setnxmpub, argv => .MSET [argv.getD 1 [], argv.getD 2 []]
  | delpub, argv => .UNLINK ((argv.drop 1).take (argv.length - 3))
  | delmpub, argv => .UNLINK ((argv.drop 3).take (count stringToLongLong argv))
  | deliepub, argv | deliempub, argv | delnepub, argv => .UNLINK [argv.getD 1 []]

/-- The channels and messages that a command is given, alternating. -/
def channelMsgPairs : Publishing → List Bytes → List Bytes
  | msetpub, argv | delpub, argv => argv.drop (argv.length - 2)
  | msetmpub, argv => argv.drop (3 + 2 * count stringToLongLong argv)
  | delmpub, argv => argv.drop (3 + count stringToLongLong argv)
  | setiepub, argv | setiempub, argv | setnepub, argv => argv.drop 4
  | setxxpub, argv | setnxpub, argv | setnxmpub, argv => argv.drop 3
  | deliepub, argv | deliempub, argv | delnepub, argv => argv.drop 3

/-- The counts of `MSETMPUB` and `DELMPUB` parse, and their sum does not overflow. -/
def CountsParse (argv : List Bytes) : Publishing → Prop
  | msetmpub => ∃ a b, stringToLongLong (argv.getD 1 []) = some a ∧
      stringToLongLong (argv.getD 2 []) = some b ∧ total 2 a b < 2 ^ 63
  | delmpub => ∃ a b, stringToLongLong (argv.getD 1 []) = some a ∧
      stringToLongLong (argv.getD 2 []) = some b ∧ total 1 a b < 2 ^ 63
  | _ => True

/-- Two counts are accepted: both are positive, and ask for the arguments that are given. -/
def Accepts (arity : Nat → Bool) (width a b : Int64) (argc : Nat) : Prop :=
  arity argc ∧ 1 ≤ a.toInt ∧ 1 ≤ b.toInt ∧ total width a b = argc

section Lawful

variable {D : Type} {redis : Redis D} {w : Write} {ps : List (Bytes × Bytes)} {d : D}

/-- A count that parses to a positive number is that number. -/
theorem count_eq {stringToLongLong : Bytes → Option Int64} {argv : List Bytes} {a : Int64}
    (ha : stringToLongLong (argv.getD 1 []) = some a) (hpos : 1 ≤ a.toInt) :
    (count stringToLongLong argv : Int) = a.toInt := by
  rw [count, ha, Option.elim_some]
  omega

/-- With a number of arguments that is refused the command only replies. -/
theorem lawful_withArity {ok : Nat → Prop} [DecidablePred ok]
    {common : List Bytes → Prog Status} {argv : List Bytes}
    (h : ok argv.length → EndsLawfully redis w ps d (common argv)) :
    EndsLawfully redis w ps d (withArity (fun argc => decide (ok argc)) common argv) := by
  unfold withArity
  split
  · rename_i hok
    exact h (of_decide_eq_true hok)
  · exact lawful_replyWith _

/-- The common part of SETIEPUB, SETIEMPUB and SETNEPUB. -/
theorem lawful_setIENEPub (hdoc : redis.Documented) (flag : Flag) {argv : List Bytes}
    (h : 6 ≤ argv.length) (heven : argv.length % 2 = 0) :
    EndsLawfully redis (.MSET [argv.getD 1 [], argv.getD 2 []]) (pairUp (argv.drop 4)) d
      (setIENEPubStringCommon flag argv) := by
  obtain ⟨name, key, value, oldval, rest, rfl⟩ :=
    Command.exists_of_le_length (show 4 ≤ argv.length by omega)
  simp only [List.length_cons] at h heven
  have heven' : rest.length % 2 = 0 := by omega
  have htwo : 2 ≤ rest.length := by omega
  refine lawful_keyType _ fun type => ?_
  split
  · exact lawful_replyWith _
  split
  · exact lawful_replyWith _
  refine lawful_get _ fun reply => lawful_assertNoError fun reply => ?_
  dsimp only
  split
  · exact lawful_replyWith _
  · exact lawful_setPubStringCommon hdoc _ heven' htwo

/-- The arguments behind a key and one value or old value are pairs. -/
theorem exists_of_odd {argv : List Bytes} (h : 5 ≤ argv.length) (hodd : argv.length % 2 ≠ 0) :
    ∃ name key value rest, argv = name :: key :: value :: rest ∧ rest.length % 2 = 0 ∧
      2 ≤ rest.length := by
  obtain ⟨name, key, value, x, rest, rfl⟩ :=
    Command.exists_of_le_length (show 4 ≤ argv.length by omega)
  rw [List.length_cons, List.length_cons, List.length_cons] at h hodd
  exact ⟨name, key, value, x :: rest, rfl, by omega, by omega⟩

/-- The common part of SETXXPUB, SETNXPUB and their variants. -/
theorem lawful_setXXNXPub (hdoc : redis.Documented) (flag : Exists) {argv : List Bytes}
    (h : 5 ≤ argv.length) (hodd : argv.length % 2 ≠ 0) :
    EndsLawfully redis (.MSET [argv.getD 1 [], argv.getD 2 []]) (pairUp (argv.drop 3)) d
      (setXXNXPubStringCommon flag argv) := by
  obtain ⟨name, key, value, rest, rfl, heven, htwo⟩ := exists_of_odd h hodd
  refine lawful_keyType _ fun type => ?_
  split
  · exact lawful_replyWith _
  split
  · exact lawful_replyWith _
  · exact lawful_setPubStringCommon hdoc _ heven htwo

/-- The common part of DELIEPUB, DELIEMPUB and DELNEPUB. -/
theorem lawful_delIENEPub (hdoc : redis.Documented) (flag : Flag) {argv : List Bytes}
    (h : 5 ≤ argv.length) (hodd : argv.length % 2 ≠ 0) :
    EndsLawfully redis (.UNLINK [argv.getD 1 []]) (pairUp (argv.drop 3)) d
      (delIENEPubStringCommon flag argv) := by
  obtain ⟨name, key, oldval, rest, rfl, heven, htwo⟩ := exists_of_odd h hodd
  refine lawful_keyType _ fun type => ?_
  split
  · exact lawful_replyWith _
  split
  · exact lawful_replyWith _
  refine lawful_get _ fun reply => lawful_assertNoError fun reply => ?_
  dsimp only
  split
  · exact lawful_replyWith _
  · exact lawful_delPubStringCommon hdoc _ heven htwo

/-- Two counts that parse, and whose sum does not overflow: a reply, or the exact slices. -/
theorem withSlices_cases {arity : Nat → Bool} {width a b : Int64} (hw : width = 1 ∨ width = 2)
    (notPositive mismatch : String) {argv : List Bytes} (hfit : total width a b < 2 ^ 63)
    (common : List Bytes → List Bytes → Prog Status) :
    let p := withSlices
      (slicesOf arity width notPositive mismatch argv.length (some a) (some b)) argv common
    (¬ Accepts arity width a b argv.length ∧ ∃ r, p = replyWith r) ∨
      Accepts arity width a b argv.length ∧
        p = common ((argv.drop 3).take (width.toInt * a.toInt).toNat)
          (argv.drop (3 + (width.toInt * a.toInt).toNat)) := by
  have hone : ∀ a : Int64, a < 1 ↔ ¬ 1 ≤ a.toInt := by
    intro a
    rw [Int64.lt_iff_toInt_lt, show (1 : Int64).toInt = 1 from rfl, Int.not_le]
  unfold slicesOf
  dsimp only
  split
  · rename_i harity
    exact .inl ⟨fun h => harity h.1, _, rfl⟩
  rename_i harity
  rw [not_not] at harity
  split
  · rename_i ha
    exact .inl ⟨fun h => (hone a).1 ha h.2.1, _, rfl⟩
  rename_i ha
  split
  · rename_i hb
    exact .inl ⟨fun h => (hone b).1 hb h.2.2.1, _, rfl⟩
  rename_i hb
  rw [hone, not_not] at ha hb
  have hkeys := length_toNat hw ha
  have hpubs := length_toNat (.inr rfl) hb
  rw [show (2 : Int64).toInt = 2 from rfl] at hpubs
  have hpos : 1 ≤ width.toInt * a.toInt := by
    rcases toInt_width hw with h | h <;> rw [h] <;> omega
  have hexact : (total width a b).bmod (2 ^ 64) = total width a b := by
    rw [total] at hfit ⊢
    exact Int.bmod_eq_of_le (by omega) (by omega)
  rw [sum_toInt, hexact]
  split
  · rename_i htotal
    exact .inl ⟨fun h => htotal h.2.2.2, _, rfl⟩
  rename_i htotal
  rw [ne_eq, not_not] at htotal
  refine .inr ⟨⟨harity, ha, hb, htotal⟩, ?_⟩
  have hsum := htotal
  rw [total, ← hkeys, ← hpubs] at hsum
  have hk : (Slice.mk 3 (width * a).toUInt64).of argv =
      some ((argv.drop 3).take (width.toInt * a.toInt).toNat) := by
    rw [Slice.of, if_pos (by dsimp only; omega), ← hkeys, Int.toNat_natCast]
  have hp : (Slice.mk (3 + (width * a).toUInt64.toNat) (2 * b).toUInt64).of argv =
      some (argv.drop (3 + (width.toInt * a.toInt).toNat)) := by
    rw [Slice.of, if_pos (by dsimp only; omega), ← hkeys, Int.toNat_natCast, List.take_of_length_le]
    rw [List.length_drop]
    dsimp only
    omega
  simp only [withSlices, hk, hp]

/-- So the command ends lawfully if it does so on the exact slices. -/
theorem lawful_withSlices {arity : Nat → Bool} {width a b : Int64} (hw : width = 1 ∨ width = 2)
    (notPositive mismatch : String) {argv : List Bytes} (hfit : total width a b < 2 ^ 63)
    {common : List Bytes → List Bytes → Prog Status}
    (h : 1 ≤ a.toInt → 1 ≤ b.toInt → total width a b = argv.length →
      EndsLawfully redis w ps d (common ((argv.drop 3).take (width.toInt * a.toInt).toNat)
        (argv.drop (3 + (width.toInt * a.toInt).toNat)))) :
    EndsLawfully redis w ps d (withSlices
      (slicesOf arity width notPositive mismatch argv.length (some a) (some b)) argv common) := by
  rcases withSlices_cases hw notPositive mismatch hfit common with
    ⟨-, r, heq⟩ | ⟨⟨-, ha, hb, htotal⟩, heq⟩
  · rw [heq]
    exact lawful_replyWith r
  · rw [heq]
    exact h ha hb htotal

/-- **Every publishing command ends lawfully**, whatever its arguments are. -/
theorem lawful_prog (hdoc : redis.Documented) (c : Publishing) {argv : List Bytes}
    (hparse : c.CountsParse stringToLongLong argv) :
    EndsLawfully redis (c.write stringToLongLong argv)
      (pairUp (c.channelMsgPairs stringToLongLong argv)) d (c.prog stringToLongLong argv) := by
  cases c with
  | msetpub =>
      simp only [prog, setPubRedisCommand, write, channelMsgPairs]
      refine lawful_withArity fun harity => ?_
      exact lawful_setPubStringCommon hdoc _ (by rw [List.length_drop]; omega)
        (by rw [List.length_drop]; omega)
  | msetmpub =>
      obtain ⟨a, b, ha, hb, hfit⟩ := hparse
      simp only [prog, setMPubRedisCommand, setMPubSlices, write, channelMsgPairs, ha, hb]
      refine lawful_withSlices (.inr rfl) _ _ hfit fun ha' hb' htotal => ?_
      have hcount := count_eq ha ha'
      have hlen : ((2 : Int64).toInt * a.toInt).toNat = 2 * count stringToLongLong argv := by
        rw [show (2 : Int64).toInt = 2 from rfl]
        omega
      rw [total, show (2 : Int64).toInt = 2 from rfl] at htotal
      rw [hlen]
      exact lawful_setPubStringCommon hdoc _ (by rw [List.length_drop]; omega)
        (by rw [List.length_drop]; omega)
  | setiepub =>
      simp only [prog, setIEPubRedisCommand, write, channelMsgPairs]
      refine lawful_withArity fun harity => ?_
      exact lawful_setIENEPub hdoc _ (by omega) (by omega)
  | setiempub =>
      simp only [prog, setIEMPubRedisCommand, write, channelMsgPairs]
      refine lawful_withArity fun harity => ?_
      exact lawful_setIENEPub hdoc _ harity.1 harity.2
  | setnepub =>
      simp only [prog, setNEPubRedisCommand, write, channelMsgPairs]
      refine lawful_withArity fun harity => ?_
      exact lawful_setIENEPub hdoc _ (by omega) (by omega)
  | setxxpub =>
      simp only [prog, setXXPubRedisCommand, write, channelMsgPairs]
      refine lawful_withArity fun harity => ?_
      exact lawful_setXXNXPub hdoc _ (by omega) (by omega)
  | setnxpub =>
      simp only [prog, setNXPubRedisCommand, write, channelMsgPairs]
      refine lawful_withArity fun harity => ?_
      exact lawful_setXXNXPub hdoc _ (by omega) (by omega)
  | setnxmpub =>
      simp only [prog, setNXMPubRedisCommand, write, channelMsgPairs]
      refine lawful_withArity fun harity => ?_
      exact lawful_setXXNXPub hdoc _ harity.1 harity.2
  | delpub =>
      simp only [prog, delPubRedisCommand, write, channelMsgPairs]
      refine lawful_withArity fun harity => ?_
      exact lawful_delPubStringCommon hdoc _ (by rw [List.length_drop]; omega)
        (by rw [List.length_drop]; omega)
  | delmpub =>
      obtain ⟨a, b, ha, hb, hfit⟩ := hparse
      simp only [prog, delMPubRedisCommand, delMPubSlices, write, channelMsgPairs, ha, hb]
      refine lawful_withSlices (.inl rfl) _ _ hfit fun ha' hb' htotal => ?_
      have hcount := count_eq ha ha'
      have hlen : ((1 : Int64).toInt * a.toInt).toNat = count stringToLongLong argv := by
        rw [show (1 : Int64).toInt = 1 from rfl]
        omega
      rw [total, show (1 : Int64).toInt = 1 from rfl] at htotal
      rw [hlen]
      exact lawful_delPubStringCommon hdoc _ (by rw [List.length_drop]; omega)
        (by rw [List.length_drop]; omega)
  | deliepub =>
      simp only [prog, delIEPubRedisCommand, write, channelMsgPairs]
      refine lawful_withArity fun harity => ?_
      exact lawful_delIENEPub hdoc _ (by omega) (by omega)
  | deliempub =>
      simp only [prog, delIEMPubRedisCommand, write, channelMsgPairs]
      refine lawful_withArity fun harity => ?_
      exact lawful_delIENEPub hdoc _ harity.1 harity.2
  | delnepub =>
      simp only [prog, delNEPubRedisCommand, write, channelMsgPairs]
      refine lawful_withArity fun harity => ?_
      exact lawful_delIENEPub hdoc _ (by omega) (by omega)

end Lawful

/-! ### When the write is issued -/

/-- Whether a conditional command goes on to its write, by what the key holds. -/
def Passes (deletes : Bool) (flag : Flag) (oldval : Bytes) : Option Value → Prop
  | none => deletes = false ∧ flag = .NE
  | some (.string v) => fires flag oldval v
  | some (.aggregate _) => False

section Issues

variable {D : Type} {redis : Redis D} {go : Prop} {d : D}

/-- A write was issued. -/
def Issued (s : State D × List (Event redisModule)) : Prop := ∃ w, Call.write w ∈ effects s.2

/-- A program that issues a write if and only if `go`, where only reads precede it. -/
def IssuesIff (redis : Redis D) (go : Prop) (d : D) (p : Prog Status) : Prop :=
  ∀ s, Fresh d s →
    p.Always (recording (exec redis)) (fun _ => True) (Issued · ↔ go) (fun _ => (Issued · ↔ go)) s

/-- What was called stays called. -/
theorem always_mem_effects {α : Type} (p : Prog α) {o : Call}
    {s : State D × List (Event redisModule)} (h : o ∈ effects s.2) :
    p.Always (recording (exec redis)) (fun _ => True) (o ∈ effects ·.2)
      (fun _ => (o ∈ effects ·.2)) s := by
  induction p generalizing s with
  | ret a => exact h
  | panic => exact h
  | call o' k ih =>
      intro c _
      refine ih _ ?_
      rw [recording, effects_append]
      exact List.mem_append_left _ h

/-- A command that only replies issues no write. -/
theorem issuesIff_replyWith (hgo : ¬ go) (r : Reply) : IssuesIff redis go d (replyWith r) := by
  rintro ⟨s, tr⟩ ⟨-, -, heff⟩ c -
  refine iff_of_false ?_ hgo
  rintro ⟨w, hw⟩
  rw [recording, effects_append, heff] at hw
  exact absurd hw List.not_mem_nil

/-- The type of the key is read first. -/
theorem issuesIff_keyType {key : Bytes} {k : KeyType → Prog Status}
    (hk : IssuesIff redis go d (k (KeyType.of (redis.value d key)))) :
    IssuesIff redis go d (call (.keyType key) >>= k) := by
  intro s hs c _
  obtain rfl := hs.1
  exact hk _ (hs.recording rfl rfl)

/-- So is its value. -/
theorem issuesIff_get {key : Bytes} {k : Option CallReply → Prog Status}
    (hk : IssuesIff redis go d (k (some (getReply (redis.value d key))))) :
    IssuesIff redis go d (call (.get key) >>= k) := by
  intro s hs c _
  obtain rfl := hs.1
  exact hk _ (hs.recording rfl rfl)

/-- In particular a string that it holds. -/
theorem issuesIff_get_string {key v : Bytes} (hv : redis.value d key = some (.string v))
    {k : CallReply → Prog Status} (hk : IssuesIff redis go d (k (.string v))) :
    IssuesIff redis go d (call (.get key) >>= fun r => assertNoError r k) := by
  refine issuesIff_get ?_
  rw [hv]
  exact hk

/-- A write is issued, whatever follows it. -/
theorem issuesIff_write (hgo : go) (w : Write) (k : Option CallReply → Prog Status) :
    IssuesIff redis go d (call (.write w) >>= k) := by
  rintro ⟨s, tr⟩ - c -
  refine always_imp (always_mem_effects (k _) ?_)
    (fun _ hw => iff_of_true ⟨w, hw⟩ hgo) fun _ _ hw => iff_of_true ⟨w, hw⟩ hgo
  rw [recording, effects_append]
  exact List.mem_append_right _ (List.mem_singleton.2 rfl)

/-- The comparison decides about the write. -/
theorem issuesIff_compare {refused fired : Prop} [Decidable refused] (h : refused ↔ ¬ fired)
    {p : Prog Status} (hp : fired → IssuesIff redis fired d p) (r : Reply) :
    IssuesIff redis fired d (if refused then replyWith r else p) := by
  split
  · rename_i hrefused
    exact issuesIff_replyWith (h.1 hrefused) r
  · rename_i hrefused
    exact hp (not_not.1 (mt h.2 hrefused))

/-- A command that checks the number of its arguments first. -/
theorem issuesIff_withArity {ok : Nat → Prop} [DecidablePred ok]
    {common : List Bytes → Prog Status} {argv : List Bytes} (hgo : go → ok argv.length)
    (h : ok argv.length → IssuesIff redis go d (common argv)) :
    IssuesIff redis go d (withArity (fun argc => decide (ok argc)) common argv) := by
  unfold withArity
  split
  · rename_i hok
    exact h (of_decide_eq_true hok)
  · rename_i hok
    exact issuesIff_replyWith (fun h => hok (decide_eq_true (hgo h))) _

variable {argv : List Bytes}

/-- The common part of SETIEPUB, SETIEMPUB and SETNEPUB. -/
theorem issuesIff_setIENEPub (flag : Flag) (h : 4 ≤ argv.length) :
    IssuesIff redis (Passes false flag (argv.getD 3 []) (redis.value d (argv.getD 1 []))) d
      (setIENEPubStringCommon flag argv) := by
  obtain ⟨name, key, value, oldval, rest, rfl⟩ := Command.exists_of_le_length h
  change IssuesIff redis (Passes false flag oldval (redis.value d key)) d _
  refine issuesIff_keyType ?_
  rcases hv : redis.value d key with _ | v | type
  · cases flag with
    | IE => exact issuesIff_replyWith (fun h => nomatch h.2) _
    | NE =>
        refine issuesIff_get ?_
        rw [hv]
        exact issuesIff_write ⟨rfl, rfl⟩ _ _
  · rw [if_neg (by rintro ⟨-, h⟩; cases h), if_neg (by rintro ⟨h, -⟩; exact h rfl)]
    exact issuesIff_get_string hv (issuesIff_compare (pub_refuses_iff flag oldval v)
      (fun hfires => issuesIff_write hfires _ _) _)
  · cases flag with
    | IE => exact issuesIff_replyWith id _
    | NE => exact issuesIff_replyWith id _

/-- The common part of DELIEPUB, DELIEMPUB and DELNEPUB. -/
theorem issuesIff_delIENEPub (flag : Flag) (h : 5 ≤ argv.length) (hodd : argv.length % 2 ≠ 0) :
    IssuesIff redis (Passes true flag (argv.getD 2 []) (redis.value d (argv.getD 1 []))) d
      (delIENEPubStringCommon flag argv) := by
  obtain ⟨name, key, oldval, rest, rfl, -, -⟩ := exists_of_odd h hodd
  change IssuesIff redis (Passes true flag oldval (redis.value d key)) d _
  refine issuesIff_keyType ?_
  rcases hv : redis.value d key with _ | v | type
  · exact issuesIff_replyWith (fun h => nomatch h.1) _
  · exact issuesIff_get_string hv (issuesIff_compare (pub_refuses_iff flag oldval v)
      (fun hfires => issuesIff_write hfires _ _) _)
  · exact issuesIff_replyWith id _

/-- The common part of SETXXPUB, which asks for a string. -/
theorem issuesIff_setXXPub (h : 5 ≤ argv.length) (hodd : argv.length % 2 ≠ 0) :
    IssuesIff redis (∃ v, redis.value d (argv.getD 1 []) = some (.string v)) d
      (setXXNXPubStringCommon .XX argv) := by
  obtain ⟨name, key, value, rest, rfl, -, -⟩ := exists_of_odd h hodd
  change IssuesIff redis (∃ v, redis.value d key = some (.string v)) d _
  refine issuesIff_keyType ?_
  rcases redis.value d key with _ | v | type
  · exact issuesIff_replyWith (fun ⟨_, h⟩ => nomatch h) _
  · exact issuesIff_write ⟨v, rfl⟩ _ _
  · exact issuesIff_replyWith (fun ⟨_, h⟩ => nomatch h) _

/-- That of SETNXPUB and SETNXMPUB, which ask for a key that is not there. -/
theorem issuesIff_setNXPub (h : 5 ≤ argv.length) (hodd : argv.length % 2 ≠ 0) :
    IssuesIff redis (redis.value d (argv.getD 1 []) = none) d
      (setXXNXPubStringCommon .NX argv) := by
  obtain ⟨name, key, value, rest, rfl, -, -⟩ := exists_of_odd h hodd
  change IssuesIff redis (redis.value d key = none) d _
  refine issuesIff_keyType ?_
  rcases redis.value d key with _ | v | type
  · exact issuesIff_write rfl _ _
  · exact issuesIff_replyWith nofun _
  · exact issuesIff_replyWith nofun _

/-- Two counts that parse, and whose sum does not overflow. -/
theorem issuesIff_withSlices {arity : Nat → Bool} {width a b : Int64}
    (hw : width = 1 ∨ width = 2) (notPositive mismatch : String) {argv : List Bytes}
    (hfit : total width a b < 2 ^ 63) {common : List Bytes → List Bytes → Prog Status}
    (h : ∀ keys pairs, IssuesIff redis True d (common keys pairs)) :
    IssuesIff redis (Accepts arity width a b argv.length) d (withSlices
      (slicesOf arity width notPositive mismatch argv.length (some a) (some b)) argv common) := by
  rcases withSlices_cases hw notPositive mismatch hfit common with ⟨hnot, r, heq⟩ | ⟨hacc, heq⟩
  · rw [heq]
    exact issuesIff_replyWith hnot r
  · rw [heq, iff_true_intro hacc]
    exact h _ _

end Issues

/-- **What a command asks** of its arguments and of its key before it issues its write. -/
def Issues {D : Type} (redis : Redis D) (argv : List Bytes) (d : D) : Publishing → Prop
  | msetpub => 5 ≤ argv.length ∧ argv.length % 2 ≠ 0
  | msetmpub => ∃ a b, stringToLongLong (argv.getD 1 []) = some a ∧
      stringToLongLong (argv.getD 2 []) = some b ∧
        Accepts (fun argc => 7 ≤ argc ∧ argc % 2 ≠ 0) 2 a b argv.length
  | setiepub => argv.length = 6 ∧
      Passes false .IE (argv.getD 3 []) (redis.value d (argv.getD 1 []))
  | setiempub => (6 ≤ argv.length ∧ argv.length % 2 = 0) ∧
      Passes false .IE (argv.getD 3 []) (redis.value d (argv.getD 1 []))
  | setnepub => argv.length = 6 ∧
      Passes false .NE (argv.getD 3 []) (redis.value d (argv.getD 1 []))
  | setxxpub => argv.length = 5 ∧ ∃ v, redis.value d (argv.getD 1 []) = some (.string v)
  | setnxpub => argv.length = 5 ∧ redis.value d (argv.getD 1 []) = none
  | setnxmpub => (5 ≤ argv.length ∧ argv.length % 2 ≠ 0) ∧
      redis.value d (argv.getD 1 []) = none
  | delpub => 4 ≤ argv.length
  | delmpub => ∃ a b, stringToLongLong (argv.getD 1 []) = some a ∧
      stringToLongLong (argv.getD 2 []) = some b ∧
        Accepts (fun argc => 6 ≤ argc) 1 a b argv.length
  | deliepub => argv.length = 5 ∧
      Passes true .IE (argv.getD 2 []) (redis.value d (argv.getD 1 []))
  | deliempub => (5 ≤ argv.length ∧ argv.length % 2 ≠ 0) ∧
      Passes true .IE (argv.getD 2 []) (redis.value d (argv.getD 1 []))
  | delnepub => argv.length = 5 ∧
      Passes true .NE (argv.getD 2 []) (redis.value d (argv.getD 1 []))

/-- Every publishing command issues a write exactly where it gets what it asks for. -/
theorem issuesIff_prog {D : Type} {redis : Redis D} {d : D} (c : Publishing) {argv : List Bytes}
    (hparse : c.CountsParse stringToLongLong argv) :
    IssuesIff redis (c.Issues stringToLongLong redis argv d) d (c.prog stringToLongLong argv) := by
  cases c with
  | msetpub =>
      simp only [prog, setPubRedisCommand, Issues]
      exact issuesIff_withArity id fun harity => issuesIff_write harity _ _
  | msetmpub =>
      obtain ⟨a, b, ha, hb, hfit⟩ := hparse
      simp only [prog, setMPubRedisCommand, setMPubSlices, Issues, ha, hb, Option.some.injEq,
        exists_and_left, exists_eq_left']
      exact issuesIff_withSlices (.inr rfl) _ _ hfit fun _ _ => issuesIff_write trivial _ _
  | setiepub =>
      simp only [prog, setIEPubRedisCommand, Issues]
      refine issuesIff_withArity And.left fun harity => ?_
      rw [and_iff_right harity]
      exact issuesIff_setIENEPub .IE (by omega)
  | setiempub =>
      simp only [prog, setIEMPubRedisCommand, Issues]
      refine issuesIff_withArity And.left fun harity => ?_
      rw [and_iff_right harity]
      exact issuesIff_setIENEPub .IE (by omega)
  | setnepub =>
      simp only [prog, setNEPubRedisCommand, Issues]
      refine issuesIff_withArity And.left fun harity => ?_
      rw [and_iff_right harity]
      exact issuesIff_setIENEPub .NE (by omega)
  | setxxpub =>
      simp only [prog, setXXPubRedisCommand, Issues]
      refine issuesIff_withArity And.left fun harity => ?_
      rw [and_iff_right harity]
      exact issuesIff_setXXPub (by omega) (by omega)
  | setnxpub =>
      simp only [prog, setNXPubRedisCommand, Issues]
      refine issuesIff_withArity And.left fun harity => ?_
      rw [and_iff_right harity]
      exact issuesIff_setNXPub (by omega) (by omega)
  | setnxmpub =>
      simp only [prog, setNXMPubRedisCommand, Issues]
      refine issuesIff_withArity And.left fun harity => ?_
      rw [and_iff_right harity]
      exact issuesIff_setNXPub (by omega) (by omega)
  | delpub =>
      simp only [prog, delPubRedisCommand, Issues]
      exact issuesIff_withArity id fun harity => issuesIff_write harity _ _
  | delmpub =>
      obtain ⟨a, b, ha, hb, hfit⟩ := hparse
      simp only [prog, delMPubRedisCommand, delMPubSlices, Issues, ha, hb, Option.some.injEq,
        exists_and_left, exists_eq_left']
      exact issuesIff_withSlices (.inl rfl) _ _ hfit fun _ _ => issuesIff_write trivial _ _
  | deliepub =>
      simp only [prog, delIEPubRedisCommand, Issues]
      refine issuesIff_withArity And.left fun harity => ?_
      rw [and_iff_right harity]
      exact issuesIff_delIENEPub .IE (by omega) (by omega)
  | deliempub =>
      simp only [prog, delIEMPubRedisCommand, Issues]
      refine issuesIff_withArity And.left fun harity => ?_
      rw [and_iff_right harity]
      exact issuesIff_delIENEPub .IE (by omega) (by omega)
  | delnepub =>
      simp only [prog, delNEPubRedisCommand, Issues]
      refine issuesIff_withArity And.left fun harity => ?_
      rw [and_iff_right harity]
      exact issuesIff_delIENEPub .NE (by omega) (by omega)

end Publishing

/-! ### The law -/

/-- The law of a publishing command whose write is `w` and that was given the
pairs `ps`, about the state it ends in and the calls it made. -/
structure PublishesOnWrite {D : Type} (redis : Redis D) (w : Write) (ps : List (Bytes × Bytes))
    (d : D) (s : State D × List (Event redisModule)) : Prop where
  /-- It publishes if and only if its write took place. -/
  published_iff : (∃ p, publication p ∈ effects s.2) ↔
    Call.write w ∈ effects s.2 ∧ TookPlace redis w d
  /-- It publishes once for each pair, in their order, after the write. -/
  effects_eq : (∃ p, publication p ∈ effects s.2) → effects s.2 = .write w :: ps.map publication
  /-- It performs no other write. -/
  write_eq : ∀ w', Call.write w' ∈ effects s.2 → w' = w
  /-- What it leaves: what the write made of the keyspace, or the keyspace as it was. -/
  db_eq : (Call.write w ∈ effects s.2 → s.1.db = (redis.write w d).2) ∧
    (Call.write w ∉ effects s.2 → s.1.db = d)
  /-- A null or zero reply, a type error or an arity error: no write and no publication. -/
  quiet : (∃ r ∈ s.1.replies, IsQuiet r) → (∀ p, publication p ∉ effects s.2) ∧ s.1.db = d

/-- A write is no publication. -/
theorem not_publication_mem_write (p : Bytes × Bytes) (w : Write) :
    publication p ∉ [Call.write w] := by
  rw [List.mem_singleton]
  exact nofun

/-- However the command ended, it obeyed the law. -/
theorem Ended.law {D : Type} {redis : Redis D} {w : Write}
    {ps : List (Bytes × Bytes)} {d : D} {s : State D × List (Event redisModule)}
    (h : Ended redis w ps d s) : PublishesOnWrite redis w ps d s := by
  cases h with
  | quiet heff hdb =>
      refine ⟨?_, ?_, ?_, ?_, fun _ => ?_⟩ <;> simp only [heff, List.not_mem_nil]
      · simp
      · simp
      · exact fun _ h => h.elim
      · exact ⟨fun h => h.elim, fun _ => hdb⟩
      · exact ⟨fun _ => not_false, hdb⟩
  | withoutPublication hnot heff hsame hdb =>
      have hno : ∀ p, publication p ∉ [Call.write w] := fun p => not_publication_mem_write p w
      refine ⟨?_, ?_, ?_, ?_, fun _ => ?_⟩ <;> rw [heff]
      · exact ⟨fun ⟨p, hp⟩ => absurd hp (hno p), fun h => absurd h.2 hnot⟩
      · exact fun ⟨p, hp⟩ => absurd hp (hno p)
      · exact fun w' hw' => Call.write.inj (List.mem_singleton.1 hw')
      · exact ⟨fun _ => hdb.trans hsame.symm, fun h => absurd (List.mem_singleton.2 rfl) h⟩
      · exact ⟨hno, hdb⟩
  | published htook heff hps hdb hloud =>
      obtain ⟨p, ps', rfl⟩ := List.exists_cons_of_ne_nil hps
      refine ⟨?_, ?_, ?_, ?_, ?_⟩ <;> simp only [heff]
      · exact ⟨fun _ => ⟨List.mem_cons_self .., htook⟩, fun _ => ⟨p, by simp⟩⟩
      · exact fun _ => trivial
      · intro w' hw'
        rcases List.mem_cons.1 hw' with h | h
        · exact Call.write.inj h
        · obtain ⟨q, -, hq⟩ := List.mem_map.1 h
          cases hq
      · exact ⟨fun _ => hdb, fun h => absurd (List.mem_cons_self ..) h⟩
      · exact fun ⟨r, hr, hquiet⟩ => absurd hquiet (hloud r hr)

namespace Publishing

variable (stringToLongLong : Bytes → Option Int64) {D : Type} (redis : Redis D)

/-- The state that a command ends in, and the calls it made. -/
def outcome (c : Publishing) (argv : List Bytes) (d : D) : State D × List (Event redisModule) :=
  ((c.prog stringToLongLong argv).run (recording (exec redis)) [] ({ db := d }, [])).2

/-- Every publishing command ends as `Ended` says. -/
theorem ended_outcome (hdoc : redis.Documented) (c : Publishing) (argv : List Bytes)
    (hparse : c.CountsParse stringToLongLong argv) (d : D) :
    Ended redis (c.write stringToLongLong argv)
      (pairUp (c.channelMsgPairs stringToLongLong argv)) d
      (c.outcome stringToLongLong redis argv d) := by
  have hends := lawful_prog stringToLongLong hdoc c hparse ({ db := d }, []) ⟨rfl, rfl, rfl⟩
  have hrun := run_of_always hends (List.forall_mem_nil _) trivial
  unfold outcome
  split at hrun
  · rename_i heq
    rw [heq]
    exact hrun
  · exact hrun.elim

/-- **Every publishing command obeys the law**, on every keyspace and for every
argument vector (where `MSETMPUB` and `DELMPUB` are given counts that parse and
whose sum does not overflow). -/
theorem publishesOnWrite (hdoc : redis.Documented) (c : Publishing) (argv : List Bytes)
    (hparse : c.CountsParse stringToLongLong argv) (d : D) :
    PublishesOnWrite redis (c.write stringToLongLong argv)
      (pairUp (c.channelMsgPairs stringToLongLong argv)) d
      (c.outcome stringToLongLong redis argv d) :=
  (ended_outcome stringToLongLong redis hdoc c argv hparse d).law

/-- **When the write is issued**: exactly where the command gets what it asks for. -/
theorem write_mem_effects_iff (hdoc : redis.Documented) (c : Publishing) (argv : List Bytes)
    (hparse : c.CountsParse stringToLongLong argv) (d : D) :
    Call.write (c.write stringToLongLong argv) ∈
        effects (c.outcome stringToLongLong redis argv d).2 ↔
      c.Issues stringToLongLong redis argv d := by
  have hlaw := (ended_outcome stringToLongLong redis hdoc c argv hparse d).law
  have hissues : Issued (c.outcome stringToLongLong redis argv d) ↔
      c.Issues stringToLongLong redis argv d :=
    run_state_of_always (issuesIff_prog stringToLongLong c hparse _ ⟨rfl, rfl, rfl⟩)
      (List.forall_mem_nil _) trivial
  rw [← hissues]
  constructor
  · exact fun hw => ⟨_, hw⟩
  · rintro ⟨w, hw⟩
    rwa [hlaw.write_eq w hw] at hw

end Publishing

namespace Small

/-- A key is absent if no entry has it. -/
theorem lookup_eq_none_iff (key : Bytes) (d : Keyspace) :
    d.lookup key = none ↔ ∀ e ∈ d, e.1 ≠ key := by
  rw [List.lookup_eq_none_iff]
  refine forall₂_congr fun e _ => ?_
  rw [bne_iff_ne, ne_comm]

/-- `UNLINK` removes exactly the given keys. -/
theorem lookup_unlink (keys : List Bytes) (d : Keyspace) {key : Bytes} (h : key ∈ keys) :
    (d.filter fun e => e.1 ∉ keys).lookup key = none := by
  rw [lookup_eq_none_iff]
  rintro e he rfl
  have hnot := (List.mem_filter.1 he).2
  exact of_decide_eq_true hnot h

/-- The small server keeps what is documented. -/
theorem documented : redis.Documented where
  refused w d h := by
    cases w with
    | SET argv =>
        match argv with
        | [] => rfl
        | [_] => rfl
        | _ :: _ :: _ => exact absurd rfl h
    | MSET argv => exact absurd rfl h
    | UNLINK keys => exact absurd rfl h
  mset _ _ _ := ⟨"OK", rfl⟩
  unlink keys d _ := by
    refine ⟨d.countP fun e => e.1 ∈ keys, rfl, fun hzero => ?_, ?_⟩
    · rw [List.countP_eq_zero] at hzero
      refine List.filter_eq_self.2 fun e he => ?_
      simpa using hzero e he
    · rw [List.countP_pos_iff]
      constructor
      · rintro ⟨e, he, hkey⟩
        rw [decide_eq_true_iff] at hkey
        refine ⟨e.1, hkey, fun hnone => ?_, lookup_unlink keys d hkey⟩
        exact (lookup_eq_none_iff _ _).1 hnone e he rfl
      · rintro ⟨key, hkey, hsome, -⟩
        by_contra hno
        refine hsome ((lookup_eq_none_iff key d).2 ?_)
        rintro e he rfl
        exact hno ⟨e, he, decide_eq_true hkey⟩

end Small

/-- `MSETMPUB 1 1 k v c m`, on a server without keys. -/
theorem Publishing.publishesOnWrite_msetmpub :
    PublishesOnWrite Small.redis (.MSET [[107], [118]]) [([99], [109])] []
      (Publishing.msetmpub.outcome Small.stringToLongLong Small.redis
        [[77], [49], [49], [107], [118], [99], [109]] []) := by
  have h := Publishing.publishesOnWrite Small.stringToLongLong Small.redis Small.documented
    .msetmpub [[77], [49], [49], [107], [118], [99], [109]]
    ⟨1, 1, by decide +kernel, by decide +kernel, by decide +kernel⟩ []
  have hcount : Publishing.count Small.stringToLongLong
      [[77], [49], [49], [107], [118], [99], [109]] = 1 := by decide +kernel
  simpa [Publishing.write, Publishing.channelMsgPairs, hcount, pairUp] using h

end NearRtRic.Exstrings
