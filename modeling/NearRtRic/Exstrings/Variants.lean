/-
# The publishing variants of the conditional commands

`SETIEPUB` and its siblings test the same condition as `SETIE` and its siblings,
in code of their own.  `shows_prog` says what either kind shows to its client and
leaves in the keyspace, for every type of value that the key may hold; the two
come out the same (`variant_refines`), if `MSET` of one pair does what `SET` does.
-/

import NearRtRic.Exstrings.Conditional

namespace NearRtRic.Exstrings

open Effect Program

/-! ### Decisions -/

/-- What a command decides. -/
inductive Decision
  | null
  | zero
  | wrongType
  | performed
  /-- The server refused an inner command. -/
  | failed (message : String)
  deriving DecidableEq, Repr

/-- The decision that an error reply reports. -/
def Decision.ofError (message : String) : Decision :=
  if message = Exstrings.wrongType then wrongType else failed message

/-- The decision that the replies of a command report. -/
def Decision.of : List Reply → Option Decision
  | [.null] | [.callReply .null] => some null
  | [.longLong n] | [.callReply (.integer n)] => some (if n = 0 then zero else performed)
  | [.error message] | [.callReply (.error message)] => some (ofError message)
  | [.callReply (.string _)] | [.callReply (.status _)] => some performed
  | _ => none

namespace Command

/-- A publishing command, and the plain one that it is a variant of. -/
inductive VariantOf : Command → Command → Prop
  | setiepub : VariantOf setiepub setie
  | setiempub : VariantOf setiempub setie
  | setnepub : VariantOf setnepub setne
  | deliepub : VariantOf deliepub delie
  | deliempub : VariantOf deliempub delie
  | delnepub : VariantOf delnepub delne

/-- The argument vector of a command, with the channels and messages of a
publishing one. -/
def argv (c : Command) (name key value oldval : Bytes) (channelMsgPairs : List Bytes) :
    List Bytes :=
  match c with
  | setie | setne | setiepub | setiempub | setnepub =>
      name :: key :: value :: oldval :: channelMsgPairs
  | delie | delne | deliepub | deliempub | delnepub => name :: key :: oldval :: channelMsgPairs

/-- Whether the command deletes. -/
def deletes : Command → Bool
  | setie | setne | setiepub | setiempub | setnepub => false
  | delie | delne | deliepub | deliempub | delnepub => true

end Command

/-! ### What a command shows -/

section Shows

variable {D : Type} (redis : Redis D)

/-- The decision and the keyspace of a state. -/
def shown (s : State D) : Option Decision × D := (Decision.of s.replies, s.db)

/-- What the write `w` leads to. -/
def shownWrite (w : Write) (d : D) : Option Decision × D :=
  (match (redis.write w d).1 with
    | none => Decision.of [.error "ERR reply is NULL"]
    | some r => Decision.of [.callReply r],
    (redis.write w d).2)

/-- What a conditional command shows for what the key holds: `refused` where its
condition does not hold, and else the outcome of `w`. -/
def shownBy (deletes : Bool) (flag : Flag) (oldval : Bytes) (w : Write) (d : D) :
    Option Value → Option Decision × D
  | none =>
      if deletes then (some .zero, d)
      else if flag = .IE then (some .null, d)
      else shownWrite redis w d
  | some (.aggregate _) => (some .wrongType, d)
  | some (.string v) =>
      if fires flag oldval v then shownWrite redis w d
      else (some (if deletes then .zero else .null), d)

/-- A program that shows `x` wherever it ends. -/
def Shows (p : Prog Status) (x : Option Decision × D) (s : State D) : Prop :=
  p.Always (exec redis) (fun _ => True) (fun _ => False) (fun _ s' => shown s' = x) s

variable {redis} {d : D} {x : Option Decision × D} {s : State D}

/-- A reply shows the decision it reports. -/
theorem shows_replyWith {r : Reply} (h : shown { s with replies := s.replies ++ [r] } = x) :
    Shows redis (replyWith r) x s := fun _ _ => h

/-- The type of the key is read, and nothing shown. -/
theorem shows_keyType {key : Bytes} {k : KeyType → Prog Status}
    (hk : Shows redis (k (KeyType.of (redis.value d key))) x { db := d }) :
    Shows redis (call (.keyType key) >>= k) x { db := d } := fun _ _ => hk

/-- So is its value. -/
theorem shows_get {key : Bytes} {k : Option CallReply → Prog Status}
    (hk : Shows redis (k (some (getReply (redis.value d key)))) x { db := d }) :
    Shows redis (call (.get key) >>= k) x { db := d } := fun _ _ => hk

/-- In particular a string that it holds. -/
theorem shows_get_string {key v : Bytes} (hv : redis.value d key = some (.string v))
    {k : CallReply → Prog Status} (hk : Shows redis (k (.string v)) x { db := d }) :
    Shows redis (call (.get key) >>= fun r => assertNoError r k) x { db := d } := by
  refine shows_get ?_
  rw [hv]
  exact hk

/-- Publications do not show. -/
theorem always_multiPubCommand_shown {pairs : List Bytes} (heven : pairs.length % 2 = 0)
    (s : State D) :
    (multiPubCommand pairs).Always (exec redis) (fun _ => True) (fun _ => False)
      (fun _ s' => s' = s) s := by
  induction pairs using multiPubCommand.induct with
  | case1 => rfl
  | case2 => simp at heven
  | case3 channel message pairs ih =>
      simp only [List.length_cons] at heven
      exact fun c _ => ih (by omega)

/-- A write, its reply checked, and a rest that passes the reply on. -/
theorem shows_write (w : Write) {k : CallReply → Prog Status}
    (hk : ∀ reply s, s.replies = [] →
      Shows redis (k reply) (Decision.of [.callReply reply], s.db) s) :
    Shows redis (call (.write w) >>= fun r => assertNoError r k) (shownWrite redis w d)
      { db := d } := by
  intro c _
  change (assertNoError (redis.write w d).1 k).Always _ _ _ _ _
  unfold shownWrite
  rcases (redis.write w d).1 with _ | reply
  · exact shows_replyWith rfl
  · cases reply with
    | error message => exact shows_replyWith rfl
    | null => exact hk .null (exec redis (.write w) c { db := d }).2 rfl
    | string b => exact hk (.string b) (exec redis (.write w) c { db := d }).2 rfl
    | integer n => exact hk (.integer n) (exec redis (.write w) c { db := d }).2 rfl
    | status text => exact hk (.status text) (exec redis (.write w) c { db := d }).2 rfl

/-- An answer that is passed on shows its decision. -/
theorem shows_callReply (reply : CallReply) (s : State D) (hs : s.replies = []) :
    Shows redis (replyWith (.callReply reply)) (Decision.of [.callReply reply], s.db) s := by
  refine shows_replyWith ?_
  rw [hs]
  rfl

/-- The end of a publishing set shows what its `MSET` leads to. -/
theorem shows_setPubStringCommon (keyValPairs : List Bytes) {pairs : List Bytes}
    (heven : pairs.length % 2 = 0) :
    Shows redis (setPubStringCommon keyValPairs pairs) (shownWrite redis (.MSET keyValPairs) d)
      { db := d } := by
  refine shows_write _ fun reply s hs => ?_
  refine always_bind_of (always_multiPubCommand_shown heven s) ?_
  rintro - s' rfl
  exact shows_callReply reply s' hs

/-- The end of a publishing delete shows what its `UNLINK` leads to. -/
theorem shows_delPubStringCommon (keys : List Bytes) {pairs : List Bytes}
    (heven : pairs.length % 2 = 0) :
    Shows redis (delPubStringCommon keys pairs) (shownWrite redis (.UNLINK keys) d)
      { db := d } := by
  refine shows_write _ fun reply s hs => ?_
  split
  · refine shows_replyWith ?_
    rw [hs]
    rfl
  · exact shows_callReply _ s hs
  · refine always_bind_of (shows_callReply reply s hs) ?_
    intro _ s' hs'
    refine always_bind_of (always_multiPubCommand_shown heven s') ?_
    rintro - s'' rfl
    exact hs'

/-- Where the comparison is refused, the reply shows that nothing was written. -/
theorem shows_compare {deletes : Bool} {refused : Prop} [Decidable refused]
    {flag : Flag} {oldval v : Bytes} (hrefused : refused ↔ ¬ fires flag oldval v) {w : Write}
    {p : Prog Status} {r : Reply} (hp : Shows redis p (shownWrite redis w d) { db := d })
    (hr : Shows redis (replyWith r) (some (if deletes then .zero else .null), d) { db := d }) :
    Shows redis (if refused then replyWith r else p)
      (shownBy redis deletes flag oldval w d (some (.string v))) { db := d } := by
  simp only [shownBy]
  by_cases hfires : fires flag oldval v
  · rw [if_pos hfires, if_neg (hrefused.not.2 (not_not.2 hfires))]
    exact hp
  · rw [if_neg hfires, if_pos (hrefused.2 hfires)]
    exact hr

variable (flag : Flag) (name key value oldval : Bytes)

/-- SETIE and SETNE show what their comparison decides. -/
theorem shows_setStringGenericCommand :
    Shows redis (setStringGenericCommand flag [name, key, value, oldval])
      (shownBy redis false flag oldval (.SET [key, value]) d (redis.value d key)) { db := d } := by
  refine shows_keyType ?_
  rcases hv : redis.value d key with _ | v | type
  · simp only [KeyType.of, shownBy, true_and]
    split
    · exact shows_replyWith rfl
    · rename_i hflag
      obtain rfl : flag = .NE := by cases flag with
        | IE => exact absurd rfl hflag
        | NE => rfl
      refine shows_get ?_
      rw [hv]
      exact shows_write _ shows_callReply
  · refine shows_get_string hv (shows_compare (refuses_iff flag oldval v) ?_ ?_)
    · exact shows_write _ shows_callReply
    · exact shows_replyWith rfl
  · exact shows_replyWith rfl

/-- So do DELIE and DELNE. -/
theorem shows_delStringGenericCommand :
    Shows redis (delStringGenericCommand flag [name, key, oldval])
      (shownBy redis true flag oldval (.UNLINK [key]) d (redis.value d key)) { db := d } := by
  refine shows_keyType ?_
  rcases hv : redis.value d key with _ | v | type
  · exact shows_replyWith rfl
  · refine shows_get_string hv (shows_compare (refuses_iff flag oldval v) ?_ ?_)
    · exact shows_write _ shows_callReply
    · exact shows_replyWith rfl
  · exact shows_replyWith rfl

/-- So does the common part of the publishing sets. -/
theorem shows_setIENEPubStringCommon {pairs : List Bytes} (heven : pairs.length % 2 = 0) :
    Shows redis (setIENEPubStringCommon flag (name :: key :: value :: oldval :: pairs))
      (shownBy redis false flag oldval (.MSET [key, value]) d (redis.value d key)) { db := d } := by
  refine shows_keyType ?_
  rcases hv : redis.value d key with _ | v | type
  · simp only [KeyType.of, shownBy]
    cases flag with
    | IE => exact shows_replyWith rfl
    | NE =>
        refine shows_get ?_
        rw [hv]
        exact shows_setPubStringCommon _ heven
  · rw [if_neg (by rintro ⟨-, h⟩; cases h), if_neg (by rintro ⟨h, -⟩; exact h rfl)]
    refine shows_get_string hv (shows_compare (pub_refuses_iff flag oldval v) ?_ ?_)
    · exact shows_setPubStringCommon _ heven
    · exact shows_replyWith rfl
  · cases flag with
    | IE => exact shows_replyWith rfl
    | NE => exact shows_replyWith rfl

/-- So does the common part of the publishing deletes. -/
theorem shows_delIENEPubStringCommon {pairs : List Bytes} (heven : pairs.length % 2 = 0) :
    Shows redis (delIENEPubStringCommon flag (name :: key :: oldval :: pairs))
      (shownBy redis true flag oldval (.UNLINK [key]) d (redis.value d key)) { db := d } := by
  refine shows_keyType ?_
  rcases hv : redis.value d key with _ | v | type
  · exact shows_replyWith rfl
  · refine shows_get_string hv (shows_compare (pub_refuses_iff flag oldval v) ?_ ?_)
    · exact shows_delPubStringCommon _ heven
    · exact shows_replyWith rfl
  · exact shows_replyWith rfl

/-- A program that shows `x` shows it after its run. -/
theorem run_shown {p : Prog Status} (h : Shows redis p x s) :
    shown (p.run (exec redis) [] s).2 = x := by
  have hrun := run_of_always h (List.forall_mem_nil _) trivial
  split at hrun
  · rename_i heq
    rw [heq]
    exact hrun
  · exact hrun.elim

/-- What is shown depends on what the write does alone. -/
theorem shownBy_congr {deletes : Bool} {w w' : Write} (h : redis.write w d = redis.write w' d)
    (v : Option Value) :
    shownBy redis deletes flag oldval w d v = shownBy redis deletes flag oldval w' d v := by
  have hwrite : shownWrite redis w d = shownWrite redis w' d := by
    rw [shownWrite, shownWrite, h]
  rcases v with _ | v | type
  · simp only [shownBy, hwrite]
  · simp only [shownBy, hwrite]
  · rfl

end Shows

namespace Command

variable {D : Type} {redis : Redis D} {c c' : Command} {name name' key value oldval : Bytes}
  {pairs : List Bytes} {d : D}

/-- The plain commands, without options. -/
theorem shows_plain (hplain : VariantOf c' c) :
    Shows redis (c.prog (c.argv name key value oldval []))
      (shownBy redis c.deletes c.flag oldval (c.write (c.argv name key value oldval [])) d
        (redis.value d key)) { db := d } := by
  cases hplain with
  | setiepub => exact shows_setStringGenericCommand .IE name key value oldval
  | setiempub => exact shows_setStringGenericCommand .IE name key value oldval
  | setnepub => exact shows_setStringGenericCommand .NE name key value oldval
  | deliepub => exact shows_delStringGenericCommand .IE name key oldval
  | deliempub => exact shows_delStringGenericCommand .IE name key oldval
  | delnepub => exact shows_delStringGenericCommand .NE name key oldval

/-- The publishing ones, with as many channels and messages as they accept. -/
theorem shows_publishing (hplain : VariantOf c' c)
    (harity : c'.arity (c'.argv name key value oldval pairs).length) :
    Shows redis (c'.prog (c'.argv name key value oldval pairs))
      (shownBy redis c'.deletes c'.flag oldval (c'.write (c'.argv name key value oldval pairs)) d
        (redis.value d key)) { db := d } := by
  have hlen := harity
  cases hplain <;> simp only [argv, List.length_cons, arity] at hlen <;>
    replace hlen := of_decide_eq_true hlen
  case setiepub =>
    rw [show prog setiepub _ = _ from withArity_of_ok harity _]
    exact shows_setIENEPubStringCommon .IE name key value oldval (by omega)
  case setiempub =>
    rw [show prog setiempub _ = _ from withArity_of_ok harity _]
    exact shows_setIENEPubStringCommon .IE name key value oldval (by omega)
  case setnepub =>
    rw [show prog setnepub _ = _ from withArity_of_ok harity _]
    exact shows_setIENEPubStringCommon .NE name key value oldval (by omega)
  case deliepub =>
    rw [show prog deliepub _ = _ from withArity_of_ok harity _]
    exact shows_delIENEPubStringCommon .IE name key oldval (by omega)
  case deliempub =>
    rw [show prog deliempub _ = _ from withArity_of_ok harity _]
    exact shows_delIENEPubStringCommon .IE name key oldval (by omega)
  case delnepub =>
    rw [show prog delnepub _ = _ from withArity_of_ok harity _]
    exact shows_delIENEPubStringCommon .NE name key oldval (by omega)

/-- **A publishing variant takes the decision of its plain command and leaves the
same keyspace**, for every type of value that the key holds or none, and whatever
channels and messages it is given. -/
theorem variant_refines (hmset : ∀ key value d,
      redis.write (.MSET [key, value]) d = redis.write (.SET [key, value]) d)
    (hvariant : VariantOf c' c)
    (harity : c'.arity (c'.argv name' key value oldval pairs).length) :
    Decision.of (c'.after redis (c'.argv name' key value oldval pairs) d).replies =
        Decision.of (c.after redis (c.argv name key value oldval []) d).replies ∧
      (c'.after redis (c'.argv name' key value oldval pairs) d).db =
        (c.after redis (c.argv name key value oldval []) d).db := by
  have hplain : shown (c.after redis (c.argv name key value oldval []) d) = _ :=
    run_shown (shows_plain hvariant)
  have hpublishing : shown (c'.after redis (c'.argv name' key value oldval pairs) d) = _ :=
    run_shown (shows_publishing hvariant harity)
  have hsame : shown (c'.after redis (c'.argv name' key value oldval pairs) d) =
      shown (c.after redis (c.argv name key value oldval []) d) := by
    rw [hplain, hpublishing]
    cases hvariant with
    | setiepub => exact shownBy_congr _ _ (hmset ..) _
    | setiempub => exact shownBy_congr _ _ (hmset ..) _
    | setnepub => exact shownBy_congr _ _ (hmset ..) _
    | deliepub => rfl
    | deliempub => rfl
    | delnepub => rfl
  exact Prod.ext_iff.1 hsame

/-- `DELIEPUB k v c m` and `DELIE k v`, where `k` holds `v`. -/
theorem variant_refines_deliepub :
    Decision.of (deliepub.after Small.redis [[68], [107], [118], [99], [109]]
          [([107], .string [118])]).replies =
        Decision.of (delie.after Small.redis [[100], [107], [118]]
          [([107], .string [118])]).replies ∧
      (deliepub.after Small.redis [[68], [107], [118], [99], [109]] [([107], .string [118])]).db =
        (delie.after Small.redis [[100], [107], [118]] [([107], .string [118])]).db :=
  @variant_refines _ Small.redis delie deliepub [100] [68] [107] [] [118] [[99], [109]] _
    (fun _ _ _ => rfl) .deliepub rfl

end Command

end NearRtRic.Exstrings
