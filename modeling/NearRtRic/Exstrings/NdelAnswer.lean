/-
# What `NDEL.ATOMIC` removes, and what it answers

`NDEL.ATOMIC` removes the keys of each page of `SCAN` with one `UNLINK` and adds up what
these answer.  A key may be on several pages, or several times on one; the keyspace
changes during the iteration, by the command's own removals.

What is known at the head of each round (`Removing`) ties the sum to the set of the keys
that are gone: they were there at the start, they match, and the sum is their number.
`deletes_matching` reads the answer off it when the cursor is back at zero.
-/

import Mathlib.Data.Finset.Card
import NearRtRic.Exstrings.NgetAnswer

namespace NearRtRic.Exstrings

open Effect Program

/-! ### The statement -/

section Statement

variable {D : Type} (redis : Redis D) (Matches : Bytes → Bytes → Prop)

/-- What `UNLINK` promises: the keys it is given are gone, the others are untouched, and
it answers how many of them there were. -/
structure UnlinkGuarantee : Prop where
  value : ∀ keys d key, redis.value (redis.write (.UNLINK keys) d).2 key =
    if key ∈ keys then none else redis.value d key
  count : ∀ keys d, (redis.write (.UNLINK keys) d).1 =
    some (.integer ((keys.toFinset.filter fun key => (redis.value d key).isSome).card))

/-- What the command itself does to the keyspace between two pages. -/
def Unlinks (d d' : D) : Prop := ∃ keys, d' = (redis.write (.UNLINK keys) d).2

/-- No matching key is left, every other key is as it was, and the answer is the number of
keys that are gone. -/
structure Deletes (pattern : Bytes) (d d' : D) (answer : Int) : Prop where
  none_left : ∀ key, Matches pattern key → redis.value d' key = none
  others : ∀ key, ¬ Matches pattern key → redis.value d' key = redis.value d key
  counted : ∃ removed : Finset Bytes,
    (∀ key, key ∈ removed ↔ redis.value d key ≠ none ∧ redis.value d' key = none) ∧
      answer = removed.card

end Statement

/-! ### The calls -/

section Calls

variable {D : Type} {redis : Redis D} {P : State D → Prop} {s : State D}

/-- A call that does not fail. -/
theorem always_call_ok (o : Call) {Q : o.Answer → State D → Prop} :
    (call o).Always (exec redis) (· = false) P Q s ↔
      Q (exec redis o false s).1 (exec redis o false s).2 := by
  constructor
  · intro h
    exact h false rfl
  · rintro h _ rfl
    exact h

/-- **A round's `SCAN`**, with a page that is never empty. -/
theorem always_scanSome (args : NgetArgs) (cursor : Int64)
    (Q : Int64 × Option (List Bytes) × ExstringsStatus → State D → Prop) :
    (scanSome args cursor).Always (exec redis) (· = false) P Q s ↔
      Q ((redis.scan s.db cursor args.key args.count).1,
          if (redis.scan s.db cursor args.key args.count).2 = [] then none
          else some (redis.scan s.db cursor args.key args.count).2, .NO_ERRORS)
        { s with scanned := s.scanned ++ [s.db] } := by
  unfold scanSome
  rw [always_bind, always_call_ok]
  simp only [exec, Bool.false_eq_true, if_false, forwardIfError]
  obtain ⟨cursor', page⟩ := redis.scan s.db cursor args.key args.count
  cases page with
  | nil => simp
  | cons key page =>
      rw [if_neg (List.cons_ne_nil _ _)]
      simp only [orPanic_some, reduceCtorEq, if_false, pure_eq_ret, ret_bind, List.length_cons,
        Nat.add_one_ne_zero]
      rw [always_bind, always_call_ok, if_neg (by simp [exec]), always_bind, always_call_ok,
        if_neg (by simp [exec])]
      rfl

end Calls

/-! ### The loop -/

section Loop

variable {D : Type} {redis : Redis D} {Matches : Bytes → Bytes → Prop} {args : NgetArgs}
  {d₀ : D} {pages n rounds : Nat} {cursor : Int64} {ds : List D} {keys pending : List Bytes}
  {replylen : Int} {replies : List Reply} {s : State D}

/-- What is known during the command: the iteration so far, what it has returned and is not
`pending` is gone, no removed key has come back, and the sum is the number of the
removed keys. -/
structure Removing (redis : Redis D) (Matches : Bytes → Bytes → Prop) (args : NgetArgs) (d₀ : D)
    (pages : Nat) (cursor : Int64) (ds : List D) (keys pending : List Bytes) (replylen : Int)
    (d : D) : Prop where
  iteration : Iteration redis (Unlinks redis) args pages cursor ds keys d
  head : ds.head? = some d₀
  gone : ∀ key ∈ keys, key ∈ pending ∨ redis.value d key = none
  matching : ∀ key ∈ pending, Matches args.key key
  before : ∀ d' ∈ ds, ∀ key, redis.value d key ≠ none → redis.value d' key ≠ none
  removed : ∃ removed : Finset Bytes,
    (∀ key ∈ removed, Matches args.key key ∧ redis.value d₀ key ≠ none) ∧
      (∀ key, redis.value d key = if key ∈ removed then none else redis.value d₀ key) ∧
        replylen = removed.card

/-- At the start nothing was returned, and nothing removed. -/
theorem Removing.start (d : D) :
    Removing redis Matches args d 0 0 [d] [] [] 0 d where
  iteration := .start d
  head := rfl
  gone := List.forall_mem_nil _
  matching := List.forall_mem_nil _
  before d' hd' key h := by rwa [List.mem_singleton.1 hd']
  removed := ⟨∅, by simp, by simp, rfl⟩

/-- A page was scanned: its keys are pending. -/
theorem Removing.scan (hscan : ScanGuarantee redis (Unlinks redis) Matches)
    (h : Removing redis Matches args d₀ pages cursor ds keys [] replylen s.db)
    (hcursor : pages = 0 ∨ cursor ≠ 0) :
    Removing redis Matches args d₀ (pages + 1) (redis.scan s.db cursor args.key args.count).1 ds
      (keys ++ (redis.scan s.db cursor args.key args.count).2)
      (redis.scan s.db cursor args.key args.count).2 replylen s.db where
  iteration := h.iteration.page hcursor
  head := h.head
  gone key hkey := by
    rcases List.mem_append.1 hkey with hkey | hkey
    · rcases h.gone key hkey with hpending | hgone
      · cases hpending
      · exact .inr hgone
    · exact .inl hkey
  matching := hscan.matching _ _ _
  before := h.before
  removed := h.removed

/-- **The pending keys were unlinked**: those of them that there were are gone now, and
none of them was counted before. -/
theorem Removing.unlink (hunlink : UnlinkGuarantee redis)
    (h : Removing redis Matches args d₀ pages cursor ds keys pending replylen s.db) :
    Removing redis Matches args d₀ pages cursor (ds ++ [(redis.write (.UNLINK pending) s.db).2])
      keys [] (replylen + (pending.toFinset.filter fun key => (redis.value s.db key).isSome).card)
      (redis.write (.UNLINK pending) s.db).2 := by
  set d' := (redis.write (.UNLINK pending) s.db).2 with hd'
  have hvalue : ∀ key, redis.value d' key = if key ∈ pending then none else redis.value s.db key :=
    hunlink.value pending s.db
  have hmono : ∀ key, redis.value d' key ≠ none → redis.value s.db key ≠ none := by
    intro key hkey
    rw [hvalue] at hkey
    split at hkey
    · exact absurd rfl hkey
    · exact hkey
  refine ⟨h.iteration.change ⟨pending, rfl⟩, ?_, fun key hkey => .inr ?_, List.forall_mem_nil _,
    fun d hd key hkey => ?_, ?_⟩
  · rw [List.head?_append, h.head]
    rfl
  · rw [hvalue]
    split
    · rfl
    · rename_i hpending
      exact (h.gone key hkey).resolve_left hpending
  · rcases List.mem_append.1 hd with hd | hd
    · exact h.before d hd key (hmono key hkey)
    · rwa [List.mem_singleton.1 hd]
  · obtain ⟨removed, hremoved, hdb, rfl⟩ := h.removed
    set page := pending.toFinset.filter fun key => (redis.value s.db key).isSome with hpage
    have hmem : ∀ key, key ∈ page ↔ key ∈ pending ∧ (redis.value s.db key).isSome := by
      intro key
      rw [hpage, Finset.mem_filter, List.mem_toFinset]
    have hdisjoint : Disjoint removed page := by
      refine Finset.disjoint_left.2 fun key hkey hkey' => ?_
      have hthere := ((hmem key).1 hkey').2
      rw [hdb, if_pos hkey] at hthere
      cases hthere
    refine ⟨removed ∪ page, fun key hkey => ?_, fun key => ?_, ?_⟩
    · rcases Finset.mem_union.1 hkey with hkey | hkey
      · exact hremoved key hkey
      · obtain ⟨hpending, hthere⟩ := (hmem key).1 hkey
        refine ⟨h.matching key hpending, fun hnone => ?_⟩
        rw [hdb, hnone, ite_self] at hthere
        cases hthere
    · rw [hvalue]
      simp only [Finset.mem_union, hmem, hdb]
      by_cases hpending : key ∈ pending
      · by_cases hkey : key ∈ removed
        · simp [hkey]
        · cases hnone : redis.value d₀ key with
          | none => simp
          | some v => simp [hpending, hkey]
      · simp [hpending]
    · rw [Finset.card_union_of_disjoint hdisjoint]
      exact (Nat.cast_add _ _).symm

/-- **The iteration is over.** -/
theorem Removing.deletes (hscan : ScanGuarantee redis (Unlinks redis) Matches)
    (h : Removing redis Matches args d₀ (pages + 1) 0 ds keys [] replylen s.db) :
    Deletes redis Matches args.key d₀ s.db replylen := by
  obtain ⟨removed, hremoved, hdb, hreplylen⟩ := h.removed
  have hnone : ∀ key, Matches args.key key → redis.value s.db key = none := by
    intro key hkey
    by_contra hthere
    have hmem : key ∈ keys := hscan.complete _ _ _ _ _ h.iteration key hkey fun d hd =>
      h.before d hd key hthere
    rcases h.gone key hmem with hpending | hgone
    · cases hpending
    · exact hthere hgone
  refine ⟨hnone, fun key hkey => ?_, removed, fun key => ?_, hreplylen⟩
  · rw [hdb, if_neg fun hmem => hkey (hremoved key hmem).1]
  · constructor
    · intro hkey
      exact ⟨(hremoved key hkey).2, by rw [hdb, if_pos hkey]⟩
    · rintro ⟨hthere, hgone⟩
      by_contra hkey
      rw [hdb, if_neg hkey] at hgone
      exact hthere hgone

/-- What the loop returns with: the deletion is done, or the iteration has more pages than
there were rounds. -/
def Deleted (redis : Redis D) (Matches : Bytes → Bytes → Prop) (args : NgetArgs) (d₀ : D)
    (rounds : Nat) (replies : List Reply) : Option (Status × Int) → State D → Prop
  | none, _ => ∀ n, EndsWithin redis (Unlinks redis) args d₀ n → rounds < n
  | some (status, replylen), s => status = .OK ∧ s.replies = replies ∧
      Deletes redis Matches args.key d₀ s.db replylen

/-- **The loop**, at the head of a round. -/
theorem always_ndelLoop (hscan : ScanGuarantee redis (Unlinks redis) Matches)
    (hunlink : UnlinkGuarantee redis) (hrounds : pages + rounds = n)
    (hcursor : pages = 0 ∨ cursor ≠ 0) (hreplies : s.replies = replies)
    (h : Removing redis Matches args d₀ pages cursor ds keys [] replylen s.db) :
    (ndelLoop args rounds cursor replylen).Always (exec redis) (· = false) (fun _ => False)
      (Deleted redis Matches args d₀ n replies) s := by
  induction rounds generalizing pages cursor ds keys replylen s with
  | zero =>
      intro m hends
      have hpage := hends _ _ _ _ _ (h.iteration.page hcursor) h.head
      omega
  | succ rounds ih =>
      have hrest : pages + 1 + rounds = n := by omega
      have h₁ := h.scan hscan hcursor
      rw [ndelLoop, always_bind, always_scanSome]
      generalize redis.scan s.db cursor args.key args.count = r at h₁ ⊢
      obtain ⟨cursor', page⟩ := r
      dsimp only at h₁ ⊢
      rw [if_neg (by decide)]
      by_cases hpage : page = []
      · subst hpage
        rw [if_pos rfl]
        dsimp only
        split
        · rename_i hne
          exact ih hrest (.inr hne) hreplies h₁
        · rename_i heq
          rw [not_not] at heq
          subst heq
          exact ⟨rfl, hreplies, h₁.deletes hscan⟩
      · rw [if_neg hpage]
        dsimp only
        have h₂ := h₁.unlink hunlink
        rw [always_bind, always_call_ok]
        simp only [exec, hunlink.count, splitReply, forwardIfError, pure_eq_ret, ret_bind]
        rw [if_neg (by decide)]
        simp only [Option.bind_some, id, orPanic_some, ret_bind, callReplyInteger]
        split
        · rename_i hne
          exact ih hrest (.inr hne) hreplies h₂
        · rename_i heq
          rw [not_not] at heq
          subst heq
          exact ⟨rfl, hreplies, h₂.deletes hscan⟩

end Loop

/-- **`NDEL.ATOMIC` deletes exactly the matching keys**, and answers how many: for every
keyspace and pattern, whenever it returns, which it does within as many rounds as the
iteration of `SCAN` may have pages. -/
theorem deletes_matching {D : Type} {redis : Redis D} {Matches : Bytes → Bytes → Prop}
    (hscan : ScanGuarantee redis (Unlinks redis) Matches) (hunlink : UnlinkGuarantee redis)
    (name pattern : Bytes) (d : D) (rounds : Nat) :
    ∃ result s, (nDelAtomicRedisCommand rounds [name, pattern]).run (exec redis) []
        { db := d } = (some result, s) ∧
      (∀ status, result = some status → status = .OK ∧
        ∃ answer, s.replies = [.longLong answer] ∧ Deletes redis Matches pattern d s.db answer) ∧
      ∀ n, EndsWithin redis (Unlinks redis) ⟨pattern, defCountStr⟩ d n → n ≤ rounds →
        result = some .OK := by
  have halways : (nDelAtomicRedisCommand rounds [name, pattern]).Always (exec redis) (· = false)
      (fun _ => False) (fun result s =>
        (∀ status, result = some status → status = .OK ∧ ∃ answer,
          s.replies = [.longLong answer] ∧ Deletes redis Matches pattern d s.db answer) ∧
        ∀ n, EndsWithin redis (Unlinks redis) ⟨pattern, defCountStr⟩ d n → n ≤ rounds →
        result = some .OK)
      { db := d } := by
    unfold nDelAtomicRedisCommand
    refine always_bind_of
      (always_ndelLoop hscan hunlink (Nat.zero_add rounds) (.inl rfl) rfl (.start d)) ?_
    rintro (_ | ⟨status, answer⟩) s hdeleted
    · exact ⟨nofun, fun n hends hn => absurd (hdeleted n hends) (by omega)⟩
    · obtain ⟨rfl, hreplies, hdeletes⟩ := hdeleted
      dsimp only
      rw [always_bind, always_call_ok]
      refine ⟨fun status hstatus => ⟨(Option.some.inj hstatus).symm, answer, ?_, hdeletes⟩,
        fun _ _ _ => rfl⟩
      change s.replies ++ _ = _
      rw [hreplies]
      rfl
  have hrun := run_of_always halways (List.forall_mem_nil (· = false)) rfl
  cases hr : (nDelAtomicRedisCommand rounds [name, pattern]).run (exec redis) [] { db := d } with
  | mk result s =>
      rw [hr] at hrun
      cases result with
      | none => exact hrun.elim
      | some result => exact ⟨result, s, rfl, hrun⟩

/-! ### A server that keeps both promises -/

namespace Small

local instance lawfulBEqBytes : LawfulBEq Bytes := inferInstance

/-- The small server, which counts a key that `UNLINK` is given twice only once. -/
def unlinking : Redis Keyspace :=
  { redis with
    write := fun w d =>
      match w with
      | .UNLINK keys =>
          (some (.integer ((keys.toFinset.filter fun key => (d.lookup key).isSome).card)),
            d.filter fun e => e.1 ∉ keys)
      | w => redis.write w d }

/-- The example's `UNLINK` keeps its guarantee. -/
theorem unlinkGuarantee : UnlinkGuarantee unlinking where
  value keys d key := by
    change (d.filter fun e => e.1 ∉ keys).lookup key = if key ∈ keys then none else d.lookup key
    induction d with
    | nil => simp
    | cons e d ih =>
        obtain ⟨k, v⟩ := e
        rw [List.filter_cons]
        by_cases hk : k ∈ keys
        · have hdrop : decide (k ∉ keys) = false := by simpa using hk
          rw [hdrop, if_neg Bool.false_ne_true, ih, List.lookup_cons]
          by_cases hkey : key ∈ keys
          · rw [if_pos hkey, if_pos hkey]
          · have hne : (key == k) = false := by
              rw [beq_eq_false_iff_ne]
              rintro rfl
              exact hkey hk
            rw [if_neg hkey, if_neg hkey, hne]
        · have hkeep : decide (k ∉ keys) = true := by simpa using hk
          rw [hkeep, if_pos rfl, List.lookup_cons, List.lookup_cons, ih]
          by_cases heq : key = k
          · subst heq
            simp [hk]
          · rw [beq_eq_false_iff_ne.2 heq]
  count keys d := rfl

/-- An iteration depends on what is scanned, not on what the writes do. -/
theorem iteration_redis {foreign : Keyspace → Keyspace → Prop} {args : NgetArgs} {pages : Nat}
    {cursor : Int64} {ds : List Keyspace} {keys : List Bytes} {d : Keyspace}
    (h : Iteration unlinking foreign args pages cursor ds keys d) :
    Iteration redis foreign args pages cursor ds keys d := by
  induction h with
  | start d => exact .start d
  | change _ hforeign ih => exact ih.change hforeign
  | page _ hcursor ih => exact ih.page hcursor

/-- So does its `SCAN`. -/
theorem scanGuarantee_unlinking :
    ScanGuarantee unlinking (Unlinks unlinking) fun pattern key => glob pattern key where
  matching := (scanGuarantee (Unlinks unlinking)).matching
  complete args pages ds keys d hiter :=
    (scanGuarantee (Unlinks unlinking)).complete args pages ds keys d (iteration_redis hiter)

/-- It has one page for each bucket, too. -/
theorem endsWithin_unlinking (args : NgetArgs) (d : Keyspace) :
    EndsWithin unlinking (Unlinks unlinking) args d 2 :=
  fun pages cursor ds keys d' hiter hhead =>
    endsWithin _ args d pages cursor ds keys d' (iteration_redis hiter) hhead

/-- `NDEL.ATOMIC *` over a keyspace with a key in either bucket. -/
theorem deletes_matching_two : EndsWithin unlinking (Unlinks unlinking) ⟨[42], defCountStr⟩
      [([97, 97], .string [1]), ([98], .string [2])] 2 ∧
    ∃ result s, (nDelAtomicRedisCommand 2 [[110], [42]]).run (exec unlinking) []
        { db := [([97, 97], .string [1]), ([98], .string [2])] } = (some result, s) ∧
      (∀ status, result = some status → status = .OK ∧
        ∃ answer, s.replies = [.longLong answer] ∧
          Deletes unlinking (fun pattern key => glob pattern key) [42]
            [([97, 97], .string [1]), ([98], .string [2])] s.db answer) ∧
      ∀ n, EndsWithin unlinking (Unlinks unlinking) ⟨[42], defCountStr⟩
        [([97, 97], .string [1]), ([98], .string [2])] n → n ≤ 2 → result = some .OK :=
  ⟨endsWithin_unlinking _ _,
    deletes_matching scanGuarantee_unlinking unlinkGuarantee [110] [42] _ 2⟩

end Small

end NearRtRic.Exstrings
