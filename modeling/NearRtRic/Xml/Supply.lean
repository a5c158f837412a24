/-
# A tree that is given values in document order

Some nodes of a tree, its targets, are each given the next of a list of values.  A
`Supply` is such a computation with its demand: the number of values it takes, known
beforehand, and its result as a function of the values.  `takeAt` is the same with an
index into a fixed list, which fails past the end of the list, and `takes_relates`
joins the two: an action that takes its values by index fails exactly if it has to
take more than there are, and otherwise gives what the supply gives.

`Updates` is the law of a supply that changes its targets one by one.  It goes through
the actions of `Tree` (`Updates.onNamed`, `Updates.atPath`), so that the targets of
the whole are found by the same path as the action takes.
-/

import NearRtRic.Xml.Tree

namespace NearRtRic.Xml

/-- A computation that is given `count` values. -/
structure Supply (V α : Type) where
  count : Nat
  /-- The result for a list of at least `count` values, of which the first are taken. -/
  result : List V → α

variable {V : Type}

namespace Supply

instance : Applicative (Supply V) where
  pure a := ⟨0, fun _ => a⟩
  map f p := ⟨p.count, fun vs => f (p.result vs)⟩
  seq p q := ⟨p.count + (q ()).count, fun vs => p.result vs ((q ()).result (vs.drop p.count))⟩

/-- The next value. -/
def next [Inhabited V] : Supply V V := ⟨1, List.headI⟩

variable {α β : Type}

/-- A constant takes nothing. -/
@[simp] theorem count_pure (a : α) : (pure a : Supply V α).count = 0 := rfl

/-- It is what it is. -/
@[simp] theorem result_pure (a : α) (vs : List V) : (pure a : Supply V α).result vs = a := rfl

/-- A function of a result takes no more. -/
@[simp] theorem count_map (f : α → β) (p : Supply V α) : (f <$> p).count = p.count := rfl

/-- It is applied to the result. -/
@[simp] theorem result_map (f : α → β) (p : Supply V α) (vs : List V) :
    (f <$> p).result vs = f (p.result vs) := rfl

/-- Two computations take what each of them takes. -/
@[simp] theorem count_seq (p : Supply V (α → β)) (q : Supply V α) :
    (p <*> q).count = p.count + q.count := rfl

/-- The second goes on behind what the first has taken. -/
@[simp] theorem result_seq (p : Supply V (α → β)) (q : Supply V α) (vs : List V) :
    (p <*> q).result vs = p.result vs (q.result (vs.drop p.count)) := rfl

end Supply

/-! ### Taking by index -/

/-- `vs.at(index++)`, which fails past the end. -/
def takeAt (vs : List V) : StateT Nat Option V := fun i => vs[i]?.map (·, i + 1)

/-- The computation by index does what the supply does. -/
def Takes (vs : List V) (α : Type) (p : StateT Nat Option α) (s : Supply V α) : Prop :=
  ∀ i ≤ vs.length, p.run i = if i + s.count ≤ vs.length
    then some (s.result (vs.drop i), i + s.count) else none

/-- The computation by index and the supply agree on how they are put together. -/
theorem takes_relates (vs : List V) : Node.Relates (Takes vs) where
  pure a := by
    intro i hi
    rw [Supply.count_pure, Nat.add_zero, if_pos hi]
    rfl
  map f := by
    intro p q h i hi
    rw [StateT.run_map, h i hi, Supply.count_map]
    split <;> rfl
  seq := by
    intro α β p q p' q' h h' i hi
    rw [StateT.run_seq, h i hi, Supply.count_seq, Supply.result_seq]
    by_cases hp : i + q.count ≤ vs.length
    · rw [if_pos hp]
      dsimp only [Option.bind_eq_bind, Option.bind_some]
      rw [h' _ hp, List.drop_drop, ← Nat.add_assoc]
      split <;> rfl
    · rw [if_neg hp, if_neg (by omega)]
      rfl

/-- One value is taken by index as from the supply. -/
theorem takes_takeAt [Inhabited V] (vs : List V) : Takes vs V (takeAt vs) Supply.next := by
  intro i hi
  show vs[i]?.map (·, i + 1) = if i + 1 ≤ vs.length then some ((vs.drop i).headI, i + 1) else none
  split
  · rename_i hlt
    rw [List.getElem?_eq_getElem hlt, List.drop_eq_getElem_cons hlt]
    rfl
  · rename_i hlt
    rw [List.getElem?_eq_none (by omega)]
    rfl

/-- **From the first value on.** -/
theorem run_zero_of_takes {vs : List V} {α : Type} {p : StateT Nat Option α} {s : Supply V α}
    (h : Takes vs α p s) : (p.run 0).map Prod.fst =
      if s.count ≤ vs.length then some (s.result vs) else none := by
  rw [h 0 (Nat.zero_le _), Nat.zero_add]
  split <;> rfl

/-! ### Targets -/

/-- Two lists are zipped in turn, the second with what is left. -/
theorem zipWith_append_drop {A B C : Type} (u : A → B → C) (as as' : List A) (vs : List B)
    (h : as.length ≤ vs.length) : List.zipWith u (as ++ as') vs =
      List.zipWith u as vs ++ List.zipWith u as' (vs.drop as.length) := by
  induction as generalizing vs with
  | nil => rfl
  | cons a as ih =>
      cases vs with
      | nil => cases h
      | cons v vs =>
          rw [List.cons_append, List.zipWith_cons_cons, ih vs (Nat.le_of_succ_le_succ h)]
          rfl

/-- A supply that changes each target by the value it is given.  `S` is the type of the
whole, of which `t` gives the targets. -/
structure Updates {S A : Type} (u : A → V → A) (t : S → List A) (f : S → Supply V S) : Prop where
  count : ∀ x, (f x).count = (t x).length
  targets : ∀ x vs, (t x).length ≤ vs.length → t ((f x).result vs) = List.zipWith u (t x) vs

variable {N T : Type} {A : Type} {u : A → V → A}

/-- A supply that keeps the name of a node. -/
def KeepsName (f : Node N T → Supply V (Node N T)) : Prop :=
  ∀ x vs, ((f x).result vs).name = x.name

open Node

/-- The targets among the children of a node. -/
theorem Updates.onChildren {t : List (Node N T) → List A}
    {f : List (Node N T) → Supply V (List (Node N T))} (hf : Updates u t f) (hnil : t [] = []) :
    Updates u (fun x => t x.children) (onChildren f) where
  count x := by
    cases x with
    | element n xs => exact hf.count xs
    | pcdata s => simp [Node.onChildren, Node.children, hnil]
  targets x vs h := by
    cases x with
    | element n xs => exact hf.targets xs vs h
    | pcdata s => simp [Node.onChildren, Node.children, hnil]

/-- A supply for the nodes that pass a test which it does not change. -/
theorem Updates.ite {t : Node N T → List A} {f : Node N T → Supply V (Node N T)}
    (hf : Updates u t f) {c : Node N T → Bool} (hc : ∀ x vs, c ((f x).result vs) = c x) :
    Updates u (fun x => if c x then t x else []) fun x => if c x then f x else pure x where
  count x := by
    split
    · exact hf.count x
    · rfl
  targets x vs h := by
    by_cases hx : c x
    · rw [if_pos hx] at h
      rw [if_pos hx, if_pos hx, if_pos ((hc x vs).trans hx), hf.targets x vs h]
    · rw [if_neg hx, if_neg hx, Supply.result_pure, if_neg hx]
      rfl

variable [DecidableEq N] {t : Node N T → List A} {f : Node N T → Supply V (Node N T)}

/-- The targets in all nodes of a name. -/
theorem Updates.onNamed (hf : Updates u t f) (hname : KeepsName f) (n : N) :
    Updates u (fun xs => (named n xs).flatMap t) (onNamed n f) where
  count xs := by
    induction xs with
    | nil => rfl
    | cons x xs ih =>
        rw [Node.onNamed, named_cons, Supply.count_seq, Supply.count_map, ih]
        split
        · rw [List.flatMap_cons, List.length_append, hf.count]
        · rw [Supply.count_pure, Nat.zero_add]
  targets xs := by
    induction xs with
    | nil => exact fun _ _ => rfl
    | cons x xs ih =>
        intro vs h
        rw [Node.onNamed, Supply.result_seq, Supply.result_map, Supply.count_map, named_cons]
        rw [named_cons] at h ⊢
        by_cases hx : x.name = some n
        · rw [if_pos hx, List.flatMap_cons, List.length_append] at h
          rw [if_pos hx, if_pos hx, if_pos ((hname x vs).trans hx), List.flatMap_cons,
            List.flatMap_cons, hf.targets x vs (by omega), hf.count, ih _ (by
              rw [List.length_drop]
              omega),
            zipWith_append_drop u _ _ _ (by omega)]
        · rw [if_neg hx] at h
          rw [if_neg hx, if_neg hx, Supply.result_pure, if_neg hx, Supply.count_pure,
            List.drop_zero, ih vs h]

/-- The targets in the first node of a name. -/
theorem Updates.onFirst (hf : Updates u t f) (hname : KeepsName f) (n : N) :
    Updates u (fun xs => (first n xs).elim [] t) (onFirst n f) where
  count xs := by
    induction xs with
    | nil => rfl
    | cons x xs ih =>
        rw [Node.onFirst, first_cons]
        split
        · rw [Supply.count_map, Option.elim_some, hf.count]
        · rw [Supply.count_map, ih]
  targets xs := by
    induction xs with
    | nil => exact fun _ _ => rfl
    | cons x xs ih =>
        intro vs h
        rw [Node.onFirst]
        rw [first_cons] at h ⊢
        by_cases hx : x.name = some n
        · rw [if_pos hx, Option.elim_some] at h
          rw [if_pos hx, if_pos hx, Supply.result_map, first_cons,
            if_pos ((hname x vs).trans hx), Option.elim_some, Option.elim_some,
            hf.targets x vs h]
        · rw [if_neg hx] at h
          rw [if_neg hx, if_neg hx, Supply.result_map, first_cons, if_neg hx, ih vs h]

/-- What happens at a path below leaves the name. -/
theorem KeepsName.atPath (hname : KeepsName f) (ns : List N) : KeepsName (atPath ns f) := by
  cases ns with
  | nil => exact hname
  | cons n ns =>
      intro x vs
      cases x <;> rfl

/-- **The targets of an action at the end of a path** are those of the node there. -/
theorem Updates.atPath (hf : Updates u t f) (hname : KeepsName f) (ns : List N) :
    Updates u (fun x => (x.descend ns).elim [] t) (atPath ns f) := by
  induction ns with
  | nil => exact hf
  | cons n ns ih =>
      have hfirst := (ih.onFirst (hname.atPath ns) n).onChildren rfl
      have htargets : (fun x : Node N T => (x.descend (n :: ns)).elim [] t) =
          fun x => (first n x.children).elim [] fun y => (y.descend ns).elim [] t := by
        funext x
        rw [descend, child]
        cases first n x.children <;> rfl
      rw [htargets]
      exact hfirst

/-- Another child than the one the path goes through stays as it is. -/
theorem child_result_atPath (hname : KeepsName f) {n n' : N} (h : n' ≠ n) (ns : List N)
    (x : Node N T) (vs : List V) : ((atPath (n :: ns) f x).result vs).child n' = x.child n' := by
  have hfirst : ∀ (xs : List (Node N T)) (vs : List V),
      first n' ((onFirst n (Node.atPath ns f) xs).result vs) = first n' xs := by
    intro xs
    induction xs with
    | nil => exact fun _ => rfl
    | cons x xs ih =>
        intro vs
        rw [Node.onFirst, first_cons]
        split
        · rename_i hx
          have hne : x.name ≠ some n' := by
            rw [hx]
            exact fun heq => h (Option.some.inj heq).symm
          rw [Supply.result_map, first_cons, hname.atPath ns, if_neg hne, if_neg hne]
        · rw [Supply.result_map, first_cons, ih]
  cases x with
  | element m xs => exact hfirst xs vs
  | pcdata s => rfl

end NearRtRic.Xml
