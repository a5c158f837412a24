/-
# XML trees and actions on their nodes

A document is a tree of elements and texts, and the functions here are those of a
DOM: the first child of a name (`child`), the children of a name (`named`), the
node at the end of a path of names (`descend`).

An action on some nodes of a tree runs in an applicative functor, in document order:
on every child of a name (`onNamed`), or on the node at the end of a path (`atPath`).
What two functors have in common in each action they have in common in the whole
(`Relates.atPath`), and an action without effects changes the node at the end of
its path and nothing else on it (`descend_update`).
-/

import Mathlib.Data.List.Basic

namespace NearRtRic.Xml

/-- A node, without attributes. -/
inductive Node (N T : Type) where
  | element (name : N) (children : List (Node N T))
  | pcdata (text : T)

namespace Node

variable {N T : Type}

def name : Node N T → Option N
  | element n _ => some n
  | pcdata _ => none

def text : Node N T → Option T
  | element _ _ => none
  | pcdata t => some t

def children : Node N T → List (Node N T)
  | element _ xs => xs
  | pcdata _ => []

/-- The first text among the children. -/
def childValue (x : Node N T) : Option T := x.children.findSome? text

/-- The same element with a text as its only child. -/
def setText (t : T) : Node N T → Node N T
  | element n _ => element n [pcdata t]
  | pcdata s => pcdata s

/-- The text of an element has nothing to do with its name. -/
@[simp] theorem name_setText (t : T) (x : Node N T) : (x.setText t).name = x.name := by
  cases x <;> rfl

/-- An element whose text is set has that text and nothing else in it. -/
theorem children_setText {x : Node N T} {n : N} (h : x.name = some n) (t : T) :
    (x.setText t).children = [pcdata t] := by
  cases x with
  | element n' xs => rfl
  | pcdata s => cases h

variable [DecidableEq N]

/-- The nodes of a name in a list. -/
def named (n : N) (xs : List (Node N T)) : List (Node N T) := xs.filter (·.name = some n)

/-- The first node of a name in a list. -/
def first (n : N) (xs : List (Node N T)) : Option (Node N T) := xs.find? (·.name = some n)

def child (n : N) (x : Node N T) : Option (Node N T) := first n x.children

/-- The node at the end of a path, each name being that of a first child. -/
def descend : List N → Node N T → Option (Node N T)
  | [], x => some x
  | n :: ns, x => (x.child n).bind (descend ns)

/-- The children of a name, one child further on: the first is among them where it has the name. -/
theorem named_cons (n : N) (x : Node N T) (xs : List (Node N T)) :
    named n (x :: xs) = if x.name = some n then x :: named n xs else named n xs := by
  unfold named
  rw [List.filter_cons]
  split <;> simp_all

/-- The first child of a name is the first child at all, where that has the name. -/
theorem first_cons (n : N) (x : Node N T) (xs : List (Node N T)) :
    first n (x :: xs) = if x.name = some n then some x else first n xs := by
  unfold first
  rw [List.find?_cons]
  split <;> simp_all

/-- What is found under a name has it. -/
theorem name_of_first {n : N} {x : Node N T} {xs : List (Node N T)} (h : first n xs = some x) :
    x.name = some n := by
  have := List.find?_some h
  simpa using this

/-- What a path leads to has the last name of the path. -/
theorem name_of_descend {ns : List N} {n : N} {x y : Node N T}
    (h : x.descend (ns ++ [n]) = some y) : y.name = some n := by
  induction ns generalizing x with
  | nil =>
      obtain ⟨z, hz, hy⟩ := Option.bind_eq_some_iff.1 h
      obtain rfl := Option.some.inj hy
      exact name_of_first hz
  | cons m ns ih =>
      obtain ⟨z, -, hy⟩ := Option.bind_eq_some_iff.1 h
      exact ih hy

/-! ### Actions -/

section

variable {m : Type → Type} [Applicative m]

def onChildren (f : List (Node N T) → m (List (Node N T))) : Node N T → m (Node N T)
  | element n xs => element n <$> f xs
  | pcdata t => pure (pcdata t)

/-- An action on every node of a name. -/
def onNamed (n : N) (f : Node N T → m (Node N T)) : List (Node N T) → m (List (Node N T))
  | [] => pure []
  | x :: xs => List.cons <$> (if x.name = some n then f x else pure x) <*> onNamed n f xs

/-- An action on the first node of a name. -/
def onFirst (n : N) (f : Node N T → m (Node N T)) : List (Node N T) → m (List (Node N T))
  | [] => pure []
  | x :: xs => if x.name = some n then (· :: xs) <$> f x else (x :: ·) <$> onFirst n f xs

/-- An action on the node at the end of a path, nothing where there is none. -/
def atPath : List N → (Node N T → m (Node N T)) → Node N T → m (Node N T)
  | [], f => f
  | n :: ns, f => onChildren (onFirst n (atPath ns f))

end

/-- A change of the node at the end of a path. -/
def update (ns : List N) (f : Node N T → Node N T) (x : Node N T) : Node N T :=
  Id.run (atPath ns (fun y => pure (f y)) x)

/-! ### Actions without effects -/

section

variable {f : Node N T → Node N T}

/-- At the end of the path is the node itself. -/
@[simp] theorem update_nil (x : Node N T) : update [] f x = f x := rfl

/-- A change further down leaves the name of a node. -/
theorem name_update_cons (n : N) (ns : List N) (x : Node N T) :
    (update (n :: ns) f x).name = x.name := by
  cases x <;> rfl

/-- A change that leaves names leaves the name of the node it starts from, however long the path. -/
theorem name_update (hf : ∀ x, (f x).name = x.name) (ns : List N) (x : Node N T) :
    (update ns f x).name = x.name := by
  cases ns with
  | nil => exact hf x
  | cons n ns => exact name_update_cons n ns x

/-- What `update` does to the children. -/
def updateFirst (n : N) (ns : List N) (f : Node N T → Node N T) :
    List (Node N T) → List (Node N T)
  | [] => []
  | x :: xs => if x.name = some n then update ns f x :: xs else x :: updateFirst n ns f xs

/-- Changing the first child along a path is `updateFirst`, where the change has no effects. -/
theorem run_onFirst (n : N) (ns : List N) (xs : List (Node N T)) :
    Id.run (onFirst n (atPath ns fun y => pure (f y)) xs) = updateFirst n ns f xs := by
  induction xs with
  | nil => rfl
  | cons x xs ih =>
      rw [onFirst, updateFirst]
      split
      · rfl
      · rw [← ih]
        rfl

/-- The children of a node that is changed along a path. -/
theorem children_update_cons (n : N) (ns : List N) (x : Node N T) :
    (update (n :: ns) f x).children = updateFirst n ns f x.children := by
  cases x with
  | element n' xs => exact run_onFirst n ns xs
  | pcdata t => rfl

/-- The first child of a name afterwards is the changed one, where names stay. -/
theorem first_updateFirst (hf : ∀ x, (f x).name = x.name) (n : N) (ns : List N)
    (xs : List (Node N T)) :
    first n (updateFirst n ns f xs) = (first n xs).map (update ns f) := by
  induction xs with
  | nil => rfl
  | cons x xs ih =>
      rw [updateFirst, first_cons]
      by_cases hx : x.name = some n
      · rw [if_pos hx, if_pos hx, first_cons, name_update hf, if_pos hx, Option.map_some]
      · rw [if_neg hx, if_neg hx, first_cons, if_neg hx, ih]

/-- **The node at the end of the path is the one that changes.** -/
theorem descend_update (hf : ∀ x, (f x).name = x.name) (ns : List N) (x : Node N T) :
    (update ns f x).descend ns = (x.descend ns).map f := by
  induction ns generalizing x with
  | nil => rfl
  | cons n ns ih =>
      rw [descend, child, children_update_cons, first_updateFirst hf, Option.bind_map, descend,
        Option.map_bind, child]
      exact congrArg _ (funext ih)

end

/-! ### Two functors -/

/-- What two applicative functors can have in common. -/
structure Relates {m k : Type → Type} [Applicative m] [Applicative k]
    (R : ∀ α : Type, m α → k α → Prop) : Prop where
  pure : ∀ {α : Type} (a : α), R α (pure a) (pure a)
  map : ∀ {α β : Type} (f : α → β) {p : m α} {q : k α}, R α p q → R β (f <$> p) (f <$> q)
  seq : ∀ {α β : Type} {p : m (α → β)} {q : k (α → β)} {p' : m α} {q' : k α},
    R (α → β) p q → R α p' q' → R β (p <*> p') (q <*> q')

namespace Relates

variable {m k : Type → Type} [Applicative m] [Applicative k]
  {R : ∀ α : Type, m α → k α → Prop} {f : Node N T → m (Node N T)} {g : Node N T → k (Node N T)}

omit [DecidableEq N] in
/-- Changes of the lists of children that are related make related changes of a node. -/
protected theorem onChildren (hR : Relates R) {f : List (Node N T) → m (List (Node N T))}
    {g : List (Node N T) → k (List (Node N T))} (h : ∀ xs, R _ (f xs) (g xs)) (x : Node N T) :
    R _ (onChildren f x) (onChildren g x) := by
  cases x with
  | element n xs => exact hR.map _ (h xs)
  | pcdata t => exact hR.pure _

/-- Changes of every child of a name are related where those of single nodes are. -/
protected theorem onNamed (hR : Relates R) (h : ∀ x, R _ (f x) (g x)) (n : N)
    (xs : List (Node N T)) : R _ (onNamed n f xs) (onNamed n g xs) := by
  induction xs with
  | nil => exact hR.pure _
  | cons x xs ih =>
      rw [onNamed, onNamed]
      refine hR.seq (hR.map _ ?_) ih
      split
      · exact h x
      · exact hR.pure x

/-- The same of the first child of a name. -/
protected theorem onFirst (hR : Relates R) (h : ∀ x, R _ (f x) (g x)) (n : N)
    (xs : List (Node N T)) : R _ (onFirst n f xs) (onFirst n g xs) := by
  induction xs with
  | nil => exact hR.pure _
  | cons x xs ih =>
      rw [onFirst, onFirst]
      split
      · exact hR.map _ (h x)
      · exact hR.map _ ih

/-- The same along a path, by induction on it. -/
protected theorem atPath (hR : Relates R) (h : ∀ x, R _ (f x) (g x)) (ns : List N)
    (x : Node N T) : R _ (atPath ns f x) (atPath ns g x) := by
  induction ns generalizing x with
  | nil => exact h x
  | cons n ns ih => exact hR.onChildren (hR.onFirst ih n) x

end Relates

end Node

end NearRtRic.Xml
