/-
# The handlers side by side

Every RMR message is handled in a goroutine of its own, and the keep-alive worker
is one more.  Here the handlers run as threads over what they share: the store,
and the mutex of the E2T instances manager, which blocks the thread that locks it
while another holds it.  A step of a run is one call of one thread.

`sem Ok` is the meaning of the calls when no call of the store or of the routing
manager fails.  `Ok` is a condition on the single steps, on the thread, the call
and the state before it: a theorem about the runs whose steps all meet a
condition is one about `sem` of that condition, and `sem fun _ _ _ => True` are
all runs.
-/

import NearRtRic.Effect.Interleave
import NearRtRic.E2Manager.Registry

namespace NearRtRic.E2Manager

open Effect Program

/-- What the threads share.  The thread `none` is the keep-alive worker, and the
handlers are indexed by `ι`. -/
structure Shared (ι : Type) where
  sdl : Sdl
  /-- The thread that holds the mutex, and the method it is in. -/
  mux : Option (Option ι × MuxMethod) := none
  /-- A history variable of the calls of the worker: the instance whose Shutdown
  it is in, from its mark on, and the RANs whose records it has yet to clear. -/
  clearing : Option (String × List String) := none

namespace Shared

variable {ι : Type}

/-- What a call of the worker does to the history variable: a mark starts a
Shutdown, a record that is written or cannot be read is off the list, and the
Shutdown ends at a RAN that is not found or with the removal. -/
def progress (o : Call) (r : o.Answer) (clearing : Option (String × List String)) :
    Option (String × List String) :=
  match o, r with
  | .saveE2TInstance i, _ => some (i.address, i.associatedRanList)
  | .getNodeb _, .error .resourceNotFound => none
  | .getNodeb ranName, .error _ => clearing.map fun (a, rs) => (a, rs.erase ranName)
  | .updateNodebInfo nb, _ => clearing.map fun (a, rs) => (a, rs.erase nb.ranName)
  | .removeE2TInstance _, _ => none
  | _, _ => clearing

/-- The meaning of a call of thread `t`, answered from `c`; `none` where it blocks. -/
def exec (t : Option ι) (o : Call) (c : Outcome) (s : Shared ι) : Option (o.Answer × Shared ι) :=
  match o with
  | .lock m => if s.mux.isSome then none else some ((), { s with mux := some (t, m) })
  | .unlock => some ((), { s with mux := none })
  | o =>
      let r := E2Manager.exec o c s.sdl
      some (r.1, { s with
        sdl := r.2, clearing := if t.isNone then progress o r.1 s.clearing else s.clearing })

/-- The meaning of the calls of thread `t` in the runs whose steps all meet `Ok`,
where no call of the store or of the routing manager fails. -/
def sem (Ok : Option ι → Call → Shared ι → Prop) (t : Option ι) (o : Call) (s : Shared ι)
    (r : o.Answer) (s' : Shared ι) : Prop :=
  Ok t o s ∧ ∃ c, Admits false c ∧ exec t o c s = some (r, s')

variable {Ok : Option ι → Call → Shared ι → Prop} {t : Option ι} {s s' : Shared ι}

/-- The lock blocks while the mutex is held, and else notes the thread and its method. -/
theorem exec_lock (m : MuxMethod) (c : Outcome) : exec t (.lock m) c s =
    if s.mux.isSome then none else some ((), { s with mux := some (t, m) }) := rfl

/-- So a lock that returned found the mutex free. -/
theorem sem_lock {m : MuxMethod} {r : Unit} (h : sem Ok t (.lock m) s r s') :
    Ok t (.lock m) s ∧ s.mux = none ∧ s' = { s with mux := some (t, m) } := by
  obtain ⟨hOk, c, -, h⟩ := h
  rw [exec_lock] at h
  cases hmux : s.mux with
  | some holder => simp [hmux] at h
  | none =>
      rw [hmux, Option.isSome_none, if_neg Bool.false_ne_true] at h
      obtain ⟨-, rfl⟩ := Prod.mk.inj (Option.some.inj h)
      exact ⟨hOk, rfl, rfl⟩

/-- An unlock frees the mutex and changes nothing else. -/
theorem sem_unlock {r : Unit} (h : sem Ok t .unlock s r s') : s' = { s with mux := none } := by
  obtain ⟨-, c, -, h⟩ := h
  exact (Prod.mk.inj (Option.some.inj h)).2.symm

/-- A call that a condition admits, answered at a given time. -/
def execAt (check : Option ι → Call → Shared ι → Bool) (t : Option ι) (o : Call) (time : Int64)
    (s : Shared ι) : Option (o.Answer × Shared ι) :=
  if check t o s then exec t o { time } s else none

/-- A call that a check admits, answered at a time, is one of the meaning under the condition that
the check decides. -/
theorem sem_of_execAt {check : Option ι → Call → Shared ι → Bool}
    (hOk : ∀ t o s, check t o s → Ok t o s) (t : Option ι) (o : Call) (time : Int64)
    (s : Shared ι) (r : o.Answer × Shared ι) (h : execAt check t o time s = some r) :
    sem Ok t o s r.1 r.2 := by
  unfold execAt at h
  split at h
  · rename_i hcheck
    exact ⟨hOk t o s hcheck, { time }, ⟨rfl, fun _ => rfl⟩, h⟩
  · cases h

/-- A call of the store, of the routing manager or of the clock. -/
theorem sem_plain {o : Call} {r : o.Answer} (ho : o.IsPlain) (h : sem Ok t o s r s') :
    Ok t o s ∧ (∃ c, Admits false c ∧ E2Manager.exec o c s.sdl = (r, s'.sdl)) ∧ s'.mux = s.mux ∧
      s'.clearing = if t.isNone then progress o r s.clearing else s.clearing := by
  obtain ⟨hOk, c, hc, h⟩ := h
  cases o <;> first
    | exact absurd ho id
    | (obtain ⟨rfl, rfl⟩ := Prod.mk.inj (Option.some.inj h)
       exact ⟨hOk, ⟨c, hc, rfl⟩, rfl, rfl⟩)

end Shared

namespace Deployment

variable {α : Type}

/-- The worker and two handlers have returned. -/
def haveReturned (c : Pool e2mgr α (Shared Bool) (Option Bool)) : Bool :=
  [none, some false, some true].all fun t => (c.thread t).result.isSome

/-- If all three threads have returned, the pool has finished. -/
theorem finished_of_haveReturned {c : Pool e2mgr α (Shared Bool) (Option Bool)}
    (h : haveReturned c) : c.Finished := by
  intro t
  have ht : (c.thread t).result.isSome := by
    rw [haveReturned, List.all_eq_true] at h
    rcases t with _ | _ | _ <;> exact h _ (by decide)
  obtain ⟨a, ha⟩ := Option.isSome_iff_exists.1 ht
  exact ⟨a, Program.result_eq_some.1 ha⟩

end Deployment

end NearRtRic.E2Manager
