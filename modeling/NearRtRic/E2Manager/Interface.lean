/-
# What the handlers of the E2 manager call

The handlers are programs over `e2mgr`, the interface of everything they call
outside themselves: the methods of `RNibDataService`, of the routing-manager
client and of the RMR sender, the clock, and the mutex of the E2T instances
manager, whose `Lock` names the method that takes it.

`exec` answers a call from an `Outcome`.  A call of the store succeeds, fails
without effect, or fails after it took effect (the answer of the store is lost);
the routing manager and RMR succeed or fail; the clock shows any time.  With the
mutex and the sleep without meaning this is how a handler runs alone; the
interleaved meaning is `NearRtRic.E2Manager.Concurrent`.

`Admits rmMayFail` are the outcomes of a store that does not fail.  Under it
every call has an equation for `Program.Always`, and these rewrite a handler's
specification call by call.
-/

import NearRtRic.Effect.Program
import NearRtRic.E2Manager.Models
import NearRtRic.E2Manager.Rnib

namespace NearRtRic.E2Manager

open Effect

/-- The methods of `E2TInstancesManager` that hold its mutex. -/
inductive MuxMethod
  | addE2TInstance (e2tAddress : String)
  | removeRanFromInstance (ranName e2tAddress : String)
  | removeE2TInstance (e2tAddress : String)
  | addRansToInstance (e2tAddress : String) (ranNames : List String)
  | resetKeepAliveTimestamp (e2tAddress : String)
  | clearRansOfAllE2TInstances
  deriving DecidableEq, Repr

/-- The calls the handlers make. -/
inductive Call
  | getNodeb (ranName : String)
  | getListNodebIds
  | saveNodeb (nbIdentity : NbIdentity) (nb : NodebInfo)
  | updateNodebInfo (nodebInfo : NodebInfo)
  | getE2TInstance (address : String)
  | getE2TInstances (addresses : List String)
  | getE2TAddresses
  | saveE2TInstance (e2tInstance : E2TInstance)
  | saveE2TAddresses (addresses : List String)
  | removeE2TInstance (e2tAddress : String)
  /-- The routing manager. -/
  | rmAddE2TInstance (e2tAddress : String)
  | rmAssociateRanToE2TInstance (e2tAddress ranName : String)
  | rmDissociateRanE2TInstance (e2tAddress ranName : String)
  | rmDissociateAllRans (e2tAddresses : List String)
  | rmDeleteE2TInstance (e2tAddress : String) (ransToBeDissociated : List String)
  /-- `rmrSender.Send` and `WhSend`. -/
  | send (msg : RmrMessage)
  /-- `time.Now().UnixNano()` -/
  | now
  | sleep (seconds : Int64)
  | lock (method : MuxMethod)
  | unlock
  deriving DecidableEq, Repr

/-- The answers: a Go error is the `error` of an `Except`. -/
abbrev Call.Answer : Call → Type
  | getNodeb _ => Except Err NodebInfo
  | getListNodebIds => Except Err (List NbIdentity)
  | getE2TInstance _ => Except Err E2TInstance
  | getE2TInstances _ => Except Err (List E2TInstance)
  | getE2TAddresses => Except Err (List String)
  | now => Int64
  | sleep _ | lock _ | unlock => Unit
  | saveNodeb _ _ | updateNodebInfo _ | saveE2TInstance _ | saveE2TAddresses _
  | removeE2TInstance _ | rmAddE2TInstance _ | rmAssociateRanToE2TInstance _ _
  | rmDissociateRanE2TInstance _ _ | rmDissociateAllRans _ | rmDeleteE2TInstance _ _
  | send _ => Except Err Unit

/-- A call that is no call of the mutex. -/
def Call.IsPlain : Call → Prop
  | lock _ => False
  | unlock => False
  | _ => True

/-- The interface of the handlers. -/
abbrev e2mgr : Interface where
  Op := Call
  Ans := Call.Answer

/-- A handler, or a part of one. -/
abbrev Prog := Program e2mgr

/-- Call an operation. -/
abbrev call (c : Call) : Prog c.Answer := @Program.perform e2mgr c

/-! ### The services -/

namespace RNibDataService

def getNodeb (ranName : String) : Prog (Except Err NodebInfo) := call (.getNodeb ranName)

def getListNodebIds : Prog (Except Err (List NbIdentity)) := call .getListNodebIds

def saveNodeb (nbIdentity : NbIdentity) (nb : NodebInfo) : Prog (Except Err Unit) :=
  call (.saveNodeb nbIdentity nb)

def updateNodebInfo (nodebInfo : NodebInfo) : Prog (Except Err Unit) :=
  call (.updateNodebInfo nodebInfo)

def getE2TInstance (address : String) : Prog (Except Err E2TInstance) :=
  call (.getE2TInstance address)

def getE2TInstances (addresses : List String) : Prog (Except Err (List E2TInstance)) :=
  call (.getE2TInstances addresses)

def getE2TAddresses : Prog (Except Err (List String)) := call .getE2TAddresses

def saveE2TInstance (e2tInstance : E2TInstance) : Prog (Except Err Unit) :=
  call (.saveE2TInstance e2tInstance)

def saveE2TAddresses (addresses : List String) : Prog (Except Err Unit) :=
  call (.saveE2TAddresses addresses)

def removeE2TInstance (e2tAddress : String) : Prog (Except Err Unit) :=
  call (.removeE2TInstance e2tAddress)

end RNibDataService

namespace RoutingManagerClient

def addE2TInstance (e2tAddress : String) : Prog (Except Err Unit) :=
  call (.rmAddE2TInstance e2tAddress)

def associateRanToE2TInstance (e2tAddress ranName : String) : Prog (Except Err Unit) :=
  call (.rmAssociateRanToE2TInstance e2tAddress ranName)

def dissociateRanE2TInstance (e2tAddress ranName : String) : Prog (Except Err Unit) :=
  call (.rmDissociateRanE2TInstance e2tAddress ranName)

def dissociateAllRans (e2tAddresses : List String) : Prog (Except Err Unit) :=
  call (.rmDissociateAllRans e2tAddresses)

def deleteE2TInstance (e2tAddress : String) (ransToBeDissociated : List String) :
    Prog (Except Err Unit) := call (.rmDeleteE2TInstance e2tAddress ransToBeDissociated)

end RoutingManagerClient

/-- `rmrSender.Send`, `WhSend` and `SendWithoutLogs`. -/
def RmrSender.send (msg : RmrMessage) : Prog (Except Err Unit) := call (.send msg)

/-- `time.Now().UnixNano()`. -/
def Time.now : Prog Int64 := call .now

/-- `time.Sleep`. -/
def Time.sleep (seconds : Int64) : Prog Unit := call (.sleep seconds)

/-- `mux.Lock()`. -/
def Mutex.lock (method : MuxMethod) : Prog Unit := call (.lock method)

/-- `mux.Unlock()`. -/
def Mutex.unlock : Prog Unit := call .unlock

/-- What can become of a call of the store. -/
inductive StoreOutcome
  | ok
  /-- The call fails and has no effect. -/
  | fails
  /-- The call takes effect, and its answer is an error. -/
  | failsAfterEffect
  deriving DecidableEq, Repr

/-- What the world answers a call with. -/
structure Outcome where
  store : StoreOutcome := .ok
  /-- The routing manager succeeds. -/
  rm : Bool := true
  /-- RMR sends. -/
  rmr : Bool := true
  /-- The time on the clock. -/
  time : Int64 := 0
  deriving DecidableEq, Repr

instance : Inhabited Outcome := ⟨{}⟩

/-- A read of the store.  An empty key is refused before the store is asked. -/
def storeRead {α : Type} (read : Sdl → Except Err α) (c : Outcome) (s : Sdl) :
    Except Err α × Sdl :=
  match c.store, read s with
  | .ok, answer => (answer, s)
  | _, .error .validation => (.error .validation, s)
  | _, _ => (.error .internal, s)

/-- A read leaves the store. -/
theorem storeRead_snd {α : Type} (read : Sdl → Except Err α) (c : Outcome) (s : Sdl) :
    (storeRead read c s).2 = s := by
  unfold storeRead
  split <;> rfl

/-- A read that returns a value was answered, with what is stored. -/
theorem storeRead_eq_ok {α : Type} {read : Sdl → Except Err α} {c : Outcome} {s : Sdl} {a : α} :
    (storeRead read c s).1 = .ok a ↔ c.store = .ok ∧ read s = .ok a := by
  unfold storeRead
  split
  · rename_i hc
    exact ⟨fun h => ⟨hc, h⟩, fun h => h.2⟩
  · rename_i hread _
    refine ⟨nofun, fun h => ?_⟩
    rw [hread] at h
    cases h.2
  · rename_i hc _
    exact ⟨nofun, fun h => absurd h.1 hc⟩

/-- A write to the store.  A write that cannot build its keys never reaches it. -/
def storeWrite (write : Sdl → Except Err Sdl) (c : Outcome) (s : Sdl) : Except Err Unit × Sdl :=
  match write s, c.store with
  | .error e, _ => (.error e, s)
  | .ok s', .ok => (.ok (), s')
  | .ok _, .fails => (.error .internal, s)
  | .ok s', .failsAfterEffect => (.error .internal, s')

/-- The answer of a service that has no store behind it. -/
def answer (ok : Bool) (e : Err) : Except Err Unit := if ok then .ok () else .error e

/-- The meaning of the calls, one program running alone. -/
def exec : (o : Call) → Outcome → Sdl → o.Answer × Sdl
  | .getNodeb r, c, s => storeRead (RNibReader.getNodeb r) c s
  | .getListNodebIds, c, s => storeRead RNibReader.getListNodebIds c s
  | .saveNodeb id nb, c, s => storeWrite (RNibWriter.saveNodeb id nb) c s
  | .updateNodebInfo nb, c, s => storeWrite (RNibWriter.updateNodebInfo nb) c s
  | .getE2TInstance a, c, s => storeRead (RNibReader.getE2TInstance a) c s
  | .getE2TInstances as, c, s => storeRead (RNibReader.getE2TInstances as) c s
  | .getE2TAddresses, c, s => storeRead RNibReader.getE2TAddresses c s
  | .saveE2TInstance i, c, s => storeWrite (RNibWriter.saveE2TInstance i) c s
  | .saveE2TAddresses as, c, s => storeWrite (RNibWriter.saveE2TAddresses as) c s
  | .removeE2TInstance a, c, s => storeWrite (RNibWriter.removeE2TInstance a) c s
  | .rmAddE2TInstance _, c, s => (answer c.rm .routingManager, s)
  | .rmAssociateRanToE2TInstance _ _, c, s => (answer c.rm .routingManager, s)
  | .rmDissociateRanE2TInstance _ _, c, s => (answer c.rm .routingManager, s)
  | .rmDissociateAllRans _, c, s => (answer c.rm .routingManager, s)
  | .rmDeleteE2TInstance _ _, c, s => (answer c.rm .routingManager, s)
  | .send _, c, s => (answer c.rmr .rmr, s)
  | .now, c, s => (c.time, s)
  | .sleep _, _, s => ((), s)
  | .lock _, _, s => ((), s)
  | .unlock, _, s => ((), s)

/-- The outcomes of a store that does not fail; `rmMayFail` says whether the
routing manager may. -/
def Admits (rmMayFail : Bool) (c : Outcome) : Prop :=
  c.store = .ok ∧ (rmMayFail = false → c.rm = true)

/-- The outcome in which nothing fails is admitted, whether failures are or not. -/
theorem admits_default (b : Bool) : Admits b default := ⟨rfl, fun _ => rfl⟩

/-! ### The calls in a run -/

section Run

variable {β : Type} {cs : List Outcome} {s : Sdl}

/-- A run that reads an instance first takes one outcome for it, and goes on with what the store
has and the outcomes that are left. -/
@[simp] theorem RNibDataService.run_getE2TInstance (a : String)
    (f : Except Err E2TInstance → Prog β) :
    (RNibDataService.getE2TInstance a >>= f).run exec cs s =
      (f (storeRead (RNibReader.getE2TInstance a) (Program.outcome cs 0) s).1).run exec cs.tail
        (storeRead (RNibReader.getE2TInstance a) (Program.outcome cs 0) s).2 := rfl

/-- The same of reading the list of addresses. -/
@[simp] theorem RNibDataService.run_getE2TAddresses (f : Except Err (List String) → Prog β) :
    (RNibDataService.getE2TAddresses >>= f).run exec cs s =
      (f (storeRead RNibReader.getE2TAddresses (Program.outcome cs 0) s).1).run exec cs.tail
        (storeRead RNibReader.getE2TAddresses (Program.outcome cs 0) s).2 := rfl

/-- A run that writes an instance first goes on in the store that the write leaves. -/
@[simp] theorem RNibDataService.run_saveE2TInstance (i : E2TInstance)
    (f : Except Err Unit → Prog β) :
    (RNibDataService.saveE2TInstance i >>= f).run exec cs s =
      (f (storeWrite (RNibWriter.saveE2TInstance i) (Program.outcome cs 0) s).1).run exec cs.tail
        (storeWrite (RNibWriter.saveE2TInstance i) (Program.outcome cs 0) s).2 := rfl

/-- The same of writing the list of addresses. -/
@[simp] theorem RNibDataService.run_saveE2TAddresses (as : List String)
    (f : Except Err Unit → Prog β) :
    (RNibDataService.saveE2TAddresses as >>= f).run exec cs s =
      (f (storeWrite (RNibWriter.saveE2TAddresses as) (Program.outcome cs 0) s).1).run exec cs.tail
        (storeWrite (RNibWriter.saveE2TAddresses as) (Program.outcome cs 0) s).2 := rfl

/-- The same of deleting an instance. -/
@[simp] theorem RNibDataService.run_removeE2TInstance (a : String)
    (f : Except Err Unit → Prog β) :
    (RNibDataService.removeE2TInstance a >>= f).run exec cs s =
      (f (storeWrite (RNibWriter.removeE2TInstance a) (Program.outcome cs 0) s).1).run exec cs.tail
        (storeWrite (RNibWriter.removeE2TInstance a) (Program.outcome cs 0) s).2 := rfl

/-- A run that registers an instance with the routing manager first: the outcome says whether it
answers, and the store stays. -/
@[simp] theorem RoutingManagerClient.run_addE2TInstance (a : String)
    (f : Except Err Unit → Prog β) :
    (RoutingManagerClient.addE2TInstance a >>= f).run exec cs s =
      (f (answer (Program.outcome cs 0).rm .routingManager)).run exec cs.tail s := rfl

/-- A run that reads the clock first takes the time from its outcome. -/
@[simp] theorem Time.run_now (f : Int64 → Prog β) :
    (Time.now >>= f).run exec cs s = (f (Program.outcome cs 0).time).run exec cs.tail s := rfl

/-- A run that locks the mutex first uses an outcome up for it, and nothing else. -/
@[simp] theorem Mutex.run_lock (m : MuxMethod) (f : Unit → Prog β) :
    (Mutex.lock m >>= f).run exec cs s = (f ()).run exec cs.tail s := rfl

/-- The same of unlocking it. -/
@[simp] theorem Mutex.run_unlock (f : Unit → Prog β) :
    (Mutex.unlock >>= f).run exec cs s = (f ()).run exec cs.tail s := rfl

end Run

/-! ### The calls under `Program.Always` -/

section Always

variable {b : Bool} {P : Sdl → Prop} {s : Sdl}

/-- What a single call always does is what it does for every outcome that is admitted. -/
theorem always_perform {o : Call} {Q : o.Answer → Sdl → Prop} :
    (call o).Always exec (Admits b) P Q s ↔
      ∀ c, Admits b c → Q (exec o c s).1 (exec o c s).2 := Iff.rfl

/-- A call with one possible answer. -/
theorem always_call_of_eq {o : Call} {Q : o.Answer → Sdl → Prop} {r : o.Answer} {s' : Sdl}
    (h : ∀ c, Admits b c → exec o c s = (r, s')) :
    (call o).Always exec (Admits b) P Q s ↔ Q r s' := by
  rw [always_perform]
  constructor
  · intro hQ
    simpa only [h _ (admits_default b)] using hQ default (admits_default b)
  · intro hQ c hc
    simpa only [h c hc] using hQ

/-- Where the store does not fail, a read gives what the store has. -/
theorem storeRead_ok {β : Type} {read : Sdl → Except Err β} {c : Outcome} (hc : Admits b c) :
    storeRead read c s = (read s, s) := by
  simp [storeRead, hc.1]

/-- Where the store does not fail, a write that the store accepts is made. -/
theorem storeWrite_ok {write : Sdl → Except Err Sdl} {c : Outcome} (hc : Admits b c) {s' : Sdl}
    (h : write s = .ok s') : storeWrite write c s = (.ok (), s') := by
  simp [storeWrite, hc.1, h]

/-- A write that the store refuses, for a reason of its own, changes nothing, whatever the
outcome. -/
theorem storeWrite_error {write : Sdl → Except Err Sdl} {c : Outcome} {e : Err}
    (h : write s = .error e) : storeWrite write c s = (.error e, s) := by
  simp [storeWrite, h]

/-- Saving an instance with an address, where the store does not fail. -/
theorem exec_saveE2TInstance {c : Outcome} (hc : Admits b c) {i : E2TInstance}
    (h : i.address ≠ "") : exec (.saveE2TInstance i) c s = (.ok (), s.putInstance i) :=
  storeWrite_ok hc (saveE2TInstance_of_ne h s)

/-- Reading a record always gives what the reader finds, and leaves the store. -/
@[simp] theorem RNibDataService.always_getNodeb (r : String)
    (Q : Except Err NodebInfo → Sdl → Prop) :
    (RNibDataService.getNodeb r).Always exec (Admits b) P Q s ↔ Q (RNibReader.getNodeb r s) s :=
  always_call_of_eq fun _ hc => storeRead_ok hc

/-- The same of the list of all RANs. -/
@[simp] theorem RNibDataService.always_getListNodebIds
    (Q : Except Err (List NbIdentity) → Sdl → Prop) :
    RNibDataService.getListNodebIds.Always exec (Admits b) P Q s ↔
      Q (RNibReader.getListNodebIds s) s :=
  always_call_of_eq fun _ hc => storeRead_ok hc

/-- The same of one instance. -/
@[simp] theorem RNibDataService.always_getE2TInstance (a : String)
    (Q : Except Err E2TInstance → Sdl → Prop) :
    (RNibDataService.getE2TInstance a).Always exec (Admits b) P Q s ↔
      Q (RNibReader.getE2TInstance a s) s :=
  always_call_of_eq fun _ hc => storeRead_ok hc

/-- The same of several instances. -/
@[simp] theorem RNibDataService.always_getE2TInstances (as : List String)
    (Q : Except Err (List E2TInstance) → Sdl → Prop) :
    (RNibDataService.getE2TInstances as).Always exec (Admits b) P Q s ↔
      Q (RNibReader.getE2TInstances as s) s :=
  always_call_of_eq fun _ hc => storeRead_ok hc

/-- The same of the list of addresses. -/
@[simp] theorem RNibDataService.always_getE2TAddresses
    (Q : Except Err (List String) → Sdl → Prop) :
    RNibDataService.getE2TAddresses.Always exec (Admits b) P Q s ↔
      Q (RNibReader.getE2TAddresses s) s :=
  always_call_of_eq fun _ hc => storeRead_ok hc

/-- A write either stores what it built, or reports what it could not build. -/
theorem RNibDataService.always_saveNodeb (id : NbIdentity) (nb : NodebInfo)
    (Q : Except Err Unit → Sdl → Prop) :
    (RNibDataService.saveNodeb id nb).Always exec (Admits b) P Q s ↔
      match RNibWriter.saveNodeb id nb s with
      | .ok s' => Q (.ok ()) s'
      | .error e => Q (.error e) s := by
  cases h : RNibWriter.saveNodeb id nb s with
  | ok s' => exact always_call_of_eq fun _ hc => storeWrite_ok hc h
  | error e => exact always_call_of_eq fun _ _ => storeWrite_error h

/-- Writing back a record that has a name always succeeds, and puts it into the store. -/
theorem RNibDataService.always_updateNodebInfo {nb : NodebInfo} (h : nb.ranName ≠ "")
    (Q : Except Err Unit → Sdl → Prop) :
    (RNibDataService.updateNodebInfo nb).Always exec (Admits b) P Q s ↔
      Q (.ok ()) (s.putNodeb nb) :=
  always_call_of_eq fun _ hc => storeWrite_ok hc (updateNodebInfo_of_ne h s)

/-- The same of an instance that has an address. -/
theorem RNibDataService.always_saveE2TInstance {i : E2TInstance} (h : i.address ≠ "")
    (Q : Except Err Unit → Sdl → Prop) :
    (RNibDataService.saveE2TInstance i).Always exec (Admits b) P Q s ↔
      Q (.ok ()) (s.putInstance i) :=
  always_call_of_eq fun _ hc => storeWrite_ok hc (saveE2TInstance_of_ne h s)

/-- The same of the list of addresses. -/
@[simp] theorem RNibDataService.always_saveE2TAddresses (as : List String)
    (Q : Except Err Unit → Sdl → Prop) :
    (RNibDataService.saveE2TAddresses as).Always exec (Admits b) P Q s ↔
      Q (.ok ()) (s.putAddresses as) :=
  always_call_of_eq fun _ hc => storeWrite_ok hc (saveE2TAddresses_eq as s)

/-- Deleting the instance of an address that is not empty. -/
theorem RNibDataService.always_removeE2TInstance {a : String} (h : a ≠ "")
    (Q : Except Err Unit → Sdl → Prop) :
    (RNibDataService.removeE2TInstance a).Always exec (Admits b) P Q s ↔
      Q (.ok ()) (s.dropInstance a) :=
  always_call_of_eq fun _ hc => storeWrite_ok hc (removeE2TInstance_of_ne h s)

/-- Locking the mutex has no effect on the store, and no result. -/
@[simp] theorem Mutex.always_lock (m : MuxMethod) (Q : Unit → Sdl → Prop) :
    (Mutex.lock m).Always exec (Admits b) P Q s ↔ Q () s := always_call_of_eq fun _ _ => rfl

/-- Neither has unlocking it. -/
@[simp] theorem Mutex.always_unlock (Q : Unit → Sdl → Prop) :
    Mutex.unlock.Always exec (Admits b) P Q s ↔ Q () s := always_call_of_eq fun _ _ => rfl

/-- Sleeping has none either. -/
@[simp] theorem Time.always_sleep (n : Int64) (Q : Unit → Sdl → Prop) :
    (Time.sleep n).Always exec (Admits b) P Q s ↔ Q () s := always_call_of_eq fun _ _ => rfl

/-- The clock may show any time. -/
@[simp] theorem Time.always_now (Q : Int64 → Sdl → Prop) :
    Time.now.Always exec (Admits b) P Q s ↔ ∀ t, Q t s :=
  ⟨fun h t => h { time := t } ⟨rfl, fun _ => rfl⟩, fun h c _ => h c.time⟩

/-- RMR may take a message or not; the store stays in either case. -/
@[simp] theorem RmrSender.always_send (m : RmrMessage) (Q : Except Err Unit → Sdl → Prop) :
    (RmrSender.send m).Always exec (Admits b) P Q s ↔ ∀ sent, Q (answer sent .rmr) s :=
  ⟨fun h sent => h { rmr := sent } ⟨rfl, fun _ => rfl⟩, fun h c _ => h c.rmr⟩

/-- A request to the routing manager is answered well, or, where it may fail,
with its error. -/
theorem always_call_rm (o : Call) {Q : o.Answer → Sdl → Prop} (f : Bool → o.Answer)
    (h : ∀ c, exec o c s = (f c.rm, s)) :
    (call o).Always exec (Admits b) P Q s ↔ ∀ up, (b = false → up = true) → Q (f up) s := by
  rw [always_perform]
  constructor
  · intro hQ up hup
    simpa only [h] using hQ { rm := up } ⟨rfl, hup⟩
  · intro hQ c hc
    simpa only [h] using hQ c.rm hc.2

/-- The routing manager may refuse a new instance only where failures are admitted; the store
stays. -/
@[simp] theorem RoutingManagerClient.always_addE2TInstance (a : String)
    (Q : Except Err Unit → Sdl → Prop) :
    (RoutingManagerClient.addE2TInstance a).Always exec (Admits b) P Q s ↔
      ∀ up, (b = false → up = true) → Q (answer up .routingManager) s :=
  always_call_rm (.rmAddE2TInstance a) (answer · .routingManager) fun _ => rfl

/-- The same of associating a RAN. -/
@[simp] theorem RoutingManagerClient.always_associateRan (a r : String)
    (Q : Except Err Unit → Sdl → Prop) :
    (RoutingManagerClient.associateRanToE2TInstance a r).Always exec (Admits b) P Q s ↔
      ∀ up, (b = false → up = true) → Q (answer up .routingManager) s :=
  always_call_rm (.rmAssociateRanToE2TInstance a r) (answer · .routingManager) fun _ => rfl

/-- The same of dissociating one. -/
@[simp] theorem RoutingManagerClient.always_dissociateRan (a r : String)
    (Q : Except Err Unit → Sdl → Prop) :
    (RoutingManagerClient.dissociateRanE2TInstance a r).Always exec (Admits b) P Q s ↔
      ∀ up, (b = false → up = true) → Q (answer up .routingManager) s :=
  always_call_rm (.rmDissociateRanE2TInstance a r) (answer · .routingManager) fun _ => rfl

/-- The same of dissociating the RANs of some instances. -/
@[simp] theorem RoutingManagerClient.always_dissociateAllRans (as : List String)
    (Q : Except Err Unit → Sdl → Prop) :
    (RoutingManagerClient.dissociateAllRans as).Always exec (Admits b) P Q s ↔
      ∀ up, (b = false → up = true) → Q (answer up .routingManager) s :=
  always_call_rm (.rmDissociateAllRans as) (answer · .routingManager) fun _ => rfl

/-- The same of deleting an instance. -/
@[simp] theorem RoutingManagerClient.always_deleteE2TInstance (a : String) (rans : List String)
    (Q : Except Err Unit → Sdl → Prop) :
    (RoutingManagerClient.deleteE2TInstance a rans).Always exec (Admits b) P Q s ↔
      ∀ up, (b = false → up = true) → Q (answer up .routingManager) s :=
  always_call_rm (.rmDeleteE2TInstance a rans) (answer · .routingManager) fun _ => rfl

end Always

/-! ### What the model is parametric in -/

/-- The codecs and validators the manager imports: they turn bytes into the
structures above, or fail. -/
structure Codecs where
  /-- `xml.Unmarshal` into an `E2SetupRequestMessage`. -/
  unmarshalE2SetupRequest : String → Option E2SetupRequestMessage
  /-- `json.Unmarshal` into an `E2TermInitPayload`. -/
  unmarshalE2TermInit : String → Option E2TermInitPayload
  /-- The X2 setup response converter. -/
  unpackX2SetupResponse : String → Except Err (Option GlobalNbId × Enb)
  /-- The ENDC setup response converter. -/
  unpackEndcSetupResponse : String → Except Err (Option GlobalNbId × Gnb)
  /-- The X2 setup failure converter. -/
  unpackX2SetupFailure : String → Except Err String
  /-- The ENDC setup failure converter. -/
  unpackEndcSetupFailure : String → Except Err String
  /-- `is.IP` of the validation package. -/
  isIP : String → Bool

/-- `configuration.Configuration`, with the settings the handlers read
and their values in `resources/configuration.yaml`. -/
structure Configuration where
  bigRedButtonTimeoutSec : Int64 := 5
  keepAliveResponseTimeoutMs : Int64 := 4500
  e2tInstanceDeletionTimeoutMs : Int64 := 15000
  plmnId : String := "131014"
  ricNearRtId : String := "556670"
  deriving DecidableEq, Repr

/-- `int64(time.Duration(ms) * time.Millisecond)`: the product wraps. -/
def nanoseconds (ms : Int64) : Int64 := ms * 1000000

end NearRtRic.E2Manager
