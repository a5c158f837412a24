/-
# Where the records come from

`Origins` are the events that reach the manager, and `Traced` relates a record to them.  A
RAN that is stored was set up or asked for, it is associated with an instance that its own
setup named, or that an E2_TERM_INIT announced, and its identity and functions are those of
one of its own messages.

A handler writes back what it read, changed; that it has read a traced record long before
does no harm (`NearRtRic.Effect.Guarded`).  The functions of the managers have one lemma
each here, the handlers in `NearRtRic.E2Manager.Provenance`.
-/

import NearRtRic.Effect.Guarded
import NearRtRic.E2Manager.Concurrent
import NearRtRic.E2Manager.Events

namespace NearRtRic.E2Manager

open Effect Program

/-- The events that reach the manager, and the codecs that read them. -/
structure Origins where
  codecs : Codecs
  came : Event → Prop

namespace Origins

variable (o : Origins)

/-- A setup request of the RAN came, through the termination with the address. -/
def SetUp (ranName e2tAddress : String) (setupRequest : E2SetupRequestMessage) : Prop :=
  ranName ≠ "" ∧ ∃ request, o.came (.e2SetupRequest request) ∧ request.ranName = ranName ∧
    E2SetupRequestNotificationHandler.parseSetupRequest o.codecs request.payload =
      .ok (setupRequest, e2tAddress)

/-- An E2_TERM_INIT with the address came. -/
def Announced (e2tAddress : String) : Prop :=
  ∃ request payload, o.came (.e2TermInit request) ∧
    o.codecs.unmarshalE2TermInit request.payload = some payload ∧ payload.address = e2tAddress

/-- The RAN was asked for over HTTP. -/
def Requested (ranName : String) : Prop :=
  ranName ≠ "" ∧ ∃ protocol request,
    o.came (.setupRequest protocol request) ∧ request.ranName = ranName

/-- A setup response of the RAN came, with the identity and the functions. -/
def Responded (ranName : String) (globalNbId : Option GlobalNbId)
    (ranFunctions : List RanFunction) : Prop :=
  ∃ msgType request, o.came (.setupResponse msgType request) ∧ request.ranName = ranName ∧
    ((∃ enb, o.codecs.unpackX2SetupResponse request.payload = .ok (globalNbId, enb)) ∨
      ∃ gnb, o.codecs.unpackEndcSetupResponse request.payload = .ok (globalNbId, gnb) ∧
        gnb.ranFunctions = ranFunctions)

/-- The RAN may be associated with the instance. -/
def Linked (ranName e2tAddress : String) : Prop :=
  (∃ setupRequest, o.SetUp ranName e2tAddress setupRequest) ∨
    o.Requested ranName ∧ o.Announced e2tAddress

/-- A record of a RAN, and the events it is made from. -/
structure Traced (nb : NodebInfo) : Prop where
  ran : (∃ a setupRequest, o.SetUp nb.ranName a setupRequest) ∨ o.Requested nb.ranName
  association : nb.associatedE2TInstanceAddress ≠ "" →
    o.Linked nb.ranName nb.associatedE2TInstanceAddress
  identity : ∀ g, nb.globalNbId = some g →
    (∃ a setupRequest, o.SetUp nb.ranName a setupRequest ∧
      setupRequest.getPlmnId = some g.plmnId ∧ setupRequest.getNbId = some g.nbId) ∨
    ∃ ranFunctions, o.Responded nb.ranName (some g) ranFunctions
  functions : ∀ gnb, nb.getGnb = some gnb → gnb.ranFunctions ≠ [] →
    (∃ a setupRequest, o.SetUp nb.ranName a setupRequest ∧
      setupRequest.extractRanFunctionsList = .ok (some gnb.ranFunctions)) ∨
    ∃ globalNbId, o.Responded nb.ranName globalNbId gnb.ranFunctions

/-- An instance was announced, and lists RANs that may be associated with it. -/
structure TracedInstance (i : E2TInstance) : Prop where
  announced : o.Announced i.address
  linked : ∀ r ∈ i.associatedRanList, o.Linked r i.address

/-- A store with traced records under the right keys. -/
structure TracedStore (s : Sdl) : Prop where
  nodeb : ∀ r nb, s.nodeb r = some nb → nb.ranName = r ∧ o.Traced nb
  e2tInstance : ∀ a i, s.e2tInstance a = some i → i.address = a ∧ o.TracedInstance i
  e2tAddresses : ∀ as, s.e2tAddresses = some as → ∀ a ∈ as, o.Announced a

/-- What the store answers. -/
def Answered : (c : Call) → c.Answer → Prop
  | .getNodeb r, x =>
      (∀ nb, x = .ok nb → nb.ranName = r ∧ o.Traced nb) ∧ (x = .error .resourceNotFound → r ≠ "")
  | .getE2TInstance a, x => ∀ i, x = .ok i → i.address = a ∧ o.TracedInstance i
  | .getE2TInstances _, x => ∀ is, x = .ok is → ∀ i ∈ is, o.TracedInstance i
  | .getE2TAddresses, x => ∀ as, x = .ok as → ∀ a ∈ as, o.Announced a
  | _, _ => True

/-- What may be written. -/
def Allowed : Call → Prop
  | .saveNodeb id nb => id.inventoryName = nb.ranName ∧ o.Traced nb
  | .updateNodebInfo nb => o.Traced nb
  | .saveE2TInstance i => o.TracedInstance i
  | .saveE2TAddresses as => ∀ a ∈ as, o.Announced a
  | _ => True

/-- A program writes traced values, as long as it reads such values. -/
abbrev Keeps {α : Type} (p : Prog α) (Q : α → Prop) : Prop := p.Guarded o.Answered o.Allowed Q

variable {o} {nb nb' : NodebInfo} {i : E2TInstance} {s s' : Sdl} {a r : String} {α : Type}

/-! ### The store -/

/-- A write happens as a whole or not at all, whatever is answered. -/
theorem storeWrite_cases (write : Sdl → Except Err Sdl) (c : Outcome) (s : Sdl) :
    (storeWrite write c s).2 = s ∨ write s = .ok (storeWrite write c s).2 := by
  unfold storeWrite
  cases hwrite : write s with
  | error e => exact .inl rfl
  | ok s' =>
      cases c.store with
      | ok => exact .inr rfl
      | fails => exact .inl rfl
      | failsAfterEffect => exact .inr rfl

namespace TracedStore

variable (hs : o.TracedStore s)
include hs

/-- A record whose own fields come from where they should may be written: nothing else that is
stored changes. -/
theorem putNodeb (hnb : o.Traced nb)
    (hnodeb : s'.nodeb = Function.update s.nodeb nb.ranName (some nb))
    (hinstance : s'.e2tInstance = s.e2tInstance) (haddresses : s'.e2tAddresses = s.e2tAddresses) :
    o.TracedStore s' where
  nodeb r nb' hr := by
    rw [hnodeb, Function.update_apply] at hr
    split at hr
    · rename_i heq
      obtain rfl := Option.some.inj hr
      exact ⟨heq.symm, hnb⟩
    · exact hs.nodeb r nb' hr
  e2tInstance a i ha := hs.e2tInstance a i (hinstance ▸ ha)
  e2tAddresses as has := hs.e2tAddresses as (haddresses ▸ has)

/-- An instance that comes from where it should may be written. -/
theorem putInstance (hi : o.TracedInstance i) : o.TracedStore (s.putInstance i) where
  nodeb r nb hr := hs.nodeb r nb (by simpa using hr)
  e2tInstance a i' ha := by
    rw [Sdl.e2tInstance_putInstance, Function.update_apply] at ha
    split at ha
    · rename_i heq
      obtain rfl := Option.some.inj ha
      exact ⟨heq.symm, hi⟩
    · exact hs.e2tInstance a i' ha
  e2tAddresses as has := hs.e2tAddresses as (by simpa using has)

/-- The list of addresses may be written where every one of them was announced. -/
theorem putAddresses {as : List String} (has : ∀ a ∈ as, o.Announced a) :
    o.TracedStore (s.putAddresses as) where
  nodeb r nb hr := hs.nodeb r nb (by simpa using hr)
  e2tInstance a i ha := hs.e2tInstance a i (by simpa using ha)
  e2tAddresses as' h := by
    rw [Sdl.e2tAddresses_putAddresses] at h
    exact Option.some.inj h ▸ has

/-- Deleting an instance leaves only what had an origin before. -/
theorem dropInstance (a : String) : o.TracedStore (s.dropInstance a) where
  nodeb r nb hr := hs.nodeb r nb (by simpa using hr)
  e2tInstance b i hb := by
    rw [Sdl.e2tInstance_dropInstance, Function.update_apply] at hb
    split at hb
    · cases hb
    · exact hs.e2tInstance b i hb
  e2tAddresses as has := hs.e2tAddresses as (by simpa using has)

/-- **A traced store answers with traced values.** -/
theorem answered (call : Call) (c : Outcome) : o.Answered call (exec call c s).1 := by
  cases call with
  | getNodeb r =>
      refine ⟨fun nb h => ?_, fun h => ?_⟩
      · obtain ⟨-, h⟩ := storeRead_eq_ok.1 h
        unfold RNibReader.getNodeb at h
        split at h
        · cases h
        · cases hr : s.nodeb r with
          | none => rw [hr] at h; cases h
          | some nb' =>
              rw [hr] at h
              obtain rfl := Except.ok.inj h
              exact hs.nodeb r nb' hr
      · rintro rfl
        have hread : (storeRead (RNibReader.getNodeb "") c s).1 = .error .validation := by
          unfold storeRead
          rw [getNodeb_empty]
          cases c.store <;> rfl
        rw [exec, hread] at h
        cases h
  | getE2TInstance a =>
      intro i h
      obtain ⟨-, h⟩ := storeRead_eq_ok.1 h
      unfold RNibReader.getE2TInstance at h
      split at h
      · cases h
      · cases ha : s.e2tInstance a with
        | none => rw [ha] at h; cases h
        | some i' =>
            rw [ha] at h
            obtain rfl := Except.ok.inj h
            exact hs.e2tInstance a i' ha
  | getE2TInstances as =>
      intro is h
      obtain ⟨-, h⟩ := storeRead_eq_ok.1 h
      obtain rfl := Except.ok.inj h
      intro i hi
      obtain ⟨a, -, ha⟩ := List.mem_filterMap.1 hi
      exact (hs.e2tInstance a i ha).2
  | getE2TAddresses =>
      intro as h
      obtain ⟨-, h⟩ := storeRead_eq_ok.1 h
      unfold RNibReader.getE2TAddresses at h
      cases has : s.e2tAddresses with
      | none => rw [has] at h; cases h
      | some as' =>
          rw [has] at h
          obtain rfl := Except.ok.inj h
          exact hs.e2tAddresses as' has
  | _ => trivial

/-- **An allowed call keeps the store traced**, whether it fails or not. -/
theorem exec {call : Call} (hcall : o.Allowed call) (c : Outcome) :
    o.TracedStore (exec call c s).2 := by
  have hwrite : ∀ {write : Sdl → Except Err Sdl},
      (∀ s', write s = .ok s' → o.TracedStore s') → o.TracedStore (storeWrite write c s).2 := by
    intro write h
    rcases storeWrite_cases write c s with heq | heq
    · rwa [heq]
    · exact h _ heq
  cases call with
  | saveNodeb id nb =>
      refine hwrite fun s' h => ?_
      obtain ⟨-, hnodeb, hinstance, haddresses, -⟩ := saveNodeb_ok h
      exact hs.putNodeb hcall.2 (hcall.1 ▸ hnodeb) hinstance haddresses
  | updateNodebInfo nb =>
      refine hwrite fun s' h => ?_
      obtain ⟨-, rfl⟩ := updateNodebInfo_ok h
      exact hs.putNodeb hcall (Sdl.nodeb_putNodeb s nb) (Sdl.e2tInstance_putNodeb s nb)
        (Sdl.e2tAddresses_putNodeb s nb)
  | saveE2TInstance i =>
      refine hwrite fun s' h => ?_
      obtain ⟨-, rfl⟩ := saveE2TInstance_ok h
      exact hs.putInstance hcall
  | saveE2TAddresses as =>
      refine hwrite fun s' h => ?_
      obtain rfl := Except.ok.inj h
      exact hs.putAddresses hcall
  | removeE2TInstance a =>
      refine hwrite fun s' h => ?_
      obtain ⟨-, rfl⟩ := removeE2TInstance_ok h
      exact hs.dropInstance a
  | getNodeb r => exact (storeRead_snd _ c s).symm ▸ hs
  | getListNodebIds => exact (storeRead_snd _ c s).symm ▸ hs
  | getE2TInstance a => exact (storeRead_snd _ c s).symm ▸ hs
  | getE2TInstances as => exact (storeRead_snd _ c s).symm ▸ hs
  | getE2TAddresses => exact (storeRead_snd _ c s).symm ▸ hs
  | _ => exact hs

end TracedStore

/-! ### Records -/

namespace Traced

/-- A record with an origin has a name: both a setup request and an HTTP request are refused
without one. -/
theorem ranName_ne (hnb : o.Traced nb) : nb.ranName ≠ "" := by
  rcases hnb.ran with ⟨_, _, hne, -⟩ | ⟨hne, -⟩
  · exact hne
  · exact hne

/-- The origin of a record does not speak of its connection status. -/
theorem setStatus (hnb : o.Traced nb) (st : ConnectionStatus) : o.Traced (nb.setStatus st) :=
  ⟨hnb.ran, hnb.association, hnb.identity, hnb.functions⟩

/-- A record may be associated with an address that its RAN is linked with, or with none. -/
theorem setAssociation (hnb : o.Traced nb) (h : a ≠ "" → o.Linked nb.ranName a) :
    o.Traced (nb.setAssociation a) :=
  ⟨hnb.ran, h, hnb.identity, hnb.functions⟩

/-- Taking the association away needs no origin. -/
theorem dissociated (hnb : o.Traced nb) : o.Traced (nb.setAssociation "") :=
  hnb.setAssociation fun h => absurd rfl h

/-- What `associateRan` makes of a record: CONNECTED at the address where the routing manager took
the RAN, and DISCONNECTED otherwise. -/
theorem associated (hnb : o.Traced nb) (h : o.Linked nb.ranName a) (x : Except Err Unit) :
    o.Traced (E2TAssociationManager.associated a nb x) := by
  cases x with
  | error e => exact hnb.setStatus _
  | ok u => exact (hnb.setStatus _).setAssociation fun _ => h

/-- What the shutdown of an instance makes of a record, which loses its association. -/
theorem disassociated (hnb : o.Traced nb) : o.Traced (E2TShutdownManager.disassociated nb) :=
  hnb.dissociated.setStatus _

/-- What a delete-all makes of a record: the status changes, and the association may go. -/
theorem updated (hnb : o.Traced nb) (st : ConnectionStatus) (reset : Bool) :
    o.Traced (DeleteAllRequestHandler.updated st reset nb) := by
  cases reset with
  | true => exact (hnb.setStatus st).dissociated
  | false => exact hnb.setStatus st

end Traced

/-- Names that may be associated with an instance join its list. -/
theorem TracedInstance.append {rs : List String} (hi : o.TracedInstance i)
    (hrs : ∀ r ∈ rs, o.Linked r i.address) :
    o.TracedInstance { i with associatedRanList := i.associatedRanList ++ rs } where
  announced := hi.announced
  linked r hr := (List.mem_append.1 hr).elim (hi.linked r) (hrs r)

/-- Names leave the list of an instance. -/
theorem TracedInstance.sublist {rs : List String} (hi : o.TracedInstance i)
    (hrs : ∀ r ∈ rs, r ∈ i.associatedRanList) :
    o.TracedInstance { i with associatedRanList := rs } :=
  ⟨hi.announced, fun r hr => hi.linked r (hrs r hr)⟩

/-! ### The calls -/

variable {Q : α → Prop}

/-- Reading a record gives one with an origin, under the name that was asked for; it is missing
only where there was a name to ask for. -/
theorem keeps_getNodeb (r : String) : o.Keeps (RNibDataService.getNodeb r)
    fun x => (∀ nb, x = .ok nb → nb.ranName = r ∧ o.Traced nb) ∧
      (x = .error .resourceNotFound → r ≠ "") :=
  ⟨trivial, fun _ h => h⟩

/-- Reading an instance gives one with an origin, under the address that was asked for. -/
theorem keeps_getE2TInstance (a : String) : o.Keeps (RNibDataService.getE2TInstance a)
    fun x => ∀ i, x = .ok i → i.address = a ∧ o.TracedInstance i :=
  ⟨trivial, fun _ h => h⟩

/-- Reading several instances gives only such with an origin. -/
theorem keeps_getE2TInstances (as : List String) : o.Keeps (RNibDataService.getE2TInstances as)
    fun x => ∀ is, x = .ok is → ∀ i ∈ is, o.TracedInstance i :=
  ⟨trivial, fun _ h => h⟩

/-- The addresses that are read were all announced. -/
theorem keeps_getE2TAddresses : o.Keeps RNibDataService.getE2TAddresses
    fun x => ∀ as, x = .ok as → ∀ a ∈ as, o.Announced a :=
  ⟨trivial, fun _ h => h⟩

/-- Saving a new record with an origin, under the name that it has itself. -/
theorem keeps_saveNodeb {id : NbIdentity} (hid : id.inventoryName = nb.ranName)
    (hnb : o.Traced nb) : o.Keeps (RNibDataService.saveNodeb id nb) fun _ => True :=
  ⟨⟨hid, hnb⟩, fun _ _ => trivial⟩

/-- Writing a record with an origin back. -/
theorem keeps_updateNodebInfo (hnb : o.Traced nb) :
    o.Keeps (RNibDataService.updateNodebInfo nb) fun _ => True :=
  ⟨hnb, fun _ _ => trivial⟩

/-- Writing an instance with an origin. -/
theorem keeps_saveE2TInstance (hi : o.TracedInstance i) :
    o.Keeps (RNibDataService.saveE2TInstance i) fun _ => True :=
  ⟨hi, fun _ _ => trivial⟩

/-- Writing a list of addresses that were all announced. -/
theorem keeps_saveE2TAddresses {as : List String} (has : ∀ a ∈ as, o.Announced a) :
    o.Keeps (RNibDataService.saveE2TAddresses as) fun _ => True :=
  ⟨has, fun _ _ => trivial⟩

/-- A call that reads no record and writes none. -/
theorem keeps_call {c : Call} (hc : o.Allowed c) : o.Keeps (call c) fun _ => True :=
  ⟨hc, fun _ _ => trivial⟩

/-- A program that ends with an error. -/
theorem keeps_error {β : Type} (e : Err) (P : β → Prop) :
    o.Keeps (pure (.error e) : Prog (Except Err β)) fun x => ∀ b, x = .ok b → P b :=
  fun _ hb => nomatch hb

/-- An operation that only returns a value changes no store, whatever is known of the value. -/
theorem keeps_ok {β : Type} {b : β} {P : β → Prop} (hb : P b) :
    o.Keeps (pure (.ok b) : Prog (Except Err β)) fun x => ∀ b, x = .ok b → P b :=
  fun _ heq => Except.ok.inj heq ▸ hb

/-! ### The instances -/

/-- The mutex of the instances manager changes nothing in the store. -/
theorem keeps_withMutex {m : MuxMethod} {body : Prog α} (h : o.Keeps body Q) :
    o.Keeps (withMutex m body) Q :=
  (keeps_call (c := .lock m) trivial).bind fun _ _ => h.bind fun _ hx =>
    (keeps_call (c := .unlock) trivial).bind fun _ _ => hx

namespace E2TInstancesManager

/-- The manager's list of addresses: one that is missing counts as empty, and the others were
announced. -/
theorem keeps_getE2TAddresses : o.Keeps E2TInstancesManager.getE2TAddresses
    fun x => ∀ as, x = .ok as → ∀ a ∈ as, o.Announced a := by
  refine Origins.keeps_getE2TAddresses.bind fun x hx => ?_
  split
  · exact hx
  · exact keeps_ok (List.forall_mem_nil _)
  · exact keeps_error _ _

/-- The manager's list of instances: those of its addresses, each with an origin. -/
theorem keeps_getE2TInstances : o.Keeps E2TInstancesManager.getE2TInstances
    fun x => ∀ is, x = .ok is → ∀ i ∈ is, o.TracedInstance i := by
  refine keeps_getE2TAddresses.bind fun x _ => ?_
  split
  · exact keeps_error _ _
  · exact keeps_ok (List.forall_mem_nil _)
  · refine (Origins.keeps_getE2TInstances _).bind fun x hx => ?_
    split
    · exact keeps_error _ _
    · exact hx

/-- The same list, as the keep-alive worker asks for it. -/
theorem keeps_getE2TInstancesNoLogs : o.Keeps E2TInstancesManager.getE2TInstancesNoLogs
    fun x => ∀ is, x = .ok is → ∀ i ∈ is, o.TracedInstance i := by
  refine Origins.keeps_getE2TAddresses.bind fun x _ => ?_
  split
  · exact keeps_ok (List.forall_mem_nil _)
  · exact keeps_error _ _
  · exact keeps_ok (List.forall_mem_nil _)
  · exact Origins.keeps_getE2TInstances _

/-- The selected address is that of one of the instances. -/
theorem keeps_selectE2TInstance :
    o.Keeps E2TInstancesManager.selectE2TInstance fun x => ∀ a, x = .ok a → o.Announced a := by
  refine keeps_getE2TInstances.bind fun x hx => ?_
  split
  · exact keeps_error _ _
  · rename_i is
    split
    · exact keeps_error _ _
    · split
      · exact keeps_error _ _
      · rename_i i hmin
        exact keeps_ok (hx is rfl i (E2TInstancesManager.mem_of_findActive hmin)).announced

/-- Registering an instance: its address has to be announced, the pod name may be any. -/
theorem keeps_addE2TInstance (ha : o.Announced a) (podName : String) :
    o.Keeps (E2TInstancesManager.addE2TInstance a podName) fun _ => True := by
  refine keeps_withMutex ((keeps_call (c := .now) trivial).bind fun now _ => ?_)
  have hnew : o.TracedInstance (newE2TInstance a podName now) :=
    ⟨ha, fun _ hr => absurd hr List.not_mem_nil⟩
  refine (keeps_saveE2TInstance hnew).bind fun x _ => ?_
  split
  · trivial
  · refine Origins.keeps_getE2TAddresses.bind fun x hx => ?_
    split
    · rename_i as
      refine keeps_saveE2TAddresses fun b hb => ?_
      rcases List.mem_append.1 hb with hb | hb
      · exact hx as rfl b hb
      · exact (List.mem_singleton.1 hb) ▸ ha
    · refine keeps_saveE2TAddresses fun b hb => ?_
      exact (List.mem_singleton.1 hb) ▸ ha
    · trivial

/-- Taking a RAN from the list of an instance leaves only RANs that were linked with it. -/
theorem keeps_removeRanFromInstance (r a : String) :
    o.Keeps (E2TInstancesManager.removeRanFromInstance r a) fun _ => True := by
  refine keeps_withMutex ((keeps_getE2TInstance a).bind fun x hx => ?_)
  split
  · trivial
  · rename_i i
    refine (keeps_saveE2TInstance ((hx i rfl).2.sublist fun r hr =>
      (List.mem_filter.1 hr).1)).bind fun x _ => ?_
    split <;> trivial

/-- Removing an instance and its address. -/
theorem keeps_removeE2TInstance (a : String) :
    o.Keeps (E2TInstancesManager.removeE2TInstance a) fun _ => True := by
  refine keeps_withMutex ((keeps_call (c := .removeE2TInstance a) trivial).bind fun x _ => ?_)
  split
  · trivial
  · refine Origins.keeps_getE2TAddresses.bind fun x hx => ?_
    split
    · trivial
    · rename_i as
      refine (keeps_saveE2TAddresses fun b hb =>
        hx as rfl b (List.mem_filter.1 hb).1).bind fun x _ => ?_
      split <;> trivial

/-- Putting RANs on the list of an instance, each of which has to be linked with its address. -/
theorem keeps_addRansToInstance {rs : List String} (hrs : ∀ r ∈ rs, o.Linked r a) :
    o.Keeps (E2TInstancesManager.addRansToInstance a rs) fun _ => True := by
  refine keeps_withMutex ((keeps_getE2TInstance a).bind fun x hx => ?_)
  split
  · trivial
  · rename_i i
    obtain ⟨rfl, hi⟩ := hx i rfl
    refine (keeps_saveE2TInstance (hi.append hrs)).bind fun x _ => ?_
    split <;> trivial

/-- A keep-alive answer writes the instance back with another time stamp. -/
theorem keeps_resetKeepAliveTimestamp (a : String) :
    o.Keeps (E2TInstancesManager.resetKeepAliveTimestamp a) fun _ => True := by
  refine keeps_withMutex ((keeps_getE2TInstance a).bind fun x hx => ?_)
  split
  · trivial
  · rename_i i
    obtain ⟨-, hi⟩ := hx i rfl
    split
    · trivial
    · exact (keeps_call (c := .now) trivial).bind fun now _ =>
        keeps_saveE2TInstance ⟨hi.announced, hi.linked⟩

/-- Emptying the lists of some instances, one write after the other, whichever of them fail. -/
theorem keeps_clearRans {is : List E2TInstance} (his : ∀ i ∈ is, o.TracedInstance i) :
    o.Keeps (E2TInstancesManager.clearRans is) fun _ => True := by
  induction is with
  | nil => trivial
  | cons i is ih =>
      have hi := his i List.mem_cons_self
      refine (keeps_saveE2TInstance (hi.sublist fun r hr => absurd hr List.not_mem_nil)).bind
        fun x _ => ih fun j hj => his j (List.mem_cons_of_mem i hj)

/-- Emptying the lists of all instances that are stored. -/
theorem keeps_clearRansOfAllE2TInstances :
    o.Keeps E2TInstancesManager.clearRansOfAllE2TInstances fun _ => True := by
  refine keeps_withMutex (keeps_getE2TInstances.bind fun x hx => ?_)
  split
  · trivial
  · rename_i is
    exact (keeps_clearRans (hx is rfl)).bind fun _ _ => trivial

end E2TInstancesManager

/-! ### The other managers -/

namespace E2TAssociationManager

/-- The record that `AssociateRan` hands back is traced too. -/
theorem keeps_associateRan (hnb : o.Traced nb) (h : o.Linked nb.ranName a) :
    o.Keeps (E2TAssociationManager.associateRan a nb)
      fun x => o.Traced x.1 ∧ x.1.ranName = nb.ranName := by
  have hassociated : ∀ x, o.Traced (E2TAssociationManager.associated a nb x) ∧
      (E2TAssociationManager.associated a nb x).ranName = nb.ranName := fun x =>
    ⟨hnb.associated h x, E2TAssociationManager.associated_ranName a nb x⟩
  have hupdate : o.Keeps (E2TAssociationManager.associateRanAndUpdateNodeb a nb)
      fun x => o.Traced x.1 ∧ x.1.ranName = nb.ranName := by
    refine (keeps_call (c := .rmAssociateRanToE2TInstance a nb.ranName) trivial).bind
      fun rmErr _ => ?_
    refine (keeps_updateNodebInfo (hnb.associated h rmErr)).bind fun rNibErr _ => ?_
    split
    · rename_i e
      exact hassociated (.error e)
    · exact hassociated (.ok ())
    · exact hassociated (.ok ())
  refine hupdate.bind fun x hx => ?_
  split
  · exact hx
  · rename_i nb'
    refine (E2TInstancesManager.keeps_addRansToInstance fun r hr => ?_).bind fun x _ => ?_
    · rw [List.mem_singleton.1 hr, hx.2]
      exact h
    · split <;> exact hx

/-- Dissociating a RAN: its record loses the association, and then the instance loses it from its
list. -/
theorem keeps_dissociateRan (a r : String) :
    o.Keeps (E2TAssociationManager.dissociateRan a r) fun _ => True := by
  refine (keeps_getNodeb r).bind fun x hx => ?_
  split
  · trivial
  · rename_i nb
    refine (keeps_updateNodebInfo (hx.1 nb rfl).2.dissociated).bind fun x _ => ?_
    split
    · trivial
    · refine (E2TInstancesManager.keeps_removeRanFromInstance r a).bind fun x _ => ?_
      split
      · trivial
      · exact (keeps_call (c := .rmDissociateRanE2TInstance a r) trivial).bind fun _ _ => trivial

/-- Removing an instance from the routing manager and from the store. -/
theorem keeps_removeE2tInstance (i : E2TInstance) :
    o.Keeps (E2TAssociationManager.removeE2tInstance i) fun _ => True :=
  (keeps_call (c := .rmDeleteE2TInstance i.address i.associatedRanList) trivial).bind
    fun _ _ => E2TInstancesManager.keeps_removeE2TInstance i.address

end E2TAssociationManager

/-- The loop over the RANs of an instance that is shut down, each of which loses its association. -/
theorem keeps_clearNodebsAssociation (rs : List String) :
    o.Keeps (E2TShutdownManager.clearNodebsAssociation rs) fun _ => True := by
  induction rs with
  | nil => trivial
  | cons r rs ih =>
      refine (keeps_getNodeb r).bind fun x hx => ?_
      split
      · trivial
      · exact ih
      · rename_i nb
        refine (keeps_updateNodebInfo (hx.1 nb rfl).2.disassociated).bind fun x _ => ?_
        split
        · trivial
        · exact ih

/-- Shutting down an instance: it is marked, its RANs are cleared, and it is removed. -/
theorem keeps_shutdown (config : Configuration) (hi : o.TracedInstance i) :
    o.Keeps (E2TShutdownManager.shutdown config i) fun _ => True := by
  refine (keeps_call (c := .now) trivial).bind fun now _ => ?_
  split
  · trivial
  · refine (keeps_call (c := .now) trivial).bind fun now' _ => ?_
    have hmarked : o.TracedInstance (E2TShutdownManager.marked i now') :=
      ⟨hi.announced, hi.linked⟩
    refine (keeps_saveE2TInstance hmarked).bind fun x _ => ?_
    split
    · trivial
    · refine (keeps_clearNodebsAssociation _).bind fun x _ => ?_
      split
      · trivial
      · exact E2TAssociationManager.keeps_removeE2tInstance _

namespace E2TKeepAliveWorker

/-- The keep-alive worker shuts an instance down where its time stamp is too old, and leaves it
otherwise. -/
theorem keeps_shutdownIfExpired (config : Configuration) (hi : o.TracedInstance i) :
    o.Keeps (E2TKeepAliveWorker.shutdownIfExpired config i) fun _ => True := by
  refine (keeps_call (c := .now) trivial).bind fun now _ => ?_
  split
  · exact (keeps_shutdown config hi).bind fun _ _ => trivial
  · trivial

/-- One round of the worker over the instances that it has read. -/
theorem keeps_shutdownExpired (config : Configuration) {is : List E2TInstance}
    (his : ∀ i ∈ is, o.TracedInstance i) :
    o.Keeps (E2TKeepAliveWorker.shutdownExpired config is) fun _ => True := by
  induction is with
  | nil => trivial
  | cons i is ih =>
      exact (keeps_shutdownIfExpired config (his i List.mem_cons_self)).bind
        fun _ _ => ih fun j hj => his j (List.mem_cons_of_mem i hj)

/-- The worker, for however many of its rounds. -/
theorem keeps_execute (config : Configuration) (ticks : Nat) :
    o.Keeps (E2TKeepAliveWorker.execute config ticks) fun _ => True := by
  induction ticks with
  | zero => trivial
  | succ ticks ih =>
      have hround : o.Keeps (E2TKeepAliveWorker.e2TKeepAliveExpired config) fun _ => True := by
        refine E2TInstancesManager.keeps_getE2TInstancesNoLogs.bind fun x hx => ?_
        split
        · trivial
        · rename_i is
          exact keeps_shutdownExpired config (hx is rfl)
      exact hround.bind fun _ _ => ih

/-- The shutdown of an instance that is read from the store first. -/
theorem keeps_shutdownStored (config : Configuration) (a : String) :
    o.Keeps (E2TKeepAliveWorker.shutdownStored config a) fun _ => True := by
  refine (keeps_getE2TInstance a).bind fun x hx => ?_
  split
  · trivial
  · rename_i i
    exact keeps_shutdownIfExpired config (hx i rfl).2

end E2TKeepAliveWorker

/-- A lost connection: the status of the record changes, and a RAN that was not being shut down is
dissociated. -/
theorem keeps_disconnectRan (r : String) :
    o.Keeps (RanDisconnectionManager.disconnectRan r) fun _ => True := by
  refine (keeps_getNodeb r).bind fun x hx => ?_
  split
  · trivial
  · rename_i nb
    have hnb := (hx.1 nb rfl).2
    split
    · trivial
    · exact keeps_updateNodebInfo (hnb.setStatus _)
    · refine (keeps_updateNodebInfo (hnb.setStatus _)).bind fun x _ => ?_
      split
      · trivial
      · exact E2TAssociationManager.keeps_dissociateRan _ _

/-- Sending a setup to a RAN writes its status, before the message and again where RMR does not
take it. -/
theorem keeps_executeSetup (hnb : o.Traced nb) (st : ConnectionStatus) :
    o.Keeps (RanSetupManager.executeSetup nb st) fun _ => True := by
  refine (keeps_updateNodebInfo (hnb.setStatus st)).bind fun x _ => ?_
  split
  · trivial
  · split
    · trivial
    · refine (keeps_call (c := .send _) trivial).bind fun x _ => ?_
      split
      · trivial
      · refine (keeps_updateNodebInfo (hnb.setStatus _)).bind fun x _ => ?_
        split <;> trivial

end Origins

end NearRtRic.E2Manager
