/-
# `DeleteAllRequestHandler`

The red button, `handlers/httpmsghandlers/delete_all_request_handler.go`: all
RANs are swept to SHUTTING_DOWN, the instances lose their RANs, the terminations
are told to drop their connections, and after a sleep the RANs that are still
shutting down are swept to SHUT_DOWN.  With no instance there is one sweep only,
straight to SHUT_DOWN.

Other handlers run between these steps.  `Phase` cuts `handle` where they can:
`handle_eq_finish` says that running the phases one after the other is `handle`.

The second half gives the sweeps their specification: a sweep is one pure pass
over the listed RANs (`swept`), and `nodeb_swept` says what it leaves of each.
-/

import NearRtRic.E2Manager.Handlers

namespace NearRtRic.E2Manager

open Effect

namespace DeleteAllRequestHandler

/-- `PartialSuccessDueToRmErrorMessage`. -/
def partialSuccessDueToRmErrorMessage : String :=
  "Operation succeeded except for routing manager outbound call"

/-- What `Handle` returns: an error, nothing, or the partial-success message. -/
abbrev Response := Except Err (Option String)

/-- The response when the routing manager answered `dissocErr`. -/
def response : Except Err Unit → Response
  | .ok () => .ok none
  | .error _ => .ok (some partialSuccessDueToRmErrorMessage)

/-- The record that `updateNodebInfo` writes. -/
def updated (connectionStatus : ConnectionStatus) (resetAssociatedE2TAddress : Bool)
    (node : NodebInfo) : NodebInfo :=
  let node := node.setStatus connectionStatus
  if resetAssociatedE2TAddress then node.setAssociation "" else node

/-- The record of a RAN keeps its name. -/
@[simp] theorem updated_ranName (st : ConnectionStatus) (reset : Bool) (node : NodebInfo) :
    (updated st reset node).ranName = node.ranName := by
  cases reset <;> simp [updated]

/-- It has the status that the phase sets. -/
@[simp] theorem updated_status (st : ConnectionStatus) (reset : Bool) (node : NodebInfo) :
    (updated st reset node).connectionStatus = st := by
  cases reset <;> simp [updated]

/-- The same phase again changes nothing more. -/
@[simp] theorem updated_updated (st : ConnectionStatus) (reset : Bool) (node : NodebInfo) :
    updated st reset (updated st reset node) = updated st reset node := by
  cases reset <;> rfl

/-- `updateNodebInfo`. -/
def updateNodebInfo (node : NodebInfo) (connectionStatus : ConnectionStatus)
    (resetAssociatedE2TAddress : Bool) : Prog (Except Err Unit) := do
  match ← RNibDataService.updateNodebInfo
      (updated connectionStatus resetAssociatedE2TAddress node) with
  | .error _ => return .error .rnibDb
  | .ok () => return .ok ()

/-- The tail of all three callbacks: an updated record, or the error. -/
def updateAndReport (node : NodebInfo) (connectionStatus : ConnectionStatus)
    (resetAssociatedE2TAddress : Bool) : Prog (Except Err Bool) := do
  match ← updateNodebInfo node connectionStatus resetAssociatedE2TAddress with
  | .error err => return .error err
  | .ok () => return .ok true

/-- `updateNodebInfoForceShutdown`. -/
def updateNodebInfoForceShutdown (node : NodebInfo) : Prog (Except Err Bool) :=
  updateAndReport node .SHUT_DOWN true

/-- `updateNodebInfoShuttingDown`. -/
def updateNodebInfoShuttingDown (node : NodebInfo) : Prog (Except Err Bool) :=
  if node.connectionStatus = .SHUT_DOWN then return .ok false
  else updateAndReport node .SHUTTING_DOWN true

/-- `updateNodebInfoShutDown`. -/
def updateNodebInfoShutDown (node : NodebInfo) : Prog (Except Err Bool) :=
  if node.connectionStatus = .SHUT_DOWN then return .ok false
  else if node.connectionStatus ≠ .SHUTTING_DOWN then return .ok false
  else updateAndReport node .SHUT_DOWN false

/-- The loop of `updateNodebs`: a RAN that is listed but not stored is skipped. -/
def updateListed (updateCb : NodebInfo → Prog (Except Err Bool)) :
    List NbIdentity → Bool → Prog (Except Err Bool)
  | [], updatedAtLeastOnce => return .ok updatedAtLeastOnce
  | nbIdentity :: nbIdentityList, updatedAtLeastOnce => do
      match ← RNibDataService.getNodeb nbIdentity.inventoryName with
      | .error .resourceNotFound => updateListed updateCb nbIdentityList updatedAtLeastOnce
      | .error _ => return .error .rnibDb
      | .ok node =>
          match ← updateCb node with
          | .error err => return .error err
          | .ok wasUpdated =>
              updateListed updateCb nbIdentityList (updatedAtLeastOnce || wasUpdated)

/-- `updateNodebs`. -/
def updateNodebs (updateCb : NodebInfo → Prog (Except Err Bool)) : Prog (Except Err Bool) := do
  match ← RNibDataService.getListNodebIds with
  | .error _ => return .error .rnibDb
  | .ok nbIdentityList => updateListed updateCb nbIdentityList false

/-- `Handle`. -/
def handle (config : Configuration) : Prog Response := do
  match ← E2TInstancesManager.getE2TAddresses with
  | .error err => return .error err
  | .ok e2tAddresses =>
      if e2tAddresses.isEmpty then
        match ← updateNodebs updateNodebInfoForceShutdown with
        | .error err => return .error err
        | .ok _ => return .ok none
      else
        let dissocErr ← RoutingManagerClient.dissociateAllRans e2tAddresses
        match ← updateNodebs updateNodebInfoShuttingDown with
        | .error err => return .error err
        | .ok updatedAtLeastOnce =>
            match ← E2TInstancesManager.clearRansOfAllE2TInstances with
            | .error err => return .error err
            | .ok () =>
                match ← RmrSender.send { msgType := .RIC_SCTP_CLEAR_ALL } with
                | .error _ => return .error .rmr
                | .ok () =>
                    if updatedAtLeastOnce then
                      Time.sleep config.bigRedButtonTimeoutSec
                      match ← updateNodebs updateNodebInfoShutDown with
                      | .error err => return .error err
                      | .ok _ => return response dissocErr
                    else return response dissocErr

/-- Where `Handle` stands between two of its steps, with the local variables it
still needs. -/
inductive Phase
  | getE2TAddresses
  | forceShutdown
  | dissociateAllRans (e2tAddresses : List String)
  | shuttingDown (dissocErr : Except Err Unit)
  | clearRans (dissocErr : Except Err Unit) (updatedAtLeastOnce : Bool)
  | sctpClearAll (dissocErr : Except Err Unit) (updatedAtLeastOnce : Bool)
  | timer (dissocErr : Except Err Unit)
  | shutDown (dissocErr : Except Err Unit)
  | returned (response : Response)
  deriving DecidableEq

/-- One phase of `Handle`, up to the point where the next one starts. -/
def Phase.run (config : Configuration) : Phase → Prog Phase
  | getE2TAddresses => do
      match ← E2TInstancesManager.getE2TAddresses with
      | .error err => return returned (.error err)
      | .ok e2tAddresses =>
          if e2tAddresses.isEmpty then return forceShutdown
          else return dissociateAllRans e2tAddresses
  | forceShutdown => do
      match ← updateNodebs updateNodebInfoForceShutdown with
      | .error err => return returned (.error err)
      | .ok _ => return returned (.ok none)
  | dissociateAllRans e2tAddresses =>
      return shuttingDown (← RoutingManagerClient.dissociateAllRans e2tAddresses)
  | shuttingDown dissocErr => do
      match ← updateNodebs updateNodebInfoShuttingDown with
      | .error err => return returned (.error err)
      | .ok updatedAtLeastOnce => return clearRans dissocErr updatedAtLeastOnce
  | clearRans dissocErr updatedAtLeastOnce => do
      match ← E2TInstancesManager.clearRansOfAllE2TInstances with
      | .error err => return returned (.error err)
      | .ok () => return sctpClearAll dissocErr updatedAtLeastOnce
  | sctpClearAll dissocErr updatedAtLeastOnce => do
      match ← RmrSender.send { msgType := .RIC_SCTP_CLEAR_ALL } with
      | .error _ => return returned (.error .rmr)
      | .ok () =>
          if updatedAtLeastOnce then return timer dissocErr
          else return returned (response dissocErr)
  | timer dissocErr => do
      Time.sleep config.bigRedButtonTimeoutSec
      return shutDown dissocErr
  | shutDown dissocErr => do
      match ← updateNodebs updateNodebInfoShutDown with
      | .error err => return returned (.error err)
      | .ok _ => return returned (response dissocErr)
  | returned response => return returned response

/-- Run phase after phase until `Handle` returns. -/
def Phase.finish (config : Configuration) : Nat → Phase → Prog Response
  | _, returned response => return response
  | 0, _ => .panic
  | n + 1, phase => do finish config n (← phase.run config)

/-- **The phases are the handler:** run in sequence they are `Handle`. -/
theorem handle_eq_finish (config : Configuration) :
    handle config = Phase.finish config 7 .getE2TAddresses := by
  simp only [handle, Phase.finish, Phase.run, bind_assoc]
  refine bind_congr fun addresses => ?_
  rcases addresses with err | as
  · rfl
  · simp only
    split
    · simp only [Program.pure_eq_ret, Program.ret_bind, Phase.finish, Phase.run, bind_assoc]
      refine bind_congr fun u => ?_
      rcases u with err | u <;> rfl
    · simp only [Program.pure_eq_ret, Program.ret_bind, Phase.finish, Phase.run, bind_assoc]
      refine bind_congr fun dissocErr => ?_
      refine bind_congr fun u => ?_
      rcases u with err | u
      · rfl
      simp only [Program.ret_bind, Phase.finish, Phase.run, bind_assoc]
      refine bind_congr fun c => ?_
      rcases c with err | ⟨⟩
      · rfl
      simp only [Program.pure_eq_ret, Program.ret_bind, Phase.finish, Phase.run, bind_assoc]
      refine bind_congr fun m => ?_
      rcases m with err | ⟨⟩
      · rfl
      cases u
      · rfl
      simp only [if_true, Program.pure_eq_ret, Program.ret_bind, Phase.finish, Phase.run,
        bind_assoc]
      refine bind_congr fun _ => bind_congr fun v => ?_
      rcases v with err | v <;> rfl

/-! ### The sweeps -/

/-- What a callback writes to a record; nothing to a RAN it leaves alone. -/
abbrev Sweep := NodebInfo → Option NodebInfo

/-- The sweep of `updateNodebInfoForceShutdown`. -/
def forceShutdown : Sweep := fun node => some (updated .SHUT_DOWN true node)

/-- The sweep of `updateNodebInfoShuttingDown`. -/
def shuttingDown : Sweep := fun node =>
  if node.connectionStatus = .SHUT_DOWN then none else some (updated .SHUTTING_DOWN true node)

/-- The sweep of `updateNodebInfoShutDown`. -/
def shutDown : Sweep := fun node =>
  if node.connectionStatus = .SHUTTING_DOWN then some (updated .SHUT_DOWN false node) else none

/-- The record after a sweep. -/
def Sweep.apply (f : Sweep) (node : NodebInfo) : NodebInfo := (f node).getD node

/-- The store after a sweep over a list of names, and whether it wrote. -/
def swept (f : Sweep) : List String → Sdl → Bool → Sdl × Bool
  | [], s, wrote => (s, wrote)
  | r :: rs, s, wrote =>
      match (s.nodeb r).bind f with
      | none => swept f rs s wrote
      | some node => swept f rs (s.putNodeb node) true

/-- A sweep that keeps the name of a RAN, and leaves what it wrote as it is. -/
structure Sweep.Lawful (f : Sweep) : Prop where
  ranName : ∀ node, (f.apply node).ranName = node.ranName
  idem : ∀ node, f.apply (f.apply node) = f.apply node

/-- The sweep of a delete-all without terminations keeps names, and made twice it does no more
than once. -/
theorem forceShutdown_lawful : forceShutdown.Lawful where
  ranName node := by simp [Sweep.apply, forceShutdown]
  idem node := by simp [Sweep.apply, forceShutdown]

/-- The same of the first sweep of a delete-all with terminations. -/
theorem shuttingDown_lawful : shuttingDown.Lawful where
  ranName node := by
    unfold Sweep.apply shuttingDown
    split <;> simp
  idem node := by
    unfold Sweep.apply shuttingDown
    by_cases h : node.connectionStatus = .SHUT_DOWN <;> simp [h]

/-- The same of its second sweep, behind the wait. -/
theorem shutDown_lawful : shutDown.Lawful where
  ranName node := by
    unfold Sweep.apply shutDown
    split <;> simp
  idem node := by
    unfold Sweep.apply shutDown
    by_cases h : node.connectionStatus = .SHUTTING_DOWN <;> simp [h]

section Swept

variable {f : Sweep} {s : Sdl}

/-- A sweep over the records leaves the instances. -/
@[simp] theorem e2tInstance_swept (rs : List String) (wrote : Bool) :
    (swept f rs s wrote).1.e2tInstance = s.e2tInstance := by
  induction rs generalizing s wrote with
  | nil => rfl
  | cons r rs ih =>
      unfold swept
      split <;> simp [ih]

/-- It leaves the list of addresses. -/
@[simp] theorem e2tAddresses_swept (rs : List String) (wrote : Bool) :
    (swept f rs s wrote).1.e2tAddresses = s.e2tAddresses := by
  induction rs generalizing s wrote with
  | nil => rfl
  | cons r rs ih =>
      unfold swept
      split <;> simp [ih]

/-- It leaves the lists of RANs, so that the next sweep goes over the same names. -/
@[simp] theorem members_swept (rs : List String) (wrote : Bool) :
    (swept f rs s wrote).1.members = s.members := by
  induction rs generalizing s wrote with
  | nil => rfl
  | cons r rs ih =>
      unfold swept
      split <;> simp [ih]

/-- **A sweep passes once over every name:** the RANs of the list are as the
sweep writes them, and the others are as they were. -/
theorem nodeb_swept (hf : f.Lawful) (hs : s.WellKeyed) (rs : List String) (wrote : Bool)
    (r : String) : (swept f rs s wrote).1.nodeb r =
      if r ∈ rs then (s.nodeb r).map f.apply else s.nodeb r := by
  induction rs generalizing s wrote with
  | nil => rfl
  | cons r' rs ih =>
      unfold swept
      split
      · rename_i hnone
        rw [ih hs]
        by_cases hr : r = r'
        · subst hr
          have hsame : (s.nodeb r).map f.apply = s.nodeb r := by
            cases hn : s.nodeb r with
            | none => rfl
            | some node => simp_all [Sweep.apply]
          simp [hsame]
        · simp [hr]
      · rename_i node hsome
        obtain ⟨node₀, hn₀, hf₀⟩ := Option.bind_eq_some_iff.1 hsome
        have happ : f.apply node₀ = node := by simp [Sweep.apply, hf₀]
        have hname : node.ranName = r' := by
          rw [← happ, hf.ranName]
          exact (hs.nodeb hn₀).1
        have hne : node.ranName ≠ "" := hname ▸ (hs.nodeb hn₀).2
        rw [ih (hs.putNodeb hne), Sdl.nodeb_putNodeb, hname]
        by_cases hr : r = r'
        · subst hr
          have hidem : f.apply node = node := by rw [← happ, hf.idem]
          simp [hn₀, happ, hidem]
        · simp [hr]

/-- Every record is still under its own name after it. -/
theorem wellKeyed_swept (hf : f.Lawful) (hs : s.WellKeyed) (rs : List String) (wrote : Bool) :
    (swept f rs s wrote).1.WellKeyed := by
  induction rs generalizing s wrote with
  | nil => exact hs
  | cons r rs ih =>
      unfold swept
      split
      · exact ih hs wrote
      · rename_i node hsome
        obtain ⟨node₀, hn₀, hf₀⟩ := Option.bind_eq_some_iff.1 hsome
        have happ : f.apply node₀ = node := by simp [Sweep.apply, hf₀]
        refine ih (hs.putNodeb ?_) true
        rw [← happ, hf.ranName, (hs.nodeb hn₀).1]
        exact (hs.nodeb hn₀).2

/-- A sweep that wrote nothing found nothing to write. -/
theorem swept_not_wrote {rs : List String} {wrote : Bool} (h : (swept f rs s wrote).2 = false) :
    wrote = false ∧ ∀ r ∈ rs, (s.nodeb r).bind f = none := by
  induction rs generalizing s wrote with
  | nil => exact ⟨h, by simp⟩
  | cons r rs ih =>
      unfold swept at h
      split at h
      · rename_i hnone
        obtain ⟨hw, hrs⟩ := ih h
        refine ⟨hw, fun r' hr' => ?_⟩
        rcases List.mem_cons.1 hr' with rfl | hr'
        exacts [hnone, hrs r' hr']
      · exact absurd (ih h).1 (by simp)

end Swept

/-- The names the inventory lists, in the order `GetListNodebIds` returns them. -/
def listedNames (s : Sdl) : List String :=
  (s.members .ENB ++ s.members .GNB ++ s.members .UNKNOWN).map (·.inventoryName)

/-- The names that a sweep goes over are those of the RANs that are listed. -/
theorem mem_listedNames (s : Sdl) (r : String) : r ∈ listedNames s ↔ s.Listed r :=
  mem_getListNodebIds rfl r

section Spec

variable {b : Bool} {P : Sdl → Prop} {s : Sdl}

/-- The callback `cb` writes what the sweep `f` says, and reports it. -/
def Performs (b : Bool) (P : Sdl → Prop) (cb : NodebInfo → Prog (Except Err Bool))
    (f : Sweep) : Prop :=
  ∀ (node : NodebInfo) (s : Sdl) (Q : Except Err Bool → Sdl → Prop), node.ranName ≠ "" →
    ((cb node).Always exec (Admits b) P Q s ↔
      Q (.ok (f node).isSome) ((f node).elim s s.putNodeb))

/-- A record with a name is written, and the write is reported. -/
theorem always_updateAndReport {node : NodebInfo} (h : node.ranName ≠ "") (st : ConnectionStatus)
    (reset : Bool) (Q : Except Err Bool → Sdl → Prop) :
    (updateAndReport node st reset).Always exec (Admits b) P Q s ↔
      Q (.ok true) (s.putNodeb (updated st reset node)) := by
  have h' : (updated st reset node).ranName ≠ "" := by simpa using h
  simp [updateAndReport, updateNodebInfo, RNibDataService.always_updateNodebInfo h']

/-- `updateNodebInfoForceShutdown` makes its sweep of every record that has a name. -/
theorem performs_forceShutdown : Performs b P updateNodebInfoForceShutdown forceShutdown :=
  fun _ _ Q h => always_updateAndReport h _ _ Q

/-- `updateNodebInfoShuttingDown` makes its own, which leaves a RAN alone that is shut down. -/
theorem performs_shuttingDown : Performs b P updateNodebInfoShuttingDown shuttingDown := by
  intro node s Q h
  by_cases hst : node.connectionStatus = .SHUT_DOWN
  · simp [updateNodebInfoShuttingDown, shuttingDown, hst]
  · simp [updateNodebInfoShuttingDown, shuttingDown, hst, always_updateAndReport h]

/-- `updateNodebInfoShutDown` makes its own, which leaves all alone that are not shutting down. -/
theorem performs_shutDown : Performs b P updateNodebInfoShutDown shutDown := by
  intro node s Q h
  by_cases hst : node.connectionStatus = .SHUTTING_DOWN
  · simp [updateNodebInfoShutDown, shutDown, hst, always_updateAndReport h]
  · by_cases hsd : node.connectionStatus = .SHUT_DOWN <;>
      simp [updateNodebInfoShutDown, shutDown, hst, hsd]

variable {cb : NodebInfo → Prog (Except Err Bool)} {f : Sweep}

/-- **The loop over some names** sweeps the records that are stored under them and reports whether
it has written one. -/
theorem always_updateListed (hcb : Performs b P cb f) (hf : f.Lawful) (hs : s.WellKeyed)
    {ids : List NbIdentity} (hids : ∀ id ∈ ids, id.inventoryName ≠ "") (wrote : Bool)
    (Q : Except Err Bool → Sdl → Prop) :
    (updateListed cb ids wrote).Always exec (Admits b) P Q s ↔
      Q (.ok (swept f (ids.map (·.inventoryName)) s wrote).2)
        (swept f (ids.map (·.inventoryName)) s wrote).1 := by
  induction ids generalizing s wrote with
  | nil => rfl
  | cons id ids ih =>
      have hid : id.inventoryName ≠ "" := hids id (List.mem_cons_self ..)
      have hids' : ∀ i ∈ ids, i.inventoryName ≠ "" := fun i hi => hids i (List.mem_cons_of_mem _ hi)
      cases hn : s.nodeb id.inventoryName with
      | none =>
          have hget : RNibReader.getNodeb id.inventoryName s = .error .resourceNotFound := by
            simp [RNibReader.getNodeb, hid, hn]
          simp [updateListed, swept, hget, hn, ih hs hids']
      | some node =>
          have hget := hs.getNodeb_eq_ok.2 hn
          have hname : node.ranName ≠ "" := (hs.nodeb hn).1 ▸ hid
          have hcb := fun Q => hcb node s Q hname
          cases hfn : f node with
          | none => simp [updateListed, swept, hget, hn, hcb, hfn, ih hs hids']
          | some node' =>
              have happ : f.apply node = node' := by simp [Sweep.apply, hfn]
              have hs' : (s.putNodeb node').WellKeyed :=
                hs.putNodeb (by rw [← happ, hf.ranName]; exact hname)
              simp [updateListed, swept, hget, hn, hcb, hfn, ih hs' hids']

/-- **A sweep of the handler is one pure pass over the listed RANs.** -/
theorem always_updateNodebs (hcb : Performs b P cb f) (hf : f.Lawful) (hs : s.WellKeyed)
    (Q : Except Err Bool → Sdl → Prop) :
    (updateNodebs cb).Always exec (Admits b) P Q s ↔
      Q (.ok (swept f (listedNames s) s false).2) (swept f (listedNames s) s false).1 := by
  have hids : ∀ id ∈ s.members .ENB ++ s.members .GNB ++ s.members .UNKNOWN,
      id.inventoryName ≠ "" := by
    intro id hid
    exact hs.listed ((mem_listedNames s _).1 (List.mem_map_of_mem hid))
  simp only [updateNodebs, Program.always_bind, RNibDataService.always_getListNodebIds,
    RNibReader.getListNodebIds]
  exact always_updateListed hcb hf hs hids false Q

end Spec

end DeleteAllRequestHandler

end NearRtRic.E2Manager
