/-
# What an E2 setup response acknowledges

The response to a setup request that succeeds has as many IEs as the request: the Global
RIC id, then the ids and revisions of the functions in the second IE of the request, then
IEs that were never filled.  The functions that are stored are those of the second IE too.

`acknowledges_iff` says of every run, and every response sent in it, when this is what the
request asks for: when the request has no IE but the Global E2 node id and, in the second
place, the RAN functions.  They may also be the first of two IEs, where the second holds
the same list, as two IEs without functions do.
-/

import NearRtRic.E2Manager.FailedAssociation
import NearRtRic.E2Manager.SetupPanic

namespace NearRtRic.E2Manager.E2SetupRequestNotificationHandler

open Effect

/-- Ids and revisions as `strconv.ParseUint` reads them. -/
def numbers (items : List (String × String)) : List (Option Nat × Option Nat) :=
  items.map fun item => (parseUint item.1 10 32, parseUint item.2 10 32)

/-- The RAN functions IE of a request is the one with id 10. -/
def functionsIEs (m : E2SetupRequestMessage) : List E2SetupRequestIE :=
  m.e2setupRequestIEs.filter (·.id = "10")

/-- The ids and revisions of the functions in a request. -/
def functions (m : E2SetupRequestMessage) : List (String × String) :=
  (functionsIEs m).flatMap extractRanFunctionsIDList

/-- The stored functions of a RAN, as ids and revisions. -/
def storedFunctions (nb : NodebInfo) : Option (List (Option Nat × Option Nat)) :=
  nb.getGnb.map fun gnb => gnb.ranFunctions.map fun f =>
    (some f.ranFunctionId, some f.ranFunctionRevision)

/-- The IEs of a response acknowledge the request, and what it acknowledges is stored. -/
structure Acknowledges (m : E2SetupRequestMessage) (stored : Option NodebInfo)
    (ies : List E2setupResponseIE) : Prop where
  globalRicId : ∃ plmnId ricId,
    ies.filter (·.id = "4") = [{ id := "4", value := .globalRICID plmnId ricId }]
  accepted : functionsIEs m ≠ [] → ∃ items,
    ies.filter (·.id = "9") = [{ id := "9", value := .ranFunctionsIDList items }] ∧
      numbers items = numbers (functions m) ∧
      stored.bind storedFunctions = some (numbers (functions m))
  notAccepted : functionsIEs m = [] → ies.filter (·.id = "9") = []
  /-- No other IE, and none that was never filled. -/
  noOther : ∀ ie ∈ ies, ie.id = "4" ∨ ie.id = "9"

/-- The IEs of a request for which the positions are right. -/
def InPlace : List E2SetupRequestIE → Prop
  | [_] => True
  | [ie₁, ie₂] => ie₂.id = "10" ∨ ie₁.id = "10" ∧
      numbers (extractRanFunctionsIDList ie₁) = numbers (extractRanFunctionsIDList ie₂)
  | _ => False

/-- The response that was sent by a call. -/
def response : Program.Event e2mgr → Option RmrMessage
  | ⟨.send msg, _⟩ => if msg.msgType = .RIC_E2_SETUP_RESP then some msg else none
  | _ => none

/-- A call that does not send one. -/
def Silent : Call → Prop
  | .send msg => msg.msgType ≠ .RIC_E2_SETUP_RESP
  | _ => True

/-- The functions of the second IE are stored in a record. -/
def HasFunctions (m : E2SetupRequestMessage) (nb : NodebInfo) : Prop :=
  ∃ fs, m.extractRanFunctionsList = .ok fs ∧
    ∀ fs', fs = some fs' → nb.getGnb.map (·.ranFunctions) = some fs'

variable {m : E2SetupRequestMessage} {nb : NodebInfo} {s : Sdl} {r a : String}

/-! ### The response of a request -/

/-- The functions extracted from the items have the items' ids and revisions, in order. -/
theorem numbers_of_mapM {items : List RanFunctionItem} {fs : List RanFunction}
    (h : items.mapM extractRanFunction = .ok fs) :
    fs.map (fun f => (some f.ranFunctionId, some f.ranFunctionRevision)) =
      numbers (items.map fun item => (item.ranFunctionID, item.ranFunctionRevision)) := by
  induction items generalizing fs with
  | nil =>
      obtain rfl := Except.ok.inj h
      rfl
  | cons item items ih =>
      rw [List.mapM_cons] at h
      obtain ⟨f, hf, h⟩ := except_bind_eq_ok.1 h
      obtain ⟨fs', hfs', h⟩ := except_bind_eq_ok.1 h
      obtain rfl := Except.ok.inj h
      have hitem : (some f.ranFunctionId, some f.ranFunctionRevision) =
          (parseUint item.ranFunctionID 10 32, parseUint item.ranFunctionRevision 10 32) := by
        unfold extractRanFunction at hf
        split at hf
        · cases hf
        · cases hf
        · rename_i id rev hid hrev
          obtain rfl := Except.ok.inj hf
          rw [hid, hrev]
      rw [List.map_cons, hitem, ih hfs']
      rfl

/-- What is stored of a request with two IEs or more. -/
theorem HasFunctions.storedFunctions {ie₁ ie₂ : E2SetupRequestIE} {ies : List E2SetupRequestIE}
    (h : HasFunctions m nb) (hm : m.e2setupRequestIEs = ie₁ :: ie₂ :: ies) :
    storedFunctions nb = some (numbers (extractRanFunctionsIDList ie₂)) := by
  obtain ⟨fs, hfs, hstored⟩ := h
  rw [E2SetupRequestMessage.extractRanFunctionsList, hm] at hfs
  dsimp only at hfs
  cases hfs' : ie₂.ranFunctionsList.mapM extractRanFunction with
  | error e =>
      rw [hfs'] at hfs
      cases hfs
  | ok fs' =>
      rw [hfs'] at hfs
      obtain rfl := Except.ok.inj hfs
      obtain ⟨gnb, hgnb, rfl⟩ := Option.map_eq_some_iff.1 (hstored fs' rfl)
      rw [E2SetupRequestNotificationHandler.storedFunctions, hgnb, Option.map_some,
        numbers_of_mapM hfs']
      rfl

/-- The response to a request of two IEs. -/
theorem acknowledges_pair {ie₁ ie₂ : E2SetupRequestIE} (hm : m.e2setupRequestIEs = [ie₁, ie₂])
    (hid : ie₁.id = "3" ∨ ie₂.id = "3") (h : HasFunctions m nb) (plmnId ricId : String) :
    Acknowledges m (some nb) [{ id := "4", value := .globalRICID plmnId ricId },
        { id := "9", value := .ranFunctionsIDList (extractRanFunctionsIDList ie₂) }] ↔
      ie₂.id = "10" ∨ ie₁.id = "10" ∧
        numbers (extractRanFunctionsIDList ie₁) = numbers (extractRanFunctionsIDList ie₂) := by
  have hstored := h.storedFunctions hm
  have hies : functionsIEs m = [ie₁, ie₂].filter (·.id = "10") := by rw [functionsIEs, hm]
  have hfunctions : ∀ ie, functionsIEs m = [ie] → functions m = extractRanFunctionsIDList ie := by
    intro ie hie
    rw [functions, hie, List.flatMap_singleton]
  have hiff : Acknowledges m (some nb) [{ id := "4", value := .globalRICID plmnId ricId },
        { id := "9", value := .ranFunctionsIDList (extractRanFunctionsIDList ie₂) }] ↔
      functionsIEs m ≠ [] ∧
        numbers (extractRanFunctionsIDList ie₂) = numbers (functions m) := by
    constructor
    · intro hack
      have hne : functionsIEs m ≠ [] := fun hnil => by simpa using hack.notAccepted hnil
      obtain ⟨items, hitems, heq, -⟩ := hack.accepted hne
      obtain rfl : extractRanFunctionsIDList ie₂ = items := by simpa using hitems
      exact ⟨hne, heq⟩
    · rintro ⟨hne, heq⟩
      exact
        { globalRicId := ⟨plmnId, ricId, by simp⟩
          accepted := fun _ => ⟨_, by simp, heq, by rw [Option.bind_some, hstored, heq]⟩
          notAccepted := fun hnil => absurd hnil hne
          noOther := by simp }
  rw [hiff]
  rcases hid with h₁ | h₂
  · by_cases h₂ : ie₂.id = "10"
    · have hie : functionsIEs m = [ie₂] := by simp [hies, h₁, h₂]
      simp [hfunctions ie₂ hie, hie, h₂]
    · have hie : functionsIEs m = [] := by simp [hies, h₁, h₂]
      simp [hie, h₁, h₂]
  · by_cases h₁ : ie₁.id = "10"
    · have hie : functionsIEs m = [ie₁] := by simp [hies, h₁, h₂]
      simp [hfunctions ie₁ hie, hie, h₁, h₂, eq_comm]
    · have hie : functionsIEs m = [] := by simp [hies, h₁, h₂]
      simp [hie, h₁, h₂]

/-- **When a response acknowledges the request**, where its functions are stored. -/
theorem acknowledges_successResponse (hid : ∃ ie ∈ m.e2setupRequestIEs, ie.id = "3")
    (h : HasFunctions m nb) {plmnId ricId : String} {response : E2SetupResponseMessage}
    (hresponse : newE2SetupSuccessResponseMessage plmnId ricId m = some response) :
    ∃ ies, response = .successfulOutcome ies ∧
      (Acknowledges m (some nb) ies ↔ InPlace m.e2setupRequestIEs) := by
  unfold newE2SetupSuccessResponseMessage at hresponse
  match hm : m.e2setupRequestIEs with
  | [] =>
      rw [hm] at hresponse
      cases hresponse
  | [ie] =>
      rw [hm] at hresponse
      obtain rfl := Option.some.inj hresponse
      have hie : functionsIEs m = [] := by
        obtain ⟨ie', hmem, hie'⟩ := hid
        rw [hm, List.mem_singleton] at hmem
        subst hmem
        simp [functionsIEs, hm, hie']
      refine ⟨_, rfl, iff_of_true ?_ trivial⟩
      exact
        { globalRicId := ⟨plmnId, ricId, by simp⟩
          accepted := fun hne => absurd hie hne
          notAccepted := fun _ => by simp
          noOther := by simp }
  | [ie₁, ie₂] =>
      rw [hm] at hresponse
      obtain rfl := Option.some.inj hresponse
      refine ⟨_, rfl, acknowledges_pair hm ?_ h plmnId ricId⟩
      simpa [hm, eq_comm] using hid
  | ie₁ :: ie₂ :: ie₃ :: ies =>
      rw [hm] at hresponse
      obtain rfl := Option.some.inj hresponse
      refine ⟨_, rfl, iff_of_false (fun hack => ?_) id⟩
      -- the third IE of the response is empty
      have hempty := hack.noOther {} (by simp)
      simp at hempty

/-! ### What is stored when a response is sent -/

/-- A record given the message's functions has them. -/
theorem hasFunctions_withRanFunctions {fs : Option (List RanFunction)} {nb' : NodebInfo}
    (hfs : m.extractRanFunctionsList = .ok fs) (h : withRanFunctions nb fs = some nb') :
    HasFunctions m nb' := by
  refine ⟨fs, hfs, ?_⟩
  rintro fs' rfl
  obtain ⟨gnb, -, rfl⟩ := Option.map_eq_some_iff.1 h
  rfl

/-- The functions are in the gNB part of a record, so they stay while that part does. -/
theorem HasFunctions.of_getGnb {nb' : NodebInfo} (h : HasFunctions m nb)
    (hgnb : nb'.getGnb = nb.getGnb) : HasFunctions m nb' := by
  obtain ⟨fs, hfs, h⟩ := h
  exact ⟨fs, hfs, hgnb ▸ h⟩

/-- Whatever the calls answer, `setGnbFunctions` gives the record the message's functions and
keeps its name. -/
theorem always_setGnbFunctions_any (nb : NodebInfo) (m : E2SetupRequestMessage) :
    (setGnbFunctions nb m).Always exec (fun _ => True) (fun _ => True)
      (fun x _ => ∀ nb', x = .ok nb' → nb'.ranName = nb.ranName ∧ HasFunctions m nb') s := by
  rw [always_setGnbFunctions]
  split
  · intro nb' h
    cases h
  · rename_i fs hfs
    cases hwith : withRanFunctions nb fs with
    | none => trivial
    | some nb' =>
        rintro nb'' h
        obtain rfl := Except.ok.inj h
        exact ⟨(sameRan_withRanFunctions hwith).1.ranName, hasFunctions_withRanFunctions hfs hwith⟩

/-- Whatever the calls answer, a new RAN's record has the message's functions and the RAN's name. -/
theorem always_handleNewRan_any (r a : String) (m : E2SetupRequestMessage) :
    (handleNewRan r a m).Always exec (fun _ => True) (fun _ => True)
      (fun x _ => ∀ nb, x = .ok nb → nb.ranName = r ∧ HasFunctions m nb) s := by
  unfold handleNewRan buildNodebInfo
  rw [bind_assoc]
  refine Program.always_bind_of (Program.always_trivial _ _) fun globalNbId s₁ _ => ?_
  refine Program.always_bind_of (always_setGnbFunctions_any _ m) fun x s₂ hx => ?_
  cases x with
  | error e =>
      intro nb h
      cases h
  | ok nb =>
      refine Program.always_bind_of (Program.always_trivial _ _) fun id s₃ _ => ?_
      refine Program.always_bind_of (Program.always_trivial _ _) fun x s₄ _ => ?_
      cases x with
      | error e =>
          intro nb h
          cases h
      | ok u =>
          intro nb' h
          obtain rfl := Except.ok.inj h
          exact hx nb rfl

/-- Whatever the calls answer, a known RAN's record has the message's functions and keeps its
name. -/
theorem always_handleExistingRan_any (nb : NodebInfo) (m : E2SetupRequestMessage) :
    (handleExistingRan nb m).Always exec (fun _ => True) (fun _ => True)
      (fun x _ => ∀ nb', x = .ok nb' → nb'.ranName = nb.ranName ∧ HasFunctions m nb') s := by
  unfold handleExistingRan
  split
  · intro nb' h
    cases h
  · exact always_setGnbFunctions_any nb m

/-- `AddRansToInstance` writes no record of a RAN. -/
theorem always_addRansToInstance_any (a : String) (rs : List String) :
    (E2TInstancesManager.addRansToInstance a rs).Always exec (fun _ => True) (fun _ => True)
      (fun _ s' => s'.nodeb = s.nodeb) s := by
  have hread : (RNibDataService.getE2TInstance a).Always exec (fun _ => True) (fun _ => True)
      (fun _ s' => s'.nodeb = s.nodeb) s := fun c _ => congrArg Sdl.nodeb (storeRead_snd ..)
  have hwrite : ∀ i s₁, s₁.nodeb = s.nodeb → (RNibDataService.saveE2TInstance i).Always exec
      (fun _ => True) (fun _ => True) (fun _ s' => s'.nodeb = s.nodeb) s₁ := by
    intro i s₁ hs₁ c _
    change (storeWrite (RNibWriter.saveE2TInstance i) c s₁).2.nodeb = s.nodeb
    rcases storeWrite_snd (RNibWriter.saveE2TInstance i) c s₁ with heq | hok
    · rw [heq, hs₁]
    · rw [(saveE2TInstance_ok hok).2, Sdl.nodeb_putInstance, hs₁]
  simp only [E2TInstancesManager.addRansToInstance, withMutex, bind_assoc]
  refine (Program.always_bind ..).2 fun _ _ => ?_
  refine Program.always_bind_of hread fun x s₁ hs₁ => ?_
  cases x with
  | error e => exact (Program.always_bind ..).2 fun _ _ => hs₁
  | ok i =>
      rw [bind_assoc]
      refine Program.always_bind_of (hwrite _ s₁ hs₁) fun x s₂ hs₂ => ?_
      cases x with
      | error e => exact (Program.always_bind ..).2 fun _ _ => hs₂
      | ok u => exact (Program.always_bind ..).2 fun _ _ => hs₂

/-- An association that returns nil has stored the record it was handed. -/
theorem always_associateRan_any (a : String) (nb : NodebInfo) :
    (E2TAssociationManager.associateRan a nb).Always exec (fun _ => True) (fun _ => True)
      (fun x s' => x.2 = .ok () →
        ∃ nb', s'.nodeb nb.ranName = some nb' ∧ nb'.getGnb = nb.getGnb) s := by
  simp only [E2TAssociationManager.associateRan, E2TAssociationManager.associateRanAndUpdateNodeb,
    bind_assoc]
  refine Program.always_bind_of (Program.always_trivial _ _) fun rmErr s₁ _ => ?_
  let nb' := E2TAssociationManager.associated a nb rmErr
  refine Program.always_bind_of (R := fun x s' => x = .ok () → s'.nodeb nb.ranName = some nb')
    (fun c _ hx => ?_) fun rNibErr s₂ hs₂ => ?_
  · obtain ⟨-, hput⟩ := updateNodebInfo_ok (storeWrite_eq_ok hx)
    have hname : nb'.ranName = nb.ranName := E2TAssociationManager.associated_ranName ..
    rw [← hname]
    change (storeWrite (RNibWriter.updateNodebInfo nb') c s₁).2.nodeb nb'.ranName = some nb'
    rw [hput, Sdl.nodeb_putNodeb, Function.update_self]
  · cases rmErr with
    | error e =>
        intro h
        cases h
    | ok u =>
        cases rNibErr with
        | error e =>
            intro h
            cases h
        | ok u =>
            simp only [Program.pure_eq_ret, Program.ret_bind]
            refine Program.always_bind_of (always_addRansToInstance_any _ _) fun x s₃ hs₃ => ?_
            cases x with
            | error e =>
                intro h
                cases h
            | ok u => exact fun _ => ⟨nb', by rw [hs₃, hs₂ rfl], rfl⟩

/-! ### The responses of a run -/

/-- Every response that was sent acknowledges the request exactly if its IEs are in place. -/
def Judged (m : E2SetupRequestMessage) (r : String)
    (w : Sdl × List (Program.Event e2mgr)) : Prop :=
  ∀ msg ∈ w.2.filterMap response, ∃ ies, msg.payload = .e2SetupResponse (.successfulOutcome ies) ∧
    (Acknowledges m (w.1.nodeb r) ies ↔ InPlace m.e2setupRequestIEs)

/-- Whatever is answered, the responses are as `Judged` says. -/
abbrev AlwaysJudged {α : Type} (m : E2SetupRequestMessage) (r : String) (p : Prog α)
    (w : Sdl × List (Program.Event e2mgr)) : Prop :=
  p.Always (Program.recording exec) (fun _ => True) (Judged m r) (fun _ => Judged m r) w

/-- A trace of silent calls holds no answer to a setup. -/
theorem filterMap_response_of_silent {tr : List (Program.Event e2mgr)}
    (h : ∀ e ∈ tr, Silent e.1) : tr.filterMap response = [] := by
  rw [List.filterMap_eq_nil_iff]
  rintro ⟨o, x⟩ he
  cases o with
  | send msg => exact if_neg (h _ he)
  | _ => rfl

/-- A program of one silent call is silent. -/
theorem silent_call {o : Call} (h : Silent o) : (call o).Calls Silent := ⟨h, fun _ => trivial⟩

/-- The association sends no answer to a setup. -/
theorem silent_associateRan (a : String) (nb : NodebInfo) :
    (E2TAssociationManager.associateRan a nb).Calls Silent := by
  have hadd : ∀ rs, (E2TInstancesManager.addRansToInstance a rs).Calls Silent := by
    intro rs
    refine Program.calls_bind (silent_call trivial) fun _ => ?_
    refine Program.calls_bind ?_ fun x => ?_
    · refine Program.calls_bind (silent_call trivial) fun x => ?_
      cases x with
      | error e => trivial
      | ok i =>
          refine Program.calls_bind (silent_call trivial) fun x => ?_
          cases x <;> trivial
    · exact Program.calls_bind (silent_call trivial) fun _ => trivial
  refine Program.calls_bind ?_ fun x => ?_
  · refine Program.calls_bind (silent_call trivial) fun rmErr => ?_
    refine Program.calls_bind (silent_call trivial) fun rNibErr => ?_
    cases rmErr <;> cases rNibErr <;> trivial
  · obtain ⟨nb, e | u⟩ := x
    · trivial
    · refine Program.calls_bind (hadd _) fun x => ?_
      cases x <;> trivial

/-- Where nothing was sent, there is nothing to show. -/
theorem judged_of_silent {tr : List (Program.Event e2mgr)} (h : ∀ e ∈ tr, Silent e.1) :
    Judged m r (s, tr) := by
  intro msg hmsg
  rw [filterMap_response_of_silent h] at hmsg
  cases hmsg

section

variable {α β : Type} {tr : List (Program.Event e2mgr)} (htr : ∀ e ∈ tr, Silent e.1)
include htr

/-- A silent program is judged right whatever the trace before it. -/
theorem alwaysJudged_of_calls {p : Prog α} (hp : p.Calls Silent) : AlwaysJudged m r p (s, tr) :=
  Program.always_imp (hp.always_recording htr (Program.always_trivial p s))
    (fun _ h => judged_of_silent h.2) fun _ _ h => judged_of_silent h.2

/-- Silent calls first. -/
theorem alwaysJudged_bind {p : Prog α} {f : α → Prog β} (hp : p.Calls Silent)
    {R : α → Sdl → Prop} (h : p.Always exec (fun _ => True) (fun _ => True) R s)
    (hf : ∀ a s' tr', (∀ e ∈ tr', Silent e.1) → R a s' → AlwaysJudged m r (f a) (s', tr')) :
    AlwaysJudged m r (p >>= f) (s, tr) := by
  refine (Program.always_bind ..).2 (Program.always_imp (hp.always_recording htr h)
    (fun _ h => judged_of_silent h.2) ?_)
  rintro a ⟨s', tr'⟩ ⟨hR, htr'⟩
  exact hf a s' tr' htr' hR

/-- **The response.** -/
theorem alwaysJudged_handleSuccessfulResponse (hid : ∃ ie ∈ m.e2setupRequestIEs, ie.id = "3")
    (hr : s.nodeb r = some nb) (h : HasFunctions m nb) (config : Configuration)
    (request : NotificationRequest) (r' : String) :
    AlwaysJudged m r (handleSuccessfulResponse config r' request m) (s, tr) := by
  unfold handleSuccessfulResponse
  split
  · exact judged_of_silent htr
  · rename_i ricId _
    cases hresponse : newE2SetupSuccessResponseMessage config.plmnId ricId m with
    | none => exact judged_of_silent htr
    | some message =>
        obtain ⟨ies, rfl, hack⟩ := acknowledges_successResponse hid h hresponse
        intro c _ msg hmsg
        simp only [Program.recording, exec, List.filterMap_append,
          filterMap_response_of_silent htr, List.nil_append, List.filterMap_cons, response, if_true,
          List.filterMap_nil, List.mem_singleton] at hmsg
        subst hmsg
        exact ⟨ies, rfl, by rw [← hack, ← hr]; rfl⟩

/-- The answer to a request with a global id is judged right, however the association goes. -/
theorem alwaysJudged_associateAndRespond (hid : ∃ ie ∈ m.e2setupRequestIEs, ie.id = "3")
    (h : HasFunctions m nb) (config : Configuration) (request : NotificationRequest) (a : String) :
    AlwaysJudged m nb.ranName (associateAndRespond config request m a nb) (s, tr) := by
  refine alwaysJudged_bind htr (silent_associateRan a nb) (always_associateRan_any a nb)
    fun x s' tr' htr' hx => ?_
  split
  · -- a failure response
    have hne : RmrMessageType.RIC_E2_SETUP_FAILURE ≠ .RIC_E2_SETUP_RESP := by decide
    exact alwaysJudged_of_calls htr' (Program.calls_bind (silent_call hne) fun _ => trivial)
  · exact judged_of_silent htr'
  · obtain ⟨nb', hstored, hgnb⟩ := hx rfl
    exact alwaysJudged_handleSuccessfulResponse htr' hid hstored (h.of_getGnb hgnb) config request _

/-- **The handler.** -/
theorem alwaysJudged_handleParsed (hid : ∃ ie ∈ m.e2setupRequestIEs, ie.id = "3")
    (hs : s.WellKeyed) (config : Configuration) (request : NotificationRequest) (a : String) :
    AlwaysJudged m request.ranName (handleParsed config request m a) (s, tr) := by
  refine alwaysJudged_bind htr (silent_call trivial) (always_getE2TInstance_any hs a) ?_
  rintro x s₁ tr₁ htr₁ ⟨rfl, -⟩
  cases x with
  | error e => exact judged_of_silent htr₁
  | ok i =>
      refine alwaysJudged_bind htr₁ (silent_call trivial)
        (always_getNodeb_any hs request.ranName) ?_
      rintro x s₂ tr₂ htr₂ ⟨rfl, hstored, -⟩
      split
      · refine alwaysJudged_bind htr₂ (calls_handleNewRan (fun _ _ => trivial) ..)
          (always_handleNewRan_any ..) fun x s₃ tr₃ htr₃ hx => ?_
        cases x with
        | error e => exact judged_of_silent htr₃
        | ok nb =>
            obtain ⟨hr, h⟩ := hx nb rfl
            exact hr ▸ alwaysJudged_associateAndRespond htr₃ hid h config request a
      · exact judged_of_silent htr₂
      · rename_i nb
        refine alwaysJudged_bind htr₂ (calls_handleExistingRan ..)
          (always_handleExistingRan_any nb m) fun x s₃ tr₃ htr₃ hx => ?_
        cases x with
        | error e => exact judged_of_silent htr₃
        | ok nb' =>
            obtain ⟨hr, h⟩ := hx nb' rfl
            exact (hr.trans (hs.nodeb (hstored nb rfl)).1) ▸
              alwaysJudged_associateAndRespond htr₃ hid h config request a

end

/-- The store and the calls after the handler ran. -/
def handled (codecs : Codecs) (config : Configuration) (request : NotificationRequest)
    (cs : List Outcome) (s : Sdl) : Sdl × List (Program.Event e2mgr) :=
  ((handle codecs config request).run (Program.recording exec) cs (s, [])).2

/-- **When the response to an E2 setup request acknowledges its functions.** -/
theorem acknowledges_iff (hs : s.WellKeyed) (codecs : Codecs) (config : Configuration)
    (request : NotificationRequest) (cs : List Outcome)
    (hparse : parseSetupRequest codecs request.payload = .ok (m, a))
    (hid : ∃ ie ∈ m.e2setupRequestIEs, ie.id = "3") {msg : RmrMessage}
    (hmsg : msg ∈ (handled codecs config request cs s).2.filterMap response) :
    ∃ ies, msg.payload = .e2SetupResponse (.successfulOutcome ies) ∧
      (Acknowledges m ((handled codecs config request cs s).1.nodeb request.ranName) ies ↔
        InPlace m.e2setupRequestIEs) := by
  have hjudged : Judged m request.ranName (handled codecs config request cs s) := by
    refine Program.run_state_of_always ?_ (fun _ _ => trivial) trivial
    rw [handle, hparse]
    exact alwaysJudged_handleParsed (fun _ h => absurd h List.not_mem_nil) hid hs config request a
  exact hjudged msg hmsg

open Deployment

/-- The IEs of the setup request of a gNB with one function. -/
def nodeIdIE : E2SetupRequestIE :=
  { id := "3", globalE2nodeID := { gnbPlmnID := "131014", gnbID := "1011" } }

def kpm : RanFunctionItem :=
  { ranFunctionID := "0", ranFunctionDefinition := "KPM", ranFunctionRevision := "1" }

def functionsIE : E2SetupRequestIE := { id := "10", ranFunctionsList := [kpm] }

/-- The second of them in XML. -/
def functionsXml : String :=
  "<E2setupRequestIEs><id>10</id><value><RANfunctions-List><ProtocolIE-SingleContainer>" ++
  "<id>8</id><value><RANfunction-Item><ranFunctionID>0</ranFunctionID>" ++
  "<ranFunctionDefinition>KPM</ranFunctionDefinition>" ++
  "<ranFunctionRevision>1</ranFunctionRevision></RANfunction-Item></value>" ++
  "</ProtocolIE-SingleContainer></RANfunctions-List></value></E2setupRequestIEs>"

/-- The request of a gNB with this text. -/
def firstRequest (xml : String) : NotificationRequest :=
  { ranName := "RAN1", payload := address₁ ++ "|" ++ xml }

/-- The payload is read as the codec reads its text. -/
theorem parse_firstRequest (xml : String) (m : E2SetupRequestMessage) :
    parseSetupRequest (codecsOf xml m) (firstRequest xml).payload = .ok (m, address₁) :=
  parse_codecsOf xml m (by decide) (by decide)

/-- So its run is the one of the part behind the decoder. -/
theorem handled_firstRequest (xml : String) (m : E2SetupRequestMessage) :
    handled (codecsOf xml m) {} (firstRequest xml) [] oneTermination =
      ((handleParsed {} (firstRequest xml) m address₁).run (Program.recording exec) []
        (oneTermination, [])).2 := by
  rw [handled, handle, parse_firstRequest]

/-- The node id and the functions, in this order, -/
def inOrderXml : String := e2setupXml (nodeIdXml ++ functionsXml)

def inOrderMessage : E2SetupRequestMessage := { e2setupRequestIEs := [nodeIdIE, functionsIE] }

/-- are acknowledged. -/
theorem acknowledges_iff_inOrder :
    let w := handled (codecsOf inOrderXml inOrderMessage) {} (firstRequest inOrderXml) []
      oneTermination
    ∃ msg ∈ w.2.filterMap response, ∃ ies,
      msg.payload = .e2SetupResponse (.successfulOutcome ies) ∧
        Acknowledges inOrderMessage (w.1.nodeb "RAN1") ies := by
  intro w
  have hsent : (w.2.filterMap response).length = 1 := by
    simp only [w, handled_firstRequest]
    decide +kernel
  obtain ⟨msg, hmsg⟩ := List.length_eq_one_iff.1 hsent
  have hmem : msg ∈ w.2.filterMap response := by simp [hmsg]
  obtain ⟨ies, hpayload, hiff⟩ := acknowledges_iff wellKeyed_oneTermination
    (codecsOf inOrderXml inOrderMessage) {} (firstRequest inOrderXml) []
    (parse_firstRequest inOrderXml inOrderMessage)
    ⟨nodeIdIE, List.mem_cons_self .., rfl⟩ hmem
  exact ⟨msg, hmem, ies, hpayload, hiff.2 (.inl rfl)⟩

/-- The functions, then the node id. -/
def swappedXml : String := e2setupXml (functionsXml ++ nodeIdXml)

def swappedMessage : E2SetupRequestMessage := { e2setupRequestIEs := [functionsIE, nodeIdIE] }

/-- **The functions of a request are not acknowledged where its node id comes second.** -/
theorem not_acknowledges : ¬ ∀ (codecs : Codecs) (config : Configuration)
    (request : NotificationRequest) (m : E2SetupRequestMessage) (a : String) (s : Sdl)
    (cs : List Outcome), s.WellKeyed →
      parseSetupRequest codecs request.payload = .ok (m, a) →
      (∃ ie ∈ m.e2setupRequestIEs, ie.id = "3") →
      ∀ msg ∈ (handled codecs config request cs s).2.filterMap response, ∃ ies,
        msg.payload = .e2SetupResponse (.successfulOutcome ies) ∧
          Acknowledges m ((handled codecs config request cs s).1.nodeb request.ranName) ies := by
  intro hall
  let w := handled (codecsOf swappedXml swappedMessage) {} (firstRequest swappedXml) []
    oneTermination
  have hsent : (w.2.filterMap response).length = 1 := by
    simp only [w, handled_firstRequest]
    decide +kernel
  have hstored : (w.1.nodeb "RAN1").bind storedFunctions = some [] := by
    simp only [w, handled_firstRequest]
    decide +kernel
  obtain ⟨msg, hmsg⟩ := List.length_eq_one_iff.1 hsent
  obtain ⟨ies, -, hack⟩ := hall (codecsOf swappedXml swappedMessage) {}
    (firstRequest swappedXml) swappedMessage address₁ oneTermination []
    wellKeyed_oneTermination (parse_firstRequest swappedXml swappedMessage)
    ⟨nodeIdIE, by decide, rfl⟩ msg (hmsg ▸ List.mem_singleton_self msg)
  have hies : functionsIEs swappedMessage ≠ [] := by decide
  obtain ⟨items, -, -, heq⟩ := hack.accepted hies
  have hnil : some [] = some (numbers (functions swappedMessage)) := hstored.symm.trans heq
  revert hnil
  decide

end NearRtRic.E2Manager.E2SetupRequestNotificationHandler
