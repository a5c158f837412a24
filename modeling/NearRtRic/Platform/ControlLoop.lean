/-
# The control loop

A RAN's indications go through its E2 termination to the xApp, which chooses an agent for them
and writes to it what they report; what the agent answers goes back as a RIC control request,
through the xApp's sender and a termination, to a connection.  The listeners of the
terminations, the xApp's receiver, the threads of its agents and of its sender all go on by
themselves (`ControlLoop.Step`), and between them RMR may lose, repeat and reorder messages, and
bring a control request to any termination.

`closed_of_reached` says that the loop is closed over one RAN: a control request that is sent on
a connection says what an agent said, and this agent was chosen for an indication of the RAN
behind the connection; what it gets of other RANs it gets only while every agent has a RAN of
its own.  Calls of `xapp_rmr_send` must not overlap for that (`Xapp.XappRmr.crossed`), and RMR
must hand no message back to a termination, in whose buffer the name would be left.

Both programs read names back through a pointer that they never set, the termination where it
sends an indication and the xApp where it receives one.  In the steps here it is NULL, so that
RMR takes memory of its own.
-/

import NearRtRic.E2Term.Indications
import NearRtRic.E2ap.ControlRequest
import NearRtRic.Platform.Connected
import NearRtRic.Xapp.AgentConnector
import NearRtRic.Xapp.Total
import NearRtRic.Xapp.XappRmr

namespace NearRtRic.Platform

open CString Xapp

/-! ### The xApp -/

/-- The threads of the xApp that send: one for each agent, `main`, and the one that waits for
the external command. -/
inductive SendingThread where
  | agent (agent_ip : Bytes)
  | main
  | external
  deriving DecidableEq

/-- `BUFFER_SIZE`. -/
def bufferSize : Nat := 1024

/-- `buf` in `send_ric_control_request`, as it is declared. -/
abbrev SendBuffer := {b : Bytes // b.length = bufferSize}

/-- What the xApp takes from asn1c and from RMR. -/
structure LoopCodecs where
  /-- `asn_decode`: the elements of an indication. -/
  decode : Bytes → Option (List RICindication_IE)
  e2sm : E2SM
  /-- `asn_check_constraints` and `asn_encode_to_buffer`. -/
  encode : List E2ap.RICcontrolRequest_IEs → Option Bytes
  str2meid : Str2meid

namespace LoopCodecs

variable (codecs : LoopCodecs)

/-- `encode_e2ap_control_request` of a new object. -/
def encodeE2apControlRequest (size : Nat) (dinput : E2ap.RicControlRequestHelper) :
    Option Bytes :=
  (codecs.encode (E2ap.RicControlRequest.setFields .new dinput).read).filter fun b =>
    b.length ≤ size

/-- `send_ric_control_request`: the call of `xapp_rmr_send` that it makes.  Where the request is
not encoded, what is in the buffer is sent. -/
def sendRicControlRequest (payload gnb_id : Bytes) (buf : SendBuffer) : SendCall :=
  match codecs.encodeE2apControlRequest bufferSize { control_msg := visible payload ++ [0] } with
  | some b =>
      ⟨⟨.RIC_CONTROL_REQ, b.length, gnb_id⟩, memcpy b buf.1, by
        rw [length_memcpy]
        exact Nat.le_max_left ..⟩
  | none => ⟨⟨.RIC_CONTROL_REQ, bufferSize, gnb_id⟩, buf.1, Nat.le_of_eq buf.2.symm⟩

/-- A message is the control request for a payload. -/
def Encodes (payload : Bytes) (m : Mbuf) : Prop :=
  ∀ b, codecs.encodeE2apControlRequest bufferSize { control_msg := visible payload ++ [0] } =
    some b → m.payload = b

end LoopCodecs

/-- `buf` in `handle_rx_msg_agent` after `recv`, where it still is a C string. -/
def rxBuffer (data : Bytes) : Option Bytes :=
  let buf := memcpy data (List.replicate 256 0)
  if 0 ∈ buf then some buf else none

/-- `XAPP_TERMINATE`. -/
def xappTerminate : Bytes := ascii "terminate"

/-- `procRicIndication` between two elements of an indication. -/
structure Indicating where
  gnb_id : Bytes
  protocolIEs : List RICindication_IE
  idx : UInt8
  progress : Progress

/-- An agent was chosen for a message of an indication, and the reports of it were written to
the agent.  `full`: every connected agent had a RAN of its own by then. -/
structure Told where
  agent : Bytes
  gnb : Bytes
  full : Bool
  reports : List Report

/-- A message was sent on a connection of a termination. -/
structure Delivered (κ : Type) where
  termination : κ
  connection : Nat
  message : Mbuf

/-- What is given of a termination: what its listener finds, RMR handing no message back and
giving out buffers without a name, the keep-alive message, and the identity of the gNB at each
connection, which leaves room for the NUL behind it. -/
structure Listener where
  surroundings : E2Term.Surroundings
  tidy : surroundings.Tidy
  ka_message : Bytes
  identity : Nat → Bytes
  fits : ∀ p, (identity p).length < RMR_MAX_MEID

/-- The terminations and the xApp, with a record of what was told to agents, heard from them
and delivered. -/
structure ControlLoop (κ : Type) where
  relay : κ → E2Term.Relay
  agentIp_socket : AgentIpSocket := {}
  agentIp_gnbId : AgentIpGnbId := {}
  indication : Option Indicating := none
  rmr : XappRmr SendingThread
  told : List Told := []
  heard : List (Bytes × Bytes) := []
  delivered : List (Delivered κ) := []

namespace ControlLoop

variable {κ : Type} [DecidableEq κ]

/-- One element of an indication: the agent is chosen where it is a message. -/
def handleIe (c : ControlLoop κ) (i : Indicating) (ie : RICindication_IE) (progress : Progress) :
    ControlLoop κ :=
  let indication := some { i with idx := i.idx + 1, progress }
  match ie with
  | .message _ =>
      let found := findAgentIpFromGnb c.agentIp_socket c.agentIp_gnbId i.gnb_id
      { c with
        indication
        agentIp_gnbId := found.2
        told := c.told ++ [{
          agent := found.1
          gnb := visible i.gnb_id
          full := c.agentIp_socket.keys.all fun a => (c.agentIp_gnbId.find a).isSome
          reports := (progress.sent.drop i.progress.sent.length).reduceOption }] }
  | _ => { c with indication }

/-- The thread of an agent has received something. -/
def hear (codecs : LoopCodecs) (c : ControlLoop κ) (agent_ip buf : Bytes) (sendBuf : SendBuffer)
    (alloc : Option Mbuf) : ControlLoop κ :=
  let c := { c with heard := c.heard ++ [(agent_ip, buf)] }
  match handleRxMsgAgent c.agentIp_gnbId buf agent_ip with
  | some (payload, gnb_id) =>
      { c with
        rmr := c.rmr.begin (.agent agent_ip)
          (codecs.sendRicControlRequest payload gnb_id sendBuf) alloc }
  | none => c

/-- A termination gets a message of the xApp. -/
def control (listener : κ → Listener) (c : ControlLoop κ) (k : κ) (m : Mbuf) (messageType : Nat)
    (sent : Bool) : ControlLoop κ :=
  { c with
    relay := Function.update c.relay k ((c.relay k).round (listener k).surroundings
      (listener k).ka_message (.rmr (.downlink m.meid messageType sent)))
    delivered := c.delivered ++
      if sent then ((c.relay k).termination.sendsOn m.meid).toList.map fun p => ⟨k, p, m⟩
      else [] }

/-- One step of a termination or of a thread of the xApp. -/
inductive Step (codecs : LoopCodecs) (listener : κ → Listener) :
    ControlLoop κ → ControlLoop κ → Prop
  /-- A round of a listener. -/
  | listen {c : ControlLoop κ} (k : κ) (e : E2Term.RelayEvent) {relay : E2Term.Relay} :
      (c.relay k).termination.keepsNames e.toEvent → e.OneIdentity (listener k).identity →
      (c.relay k).step (listener k).surroundings (listener k).ka_message e = some relay →
      Step codecs listener c { c with relay := Function.update c.relay k relay }
  /-- `open_control_socket_agent` succeeds. -/
  | connect {c : ControlLoop κ} (agent_ip : Bytes) (sckfd : Int32) :
      Step codecs listener c { c with
        agentIp_socket := c.agentIp_socket.insert agent_ip sckfd }
  /-- An indication is received, of no more bytes than `printBuffer` has room for. -/
  | receive {c : ControlLoop κ} (k : κ) {s : E2Term.Submission} {ies : List RICindication_IE} :
      s ∈ (c.relay k).rmr.log → s.message.mtype = some .RIC_INDICATION →
      s.message.payload.length < 2048 → codecs.decode s.message.payload = some ies →
      c.indication = none →
      Step codecs listener c { c with
        indication := some ⟨s.message.meid, ies, 0, {}⟩ }
  /-- One element of it. -/
  | element {c : ControlLoop κ} {i : Indicating} {ie : RICindication_IE} (g : Garbage)
      {progress : Progress} :
      c.indication = some i → i.protocolIEs[i.idx.toNat]? = some ie →
      i.progress.next codecs.e2sm g ie = some progress →
      Step codecs listener c (c.handleIe i ie progress)
  /-- Its end. -/
  | done {c : ControlLoop κ} {i : Indicating} :
      c.indication = some i → i.protocolIEs[i.idx.toNat]? = none →
      Step codecs listener c { c with indication := none }
  /-- The thread of an agent receives something. -/
  | hear {c : ControlLoop κ} {agent_ip data buf : Bytes} (sendBuf : SendBuffer)
      (alloc : Option Mbuf) :
      (c.agentIp_socket.find agent_ip).isSome → rxBuffer data = some buf → c.rmr.Idle →
      Step codecs listener c (c.hear codecs agent_ip buf sendBuf alloc)
  /-- `terminate_du_reporting` comes to an agent that has a RAN. -/
  | terminate {c : ControlLoop κ} {agent_ip gnb_id : Bytes} (sendBuf : SendBuffer)
      (alloc : Option Mbuf) :
      (c.agentIp_socket.find agent_ip).isSome → c.agentIp_gnbId.find agent_ip = some gnb_id →
      c.rmr.Idle →
      Step codecs listener c { c with
        rmr := c.rmr.begin .external
          (codecs.sendRicControlRequest xappTerminate gnb_id sendBuf) alloc }
  /-- `startup_subscribe_requests` comes to a RAN. -/
  | subscribe {c : ControlLoop κ} (call : SendCall) (alloc : Option Mbuf) :
      call.hdr.message_type = .RIC_SUB_REQ → call.Named → c.rmr.Idle →
      Step codecs listener c { c with rmr := c.rmr.begin .main call alloc }
  /-- A call of `xapp_rmr_send` goes on. -/
  | send {c : ControlLoop κ} (t : SendingThread) (answer : SendState)
      {rmr : XappRmr SendingThread} :
      c.rmr.next codecs.str2meid t answer = some rmr → Step codecs listener c { c with rmr }
  /-- A message that RMR took comes to a termination. -/
  | control {c : ControlLoop κ} (k : κ) {m : Mbuf} (messageType : Nat) (sent : Bool) :
      m ∈ c.rmr.accepted → Step codecs listener c (c.control listener k m messageType sent)

/-- The states that are reached from terminations and an xApp that have just started. -/
inductive Reached (codecs : LoopCodecs) (listener : κ → Listener) : ControlLoop κ → Prop
  | start (nattempts : Nat) (rmr_is_ready : Bool) :
      Reached codecs listener {
        relay := fun k => .start (listener k).surroundings
        rmr := { nattempts, rmr_is_ready } }
  | step {c c' : ControlLoop κ} :
      Reached codecs listener c → Step codecs listener c c' → Reached codecs listener c'

/-! ### The invariant -/

/-- The xApp sends the payload because of the agent. -/
def Said (c : ControlLoop κ) (a payload : Bytes) : Prop :=
  payload = xappTerminate ∨ (a, payload) ∈ c.heard

/-- An indication has come under the name, which is that of the gNB behind its connection, or
none. -/
def Source (listener : κ → Listener) (c : ControlLoop κ) (n : Bytes) : Prop :=
  ∃ k, ∃ s ∈ (c.relay k).rmr.log, ∃ p, s.message.mtype = some .RIC_INDICATION ∧
    s.about = some p ∧ visible s.message.meid = n ∧ (n = [] ∨ n = (listener k).identity p)

/-- The message is a control request of the agent that has the RAN `g`. -/
def Requested (codecs : LoopCodecs) (c : ControlLoop κ) (g : Bytes) (m : Mbuf) : Prop :=
  ∃ a payload, c.Said a payload ∧ c.agentIp_gnbId.find a = some g ∧ codecs.Encodes payload m

/-- What holds of a termination. -/
structure RelayInv (identity : Nat → Bytes) (r : E2Term.Relay) : Prop where
  blank : r.rmr.Blank
  inv : r.termination.Inv
  own : E2Term.Own identity r.termination
  keyed : E2Term.Keyed r.termination
  log : ∀ s ∈ r.rmr.log, s.FromRan identity

/-- Agents keep their RANs, RANs get the requests of their agents. -/
structure Inv (codecs : LoopCodecs) (listener : κ → Listener) (c : ControlLoop κ) : Prop where
  relay : ∀ k, RelayInv (listener k).identity (c.relay k)
  indication : ∀ i, c.indication = some i → c.Source listener (visible i.gnb_id)
  told : ∀ t ∈ c.told, c.Source listener t.gnb ∧
    (t.full ∨ c.agentIp_gnbId.find t.agent = some t.gnb)
  bound : ∀ a g, c.agentIp_gnbId.find a = some g → ∃ t ∈ c.told, t.agent = a ∧ t.gnb = g
  sender : c.rmr.Inv
  calls : ∀ call, c.rmr.Made call → call.message.mtype = some .RIC_CONTROL_REQ →
    c.Requested codecs call.message.meid call.message
  delivered : ∀ d ∈ c.delivered, d.message.mtype = some .RIC_CONTROL_REQ →
    c.Requested codecs ((listener d.termination).identity d.connection) d.message

/-- What was there is there still. -/
structure Grows (c c' : ControlLoop κ) : Prop where
  log : ∀ k, ∀ s ∈ (c.relay k).rmr.log, s ∈ (c'.relay k).rmr.log
  heard : ∀ x ∈ c.heard, x ∈ c'.heard
  bound : ∀ a g, c.agentIp_gnbId.find a = some g → c'.agentIp_gnbId.find a = some g
  told : ∀ t ∈ c.told, t ∈ c'.told

variable {codecs : LoopCodecs} {listener : κ → Listener} {c c' : ControlLoop κ}

omit [DecidableEq κ] in
/-- Nothing of what a step may add to has changed. -/
theorem Grows.same (hrelay : c'.relay = c.relay) (hheard : c'.heard = c.heard)
    (hbound : c'.agentIp_gnbId = c.agentIp_gnbId) (htold : c'.told = c.told) : Grows c c' where
  log _ _ hs := hrelay ▸ hs
  heard _ hx := hheard ▸ hx
  bound _ _ ha := hbound ▸ ha
  told _ ht := htold ▸ ht

omit [DecidableEq κ] in
/-- A source stays one while the loop goes on. -/
theorem Source.grow {n : Bytes} (h : c.Source listener n) (hg : Grows c c') :
    c'.Source listener n := by
  obtain ⟨k, s, hs, hsource⟩ := h
  exact ⟨k, s, hg.log k s hs, hsource⟩

omit [DecidableEq κ] in
/-- A request stays one while the loop goes on. -/
theorem Requested.grow {g : Bytes} {m : Mbuf} (h : c.Requested codecs g m) (hg : Grows c c') :
    c'.Requested codecs g m := by
  obtain ⟨a, payload, hsaid, hbound, hencodes⟩ := h
  exact ⟨a, payload, hsaid.imp_right (hg.heard _), hg.bound a g hbound, hencodes⟩

omit [DecidableEq κ] in
/-- A step has to account for what it adds. -/
theorem Inv.grow (h : Inv codecs listener c) (hg : Grows c c')
    (hrelay : ∀ k, RelayInv (listener k).identity (c'.relay k))
    (hindication : ∀ i, c'.indication = some i →
      c.indication = some i ∨ c.Source listener (visible i.gnb_id))
    (htold : ∀ t ∈ c'.told, t ∈ c.told ∨ c.Source listener t.gnb ∧
      (t.full ∨ c'.agentIp_gnbId.find t.agent = some t.gnb))
    (hbound : ∀ a g, c'.agentIp_gnbId.find a = some g →
      c.agentIp_gnbId.find a = some g ∨ ∃ t ∈ c'.told, t.agent = a ∧ t.gnb = g)
    (hsender : c'.rmr.Inv)
    (hcalls : ∀ call, c'.rmr.Made call → c.rmr.Made call ∨
      (call.message.mtype = some .RIC_CONTROL_REQ →
        c'.Requested codecs call.message.meid call.message))
    (hdelivered : ∀ d ∈ c'.delivered, d ∈ c.delivered ∨
      (d.message.mtype = some .RIC_CONTROL_REQ →
        c.Requested codecs ((listener d.termination).identity d.connection) d.message)) :
    Inv codecs listener c' where
  relay := hrelay
  indication i hi := by
    rcases hindication i hi with hi | hi
    · exact (h.indication i hi).grow hg
    · exact hi.grow hg
  told t ht := by
    rcases htold t ht with ht | ⟨hsource, ht⟩
    · obtain ⟨hsource, ht⟩ := h.told t ht
      exact ⟨hsource.grow hg, ht.imp_right (hg.bound _ _)⟩
    · exact ⟨hsource.grow hg, ht⟩
  bound a g ha := by
    rcases hbound a g ha with ha | ha
    · obtain ⟨t, ht, htag⟩ := h.bound a g ha
      exact ⟨t, hg.told t ht, htag⟩
    · exact ha
  sender := hsender
  calls call hcall hmtype := by
    rcases hcalls call hcall with hcall | hcall
    · exact (h.calls call hcall hmtype).grow hg
    · exact hcall hmtype
  delivered d hd hmtype := by
    rcases hdelivered d hd with hd | hd
    · exact (h.delivered d hd hmtype).grow hg
    · exact (hd hmtype).grow hg

/-- A round of a listener. -/
theorem RelayInv.round {l : Listener} {r : E2Term.Relay} (h : RelayInv l.identity r)
    {e : E2Term.RelayEvent} (hkeep : r.termination.keepsNames e.toEvent)
    (hone : e.OneIdentity l.identity) :
    RelayInv l.identity (r.round l.surroundings l.ka_message e) ∧
      ∀ s ∈ r.rmr.log, s ∈ (r.round l.surroundings l.ka_message e).rmr.log := by
  obtain ⟨-, -, -, hblank, hinv, hown⟩ :=
    E2Term.Relay.tells_round l.ka_message l.tidy h.blank h.inv h.own hkeep hone
  obtain ⟨hkeyed, sent, hlog, hsent⟩ :=
    E2Term.Relay.fromRan_round l.ka_message l.tidy h.blank l.fits h.inv h.own
      h.keyed hkeep hone
  refine ⟨⟨hblank, hinv, hown, hkeyed, fun s hs => ?_⟩, fun s hs => ?_⟩
  · rw [hlog] at hs
    exact (List.mem_append.1 hs).elim (h.log s) (hsent s)
  · rw [hlog]
    exact List.mem_append_left sent hs

/-! ### The steps -/

/-- Only one listener has a round; what is said by others stays. -/
theorem Inv.updateRelay (h : Inv codecs listener c) {k : κ} {e : E2Term.RelayEvent}
    (hkeep : (c.relay k).termination.keepsNames e.toEvent)
    (hone : e.OneIdentity (listener k).identity) :
    let relay := Function.update c.relay k
      ((c.relay k).round (listener k).surroundings (listener k).ka_message e)
    (∀ k, RelayInv (listener k).identity (relay k)) ∧
      ∀ k, ∀ s ∈ (c.relay k).rmr.log, s ∈ (relay k).rmr.log := by
  obtain ⟨hstep, hlog⟩ := (h.relay k).round hkeep hone
  dsimp only
  refine ⟨fun k' => ?_, fun k' s hs => ?_⟩
  · rw [Function.update_apply]
    split
    · rename_i heq
      exact heq ▸ hstep
    · exact h.relay k'
  · rw [Function.update_apply]
    split
    · rename_i heq
      subst heq
      exact hlog s hs
    · exact hs

omit [DecidableEq κ] in
/-- Where a call begins, it is asked for, or it is no control request. -/
theorem Inv.begin (h : Inv codecs listener c) (hg : Grows c c') (hidle : c.rmr.Idle)
    {t : SendingThread} {call : SendCall} {alloc : Option Mbuf} (hnamed : call.Named)
    (hrelay : c'.relay = c.relay) (hindication : c'.indication = c.indication)
    (htold : c'.told = c.told) (hbound : c'.agentIp_gnbId = c.agentIp_gnbId)
    (hrmr : c'.rmr = c.rmr.begin t call alloc) (hdelivered : c'.delivered = c.delivered)
    (hcall : call.message.mtype = some .RIC_CONTROL_REQ →
      c'.Requested codecs call.message.meid call.message) :
    Inv codecs listener c' := by
  refine h.grow hg (hrelay ▸ h.relay) (fun i hi => .inl (hindication ▸ hi))
    (fun t ht => .inl (htold ▸ ht)) (fun a g ha => .inl (hbound ▸ ha))
    (hrmr ▸ h.sender.begin hidle t hnamed alloc) (fun made hmade => ?_)
    fun d hd => .inl (hdelivered ▸ hd)
  rw [hrmr] at hmade
  rcases XappRmr.made_of_begin hmade with rfl | hmade
  · exact .inr hcall
  · exact .inl hmade

omit [DecidableEq κ] in
/-- The RAN of an agent has no NUL in its name, and there is room for one behind it. -/
theorem Inv.named (h : Inv codecs listener c) {a g : Bytes}
    (ha : c.agentIp_gnbId.find a = some g) : 0 ∉ g ∧ g.length < RMR_MAX_MEID := by
  obtain ⟨t, ht, -, rfl⟩ := h.bound a g ha
  obtain ⟨k, s, -, p, -, -, hvisible, hname⟩ := (h.told t ht).1
  refine ⟨hvisible ▸ zero_notMem_visible _, ?_⟩
  rcases hname with hnil | hidentity
  · rw [hnil]
    decide
  · rw [hidentity]
    exact (listener k).fits p

omit [DecidableEq κ] in
/-- The call that a payload for an agent's RAN makes. -/
theorem requested_sendRicControlRequest {a payload g : Bytes} (hsaid : c.Said a payload)
    (ha : c.agentIp_gnbId.find a = some g) (hg : 0 ∉ g) (buf : SendBuffer) :
    c.Requested codecs (codecs.sendRicControlRequest payload g buf).message.meid
      (codecs.sendRicControlRequest payload g buf).message := by
  have hmeid : (codecs.sendRicControlRequest payload g buf).hdr.meid = g := by
    unfold LoopCodecs.sendRicControlRequest
    split <;> rfl
  have hencodes : codecs.Encodes payload
      (codecs.sendRicControlRequest payload g buf).message := by
    intro b hb
    unfold LoopCodecs.sendRicControlRequest
    split
    · rename_i b' hb'
      obtain rfl := Option.some.inj (hb.symm.trans hb')
      unfold SendCall.message memcpy
      exact List.take_left' rfl
    · rename_i hnone
      cases hb.symm.trans hnone
  have hname : (codecs.sendRicControlRequest payload g buf).message.meid = g := by
    unfold SendCall.message
    rw [hmeid, visible_eq_self hg]
  rw [hname]
  exact ⟨a, payload, hsaid, ha, hencodes⟩

/-- There is room for the name. -/
theorem named_sendRicControlRequest {payload g : Bytes} (hg : 0 ∉ g ∧ g.length < RMR_MAX_MEID)
    (buf : SendBuffer) : (codecs.sendRicControlRequest payload g buf).Named := by
  have hmeid : (codecs.sendRicControlRequest payload g buf).hdr.meid = g := by
    unfold LoopCodecs.sendRicControlRequest
    split <;> rfl
  rw [SendCall.Named, hmeid, visible_eq_self hg.1]
  exact hg.2

omit [DecidableEq κ] in
/-- **An element of an indication**: its agent keeps its RAN, or takes this one, or all agents
have one. -/
theorem Inv.handleIe (h : Inv codecs listener c) {i : Indicating} (hi : c.indication = some i)
    (ie : RICindication_IE) (progress : Progress) :
    Inv codecs listener (c.handleIe i ie progress) := by
  have hsource := h.indication i hi
  have hindication : ∀ j, some { i with idx := i.idx + 1, progress } = some j →
      c.indication = some j ∨ c.Source listener (visible j.gnb_id) := by
    intro j hj
    obtain rfl := Option.some.inj hj
    exact .inr hsource
  cases ie with
  | message payload =>
      have hassigns := findAgentIpFromGnb_assigns c.agentIp_socket c.agentIp_gnbId i.gnb_id
      refine h.grow ⟨fun _ _ hs => hs, fun _ hx => hx, fun a g ha => hassigns.extends a g ha,
        fun _ ht => List.mem_append_left _ ht⟩ h.relay hindication (fun t ht => ?_)
        (fun a g ha => ?_) h.sender (fun _ => .inl) fun _ => .inl
      · rcases List.mem_append.1 ht with ht | ht
        · exact .inl ht
        · obtain rfl := List.mem_singleton.1 ht
          refine .inr ⟨hsource, ?_⟩
          rcases hassigns.held_or_refused with hheld | ⟨-, -, -, hfull⟩
          · exact .inr hheld
          · exact .inl (List.all_eq_true.2 hfull)
      · by_cases hold : c.agentIp_gnbId.find a = some g
        · exact .inl hold
        · -- the entry is new: it is that of the agent that is told
          refine .inr ⟨_, List.mem_append_right _ (List.mem_singleton_self _), ?_⟩
          exact hassigns.new_entry hold ha
  | _ =>
      exact h.grow (.same rfl rfl rfl rfl) h.relay hindication (fun _ => .inl) (fun _ _ => .inl)
        h.sender (fun _ => .inl) fun _ => .inl

omit [DecidableEq κ] in
/-- A control request that RMR took goes to the RAN whose agent asked for it: the connection
under its name is that of the gNB. -/
theorem Inv.delivered_accepted (h : Inv codecs listener c) {k : κ} {m : Mbuf}
    (hm : m ∈ c.rmr.accepted) (hmtype : m.mtype = some .RIC_CONTROL_REQ) {p : Nat}
    (hp : (c.relay k).termination.sendsOn m.meid = some p) :
    c.Requested codecs ((listener k).identity p) m := by
  rw [h.sender.accepted] at hm
  obtain ⟨⟨call, result⟩, hcall, rfl⟩ := List.mem_map.1 hm
  have hmade : c.rmr.Made call := .inr ⟨result, (List.mem_filter.1 hcall).1⟩
  have hrequested := h.calls call hmade hmtype
  dsimp only at hp hrequested ⊢
  generalize call.message.meid = g at hp hrequested
  have hg : 0 ∉ g := by
    obtain ⟨a, payload, -, hfind, -⟩ := hrequested
    exact (h.named hfind).1
  have hlookup : (c.relay k).termination.sctpMap.lookup g = some p := by
    rwa [E2Term.Termination.sendsOn, visible_eq_self hg] at hp
  obtain ⟨cu, hcu⟩ := Option.isSome_iff_exists.1 ((h.relay k).inv.stored_live hlookup)
  have hname := (h.relay k).inv.name_eq hcu hlookup
  rcases (h.relay k).own p cu hcu with hnil | hidentity
  · rw [hname, hnil] at hlookup
    exact absurd hlookup ((h.relay k).keyed p)
  · rwa [← hidentity, ← hname]

/-- **One step.** -/
theorem Inv.step (h : Inv codecs listener c) (hstep : Step codecs listener c c') :
    Inv codecs listener c' := by
  cases hstep with
  | listen k e hkeep hone hround =>
      obtain rfl := E2Term.Relay.eq_round_of_step hround
      obtain ⟨hrelay, hlog⟩ := h.updateRelay hkeep hone
      exact h.grow ⟨hlog, fun _ hx => hx, fun _ _ ha => ha, fun _ ht => ht⟩ hrelay
        (fun _ => .inl) (fun _ => .inl) (fun _ _ => .inl) h.sender (fun _ => .inl) fun _ => .inl
  | connect agent_ip sckfd =>
      exact h.grow (.same rfl rfl rfl rfl) h.relay (fun _ => .inl) (fun _ => .inl)
        (fun _ _ => .inl) h.sender (fun _ => .inl) fun _ => .inl
  | @receive k s ies hs hmtype hlength hdecode hnone =>
      refine h.grow (.same rfl rfl rfl rfl) h.relay (fun i hi => .inr ?_) (fun _ => .inl)
        (fun _ _ => .inl) h.sender (fun _ => .inl) fun _ => .inl
      obtain rfl := Option.some.inj hi
      obtain ⟨p, n, habout, rfl, hname⟩ := (h.relay k).log s hs hmtype
      exact ⟨k, s, hs, p, hmtype, habout, rfl, hname⟩
  | @element i ie g progress hi hie hnext => exact h.handleIe hi ie progress
  | done hi hie =>
      exact h.grow (.same rfl rfl rfl rfl) h.relay (fun _ hnone => absurd hnone (by simp))
        (fun _ => .inl) (fun _ _ => .inl) h.sender (fun _ => .inl) fun _ => .inl
  | @hear agent_ip data buf sendBuf alloc hconnected hbuf hidle =>
      have hheard : ∀ x ∈ c.heard, x ∈ c.heard ++ [(agent_ip, buf)] :=
        fun x hx => List.mem_append_left _ hx
      unfold ControlLoop.hear handleRxMsgAgent
      dsimp only
      cases hfind : c.agentIp_gnbId.find agent_ip with
      | none =>
          exact h.grow ⟨fun _ _ hs => hs, hheard, fun _ _ ha => ha, fun _ ht => ht⟩ h.relay
            (fun _ => .inl) (fun _ => .inl) (fun _ _ => .inl) h.sender (fun _ => .inl)
            fun _ => .inl
      | some g =>
          rw [Option.map_some]
          dsimp only
          refine h.begin ⟨fun _ _ hs => hs, hheard, fun _ _ ha => ha, fun _ ht => ht⟩ hidle
            (named_sendRicControlRequest (h.named hfind) sendBuf) rfl rfl rfl rfl rfl rfl
            fun _ => ?_
          have hsaid : (agent_ip, buf) ∈ c.heard ++ [(agent_ip, buf)] :=
            List.mem_append_right _ (List.mem_singleton_self _)
          refine @requested_sendRicControlRequest κ codecs _ agent_ip buf g ?_ ?_
            (h.named hfind).1 sendBuf
          · exact .inr hsaid
          · exact hfind
  | @terminate agent_ip g sendBuf alloc hconnected hfind hidle =>
      refine h.begin (.same rfl rfl rfl rfl) hidle
        (named_sendRicControlRequest (h.named hfind) sendBuf) rfl rfl rfl rfl rfl rfl fun _ => ?_
      exact requested_sendRicControlRequest (.inl rfl) hfind (h.named hfind).1 sendBuf
  | subscribe call alloc htype hnamed hidle =>
      refine h.begin (.same rfl rfl rfl rfl) hidle hnamed rfl rfl rfl rfl rfl rfl
        fun hmtype => ?_
      have hcontrol : call.hdr.message_type = .RIC_CONTROL_REQ := Option.some.inj hmtype
      cases htype.symm.trans hcontrol
  | send t answer hnext =>
      exact h.grow (.same rfl rfl rfl rfl) h.relay (fun _ => .inl) (fun _ => .inl)
        (fun _ _ => .inl) (h.sender.next hnext)
        (fun call hmade => .inl (XappRmr.made_of_next hnext hmade)) fun _ => .inl
  | @control k m messageType sent hm =>
      have hkeep : (c.relay k).termination.keepsNames
          (E2Term.RelayEvent.rmr (.downlink m.meid messageType sent)).toEvent := trivial
      have hone : (E2Term.RelayEvent.rmr (.downlink m.meid messageType sent)).OneIdentity
          (listener k).identity := by
        rintro p ies payload ⟨reads, bytes, pdu, heq, -, -⟩
        cases heq
      obtain ⟨hrelay, hlog⟩ := h.updateRelay hkeep hone
      refine h.grow ⟨hlog, fun _ hx => hx, fun _ _ ha => ha, fun _ ht => ht⟩ hrelay
        (fun _ => .inl) (fun _ => .inl) (fun _ _ => .inl) h.sender (fun _ => .inl) fun d hd => ?_
      rcases List.mem_append.1 hd with hd | hd
      · exact .inl hd
      · refine .inr fun hmtype => ?_
        split at hd
        · obtain ⟨p, hp, rfl⟩ := List.mem_map.1 hd
          exact h.delivered_accepted hm hmtype (Option.mem_toList.1 hp)
        · cases hd

omit [DecidableEq κ] in
/-- Nothing is said, sent or delivered at the start. -/
theorem Inv.start (nattempts : Nat) (rmr_is_ready : Bool) :
    Inv codecs listener {
      relay := fun k => .start (listener k).surroundings
      rmr := { nattempts, rmr_is_ready } } where
  relay k := {
    blank := E2Term.Relay.blank_start (listener k).surroundings
    inv := E2Term.Termination.Inv.start
    own := fun p cu h => by cases h
    keyed := fun q h => by cases h
    log := fun s hs => absurd hs List.not_mem_nil }
  indication _ h := by cases h
  told _ h := absurd h List.not_mem_nil
  bound _ _ h := by cases h
  sender := .start nattempts rmr_is_ready
  calls call h := by
    rcases h with ⟨t, stage, h⟩ | ⟨result, h⟩
    · cases h
    · exact absurd h List.not_mem_nil
  delivered _ h := absurd h List.not_mem_nil

/-- The invariant holds of every loop that is reached. -/
theorem Inv.reached (h : Reached codecs listener c) : Inv codecs listener c := by
  induction h with
  | start nattempts rmr_is_ready => exact .start ..
  | step _ hstep ih => exact ih.step hstep

/-- **The loop is closed over one RAN**: a control request that is sent on a connection says what
an agent said (or is the command to terminate); the agent was chosen for an indication that was
relayed under the name of the RAN behind the connection; and where it was chosen for another
RAN, every agent had a RAN of its own. -/
theorem closed_of_reached (h : Reached codecs listener c) {d : Delivered κ}
    (hd : d ∈ c.delivered) (hmtype : d.message.mtype = some .RIC_CONTROL_REQ) :
    ∃ a payload, c.Said a payload ∧ codecs.Encodes payload d.message ∧
      c.Source listener ((listener d.termination).identity d.connection) ∧
      (∃ t ∈ c.told, t.agent = a ∧
        t.gnb = (listener d.termination).identity d.connection) ∧
      ∀ t ∈ c.told, t.agent = a →
        t.gnb = (listener d.termination).identity d.connection ∨ t.full := by
  have hinv := Inv.reached h
  obtain ⟨a, payload, hsaid, hfind, hencodes⟩ := hinv.delivered d hd hmtype
  obtain ⟨t, ht, htag⟩ := hinv.bound a _ hfind
  refine ⟨a, payload, hsaid, hencodes, htag.2 ▸ (hinv.told t ht).1, ⟨t, ht, htag⟩,
    fun u hu hagent => ?_⟩
  rcases (hinv.told u hu).2 with hfull | hown
  · exact .inr hfull
  · rw [hagent] at hown
    exact .inl (Option.some.inj (hown.symm.trans hfind))

/-- The sender's steps lead from one reached loop to another. -/
theorem Reached.follow (h : Reached codecs listener c) {steps : List (SendingThread × SendState)}
    {rmr : XappRmr SendingThread} (hsteps : c.rmr.follow codecs.str2meid steps = some rmr) :
    Reached codecs listener { c with rmr } := by
  induction steps generalizing c with
  | nil =>
      obtain rfl := Option.some.inj hsteps
      exact h
  | cons x steps ih =>
      obtain ⟨r₁, hr₁, hrest⟩ := Option.bind_eq_some_iff.1 hsteps
      have hnext : c.rmr.next codecs.str2meid x.1 x.2 = some r₁ := hr₁
      have hstep : Reached codecs listener { c with rmr := r₁ } :=
        .step h (.send x.1 x.2 hnext)
      exact @ih { c with rmr := r₁ } hstep hrest

end ControlLoop

/-! ### One round of the loop -/

namespace OneSite

open E2Term ControlLoop

def listener (_ : Unit) : Listener where
  surroundings := surroundings
  tidy n := .inr ((terminal ()).takes n)
  ka_message := settings.kaText
  identity := (terminal ()).identity
  fits _ := (by decide : (ascii "gnb:208-092-b5c67711").length < Xapp.RMR_MAX_MEID)

/-- The gNB sends an indication. -/
def indicates : RelayEvent :=
  .data 0 [.message [0, 5, 7] (some ⟨.initiatingMessage, .RICindication, [], none,
    [.requestID (some ⟨24, 0⟩)]⟩), .eagain]

def gnbName : Bytes := ascii "gnb:208-092-b5c67711"

/-- Every indication has one message, of a format that is not read, and a request is encoded as
three bytes. -/
def loopCodecs : LoopCodecs where
  decode _ := some [.message [7]]
  e2sm := ⟨fun _ => none, fun _ => some .other⟩
  encode _ := some [0, 4, 64]
  str2meid := XappRmr.str2meid

def agentIp : Bytes := ascii "10.0.2.200"

def sockets : AgentIpSocket := ({} : AgentIpSocket).insert agentIp 7

/-- The agent is connected, and the indication has come. -/
def indicated : ControlLoop Unit where
  relay _ := relayed (events ++ [indicates])
  agentIp_socket := sockets
  indication := some ⟨gnbName, [.message [7]], 0, {}⟩
  rmr := {}

/-- The agent says something. -/
def said : Bytes := memcpy (ascii "7,2") (List.replicate 256 0)

def sendBuf : SendBuffer := ⟨List.replicate bufferSize 0, List.length_replicate ..⟩

/-- What the agent's thread makes of it. -/
def controlRequest : SendCall := loopCodecs.sendRicControlRequest said gnbName sendBuf

/-- So does an event at the termination of the example. -/
theorem listen_reached {es : List RelayEvent} {e : RelayEvent}
    (h : Reached loopCodecs listener { relay := fun _ => relayed es, rmr := {} })
    (hkeep : (relayed es).termination.keepsNames e.toEvent)
    (hone : e.OneIdentity (terminal ()).identity)
    (hstray : ((relayed es).round surroundings settings.kaText e).rmr.stray = false) :
    Reached loopCodecs listener { relay := fun _ => relayed (es ++ [e]), rmr := {} } := by
  have hstep := Reached.step h (.listen () e hkeep hone (step_relayed hstray))
  rwa [update_unit] at hstep

/-- The loop in which the indication has come in is reached. -/
theorem reached_indicated : Reached loopCodecs listener indicated := by
  have hstart : Reached loopCodecs listener
      ({ relay := fun _ => relayed [], rmr := {} } : ControlLoop Unit) :=
    .start 10 true
  have hconnects := @listen_reached _ Relay.connects hstart trivial
    (oneIdentity_events (by simp [events])) rfl
  have hsetsUp : Reached loopCodecs listener
      ({ relay := fun _ => relayed events, rmr := {} } : ControlLoop Unit) :=
    listen_reached hconnects keepNames_events.2.1 (oneIdentity_events (by simp [events]))
      (by decide +kernel)
  have hkeep : (relayed events).termination.keepsNames indicates.toEvent :=
    ⟨by decide +kernel, trivial, trivial⟩
  have hone : indicates.OneIdentity (terminal ()).identity := by
    rintro p ies payload ⟨reads, bytes, pdu, heq, hread, hsetup⟩
    obtain ⟨rfl, rfl⟩ := RelayEvent.data.inj heq
    rcases List.mem_cons.1 hread with h | h
    · obtain ⟨rfl, hpdu⟩ := SctpRead.message.inj h
      obtain rfl := Option.some.inj hpdu
      cases hsetup
    · cases List.mem_singleton.1 h
  have hindicates := listen_reached hsetsUp hkeep hone (by decide +kernel)
  have hlog : ((relayed (events ++ [indicates])).rmr.log.map fun s =>
      (s.message.mtype, s.message.meid, s.message.payload))[1]? =
        some (some .RIC_INDICATION, gnbName, [0, 5, 7]) := by
    decide +kernel
  rw [List.getElem?_map] at hlog
  obtain ⟨s, hs, hfields⟩ := Option.map_eq_some_iff.1 hlog
  obtain ⟨hmtype, hrest⟩ := Prod.mk.inj hfields
  obtain ⟨hmeid, hpayload⟩ := Prod.mk.inj hrest
  have hconnected := Reached.step hindicates (.connect agentIp 7)
  have hreceived := Reached.step hconnected (.receive () (List.mem_of_getElem? hs) hmtype
    (by rw [hpayload]; decide) rfl rfl)
  rw [hmeid] at hreceived
  exact hreceived

/-- In the example a control request is delivered to the gNB whose indication led to it. -/
theorem closed_of_reached_request : ∃ (c : ControlLoop Unit) (d : Delivered Unit),
    d ∈ c.delivered ∧ d.connection = 0 ∧ d.message.payload = [0, 4, 64] ∧
    ∃ a payload, c.Said a payload ∧ loopCodecs.Encodes payload d.message ∧
      c.Source listener ((listener d.termination).identity d.connection) ∧
      (∃ t ∈ c.told, t.agent = a ∧
        t.gnb = (listener d.termination).identity d.connection) ∧
      ∀ t ∈ c.told, t.agent = a →
        t.gnb = (listener d.termination).identity d.connection ∨ t.full := by
  have htold : Reached loopCodecs listener (indicated.handleIe
      ⟨gnbName, [.message [7]], 0, {}⟩ (.message [7]) {}) :=
    .step reached_indicated (.element Garbage.ones rfl rfl rfl)
  have hconnected : ((indicated.handleIe ⟨gnbName, [.message [7]], 0, {}⟩
      (.message [7]) {}).agentIp_socket.find agentIp).isSome := by
    decide +kernel
  have hbuffer : rxBuffer (ascii "7,2") = some said := by decide +kernel
  have hidle : (({} : XappRmr SendingThread)).Idle := fun _ => rfl
  have hheard := Reached.step htold
    (.hear sendBuf (some XappRmr.freshBuffer) hconnected hbuffer hidle)
  have hfind : (findAgentIpFromGnb sockets {} gnbName).2.find agentIp = some gnbName := by
    decide +kernel
  have hbegun : (indicated.handleIe ⟨gnbName, [.message [7]], 0, {}⟩ (.message [7]) {}).hear
      loopCodecs agentIp said sendBuf (some XappRmr.freshBuffer) =
      { indicated.handleIe ⟨gnbName, [.message [7]], 0, {}⟩ (.message [7]) {} with
        heard := [(agentIp, said)]
        rmr := ({} : XappRmr SendingThread).begin (.agent agentIp) controlRequest
          (some XappRmr.freshBuffer) } := by
    unfold hear handleRxMsgAgent handleIe indicated
    dsimp only
    rw [hfind]
    rfl
  rw [hbegun] at hheard
  have hsent : ((({} : XappRmr SendingThread).begin (.agent agentIp) controlRequest
      (some XappRmr.freshBuffer)).follow XappRmr.str2meid
        (List.replicate 3 (.agent agentIp, .ok))).map (·.accepted) =
          some [controlRequest.message] := by decide +kernel
  obtain ⟨rmr, hrmr, haccepted⟩ := Option.map_eq_some_iff.1 hsent
  have htaken := hheard.follow hrmr
  have hmem : controlRequest.message ∈ rmr.accepted := by
    rw [haccepted]
    exact List.mem_singleton_self _
  have hclosed := Reached.step htaken (.control () 12040 true hmem)
  have hconnection : (relayed (events ++ [indicates])).termination.sendsOn gnbName = some 0 := by
    decide +kernel
  have hname : controlRequest.message.meid = gnbName := by decide +kernel
  refine ⟨_, ⟨(), 0, controlRequest.message⟩, ?_, rfl, by decide +kernel,
    closed_of_reached hclosed ?_ (by decide +kernel)⟩
  all_goals
    refine List.mem_append_right _ ?_
    rw [if_pos rfl, hname]
    exact List.mem_map.2 ⟨0, Option.mem_toList.2 hconnection, rfl⟩

end OneSite

end NearRtRic.Platform
