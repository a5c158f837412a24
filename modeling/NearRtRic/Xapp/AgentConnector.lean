/-
# The agents of the gNBs

`find_agent_ip_from_gnb` of `agent_connector.cc` decides which agent gets the records of a
gNB.  It searches `agentIp_gnbId` for the gNB, and gives a gNB that is not there the first
connected agent without one; where every agent has a gNB, the loop runs to its end and the
last agent is answered, without an entry.  `handle_rx_msg_agent` goes the other way: what
an agent sends goes to the gNB of its entry.

A call is a request for a slot that is given away for good (`findAgentIpFromGnb_assigns`),
so what `Placement.Requests` says of such requests holds of any sequence of calls
(`agents_stable_and_injective`).
-/

import NearRtRic.CString.Basic
import NearRtRic.Index.OrderedMap
import NearRtRic.Placement.FirstFree

namespace NearRtRic.Xapp

open CString Index Placement

/-- `agentIp_socket`: the connected agents and their sockets. -/
abbrev AgentIpSocket := OrderedMap Bytes Int32

/-- `agentIp_gnbId`. -/
abbrev AgentIpGnbId := OrderedMap Bytes Bytes

/-- The loop over `agentIp_socket` from some agent on: the first agent without an entry gets
one.  The variable `agent_ip` keeps the agent of the last round. -/
def takeFreeAgent (agentIp_gnbId : AgentIpGnbId) (gnb_id : Bytes) :
    Bytes → List Bytes → Bytes × AgentIpGnbId
  | agent_ip, [] => (agent_ip, agentIp_gnbId)
  | _, agent_ip :: agents =>
      match agentIp_gnbId.find agent_ip with
      | none => (agent_ip, agentIp_gnbId.insert agent_ip gnb_id)
      | some _ => takeFreeAgent agentIp_gnbId gnb_id agent_ip agents

/-- `find_agent_ip_from_gnb`; the id of the gNB ends at its NUL. -/
def findAgentIpFromGnb (agentIp_socket : AgentIpSocket) (agentIp_gnbId : AgentIpGnbId)
    (gnb_id_trans : Bytes) : Bytes × AgentIpGnbId :=
  let gnb_id := visible gnb_id_trans
  match agentIp_gnbId.keyOf gnb_id with
  | some agent_ip => (agent_ip, agentIp_gnbId)
  | none => takeFreeAgent agentIp_gnbId gnb_id [] agentIp_socket.keys

/-- A message received in `handle_rx_msg_agent`: the RIC control request that is sent, with
the gNB it goes to; `none` where the agent has no gNB. -/
def handleRxMsgAgent (agentIp_gnbId : AgentIpGnbId) (buf agent_ip : Bytes) :
    Option (Bytes × Bytes) :=
  (agentIp_gnbId.find agent_ip).map fun gnb_id => (buf, gnb_id)

/-- `agentIp_gnbId` after calls for some gNBs. -/
def agentIpGnbIdAfter (agentIp_socket : AgentIpSocket) (gnbs : List Bytes) : AgentIpGnbId :=
  gnbs.foldl (fun m gnb => (findAgentIpFromGnb agentIp_socket m gnb).2) {}

/-- The agent that a call returns after calls for some gNBs. -/
def agentAfter (agentIp_socket : AgentIpSocket) (gnbs : List Bytes) (gnb : Bytes) : Bytes :=
  (findAgentIpFromGnb agentIp_socket (agentIpGnbIdAfter agentIp_socket gnbs) gnb).1

variable {agentIp_socket : AgentIpSocket} {agentIp_gnbId : AgentIpGnbId} {gnb gnb_id : Bytes}

/-- The loop stops at a free agent, or has seen that there is none. -/
theorem takeFreeAgent_spec (agentIp_gnbId : AgentIpGnbId) (gnb_id agent_ip : Bytes)
    (agents : List Bytes) :
    (∃ a ∈ agents, agentIp_gnbId.find a = none ∧
      takeFreeAgent agentIp_gnbId gnb_id agent_ip agents =
        (a, agentIp_gnbId.insert a gnb_id)) ∨
    ((∀ a ∈ agents, (agentIp_gnbId.find a).isSome) ∧
      takeFreeAgent agentIp_gnbId gnb_id agent_ip agents =
        (agents.getLastD agent_ip, agentIp_gnbId)) := by
  induction agents generalizing agent_ip with
  | nil => exact .inr ⟨by simp, rfl⟩
  | cons a agents ih =>
      rw [takeFreeAgent]
      cases hfind : agentIp_gnbId.find a with
      | none => exact .inl ⟨a, List.mem_cons_self .., hfind, rfl⟩
      | some g =>
          rcases ih a with ⟨b, hb, hnone, heq⟩ | ⟨hall, heq⟩
          · exact .inl ⟨b, List.mem_cons_of_mem _ hb, hnone, heq⟩
          · refine .inr ⟨?_, heq.trans ?_⟩
            · intro b hb
              rcases List.mem_cons.1 hb with rfl | hb
              · rw [hfind]
                rfl
              · exact hall b hb
            · rw [List.getLastD_cons]

/-- **A call is a request of its gNB for an agent**, where the last agent is the one that the
others have to share. -/
theorem findAgentIpFromGnb_assigns (agentIp_socket : AgentIpSocket)
    (agentIp_gnbId : AgentIpGnbId) (gnb : Bytes) :
    Assigns agentIp_socket.keys (agentIp_socket.keys.getLastD []) agentIp_gnbId.find
      (visible gnb) (findAgentIpFromGnb agentIp_socket agentIp_gnbId gnb).1
      (findAgentIpFromGnb agentIp_socket agentIp_gnbId gnb).2.find := by
  unfold findAgentIpFromGnb
  dsimp only
  cases hkey : agentIp_gnbId.keyOf (visible gnb) with
  | some agent_ip => exact .kept (OrderedMap.find_of_keyOf hkey)
  | none =>
      have hnew := OrderedMap.find_ne_of_keyOf hkey
      rcases takeFreeAgent_spec agentIp_gnbId (visible gnb) [] agentIp_socket.keys with
        ⟨a, ha, hfree, heq⟩ | ⟨hfull, heq⟩
      · dsimp only
        rw [heq]
        have hupdate : (agentIp_gnbId.insert a (visible gnb)).find =
            Function.update agentIp_gnbId.find a (some (visible gnb)) := by
          funext k
          rw [OrderedMap.find_insert, Function.update_apply]
        dsimp only
        rw [hupdate]
        exact .taken hnew ha hfree
      · dsimp only
        rw [heq]
        exact .refused hnew hfull

/-- The gNBs are requested one after the other, and find the agents that the requests gave them. -/
theorem requests_foldl (agentIp_socket : AgentIpSocket) (agentIp_gnbId : AgentIpGnbId)
    (gnbs : List Bytes) :
    Requests agentIp_socket.keys (agentIp_socket.keys.getLastD []) agentIp_gnbId.find
      (gnbs.map visible)
      (gnbs.foldl (fun m gnb => (findAgentIpFromGnb agentIp_socket m gnb).2)
        agentIp_gnbId).find := by
  induction gnbs generalizing agentIp_gnbId with
  | nil => exact .nil _
  | cons gnb gnbs ih => exact .cons (findAgentIpFromGnb_assigns ..) (ih _)

/-- What any sequence of calls leaves behind. -/
theorem taken_after (agentIp_socket : AgentIpSocket) (gnbs : List Bytes) :
    Taken agentIp_socket.keys (gnbs.map visible)
      (agentIpGnbIdAfter agentIp_socket gnbs).find := by
  have h := (requests_foldl agentIp_socket {} gnbs).taken taken_nil
  rwa [List.nil_append] at h

/-- Later calls are requests that find what the earlier ones left. -/
theorem requests_after (agentIp_socket : AgentIpSocket) (gnbs later : List Bytes) :
    Requests agentIp_socket.keys (agentIp_socket.keys.getLastD [])
      (agentIpGnbIdAfter agentIp_socket gnbs).find (later.map visible)
      (agentIpGnbIdAfter agentIp_socket (gnbs ++ later)).find := by
  have h := requests_foldl agentIp_socket (agentIpGnbIdAfter agentIp_socket gnbs) later
  unfold agentIpGnbIdAfter at h ⊢
  rwa [← List.foldl_append] at h

/-- Calls for the same gNB return the same agent, whatever other calls are between them. -/
theorem agentAfter_again (agentIp_socket : AgentIpSocket) (gnbs later : List Bytes)
    {gnb gnb' : Bytes} (h : visible gnb = visible gnb') :
    agentAfter agentIp_socket (gnbs ++ gnb :: later) gnb' =
      agentAfter agentIp_socket gnbs gnb := by
  have hfirst := findAgentIpFromGnb_assigns agentIp_socket
    (agentIpGnbIdAfter agentIp_socket gnbs) gnb
  have hagain := findAgentIpFromGnb_assigns agentIp_socket
    (agentIpGnbIdAfter agentIp_socket (gnbs ++ gnb :: later)) gnb'
  have hrest := requests_after agentIp_socket (gnbs ++ [gnb]) later
  rw [List.append_assoc, List.singleton_append] at hrest
  have hstep : agentIpGnbIdAfter agentIp_socket (gnbs ++ [gnb]) =
      (findAgentIpFromGnb agentIp_socket (agentIpGnbIdAfter agentIp_socket gnbs) gnb).2 := by
    unfold agentIpGnbIdAfter
    rw [List.foldl_append]
    rfl
  rw [hstep] at hrest
  rw [← h] at hagain
  exact hrest.same_slot hfirst hagain (taken_after agentIp_socket gnbs)

/-- As long as no more gNBs were asked for than there are agents, the agent that was returned
for a gNB has its entry. -/
theorem find_agentAfter {gnbs before after : List Bytes}
    (hcard : (gnbs.map visible).dedup.length ≤ agentIp_socket.entries.length)
    (hgnbs : gnbs = before ++ gnb :: after) :
    (agentIpGnbIdAfter agentIp_socket gnbs).find (agentAfter agentIp_socket before gnb) =
      some (visible gnb) := by
  have htaken := taken_after agentIp_socket gnbs
  have hlen : agentIp_socket.keys.length = agentIp_socket.entries.length := List.length_map ..
  have hmem : visible gnb ∈ gnbs.map visible :=
    List.mem_map.2 ⟨gnb, by simp [hgnbs], rfl⟩
  obtain ⟨a, ha⟩ := htaken.exists_slot agentIp_socket.nodup (by omega) hmem
  have hagain := agentAfter_again agentIp_socket before after (Eq.refl (visible gnb))
  rw [← hgnbs] at hagain
  have hcall := findAgentIpFromGnb_assigns agentIp_socket
    (agentIpGnbIdAfter agentIp_socket gnbs) gnb
  have heq : agentAfter agentIp_socket gnbs gnb = a := hcall.eq_of_held htaken ha
  rw [← hagain, heq, ha]

/-- **The agents of the gNBs are stable and injective**, over any sequence of calls: no gNB
is under two agents, an entry never changes, every call for a gNB returns the agent of its
first call, and as long as no more gNBs were asked for than there are agents, different gNBs
get different agents, and what an agent sends goes to the gNB it was returned for. -/
theorem agents_stable_and_injective (agentIp_socket : AgentIpSocket) (gnbs : List Bytes) :
    (∀ a b g, (agentIpGnbIdAfter agentIp_socket gnbs).find a = some g →
      (agentIpGnbIdAfter agentIp_socket gnbs).find b = some g → a = b) ∧
    (∀ later a g, (agentIpGnbIdAfter agentIp_socket gnbs).find a = some g →
      (agentIpGnbIdAfter agentIp_socket (gnbs ++ later)).find a = some g) ∧
    (∀ later gnb gnb', visible gnb = visible gnb' →
      agentAfter agentIp_socket (gnbs ++ gnb :: later) gnb' =
        agentAfter agentIp_socket gnbs gnb) ∧
    ((gnbs.map visible).dedup.length ≤ agentIp_socket.entries.length →
      (∀ before gnb after before' gnb' after', gnbs = before ++ gnb :: after →
        gnbs = before' ++ gnb' :: after' → visible gnb ≠ visible gnb' →
        agentAfter agentIp_socket before gnb ≠ agentAfter agentIp_socket before' gnb') ∧
      ∀ before gnb after buf, gnbs = before ++ gnb :: after →
        handleRxMsgAgent (agentIpGnbIdAfter agentIp_socket gnbs) buf
          (agentAfter agentIp_socket before gnb) = some (buf, visible gnb)) := by
  refine ⟨?_, ?_, ?_, fun hcard => ⟨?_, ?_⟩⟩
  · intro a b g ha hb
    exact (taken_after agentIp_socket gnbs).exclusive ha hb
  · intro later a g ha
    exact (requests_after agentIp_socket gnbs later).extends a g ha
  · intro later gnb gnb' h
    exact agentAfter_again agentIp_socket gnbs later h
  · intro before gnb after before' gnb' after' h h' hne heq
    have hgnb := find_agentAfter hcard h
    have hgnb' := find_agentAfter hcard h'
    rw [heq, hgnb'] at hgnb
    exact hne (Option.some.inj hgnb).symm
  · intro before gnb after buf h
    unfold handleRxMsgAgent
    rw [find_agentAfter hcard h, Option.map_some]

end NearRtRic.Xapp
