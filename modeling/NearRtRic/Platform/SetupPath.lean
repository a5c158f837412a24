/-
# From a gNB to the database

The E2 terminations and the E2 manager together.  A `Site` is a termination with the
configuration it started with and a run of its listener, a `Platform` some of them beside
one manager.  RMR may lose, repeat, delay and reorder what a site hands to it, so that any
of its messages may reach the manager at any time; HTTP requests, delete-all and the
keep-alive worker come on top, and every handler runs in a goroutine of its own.

`accounts_of_reach` is what holds of the database all the same.  A RAN in it was asked for
over HTTP, or its name is that of an identity which a setup request on one of the sites'
connections said.  An address in it, of an instance or in a record, is the address of a
site, though it comes by two ways: with an E2_TERM_INIT, as JSON, and in front of the setup
request, up to a bar.

What is assumed of a site is in its fields: the address has no bar in it, and the listener's
events are about open connections and keep names.  Of the manager's JSON decoder it is assumed
that it reads in an E2_TERM_INIT what the site printed there, as it does where the address,
the FQDN and the name of the pod need no escapes.

A Go string is made of the bytes of a message, one character for each.
-/

import NearRtRic.E2Manager.Provenance
import NearRtRic.E2Term.Configuration
import NearRtRic.E2Term.SetupOrigin

namespace NearRtRic.Platform

open CString Effect

/-- The string of some bytes. -/
def text (b : Bytes) : String := String.ofList (b.map fun c => Char.ofNat c.toNat)

/-- The payload of a setup request is what a termination with these parameters prints. -/
def PrintedBy (params : E2Term.SctpParams) (payload : Bytes) : Prop :=
  ∃ pugi enodbName rendering repValues stack old rmrMsg buffer,
    E2Term.buildAndsendSetupRequest pugi params enodbName (some rendering) repValues stack old =
      .sends rmrMsg buffer ∧ payload = rmrMsg.sent

/-- An E2 termination: how it was started, and what happened. -/
structure Site where
  file : Option Bytes
  getenv : Bytes → Option Bytes
  settings : E2Term.Settings
  configured : E2Term.buildConfiguration file getenv = some settings
  no_bar : 124 ∉ settings.myIP
  surroundings : E2Term.Surroundings
  events : List E2Term.RelayEvent
  relay : E2Term.Relay
  runs : (E2Term.Relay.start surroundings).run surroundings settings.kaText events = some relay
  keepNames : E2Term.start.KeepNames events
  prints : ∀ e ∈ events, ∀ p ies payload, e.Reads p ies payload →
    PrintedBy settings.toSctpParams payload

/-- A message from RMR as the handlers of the manager see it. -/
def received (m : E2Term.RmrMessage) : E2Manager.NotificationRequest where
  ranName := text (E2Term.nameIn m.meid)
  payload := text m.payload
  transactionId := text m.xact

namespace Site

variable (site : Site)

/-- `<local-ip>:<nano>`. -/
def addressBytes : Bytes :=
  visible site.settings.myIP ++ ascii ":" ++ printed site.settings.rmrPort.toNat

def address : String := text site.addressBytes

/-- What the listener hands to RMR. -/
def log : List E2Term.Submission := site.relay.rmr.log

/-- The events of the manager that messages of the site make. -/
def Delivers (e : E2Manager.Event) : Prop :=
  (∃ s ∈ site.log,
    s.message.mtype = some .RIC_E2_SETUP_REQ ∧ e = .e2SetupRequest (received s.message) ∨
    s.message.mtype = some .RIC_SCTP_CONNECTION_FAILURE ∧
      e = .ranConnectionLost (received s.message) ∨
    s.message.mtype = some .E2_TERM_KEEP_ALIVE_RESP ∧ e = .keepAliveResponse site.address) ∨
  ∃ transactionId, e = .e2TermInit ⟨"", text site.settings.kaText, transactionId⟩

/-- A setup request on one of the connections says the name. -/
def SetsUp (ranName : String) : Prop :=
  ∃ p n, E2Term.Said site.events p n ∧ ranName = text (n.take E2Term.RMR_MAX_MEID)

end Site

end NearRtRic.Platform

/-- Some terminations and the codecs of the manager, which reads what they announce. -/
structure NearRtRic.Platform (κ : Type) where
  codecs : NearRtRic.E2Manager.Codecs
  site : κ → Platform.Site
  json : ∀ k, codecs.unmarshalE2TermInit (Platform.text (site k).settings.kaText) =
    some ⟨(site k).address, Platform.text (CString.visible (site k).settings.podName)⟩

namespace NearRtRic.Platform

open CString Effect

variable {κ ι : Type} (P : Platform κ)

/-- What may reach the manager. -/
def Arrives : E2Manager.Event → Prop
  | .setupRequest _ _ => True
  | .keepAliveExpired _ => True
  | e => ∃ k, (P.site k).Delivers e

/-- A RAN was asked for over HTTP. -/
def Requested (routine : Option ι → E2Manager.Routine) (ranName : String) : Prop :=
  ∃ t protocol request, routine t = .event (.setupRequest protocol request) ∧
    request.ranName = ranName

/-- A RAN has a place at one of the sites. -/
def Placed (routine : Option ι → E2Manager.Routine) (ranName e2tAddress : String) : Prop :=
  ∃ k, e2tAddress = (P.site k).address ∧
    ((P.site k).SetsUp ranName ∨ Requested routine ranName)

/-- What is in the database can be accounted for. -/
structure Accounts (routine : Option ι → E2Manager.Routine) (s : E2Manager.Sdl) : Prop where
  ran : ∀ r nb, s.nodeb r = some nb → (∃ k, (P.site k).SetsUp r) ∨ Requested routine r
  association : ∀ r nb, s.nodeb r = some nb → nb.associatedE2TInstanceAddress ≠ "" →
    P.Placed routine r nb.associatedE2TInstanceAddress
  e2tInstance : ∀ a i, s.e2tInstance a = some i → ∃ k, a = (P.site k).address
  listed : ∀ a i, s.e2tInstance a = some i → ∀ r ∈ i.associatedRanList, P.Placed routine r a

/-! ### Texts -/

/-- The characters of a text are those of its bytes. -/
theorem toList_text (b : Bytes) : (text b).toList = b.map fun c => Char.ofNat c.toNat :=
  String.toList_ofList

/-- A character stands for its byte. -/
theorem toNat_ofNat (c : UInt8) : (Char.ofNat c.toNat).toNat = c.toNat := by
  have hvalid : c.toNat.isValidChar := .inl (lt_trans c.toNat_lt (by decide))
  rw [Char.ofNat, dif_pos hvalid]
  rfl

/-- A character of a text is one of its bytes. -/
theorem mem_text {b : Bytes} {c : UInt8} (h : Char.ofNat c.toNat ∈ (text b).toList) : c ∈ b := by
  rw [toList_text, List.mem_map] at h
  obtain ⟨d, hd, heq⟩ := h
  have hnat := congrArg Char.toNat heq
  rw [toNat_ofNat, toNat_ofNat] at hnat
  exact UInt8.toNat_inj.1 hnat ▸ hd

/-- What is printed starts with the address. -/
theorem address_prefix {params : E2Term.SctpParams} {payload : Bytes}
    (hlength : params.address.length < E2Term.xmlBufferSize) (h : PrintedBy params payload) :
    ∃ rest, payload = params.address ++ rest := by
  obtain ⟨pugi, enodbName, rendering, repValues, stack, old, rmrMsg, buffer, hsends, rfl⟩ := h
  unfold E2Term.buildAndsendSetupRequest at hsends
  dsimp only at hsends
  split at hsends
  · split at hsends
    · cases hsends
    · rename_i shown _ _
      obtain ⟨rfl, -⟩ := E2Term.SetupOutcome.sends.inj hsends
      have hfull : params.address <+: params.address ++ visible shown.bytes :=
        List.prefix_append _ _
      have hprinted : params.address <+: (params.address ++ visible shown.bytes).take
          (E2Term.xmlBufferSize - 1) := by
        rw [List.prefix_take_iff]
        exact ⟨hfull, by omega⟩
      have hsent : params.address <+: (snprintf E2Term.xmlBufferSize
          (params.address ++ visible shown.bytes) old).take
            (params.address ++ visible shown.bytes).length := by
        rw [List.prefix_take_iff]
        refine ⟨?_, hfull.length_le⟩
        unfold snprintf memcpy
        rw [List.append_assoc]
        exact hprinted.trans (List.prefix_append _ _)
      obtain ⟨rest, hrest⟩ := hsent
      exact ⟨rest, hrest.symm⟩
  · cases hsends

/-- The address that the manager takes from a payload. -/
theorem address_of_parseSetupRequest {codecs : E2Manager.Codecs} {payload a : String}
    {setupRequest : E2Manager.E2SetupRequestMessage}
    (h : E2Manager.E2SetupRequestNotificationHandler.parseSetupRequest codecs payload =
      .ok (setupRequest, a)) :
    a = String.ofList (payload.toList.takeWhile (· ≠ '|')) := by
  unfold E2Manager.E2SetupRequestNotificationHandler.parseSetupRequest at h
  dsimp only at h
  split at h
  · cases h
  · split at h
    · cases h
    · split at h
      · cases h
      · exact (Prod.mk.inj (Except.ok.inj h)).2.symm

/-! ### One site -/

namespace Site

variable {site : Site}

/-- The address in front of a setup is the configured one, with a bar behind it. -/
theorem address_eq : site.settings.toSctpParams.address = site.addressBytes ++ [124] := rfl

/-- A port takes five digits at most. -/
theorem length_printed_le (n : Nat) (h : n < 10 ^ 5) : (printed n).length ≤ 5 := by
  rw [printed_eq, List.length_map]
  exact (Nat.length_toDigits_le_iff (by decide) (by decide)).2 h

/-- The address fits into the buffer of a setup request. -/
theorem length_address_lt (site : Site) :
    site.settings.toSctpParams.address.length < E2Term.xmlBufferSize := by
  obtain ⟨conf, hread⟩ := E2Term.readFrom_of_buildConfiguration site.configured
  have hip := hread.length_myIP_le
  have hvisible : (visible site.settings.myIP).length ≤ site.settings.myIP.length :=
    (List.takeWhile_sublist _).length_le
  have hport := length_printed_le site.settings.rmrPort.toNat
    (lt_trans site.settings.rmrPort.toNat_lt (by decide))
  rw [address_eq, addressBytes]
  simp only [List.length_append, List.length_singleton]
  have hcolon : (ascii ":").length = 1 := rfl
  have hsize : E2Term.xmlBufferSize = 262144 := rfl
  omega

/-- There is no bar in the address. -/
theorem bar_notMem_address (site : Site) : '|' ∉ (text site.addressBytes).toList := by
  intro h
  have hmem : (124 : UInt8) ∈ site.addressBytes := mem_text h
  simp only [addressBytes, List.mem_append] at hmem
  rcases hmem with (hmem | hmem) | hmem
  · exact site.no_bar ((List.takeWhile_sublist _).subset hmem)
  · revert hmem
    decide
  · have hdigit := isdigit_of_mem_printed hmem
    revert hdigit
    decide

/-- **The manager takes the site's address from a setup request** that the site sends. -/
theorem address_of_payload {payload : Bytes} (h : PrintedBy site.settings.toSctpParams payload) :
    String.ofList ((text payload).toList.takeWhile (· ≠ '|')) = site.address := by
  obtain ⟨rest, rfl⟩ := address_prefix site.length_address_lt h
  have hlist : (text (site.settings.toSctpParams.address ++ rest)).toList =
      (text site.addressBytes).toList ++ '|' :: (text rest).toList := by
    rw [address_eq, toList_text, toList_text, toList_text, List.append_assoc, List.map_append]
    rfl
  rw [hlist, List.takeWhile_append_of_pos fun c hc => by
    rw [decide_eq_true_eq]
    rintro rfl
    exact site.bar_notMem_address hc]
  simp [address]

/-- Whom a setup request of the site is from. -/
theorem setsUp_of_mem_log {s : E2Term.Submission} (hs : s ∈ site.log)
    (hmtype : s.message.mtype = some .RIC_E2_SETUP_REQ)
    (hne : (received s.message).ranName ≠ "") :
    site.SetsUp (received s.message).ranName ∧
      PrintedBy site.settings.toSctpParams s.message.payload := by
  obtain ⟨p, n, -, hmeid, hname, e, he, q, ies, hreads⟩ :=
    E2Term.fromSetup_run site.keepNames site.runs hs hmtype
  have hranName : (received s.message).ranName = text (n.take E2Term.RMR_MAX_MEID) := by
    rw [received, hmeid]
  refine ⟨⟨p, n, hname.resolve_left ?_, hranName⟩, site.prints e he q ies _ hreads⟩
  rintro rfl
  exact hne hranName

end Site

/-! ### The database -/

section

variable {P} {routine : Option ι → E2Manager.Routine}

/-- The origins of what the manager handles. -/
abbrev origins (P : Platform κ) (routine : Option ι → E2Manager.Routine) : E2Manager.Origins :=
  E2Manager.Routine.origins P.codecs routine

variable (harrives : ∀ t e, routine t = .event e → P.Arrives e)
include harrives

/-- A setup request that is handled comes from a site. -/
theorem setsUp_of_setUp {r a : String} {setupRequest : E2Manager.E2SetupRequestMessage}
    (h : (P.origins routine).SetUp r a setupRequest) :
    ∃ k, a = (P.site k).address ∧ (P.site k).SetsUp r := by
  obtain ⟨hne, request, ⟨t, ht⟩, rfl, hparse⟩ := h
  obtain ⟨k, hdelivers⟩ := harrives t _ ht
  rcases hdelivers with ⟨s, hs, ⟨hmtype, heq⟩ | ⟨-, heq⟩ | ⟨-, heq⟩⟩ | ⟨_, heq⟩
  · obtain rfl := E2Manager.Event.e2SetupRequest.inj heq
    obtain ⟨hsetsUp, hprinted⟩ := Site.setsUp_of_mem_log hs hmtype hne
    refine ⟨k, ?_, hsetsUp⟩
    rw [address_of_parseSetupRequest hparse]
    exact Site.address_of_payload hprinted
  · cases heq
  · cases heq
  · cases heq

/-- An address that is announced is that of a site. -/
theorem address_of_announced {a : String} (h : (P.origins routine).Announced a) :
    ∃ k, a = (P.site k).address := by
  obtain ⟨request, payload, ⟨t, ht⟩, hread, rfl⟩ := h
  obtain ⟨k, hdelivers⟩ := harrives t _ ht
  rcases hdelivers with ⟨s, hs, ⟨-, heq⟩ | ⟨-, heq⟩ | ⟨-, heq⟩⟩ | ⟨transactionId, heq⟩
  · cases heq
  · cases heq
  · cases heq
  · obtain rfl := E2Manager.Event.e2TermInit.inj heq
    have hjson : (P.origins routine).codecs.unmarshalE2TermInit
        (text (P.site k).settings.kaText) = _ := P.json k
    rw [hjson] at hread
    exact ⟨k, Option.some.inj hread ▸ rfl⟩

/-- A RAN that the manager links to an address was placed there. -/
theorem placed_of_linked {r a : String} (h : (P.origins routine).Linked r a) :
    P.Placed routine r a := by
  rcases h with ⟨setupRequest, h⟩ | ⟨⟨-, protocol, request, ⟨t, ht⟩, hname⟩, h⟩
  · obtain ⟨k, ha, hsetsUp⟩ := setsUp_of_setUp harrives h
    exact ⟨k, ha, .inl hsetsUp⟩
  · obtain ⟨k, ha⟩ := address_of_announced harrives h
    exact ⟨k, ha, .inr ⟨t, protocol, request, ht, hname⟩⟩

/-- So a traced store accounts for its records by what the terminations sent. -/
theorem accounts_of_tracedStore {s : E2Manager.Sdl} (hs : (P.origins routine).TracedStore s) :
    P.Accounts routine s where
  ran r nb hr := by
    obtain ⟨rfl, htraced⟩ := hs.nodeb r nb hr
    rcases htraced.ran with ⟨a, setupRequest, h⟩ | ⟨-, protocol, request, ⟨t, ht⟩, hname⟩
    · obtain ⟨k, -, hsetsUp⟩ := setsUp_of_setUp harrives h
      exact .inl ⟨k, hsetsUp⟩
    · exact .inr ⟨t, protocol, request, ht, hname⟩
  association r nb hr hne := by
    obtain ⟨rfl, htraced⟩ := hs.nodeb r nb hr
    exact placed_of_linked harrives (htraced.association hne)
  e2tInstance a i ha := by
    obtain ⟨rfl, htraced⟩ := hs.e2tInstance a i ha
    exact address_of_announced harrives htraced.announced
  listed a i ha r hr := by
    obtain ⟨rfl, htraced⟩ := hs.e2tInstance a i ha
    exact placed_of_linked harrives (htraced.linked r hr)

/-- **What is in the database comes from the gNBs and the terminations**, whatever RMR does
with the messages, whatever fails, and however the handlers interleave. -/
theorem accounts_of_reach [DecidableEq ι] {config : E2Manager.Configuration}
    {c : Pool E2Manager.e2mgr Unit (E2Manager.Shared ι) (Option ι)}
    (h : Pool.Reach E2Manager.Shared.anySem
      (E2Manager.Routine.start P.codecs config routine .empty) c) :
    P.Accounts routine c.state.sdl :=
  accounts_of_tracedStore harrives ((P.origins routine).tracedStore_empty.of_reach
    (fun t _ he => ⟨t, he⟩) h)

end

/-! ### A platform with one site -/

namespace OneSite

open E2Term Xml Xml.Node

def settings : Settings where
  myIP := ascii "10.0.2.15"
  rmrPort := 38000
  sctpPort := 36422
  logLevel := .MDCLOG_DEBUG
  volume := ascii "log"
  fqdn := ascii "e2t.com"
  podName := ascii "e2term-0"
  trace := true
  kaText := kaText ⟨ascii "10.0.2.15", 38000⟩ (ascii "e2t.com") (ascii "e2term-0")

/-- The example's file is accepted. -/
theorem buildConfiguration_silentConfig :
    buildConfiguration (some silentConfig) (fun _ => some (ascii "e2term-0")) = some settings := by
  decide +kernel

/-- The setup request of a gNB without RAN functions. -/
def gNBXml : XmlNode :=
  setupXml [element "E2setupRequestIEs" [leaf "id" "3", element "value" [element "GlobalE2node-ID"
    [element "gNB" [element "global-gNB-ID" [leaf "plmn-id" "131014",
      element "gnb-id" [leaf "gnb-ID" "1011"]]]]]]]

/-- What is printed of it. -/
def payload : Bytes :=
  match buildAndsendSetupRequest (Pugi.compact gNBXml) settings.toSctpParams
      (ascii "gnb:208-092-b5c67711") (some (renderingOf gNBXml)) [] [] [] with
  | .sends rmrMsg _ => rmrMsg.sent
  | _ => []

/-- Its payload is one that a termination with these settings prints. -/
theorem printedBy_payload : PrintedBy settings.toSctpParams payload := by
  have hload := load_renderingOf gNBXml
  have hsize : (renderingOf gNBXml).text.length ≤ xmlBufferSize := by decide +kernel
  have hrewritten : (rewritten "E2setupRequest" "E2setupRequestIEs" [] gNBXml).isSome := by
    decide +kernel
  unfold payload
  -- the unifier is not to evaluate the document
  generalize gNBXml = doc at hload hsize hrewritten ⊢
  obtain ⟨doc', hdoc'⟩ := Option.isSome_iff_exists.1 hrewritten
  have hsends := @buildAndsendSetupRequest_eq (Pugi.compact doc) settings.toSctpParams
    (ascii "gnb:208-092-b5c67711") (renderingOf doc) [] [] [] doc hsize hload
  rw [hdoc'] at hsends
  rw [hsends]
  exact ⟨_, _, _, _, _, _, _, _, hsends, rfl⟩

/-- A gNB connects and sets up. -/
def events : List RelayEvent :=
  [Relay.connects, .data 0 [.message [0, 1] (some ⟨.initiatingMessage, .E2setup,
    [.globalE2nodeID Termination.gnbA], some payload, []⟩), .eagain]]

/-- Its events keep the names of their connections. -/
theorem keepNames_events : start.KeepNames events := by
  refine ⟨trivial, ⟨rfl, ⟨?_, ?_⟩, trivial⟩, trivial⟩
  · intro n hn
    cases hn
  · rintro cu hcu n hn
    obtain rfl : (⟨ascii "10.0.2.101", 36422, [], false⟩ : ConnectedCU) = cu :=
      Option.some.inj hcu
    have hnames : names [.globalE2nodeID Termination.gnbA] =
        [ascii "gnb:208-092-b5c67711"] := by decide
    rw [hnames] at hn ⊢
    obtain rfl := List.mem_singleton.1 hn
    exact ⟨rfl, Nat.zero_le _⟩

/-- RMR takes every message. -/
def surroundings : Surroundings :=
  Relay.surroundings fun _ => .sent ⟨none, none, [], [], []⟩

/-- The listener after some rounds. -/
def relayed (es : List RelayEvent) : Relay :=
  es.foldl (Relay.round surroundings settings.kaText) (.start surroundings)

/-- The round of its events writes through no wild pointer. -/
theorem run_events :
    (Relay.start surroundings).run surroundings settings.kaText events = some (relayed events) :=
  (Relay.run_cons rfl _).trans (Relay.run_cons (by decide +kernel) [])

def site : Site where
  file := some silentConfig
  getenv _ := some (ascii "e2term-0")
  settings := settings
  configured := buildConfiguration_silentConfig
  no_bar := by decide +kernel
  surroundings := surroundings
  events := events
  relay := relayed events
  runs := run_events
  keepNames := keepNames_events
  prints := by
    rintro e he p ies payload ⟨reads, bytes, pdu, rfl, hread, hsetup⟩
    rcases List.mem_cons.1 he with h | h
    · cases h
    · obtain ⟨rfl, rfl⟩ := RelayEvent.data.inj (List.mem_singleton.1 h)
      rcases List.mem_cons.1 hread with h | h
      · obtain ⟨rfl, hpdu⟩ := SctpRead.message.inj h
        obtain rfl := Option.some.inj hpdu
        obtain ⟨rfl, rfl⟩ := Prod.mk.inj (Option.some.inj hsetup)
        exact printedBy_payload
      · cases List.mem_singleton.1 h

/-- The message that the site sends. -/
def request : RmrMessage :=
  ⟨some .RIC_E2_SETUP_REQ, none, ascii "gnb:208-092-b5c67711", transactionId 7, payload⟩

def unmarshalE2TermInit (payload : String) : Option E2Manager.E2TermInitPayload :=
  if payload = text settings.kaText then some ⟨"10.0.2.15:38000", "e2term-0"⟩ else none

def unmarshalE2SetupRequest (payload : String) : Option E2Manager.E2SetupRequestMessage :=
  if payload = text (compact gNBXml) then some E2Manager.Deployment.setupRequestMessage else none

/-- The codecs on the messages of the site. -/
def siteCodecs : E2Manager.Codecs :=
  { E2Manager.Deployment.codecs with unmarshalE2SetupRequest, unmarshalE2TermInit }

def platform : Platform Unit where
  codecs := siteCodecs
  site _ := site
  json _ := by
    have haddress : site.address = "10.0.2.15:38000" := by decide +kernel
    have hpodName : text (visible site.settings.podName) = "e2term-0" := by decide +kernel
    rw [haddress, hpodName]
    exact (if_pos rfl : unmarshalE2TermInit (text settings.kaText) = _)

/-- The announcement and the setup request reach the manager. -/
def routine : Option Bool → E2Manager.Routine
  | none => .keepAliveWorker 1
  | some false => .event (.e2TermInit ⟨"", text settings.kaText, ""⟩)
  | some true => .event (.e2SetupRequest (received request))

/-- Both are handled, the one after the other. -/
def handled (c : Pool E2Manager.e2mgr Unit (E2Manager.Shared Bool) (Option Bool)) :
    Option (Pool E2Manager.e2mgr Unit (E2Manager.Shared Bool) (Option Bool)) :=
  c.follow E2Manager.Shared.exec
    (List.replicate 8 (some false, default) ++ List.replicate 10 (some true, default))

/-- Its payload is the address, a bar and the XML of the setup. -/
theorem payload_eq : text payload = "10.0.2.15:38000" ++ "|" ++ text (compact gNBXml) := by
  have hpayload : payload = ascii "10.0.2.15:38000|" ++ compact gNBXml := by decide +kernel
  have haddress : text (ascii "10.0.2.15:38000|") = "10.0.2.15:38000" ++ "|" := by decide +kernel
  have happend : text (ascii "10.0.2.15:38000|" ++ compact gNBXml) =
      text (ascii "10.0.2.15:38000|") ++ text (compact gNBXml) := by
    rw [text, List.map_append, String.ofList_append, text, text]
  exact (congrArg text hpayload).trans (happend.trans (congrArg (· ++ _) haddress))

/-- The manager reads the XML that the termination printed. -/
theorem unmarshalE2SetupRequest_compact :
    siteCodecs.unmarshalE2SetupRequest (text (compact gNBXml)) =
      some E2Manager.Deployment.setupRequestMessage := by
  dsimp only [siteCodecs, unmarshalE2SetupRequest]
  generalize text (compact gNBXml) = request
  exact if_pos rfl

/-- What the manager does with the setup request. -/
theorem handle_request :
    E2Manager.E2SetupRequestNotificationHandler.handle siteCodecs {} (received request) =
      E2Manager.E2SetupRequestNotificationHandler.handleParsed {} (received request)
        E2Manager.Deployment.setupRequestMessage "10.0.2.15:38000" := by
  have hne : "10.0.2.15:38000" ≠ "" := by decide +kernel
  have hbar : '|' ∉ "10.0.2.15:38000".toList := by decide +kernel
  have hpayload : (received request).payload =
      "10.0.2.15:38000" ++ "|" ++ text (compact gNBXml) := by
    dsimp only [received, request]
    exact payload_eq
  have hparse := E2Manager.E2SetupRequestNotificationHandler.parseSetupRequest_append siteCodecs
    hne hbar unmarshalE2SetupRequest_compact
  rw [← hpayload] at hparse
  generalize received request = request at hparse ⊢
  rw [E2Manager.E2SetupRequestNotificationHandler.handle, hparse]

/-- Every event of the example arrives at the platform. -/
theorem arrives_routine (t : Option Bool) (e : E2Manager.Event) (h : routine t = .event e) :
    platform.Arrives e := by
  match t with
  | none => cases h
  | some false =>
      obtain rfl := E2Manager.Routine.event.inj h
      exact ⟨(), .inr ⟨"", rfl⟩⟩
  | some true =>
      have hlog : site.log.map (·.message) = [request] := by decide +kernel
      have hmem : request ∈ site.log.map (·.message) := by
        rw [hlog]
        exact List.mem_singleton_self _
      obtain ⟨s, hs, hmessage⟩ := List.mem_map.1 hmem
      obtain rfl := E2Manager.Routine.event.inj h
      refine ⟨(), .inl ⟨s, hs, .inl ?_⟩⟩
      rw [hmessage]
      exact ⟨rfl, rfl⟩

end OneSite

open OneSite in
/-- In the example the RAN is placed at the address of its termination, and the store accounts for
it. -/
theorem accounts_of_reach_oneSite :
    ∃ c, handled (E2Manager.Routine.start siteCodecs {} routine .empty) = some c ∧
      (c.state.sdl.nodeb "gnb:208-092-b5c67711").map (·.associatedE2TInstanceAddress) =
        some "10.0.2.15:38000" ∧ platform.Accounts routine c.state.sdl := by
  have hrun : (handled (E2Manager.Routine.start siteCodecs {} routine .empty)).map (fun c =>
      (c.state.sdl.nodeb "gnb:208-092-b5c67711").map (·.associatedE2TInstanceAddress)) =
        some (some "10.0.2.15:38000") := by
    have hstart : E2Manager.Routine.start siteCodecs {} routine .empty =
        ⟨fun t => if t = some true then
          E2Manager.E2SetupRequestNotificationHandler.handleParsed {} (received request)
            E2Manager.Deployment.setupRequestMessage "10.0.2.15:38000"
          else (routine t).prog siteCodecs {}, { sdl := .empty }⟩ := by
      unfold E2Manager.Routine.start
      congr 1
      funext t
      split
      · rename_i ht
        rw [ht]
        exact handle_request
      · rfl
    rw [hstart]
    decide +kernel
  obtain ⟨c, hc, hfacts⟩ := Option.map_eq_some_iff.1 hrun
  exact ⟨c, hc, hfacts, accounts_of_reach arrives_routine
    (Pool.reach_of_follow (fun _ _ x _ _ h => ⟨x, h⟩) hc)⟩

end NearRtRic.Platform
