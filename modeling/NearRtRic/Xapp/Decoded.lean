/-
# The whole of an indication

`procRicIndication` in `msgs_proc.cc` goes through the IEs of a decoded indication.  The
payload of a header or of a message is decoded once more, by the decoders for E2SM in
`e2sm_indication.cc` (`E2SM`), which give NULL where they fail, with the record freed
twice.  A header sets the time and the cell; a message is walked through: its containers,
its measurements of the cell, its UEs, and last the entry of the cell is printed.

`none` is a step that is undefined or does not return, as in `perUE`, and here also a
shift out of range and a text read past the array it is in.  Optional fields that are
read only behind a test for NULL are left out, as are `find_agent_ip_from_gnb` and the
socket.
-/

import NearRtRic.Xapp.UeIdentity

namespace NearRtRic.Xapp

open CString

/-! ### Decoded payloads -/

/-- `PLMN_Identity_t`, an octet string of three bytes. -/
abbrev PLMN_Identity := {b : Bytes // b.length = 3}

/-- `TimeStamp_t`, an octet string of eight bytes. -/
abbrev TimeStamp := {b : Bytes // b.length = 8}

/-- The bit string that is the id of a node; there is a first byte. -/
abbrev NodeID := {b : Bytes // b ≠ []}

/-- `NRCGI_t`. -/
structure NRCGI where
  pLMN_Identity : PLMN_Identity
  nRCellIdentity : Bytes
  bits_unused : Nat

/-- `PF_Container_t`: the cells that an O-DU reports on, and for each item of an O-CU-UP its
PLMNs. -/
inductive PF_Container where
  | oDU (cellResourceReportList : List NRCGI)
  | oCU_CP
  | oCU_UP (pf_ContainerList : List (List PLMN_Identity))
  | other

/-- `present`. -/
def PF_Container.type : PF_Container → PerfContainerType
  | .oDU _ => .oDU
  | .oCU_CP => .oCU_CP
  | .oCU_UP _ => .oCU_UP
  | .other => .nothing

/-- `E2SM_KPM_IndicationMessage_Format1_t`. -/
structure IndicationMessage_Format1 where
  pm_Containers : List (Option PF_Container)
  list_of_PM_Information : Option (List PM_Info_Item)
  list_of_matched_UEs : Option (List PerUE_PM_Item)

/-- `E2SM_KPM_IndicationMessage_t`. -/
inductive E2SM_KPM_IndicationMessage where
  | indicationMessage_Format1 (m : IndicationMessage_Format1)
  | other

/-- `ENB_ID_t`. -/
inductive ENB_ID where
  | macro_eNB_ID (id : NodeID)
  | other

/-- `GlobalE2node_ID_t`. -/
inductive GlobalE2node_ID where
  | gNB (plmn_id : PLMN_Identity) (gnb_ID : NodeID)
  | en_gNB
  | ng_eNB
  | eNB (pLMN_Identity : PLMN_Identity) (eNB_ID : ENB_ID)

/-- `E2SM_KPM_IndicationHeader_t`. -/
inductive E2SM_KPM_IndicationHeader where
  | indicationHeader_Format1 (collectionStartTime : TimeStamp)
      (id_GlobalE2node_ID : GlobalE2node_ID)
  | other

/-- The decoders. -/
structure E2SM where
  e2sm_decode_ric_indication_header : Bytes → Option E2SM_KPM_IndicationHeader
  e2sm_decode_ric_indication_message : Bytes → Option E2SM_KPM_IndicationMessage

/-- An item of `protocolIEs`: those with the ids 26 and 25, and any other. -/
inductive RICindication_IE where
  | message (payload : Bytes)
  | header (payload : Bytes)
  | other
  deriving DecidableEq

/-! ### PLMNs and cells as text -/

/-- `itoa10` of a number that is not negative: its digits and a NUL. -/
def itoa10 (value : Nat) : Bytes := ascii (toString value) ++ [0]

/-- Numbers printed into `temp`, from the `i`-th place on each one place behind the last. -/
def printFrom : Nat → List Nat → Bytes → Option Bytes
  | _, [], temp => some temp
  | i, value :: values, temp => (store i (itoa10 value) temp).bind (printFrom (i + 1) values)

/-- The two halves of each byte. -/
def halves (b : Bytes) : List Nat := b.flatMap fun c => [c.toNat / 16, c.toNat % 16]

/-- `some none` is NULL.  `temp` has six bytes, `PlmnID` has seven. -/
def ParsePLMNIdentity (data : Bytes) : Option (Option Bytes) :=
  if data.length ≠ 3 then some none
  else
    (printFrom 0 (halves data) (List.replicate 6 0)).map fun temp =>
      some (if (halves data).getD 3 0 = 15 then temp.take 3 ++ temp.drop 4 ++ [0, 0]
        else temp ++ [0])

/-- The length of what `ParsePLMNIdentity` returns is taken before its argument is tested. -/
def ParseNRCGI (nRCGI : NRCGI) : Option (Option Bytes) :=
  (ParsePLMNIdentity nRCGI.pLMN_Identity).bind fun CellID =>
    CellID.bind fun CellID =>
      if nRCGI.nRCellIdentity.length ≠ 5 then some none
      else
        (printFrom 0 (halves (nRCGI.nRCellIdentity.take 4) ++
          [(nRCGI.nRCellIdentity.getD 4 0).toNat / 2 ^ nRCGI.bits_unused])
          (List.replicate 10 0)).bind fun temp =>
            (store (visible CellID).length (temp.take 9 ++ [0]) CellID).map some

/-- What is parsed of a container comes through. -/
def PF_Container.parses : PF_Container → Bool
  | .oDU cellResourceReportList => cellResourceReportList.all fun nRCGI =>
      (ParsePLMNIdentity nRCGI.pLMN_Identity).isSome && (ParseNRCGI nRCGI).isSome
  | .oCU_UP pf_ContainerList => pf_ContainerList.all fun plmnList =>
      plmnList.all fun pLMN_Identity => (ParsePLMNIdentity pLMN_Identity).isSome
  | _ => true

/-! ### The header -/

/-- The header as it is declared. -/
def Header.init : Header := ⟨0, ascii "0000000" ++ [0]⟩

/-- `gCellID`: the PLMN and the first byte of the node's id, or what comes before a NUL in
them; without its end it is copied over the id that was there. -/
def Header.setCell (h : Header) (plmn_id : PLMN_Identity) (id : NodeID) : Header :=
  let lCellID := strncpy plmn_id (ascii "0000000" ++ [0])
  let lCellID := lCellID.take 3 ++ strncpy (id.val.take 1) (lCellID.drop 3)
  { h with gCellID := (memcpy (visible (lCellID.set 4 0)) h.gCellID).set 4 0 }

/-- What a header makes of what is known; the time is sent with its highest byte first. -/
def Header.next (h : Header) : E2SM_KPM_IndicationHeader → Header
  | .indicationHeader_Format1 collectionStartTime id_GlobalE2node_ID =>
      let h := { h with
        gMeasUnixTime_msec := collectionStartTime.val.foldl (fun n c => 256 * n + c.toNat) 0 }
      match id_GlobalE2node_ID with
      | .gNB plmn_id gnb_ID => h.setCell plmn_id gnb_ID
      | .eNB pLMN_Identity (.macro_eNB_ID id) => h.setCell pLMN_Identity id
      | _ => h
  | .other => h

/-! ### The message -/

/-- What `malloc` gives for the entries; their cell ids have eight bytes. -/
structure Garbage where
  ueMetrics : UeMetricsEntry
  /-- `CellID` of `CellMetricsEntry`. -/
  cellID : Bytes
  length_servingCellID : ueMetrics.servingCellID.length = 8
  length_cellID : cellID.length = 8

/-- The entries of a message; of that of the cell, its id. -/
structure Entries extends Containers where
  cellID : Option Bytes := none

/-- The cell id as it is copied to the first entry; for `oDU` without its end. -/
def Header.copyCellID (h : Header) (type : PerfContainerType) (garbage : Bytes) : Bytes :=
  memcpy (if type = .oDU then visible h.gCellID else visible h.gCellID ++ [0]) garbage

/-- One item of `pm_Containers`. -/
def Entries.next (h : Header) (g : Garbage) (e : Entries) :
    Option PF_Container → Option Entries
  | none => some e
  | some c =>
      if c.parses then
        some {
          toContainers := e.toContainers.next h g.ueMetrics (some c.type)
          cellID :=
            if c.type = .nothing then e.cellID
            else e.cellID.or (some (h.copyCellID c.type g.cellID)) }
      else none

/-- One measurement of the cell: its name is copied, and every serving cell has an id. -/
def PM_Info_Item.readsForCell (info : PM_Info_Item) : Bool :=
  info.nameFits &&
    match info.pmVal with
    | .valueRRC ⟨some (.nr_measResultServingMOList list), _⟩ =>
        list.all fun mo => mo.physCellId.isSome
    | _ => true

/-- The end of the text is in the array. -/
def terminated (b : Bytes) : Bool := (b.take 8).contains 0

/-- `1 << (intUEID-1)` shifts by less than the 32 bits of an `int`. -/
def shiftFits (strUEID : Bytes) : Bool :=
  let intUEID := (strtol (visible strUEID)).getD 0
  1 ≤ intUEID && intUEID ≤ 32

/-- One UE: its bit in `indicatorMapUE`, and the text of the cell id from the entry. -/
def checkedUE (gPFContainterType : PerfContainerType) (remaining : Nat) (s : Scan)
    (item : PerUE_PM_Item) : Option (Scan × Option Report) :=
  if shiftFits (strncpy item.ueId s.strUEID) &&
      s.ueMetrics.all fun m => terminated m.servingCellID then
    perUE gPFContainterType remaining s item
  else none

def checkedUEs (gPFContainterType : PerfContainerType) :
    Scan → List PerUE_PM_Item → Option (List (Option Report))
  | _, [] => some []
  | s, item :: items =>
      (checkedUE gPFContainterType items.length s item).bind fun next =>
        (checkedUEs gPFContainterType next.1 items).map fun sent => next.2 :: sent

/-- What is known between two IEs, and what was sent. -/
structure Progress where
  header : Header := .init
  gPFContainterType : PerfContainerType := .nothing
  sent : List (Option Report) := []

/-- The matched UEs of a message, where it has a list of them. -/
def Entries.matchedUEs (e : Entries) : Option (List PerUE_PM_Item) → Option (List (Option Report))
  | none => some []
  | some items => checkedUEs e.gPFContainterType
      ⟨e.ueMetrics.map fun m => { m with matchedUEsTotNum := items.length }, strUEID_init⟩ items

def IndicationMessage_Format1.process (g : Garbage) (s : Progress)
    (m : IndicationMessage_Format1) : Option Progress :=
  (m.pm_Containers.foldlM (Entries.next s.header g)
      { gPFContainterType := s.gPFContainterType }).bind fun e =>
    if (m.list_of_PM_Information.getD []).all (·.readsForCell) then
      (e.matchedUEs m.list_of_matched_UEs).bind fun sent =>
        if e.cellID.all terminated then
          some ⟨s.header, e.gPFContainterType, s.sent ++ sent⟩
        else none
    else none

/-! ### The loop over the IEs -/

section Loop

variable (e2sm : E2SM)

/-- One IE. -/
def Progress.next (g : Garbage) (s : Progress) : RICindication_IE → Option Progress
  | .message payload =>
      (e2sm.e2sm_decode_ric_indication_message payload).bind fun decodedMsg =>
        match decodedMsg with
        | .indicationMessage_Format1 m => m.process g s
        | .other => some s
  | .header payload =>
      (e2sm.e2sm_decode_ric_indication_header payload).map fun decodedHdr =>
        { s with header := s.header.next decodedHdr }
  | .other => some s

/-- How far the loop gets. -/
inductive Outcome where
  | running
  | fault
  | returned (sent : List (Option Report))

/-- The loop from an index on, in so many rounds.  `idx` is a `uint8_t`. -/
def procRicIndication (protocolIEs : List RICindication_IE) :
    Nat → (Nat → Garbage) → UInt8 → Progress → Outcome
  | 0, _, _, _ => .running
  | rounds + 1, garbage, idx, s =>
      match protocolIEs[idx.toNat]? with
      | none => .returned s.sent
      | some ie =>
          match s.next e2sm (garbage 0) ie with
          | none => .fault
          | some s => procRicIndication protocolIEs rounds (fun n => garbage (n + 1)) (idx + 1) s

end Loop

end NearRtRic.Xapp
