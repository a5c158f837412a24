/-
# The UE metrics of an indication

The part of `procRicIndication` in `msgs_proc.cc` that makes reports of an indication
message.  The first performance container allocates one `UeMetricsEntry` for the whole
message, with `malloc`; the loop over the matched UEs writes into it what each UE
carries and sends a report for each.  The text of the UE's id is copied into one buffer,
`strUEID`, that all UEs share.

What an entry holds before it is written is an argument here (`garbage`).  `none` is a
step that is undefined or does not return: a pointer that is absent is dereferenced, a
buffer is written or read past its end, or `stoi` throws.

The metrics of the cell, `DL_throughput` and what else no report is made of are left out.
-/

import NearRtRic.Xapp.Report

namespace NearRtRic.Xapp

open CString

/-- `MeasResultNR_t`: the cell's id and its SSB results, of these the SINR. -/
structure MeasResultNR where
  physCellId : Option Int
  resultsSSB_Cell : Option (Option Int)
  deriving DecidableEq, Repr

/-- `ServingCellMeasurements_t`: the `measResultServingCell` of each item of the list. -/
inductive ServingCellMeasurements where
  | nr_measResultServingMOList (list : List MeasResultNR)
  | other
  deriving DecidableEq, Repr

/-- `MeasResultNeighCells_t`. -/
inductive MeasResultNeighCells where
  | measResultListNR (list : List MeasResultNR)
  | other
  deriving DecidableEq, Repr

/-- `L3_RRC_Measurements_t`. -/
structure L3_RRC_Measurements where
  servingCellMeasurements : Option ServingCellMeasurements
  measResultNeighCells : Option MeasResultNeighCells
  deriving DecidableEq, Repr

/-- `pmVal`. -/
inductive MeasurementValue where
  | valueRRC (rrcValue : L3_RRC_Measurements)
  | other
  deriving DecidableEq, Repr

/-- `PM_Info_Item_t`. -/
structure PM_Info_Item where
  /-- The name of the measurement, if `pmType` is one. -/
  measName : Option Bytes
  pmVal : MeasurementValue
  deriving DecidableEq, Repr

/-- `PerUE_PM_Item_t`. -/
structure PerUE_PM_Item where
  ueId : Bytes
  list_of_PM_Information : Option (List PM_Info_Item)
  deriving DecidableEq, Repr

/-- What the indication header has been decoded to. -/
structure Header where
  gMeasUnixTime_msec : Nat
  gCellID : Bytes
  deriving DecidableEq, Repr

/-- An indication message: the types of its performance containers, where there is one, and
its matched UEs. -/
structure IndicationMessage where
  pm_Containers : List (Option PerfContainerType)
  list_of_matched_UEs : List PerUE_PM_Item
  deriving DecidableEq, Repr

/-! ### The containers -/

/-- `gPFContainterType` and the entry. -/
structure Containers where
  gPFContainterType : PerfContainerType := .nothing
  ueMetrics : Option UeMetricsEntry := none
  deriving DecidableEq, Repr

/-- The entry as it is allocated; for `oDU` the cell id is copied without its end. -/
def UeMetricsEntry.alloc (h : Header) (garbage : UeMetricsEntry) (type : PerfContainerType) :
    UeMetricsEntry :=
  let id := visible h.gCellID
  { garbage with
    metricType := type
    measUnixTime_msec := h.gMeasUnixTime_msec
    servingCellID :=
      memcpy (if type = .oDU then id else id ++ [0]) garbage.servingCellID }

/-- One item of `pm_Containers`. -/
def Containers.next (h : Header) (garbage : UeMetricsEntry) (s : Containers) :
    Option PerfContainerType → Containers
  | none => s
  | some type =>
      { gPFContainterType := type
        ueMetrics :=
          if type = .nothing then s.ueMetrics
          else s.ueMetrics.or (some (UeMetricsEntry.alloc h garbage type)) }

/-! ### The measurements of a UE -/

namespace UeMetricsEntry

/-- The cell id of the `k`-th neighbour; there is room for three. -/
def setCellID (m : UeMetricsEntry) (k : Nat) (id : Int) : UeMetricsEntry :=
  match k with
  | 0 => { m with neighborCell1_RF := { m.neighborCell1_RF with cellID := id } }
  | 1 => { m with neighborCell2_RF := { m.neighborCell2_RF with cellID := id } }
  | 2 => { m with neighborCell3_RF := { m.neighborCell3_RF with cellID := id } }
  | _ => m

/-- The SINR of the `k`-th neighbour. -/
def setRSSINR (m : UeMetricsEntry) (k : Nat) (sinr : Int) : UeMetricsEntry :=
  match k with
  | 0 => { m with neighborCell1_RF := { m.neighborCell1_RF with rssinr := sinr } }
  | 1 => { m with neighborCell2_RF := { m.neighborCell2_RF with rssinr := sinr } }
  | 2 => { m with neighborCell3_RF := { m.neighborCell3_RF with rssinr := sinr } }
  | _ => m

end UeMetricsEntry

section Measurements

variable (gPFContainterType : PerfContainerType)

/-- The loop over the serving cells. -/
def servingCells : List MeasResultNR → UeMetricsEntry → Option UeMetricsEntry
  | [], m => some m
  | mo :: list, m =>
      if mo.physCellId = none then none
      else
        match mo.resultsSSB_Cell with
        | some sinr =>
            servingCells list (if gPFContainterType = .oCU_CP then
              { m with servingCellRSSINR := sinr.getD (-1) } else m)
        | none => servingCells list m

/-- The loop over the neighbours, from the `k`-th on. -/
def neighCells : Nat → List MeasResultNR → UeMetricsEntry → Option UeMetricsEntry
  | _, [], m => some m
  | k, mr :: list, m =>
      match mr.physCellId with
      | none => none
      | some id =>
          let m := if gPFContainterType = .oCU_CP then m.setCellID k (id % 2 ^ 64) else m
          match mr.resultsSSB_Cell with
          | some sinr =>
              neighCells (k + 1) list
                (if gPFContainterType = .oCU_CP then m.setRSSINR k (sinr.getD (-1)) else m)
          | none => neighCells (k + 1) list m

def servingCellMeasurements (m : UeMetricsEntry) :
    Option ServingCellMeasurements → Option UeMetricsEntry
  | some (.nr_measResultServingMOList list) => servingCells gPFContainterType list m
  | _ => some m

def measResultNeighCells (m : UeMetricsEntry) :
    Option MeasResultNeighCells → Option UeMetricsEntry
  | some (.measResultListNR list) => neighCells gPFContainterType 0 list m
  | _ => some m

/-- `ueMeasurementTypeName` has 30 bytes, its end included. -/
def PM_Info_Item.nameFits (info : PM_Info_Item) : Bool :=
  info.measName.all fun name => name.length < 30

/-- One measurement of a UE. -/
def pmInfo (m : UeMetricsEntry) (info : PM_Info_Item) : Option UeMetricsEntry :=
  if info.nameFits then
    match info.pmVal with
    | .valueRRC rrcValue =>
        (servingCellMeasurements gPFContainterType m rrcValue.servingCellMeasurements).bind
          fun m => measResultNeighCells gPFContainterType m rrcValue.measResultNeighCells
    | .other => some m
  else none

def pmInfos : List PM_Info_Item → UeMetricsEntry → Option UeMetricsEntry
  | [], m => some m
  | info :: infos, m => (pmInfo gPFContainterType m info).bind (pmInfos infos)

end Measurements

/-! ### The loop over the UEs -/

/-- What the loop goes on with. -/
structure Scan where
  ueMetrics : Option UeMetricsEntry
  strUEID : Bytes
  deriving DecidableEq, Repr

/-- `strUEID` as it is declared, six bytes. -/
def strUEID_init : Bytes := [48, 48, 48, 48, 48, 0]

/-- `strUEID` holds what was copied to it, and its end. -/
def fitsUEID (strUEID : Bytes) : Bool := strUEID.length ≤ 6 && strUEID.contains 0

/-- `atoi(strUEID)`, as the `uint64_t` of the entry. -/
def intUEID (strUEID : Bytes) : Nat := (((strtol (visible strUEID)).getD 0) % 2 ^ 64).toNat

/-- One UE, with `remaining` ones behind it.  Without an entry `ueMetrics` is NULL, and
`RemainingUEsCount` is read through it; behind the last UE the entry is freed. -/
def perUE (gPFContainterType : PerfContainerType) (remaining : Nat) (s : Scan)
    (item : PerUE_PM_Item) : Option (Scan × Option Report) :=
  s.ueMetrics.bind fun m =>
    let strUEID := strncpy item.ueId s.strUEID
    if fitsUEID strUEID then
      item.list_of_PM_Information.bind fun infos =>
        (pmInfos gPFContainterType infos { m with ueID := intUEID strUEID }).bind fun m =>
          m.report.map fun r => (⟨if remaining = 0 then none else some m, strUEID⟩, r)
    else none

/-- What is sent for each UE, up to the first that is not come through. -/
def matchedUEs (gPFContainterType : PerfContainerType) (s : Scan) :
    List PerUE_PM_Item → List (Option Report)
  | [] => []
  | item :: items =>
      match perUE gPFContainterType items.length s item with
      | some (s', r) => r :: matchedUEs gPFContainterType s' items
      | none => []

/-- The reports of a message, one for each UE or `none` where nothing is sent. -/
def procIndicationMessage (h : Header) (garbage : UeMetricsEntry) (msg : IndicationMessage) :
    List (Option Report) :=
  let s := msg.pm_Containers.foldl (Containers.next h garbage) {}
  let count := msg.list_of_matched_UEs.length
  matchedUEs s.gPFContainterType
    ⟨s.ueMetrics.map fun m => { m with matchedUEsTotNum := count }, strUEID_init⟩
    msg.list_of_matched_UEs

end NearRtRic.Xapp
