/-
# The reports that the xApp sends to its agent

`procRicIndication` in `msgs_proc.cc` fills a `UeMetricsEntry` and makes of it one line
of text for the agent: `msg:`, the cell, the IMSI and the report type with a dot behind
each, and values with commas between.  `report` is what the line says and `Report.text`
the line.

`ServingCellID == "1111"` compares a `char` array with a literal, which are two
addresses, so the branches for the LTE anchor are never taken and are not here.
-/

import NearRtRic.CString.Basic
import NearRtRic.Text.Basic

namespace NearRtRic.Xapp

open CString Text

/-- `performanceContainer->present`. -/
inductive PerfContainerType where
  | oDU
  | oCU_CP
  | oCU_UP
  | nothing
  deriving DecidableEq, Repr

/-- `NeighborCellRFType`, with the one field of its `CellRF` that is used. -/
structure NeighborCellRF where
  /-- `uint64_t`. -/
  cellID : Int
  rssinr : Int
  deriving DecidableEq, Repr

/-- The fields of `UeMetricsEntry` that a report is made of. -/
structure UeMetricsEntry where
  metricType : PerfContainerType
  measUnixTime_msec : Nat
  matchedUEsTotNum : Int
  /-- `uint64_t`. -/
  ueID : Nat
  servingCellID : Bytes
  servingCellRSSINR : Int
  neighborCell1_RF : NeighborCellRF
  neighborCell2_RF : NeighborCellRF
  neighborCell3_RF : NeighborCellRF
  deriving DecidableEq, Repr

/-- `reprot_type`. -/
inductive ReportType where
  | cucp
  | cuup
  deriving DecidableEq, Repr

def ReportType.text : ReportType → Chars
  | .cucp => "cucp".toList
  | .cuup => "cuup".toList

/-- No two types have the same text. -/
theorem ReportType.text_injective : Function.Injective ReportType.text := by
  intro t t' h
  cases t with
  | cucp =>
      cases t' with
      | cucp => rfl
      | cuup => exact absurd h (by decide)
  | cuup =>
      cases t' with
      | cucp => exact absurd h (by decide)
      | cuup => rfl

/-- What a line says. -/
structure Report where
  int_cellId : Int
  imsi : Nat
  reprot_type : ReportType
  time : Nat
  /-- The values behind the time. -/
  values : List Int
  deriving DecidableEq, Repr

namespace Report

/-- The time and the values. -/
def info (r : Report) : Chars := [','].intercalate (((r.time : Int) :: r.values).map decimal)

/-- The line without `msg:`. -/
def body (r : Report) : Chars :=
  ['.'].intercalate [decimal r.int_cellId, decimal r.imsi, r.reprot_type.text, r.info]

/-- `to_print`. -/
def text (r : Report) : Chars := "msg:".toList ++ r.body

variable {r : Report} {c : Char}

/-- The values are written with digits, signs and commas. -/
theorem mem_info (h : c ∈ r.info) : c = ',' ∨ c = '-' ∨ c.isDigit := by
  rcases mem_intercalate h with h | ⟨f, hf, h⟩
  · exact .inl (List.mem_singleton.1 h)
  · obtain ⟨z, -, rfl⟩ := List.mem_map.1 hf
    exact .inr (mem_decimal h)

/-- The fields of a line have no dot in them, and no `m`. -/
theorem notMem_field {f : Chars} (hf : f ∈ [decimal r.int_cellId, decimal r.imsi,
    r.reprot_type.text, r.info]) : '.' ∉ f ∧ 'm' ∉ f := by
  have hinfo : ∀ c : Char, c ≠ ',' → c ≠ '-' → ¬ c.isDigit → c ∉ r.info := by
    intro c hcomma hsign hdigit h
    rcases mem_info h with h | h | h
    · exact hcomma h
    · exact hsign h
    · exact hdigit h
  simp only [List.mem_cons, List.not_mem_nil, or_false] at hf
  rcases hf with rfl | rfl | rfl | rfl
  · exact ⟨notMem_decimal (by decide) (by decide), notMem_decimal (by decide) (by decide)⟩
  · exact ⟨notMem_decimal (by decide) (by decide), notMem_decimal (by decide) (by decide)⟩
  · cases r.reprot_type with
    | cucp => exact ⟨by decide, by decide⟩
    | cuup => exact ⟨by decide, by decide⟩
  · exact ⟨hinfo '.' (by decide) (by decide) (by decide),
      hinfo 'm' (by decide) (by decide) (by decide)⟩

/-- There is no `m` in a body, so no mark either. -/
theorem notMem_body : 'm' ∉ r.body := by
  intro h
  rcases mem_intercalate h with h | ⟨f, hf, h⟩
  · exact absurd h (by decide)
  · exact (notMem_field hf).2 h

/-- Between the dots stand the cell, the IMSI, the type and the values. -/
theorem splitOn_body : r.body.splitOn '.' =
    [decimal r.int_cellId, decimal r.imsi, r.reprot_type.text, r.info] :=
  List.splitOn_intercalate '.' (fun _ hf => (notMem_field hf).1) (List.cons_ne_nil _ _)

/-- Between the commas stand the time and the values. -/
theorem splitOn_info : r.info.splitOn ',' = ((r.time : Int) :: r.values).map decimal := by
  refine List.splitOn_intercalate ',' (fun f hf => ?_) (List.cons_ne_nil _ _)
  obtain ⟨z, -, rfl⟩ := List.mem_map.1 hf
  exact notMem_decimal (by decide) (by decide)

/-- **A line says one report only.** -/
theorem text_injective : Function.Injective text := by
  intro r r' h
  have hbody : r.body = r'.body := List.append_cancel_left h
  have hfields := congrArg (List.splitOn '.') hbody
  rw [splitOn_body, splitOn_body] at hfields
  simp only [List.cons.injEq, and_true] at hfields
  obtain ⟨hcell, himsi, htype, hinfo⟩ := hfields
  have hvalues := congrArg (List.splitOn ',') hinfo
  rw [splitOn_info, splitOn_info] at hvalues
  have htime : ((r.time : Int) :: r.values) = (r'.time : Int) :: r'.values :=
    decimal_injective.list_map hvalues
  obtain ⟨cell, imsi, type, time, values⟩ := r
  obtain ⟨cell', imsi', type', time', values'⟩ := r'
  obtain rfl : cell = cell' := decimal_injective hcell
  obtain rfl : imsi = imsi' := Int.ofNat.inj (decimal_injective himsi)
  obtain rfl : type = type' := ReportType.text_injective htype
  obtain ⟨htime, rfl⟩ := List.cons.inj htime
  obtain rfl : time = time' := Int.ofNat.inj htime
  rfl

end Report

/-- The fields of a neighbour in a CU-CP report. -/
def NeighborCellRF.values (n : NeighborCellRF) : List Int := [n.cellID, n.rssinr, 0]

/-- The report of an entry: `none` is an uncaught exception of `stoi`, `some none` that
nothing is sent. -/
def UeMetricsEntry.report (m : UeMetricsEntry) : Option (Option Report) :=
  (strtol (visible m.servingCellID)).map fun id =>
    let int_cellId := id - 1110
    match m.metricType with
    | .oCU_CP => some {
        int_cellId, imsi := m.ueID, reprot_type := .cucp, time := m.measUnixTime_msec
        values := [(m.ueID : Int), m.matchedUEsTotNum, 0, 0] ++
          [int_cellId, (m.ueID : Int), m.servingCellRSSINR, 0] ++
          m.neighborCell1_RF.values ++ m.neighborCell2_RF.values ++ m.neighborCell3_RF.values ++
          [0, 0, 0] ++ [0, 0, 0] ++ [0, 0, 0] ++ [0, 0, 0] ++ [0, 0, 0] }
    | .oCU_UP => some {
        int_cellId, imsi := m.ueID, reprot_type := .cuup, time := m.measUnixTime_msec
        values := [(m.ueID : Int), 0, 8, 7, 6, 5, 4, 3, 2, 1] }
    | _ => none

end NearRtRic.Xapp
