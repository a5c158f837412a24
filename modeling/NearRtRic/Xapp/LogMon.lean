/-
# The files that the agent keeps of the reports

`LogMon` in `loging.py` appends the values of each report to a file for its type and its
cell, and writes a line with the names of the columns at the top when it uses a file for
the first time.  `Inv` is what holds of the files after any number of reports: the line
at the top of each file that was used is the one for the type and the cell in its name
(`inv_run`), because the name determines both (`indexs_congr`).

The columns are those for the LTE anchor where the cell is 1, and the xApp has no such
format (`UeMetricsEntry.report`).  `fits_iff` says for which reports that matters: a
record has as many fields as its file has columns, except the CU-CP record of the LTE
anchor.  The CU-UP formats have the same number of fields.

`log_path` is a directory of its own; files are read and written without errors.
-/

import NearRtRic.Xapp.Agent

namespace NearRtRic.Xapp

open CString Text

/-! ### `LogMon` -/

def cucp4g_index : Chars :=
  "timestamp,ueImsiComplete,numActiveUes,DRB.EstabSucc.5QI.UEID (numDrb),".toList ++
    "DRB.RelActNbr.5QI.UEID (0),enbdev (m_cellId),UE (imsi),sameCellSinr,".toList ++
    "sameCellSinr 3gpp encoded,L3 neigh Id (cellId),".toList ++
    "sinr,3gpp encoded sinr (convertedSinr)".toList

def cucp5g_index : Chars :=
  "timestamp,ueImsiComplete,numActiveUes,DRB.EstabSucc.5QI.UEID (numDrb),".toList ++
    "DRB.RelActNbr.5QI.UEID (0),L3 serving Id(m_cellId),UE (imsi),L3 serving SINR,".toList ++
    "L3 serving SINR 3gpp,".toList ++
    "L3 neigh Id 1 (cellId),L3 neigh SINR 1,L3 neigh SINR 3gpp 1 (convertedSinr),".toList ++
    "L3 neigh Id 2 (cellId),L3 neigh SINR 2,L3 neigh SINR 3gpp 2 (convertedSinr),".toList ++
    "L3 neigh Id 3 (cellId),L3 neigh SINR 3,L3 neigh SINR 3gpp 3 (convertedSinr),".toList ++
    "L3 neigh Id 4 (cellId),L3 neigh SINR 4,L3 neigh SINR 3gpp 4 (convertedSinr),".toList ++
    "L3 neigh Id 5 (cellId),L3 neigh SINR 5,L3 neigh SINR 3gpp 5 (convertedSinr),".toList ++
    "L3 neigh Id 6 (cellId),L3 neigh SINR 6,L3 neigh SINR 3gpp 6 (convertedSinr),".toList ++
    "L3 neigh Id 7 (cellId),L3 neigh SINR 7,L3 neigh SINR 3gpp 7 (convertedSinr),".toList ++
    "L3 neigh Id 8 (cellId),L3 neigh SINR 8,L3 neigh SINR 3gpp 8 (convertedSinr)".toList

def cuup4g_index : Chars :=
  "timestamp,ueImsiComplete,DRB.PdcpSduDelayDl (cellAverageLatency),".toList ++
    "m_pDCPBytesUL (0),m_pDCPBytesDL (cellDlTxVolume),".toList ++
    "DRB.PdcpSduVolumeDl_Filter.UEID (txBytes),".toList ++
    "Tot.PdcpSduNbrDl.UEID (txDlPackets),DRB.PdcpSduBitRateDl.UEID (pdcpThroughput),".toList ++
    "DRB.PdcpSduDelayDl.UEID (pdcpLatency),QosFlow.PdcpPduVolumeDL_Filter.UEID".toList ++
    "(txPdcpPduBytesNrRlc),DRB.PdcpPduNbrDl.Qos.UEID (txPdcpPduNrRlc)".toList

/-- The same text as `cuup4g_index`. -/
def cuup5g_index : Chars :=
  "timestamp,ueImsiComplete,DRB.PdcpSduDelayDl (cellAverageLatency),".toList ++
    "m_pDCPBytesUL (0),".toList ++ "m_pDCPBytesDL (cellDlTxVolume),".toList ++
    "DRB.PdcpSduVolumeDl_Filter.UEID (txBytes),".toList ++
    "Tot.PdcpSduNbrDl.UEID (txDlPackets),DRB.PdcpSduBitRateDl.UEID (pdcpThroughput),".toList ++
    "DRB.PdcpSduDelayDl.UEID (pdcpLatency),QosFlow.PdcpPduVolumeDL_Filter.UEID".toList ++
    "(txPdcpPduBytesNrRlc),DRB.PdcpPduNbrDl.Qos.UEID (txPdcpPduNrRlc)".toList

/-- The types that `writeTrace` tests for. -/
inductive TraceType where
  | du
  | cucp
  | cuup
  deriving DecidableEq, Repr

namespace TraceType

def ofText (msg_type : Chars) : Option TraceType :=
  if msg_type = "du".toList then some .du
  else if msg_type = "cucp".toList then some .cucp
  else if msg_type = "cuup".toList then some .cuup
  else none

def fileName (t : TraceType) (msg_cellId : Int) : Chars :=
  match t with
  | .du => "du-cell-".toList ++ decimal msg_cellId ++ ".txt".toList
  | .cucp => "cu-cp-cell-".toList ++ decimal msg_cellId ++ ".txt".toList
  | .cuup => "cu-up-cell-".toList ++ decimal msg_cellId ++ ".txt".toList

/-- `none`: the variable has no value. -/
def indexs (t : TraceType) (msg_cellId : Int) : Option Chars :=
  match t with
  | .du => some cucp5g_index
  | .cucp =>
      if msg_cellId > 1 then some cucp5g_index
      else if msg_cellId = 1 then some cucp4g_index
      else none
  | .cuup =>
      if msg_cellId > 1 then some cuup5g_index
      else if msg_cellId = 1 then some cuup4g_index
      else none

end TraceType

structure LogMon where
  file_names : List Chars := []
  /-- The files in `log_path`. -/
  files : Chars → Option Chars := fun _ => none

namespace LogMon

/-- `open(fileName, "w")`, `write`, `close`; what was there before is removed. -/
def create (l : LogMon) (fileName text : Chars) : LogMon :=
  { l with files := Function.update l.files fileName (some text) }

/-- `open(fileName, "a")`, `write`, `close`. -/
def append (l : LogMon) (fileName text : Chars) : LogMon :=
  { l with
    files := Function.update l.files fileName (some ((l.files fileName).getD [] ++ text)) }

/-- `none` is an exception, with which the agent ends; a type that is not known is one, as
`os.remove` is called on `log_path` itself. -/
def writeTrace (l : LogMon) (msg_type : Chars) (msg_cellId : Int) (msg_info : Chars) :
    Option LogMon :=
  (TraceType.ofText msg_type).bind fun t =>
    let fileName := t.fileName msg_cellId
    if fileName ∈ l.file_names then some (l.append fileName ('\n' :: msg_info))
    else (t.indexs msg_cellId).map fun indexs =>
      ({ l with file_names := l.file_names ++ [fileName] }.create fileName indexs).append fileName
        ('\n' :: msg_info)

variable {F : Type}

/-- `main` hands `writeTrace` what `msgs_proc` returns. -/
def log (l : LogMon) (p : Processed F) : Option LogMon :=
  l.writeTrace p.msg_type p.int_cellId p.msg_info

def run (l : LogMon) (ps : List (Processed F)) : Option LogMon := ps.foldlM log l

end LogMon

/-! ### Names and columns -/

/-- The columns of a line. -/
def columns (line : Chars) : Nat := (line.splitOn ',').length

/-- **The name of a file says its type and its cell.** -/
theorem TraceType.fileName_injective {t t' : TraceType} {c c' : Int}
    (h : t.fileName c = t'.fileName c') : t = t' ∧ c = c' := by
  unfold fileName at h
  rw [toList_eq (s := "du-cell-") rfl, toList_eq (s := "cu-cp-cell-") rfl,
    toList_eq (s := "cu-up-cell-") rfl] at h
  cases t <;> cases t' <;> replace h := List.append_cancel_right h
  · exact ⟨rfl, decimal_injective (List.append_cancel_left h)⟩
  · simp at h
  · simp at h
  · simp at h
  · exact ⟨rfl, decimal_injective (List.append_cancel_left h)⟩
  · simp at h
  · simp at h
  · simp at h
  · exact ⟨rfl, decimal_injective (List.append_cancel_left h)⟩

def ReportType.traceType : ReportType → TraceType
  | .cucp => .cucp
  | .cuup => .cuup

/-- A type is read from its own text. -/
theorem ReportType.ofText_text (t : ReportType) :
    TraceType.ofText t.text = some t.traceType := by
  cases t with
  | cucp => decide
  | cuup => decide

/-- The header for 5G control planes is one line of 33 columns. -/
theorem columns_cucp5g_index : '\n' ∉ cucp5g_index ∧ columns cucp5g_index = 33 := by
  unfold cucp5g_index
  repeat rw [toList_eq rfl]
  decide +kernel

/-- The one for 4G control planes has 12. -/
theorem columns_cucp4g_index : '\n' ∉ cucp4g_index ∧ columns cucp4g_index = 12 := by
  unfold cucp4g_index
  repeat rw [toList_eq rfl]
  decide +kernel

/-- The one for 5G user planes has 11. -/
theorem columns_cuup5g_index : '\n' ∉ cuup5g_index ∧ columns cuup5g_index = 11 := by
  unfold cuup5g_index
  repeat rw [toList_eq rfl]
  decide +kernel

/-- So has the one for 4G user planes. -/
theorem columns_cuup4g_index : '\n' ∉ cuup4g_index ∧ columns cuup4g_index = 11 := by
  unfold cuup4g_index
  repeat rw [toList_eq rfl]
  decide +kernel

/-- How many columns a file has. -/
def TraceType.columns (t : TraceType) (msg_cellId : Int) : Nat :=
  match t with
  | .du => 33
  | .cucp => if msg_cellId = 1 then 12 else 33
  | .cuup => 11

/-- Each header has the columns of its trace. -/
theorem columns_indexs {t : TraceType} {c : Int} {header : Chars}
    (h : t.indexs c = some header) : '\n' ∉ header ∧ columns header = t.columns c := by
  cases t with
  | du =>
      obtain rfl := Option.some.inj h
      exact columns_cucp5g_index
  | cucp =>
      unfold TraceType.indexs at h
      unfold TraceType.columns
      dsimp only at h ⊢
      split_ifs at h with hc hc'
      · obtain rfl := Option.some.inj h
        rw [if_neg (by omega)]
        exact columns_cucp5g_index
      · obtain rfl := Option.some.inj h
        rw [if_pos hc']
        exact columns_cucp4g_index
  | cuup =>
      unfold TraceType.indexs at h
      dsimp only at h ⊢
      split_ifs at h with hc hc'
      · obtain rfl := Option.some.inj h
        exact columns_cuup5g_index
      · obtain rfl := Option.some.inj h
        exact columns_cuup4g_index

/-- The cells from 1 on have columns. -/
theorem exists_indexs (t : TraceType) {c : Int} (hc : 1 ≤ c) :
    ∃ header, t.indexs c = some header := by
  have hone : ¬ c > 1 → c = 1 := by omega
  cases t with
  | du => exact ⟨_, rfl⟩
  | cucp =>
      by_cases h : c > 1
      · exact ⟨_, if_pos h⟩
      · exact ⟨_, (if_neg h).trans (if_pos (hone h))⟩
  | cuup =>
      by_cases h : c > 1
      · exact ⟨_, if_pos h⟩
      · exact ⟨_, (if_neg h).trans (if_pos (hone h))⟩

/-- The line at the top of a file. -/
def top (file : Chars) : Chars := file.takeWhile (· ≠ '\n')

/-- A file of its header only begins with it. -/
theorem top_header {header : Chars} (h : '\n' ∉ header) : top header = header := by
  refine List.takeWhile_eq_self_iff.2 fun c hc => ?_
  exact decide_eq_true fun hcn => h (hcn ▸ hc)

/-- A line behind leaves the top. -/
theorem top_append (file line : Chars) : top (file ++ '\n' :: line) = top file := by
  unfold top
  induction file with
  | nil => rfl
  | cons c file ih =>
      rw [List.cons_append, List.takeWhile_cons, List.takeWhile_cons, ih]

/-! ### The files -/

namespace LogMon

/-- Each file that was used has the line for its name at the top. -/
def Inv (l : LogMon) : Prop :=
  ∀ name ∈ l.file_names, ∃ (t : TraceType) (c : Int) (file : Chars),
    t.fileName c = name ∧ l.files name = some file ∧ t.indexs c = some (top file)

variable {l l' : LogMon} {msg_type msg_info header : Chars} {c : Int} {t : TraceType}

/-- **What `writeTrace` does**: it appends the record to what is in the file, or to the
line that it begins the file with. -/
theorem writeTrace_cases (h : l.writeTrace msg_type c msg_info = some l') :
    ∃ t before, TraceType.ofText msg_type = some t ∧
      l'.files = Function.update l.files (t.fileName c) (some (before ++ '\n' :: msg_info)) ∧
      (t.fileName c ∈ l.file_names ∧ l'.file_names = l.file_names ∧
          before = (l.files (t.fileName c)).getD [] ∨
        t.fileName c ∉ l.file_names ∧ l'.file_names = l.file_names ++ [t.fileName c] ∧
          t.indexs c = some before) := by
  obtain ⟨t, ht, h⟩ := Option.bind_eq_some_iff.1 h
  dsimp only at h
  split at h
  · rename_i hmem
    obtain rfl := Option.some.inj h
    exact ⟨t, _, ht, rfl, .inl ⟨hmem, rfl, rfl⟩⟩
  · rename_i hmem
    obtain ⟨header, hheader, rfl⟩ := Option.map_eq_some_iff.1 h
    refine ⟨t, header, ht, ?_, .inr ⟨hmem, rfl, hheader⟩⟩
    unfold append create
    dsimp only
    rw [Function.update_self, Option.getD_some, Function.update_idem]

/-- The file of a record, when it is written: the line for the type and the cell is at the
top, and the record is at the end. -/
theorem Inv.file (hl : l.Inv) (ht : TraceType.ofText msg_type = some t)
    (h : l.writeTrace msg_type c msg_info = some l') :
    ∃ before, l'.files (t.fileName c) = some (before ++ '\n' :: msg_info) ∧
      t.indexs c = some (top before) := by
  obtain ⟨t', before, ht', hfiles, hcases⟩ := writeTrace_cases h
  obtain rfl : t = t' := Option.some.inj (ht.symm.trans ht')
  refine ⟨before, by rw [hfiles, Function.update_self], ?_⟩
  rcases hcases with ⟨hmem, -, rfl⟩ | ⟨-, -, hheader⟩
  · obtain ⟨t', c', file, hname, hfile, htop⟩ := hl _ hmem
    obtain ⟨rfl, rfl⟩ := TraceType.fileName_injective hname
    rw [hfile, Option.getD_some]
    exact htop
  · rw [hheader, top_header (columns_indexs hheader).1]

/-- A line that is written keeps the files in order. -/
theorem Inv.writeTrace (hl : l.Inv) (h : l.writeTrace msg_type c msg_info = some l') :
    l'.Inv := by
  obtain ⟨t, before, ht, hfiles, hcases⟩ := writeTrace_cases h
  obtain ⟨before', hfile, htop⟩ := hl.file ht h
  have hnames : ∀ name ∈ l'.file_names, name = t.fileName c ∨ name ∈ l.file_names := by
    intro name hname
    rcases hcases with ⟨-, hnames, -⟩ | ⟨-, hnames, -⟩
    · exact .inr (hnames ▸ hname)
    · rw [hnames, List.mem_append, List.mem_singleton] at hname
      exact hname.symm
  intro name hname
  by_cases hsame : name = t.fileName c
  · subst hsame
    exact ⟨t, c, _, rfl, hfile, by rw [top_append, htop]⟩
  · obtain ⟨t', c', file, hname', hfile', htop'⟩ := hl name ((hnames name hname).resolve_left hsame)
    refine ⟨t', c', file, hname', ?_, htop'⟩
    rw [hfiles, Function.update_of_ne hsame, hfile']

variable {F : Type}

/-- **The line at the top is the one for the name, after any messages.** -/
theorem Inv.run {ps : List (Processed F)} (hl : l.Inv) (h : l.run ps = some l') : l'.Inv := by
  induction ps generalizing l with
  | nil => exact Option.some.inj h ▸ hl
  | cons p ps ih =>
      obtain ⟨l₁, hlog, hrun⟩ := Option.bind_eq_some_iff.1 ((List.foldlM_cons ..).symm.trans h)
      exact ih (hl.writeTrace hlog) hrun

/-- A file is made when it is needed. -/
theorem exists_writeTrace (l : LogMon) (ht : TraceType.ofText msg_type = some t)
    (hheader : t.indexs c = some header) (msg_info : Chars) :
    ∃ l', l.writeTrace msg_type c msg_info = some l' := by
  unfold LogMon.writeTrace
  rw [ht, Option.bind_some]
  dsimp only
  split
  · exact ⟨_, rfl⟩
  · rw [hheader]
    exact ⟨_, rfl⟩

end LogMon

/-! ### Records -/

/-- The record of the report is written, and has as many fields as the line at the top of
its file. -/
def Report.Fits (r : Report) (l : LogMon) : Prop :=
  ∃ l' before, l.writeTrace r.reprot_type.text r.int_cellId r.info = some l' ∧
    l'.files (r.reprot_type.traceType.fileName r.int_cellId) = some (before ++ '\n' :: r.info) ∧
      columns r.info = columns (top before)

/-- A report has a column for its time and one for each value. -/
theorem Report.columns_info (r : Report) : columns r.info = r.values.length + 1 := by
  unfold columns
  rw [Report.splitOn_info, List.length_map, List.length_cons]

/-- **A record fits if and only if it has the fields of its type and its cell.** -/
theorem Report.fits_iff_columns {r : Report} {l : LogMon} (hl : l.Inv) {header : Chars}
    (hheader : r.reprot_type.traceType.indexs r.int_cellId = some header) :
    r.Fits l ↔ r.values.length + 1 = columns header := by
  have htype := r.reprot_type.ofText_text
  rw [← r.columns_info]
  constructor
  · rintro ⟨l', before, hwrite, hfile, hfit⟩
    obtain ⟨before', hfile', htop⟩ := hl.file htype hwrite
    obtain rfl : before = before' :=
      List.append_cancel_right (Option.some.inj (hfile.symm.trans hfile'))
    rw [hfit, Option.some.inj (htop.symm.trans hheader)]
  · intro hfit
    obtain ⟨l', hwrite⟩ := l.exists_writeTrace htype hheader r.info
    obtain ⟨before, hfile, htop⟩ := hl.file htype hwrite
    refine ⟨l', before, hwrite, hfile, ?_⟩
    rw [hfit, Option.some.inj (htop.symm.trans hheader)]

/-- The reports of an entry: the cell, and how many values there are. -/
theorem UeMetricsEntry.report_some {m : UeMetricsEntry} {r : Report} {id : Int}
    (hid : strtol (visible m.servingCellID) = some id) (hr : m.report = some (some r)) :
    r.int_cellId = id - 1110 ∧
      (m.metricType = .oCU_CP ∧ r.reprot_type = .cucp ∧ r.values.length = 32 ∨
        m.metricType = .oCU_UP ∧ r.reprot_type = .cuup ∧ r.values.length = 10) := by
  unfold UeMetricsEntry.report at hr
  rw [hid, Option.map_some] at hr
  have hr := Option.some.inj hr
  cases hm : m.metricType with
  | oDU =>
      rw [hm] at hr
      cases hr
  | nothing =>
      rw [hm] at hr
      cases hr
  | oCU_CP =>
      rw [hm] at hr
      obtain rfl := Option.some.inj hr
      exact ⟨rfl, .inl ⟨rfl, rfl, rfl⟩⟩
  | oCU_UP =>
      rw [hm] at hr
      obtain rfl := Option.some.inj hr
      exact ⟨rfl, .inr ⟨rfl, rfl, rfl⟩⟩

/-- **The records fit, except the CU-CP record of the LTE anchor**, whatever was logged
before and whatever the directory held. -/
theorem fits_iff {F : Type} {files : Chars → Option Chars} {ps : List (Processed F)} {l : LogMon}
    (hl : LogMon.run ⟨[], files⟩ ps = some l) {m : UeMetricsEntry} {id : Int} {r : Report}
    (hid : strtol (visible m.servingCellID) = some id) (hcell : 1111 ≤ id)
    (hr : m.report = some (some r)) :
    r.Fits l ↔ ¬ (m.metricType = .oCU_CP ∧ id = 1111) := by
  have hinv : l.Inv := LogMon.Inv.run (fun _ h => absurd h List.not_mem_nil) hl
  obtain ⟨hc, hvalues⟩ := m.report_some hid hr
  obtain ⟨header, hheader⟩ := exists_indexs r.reprot_type.traceType
    (show 1 ≤ r.int_cellId by omega)
  have hcolumns := (columns_indexs hheader).2
  rw [Report.fits_iff_columns hinv hheader, hcolumns]
  rcases hvalues with ⟨hm, htype, hlen⟩ | ⟨hm, htype, hlen⟩
  · have hcell : r.int_cellId = 1 ↔ id = 1111 := by omega
    rw [htype, hlen, hm]
    dsimp only [ReportType.traceType, TraceType.columns]
    by_cases hlte : id = 1111
    · rw [if_pos (hcell.2 hlte)]
      simp [hlte]
    · rw [if_neg fun h => hlte (hcell.1 h)]
      simp [hlte]
  · rw [htype, hlen, hm]
    simp [ReportType.traceType, TraceType.columns]

/-- An entry for a UE in a cell. -/
def sampleCell (servingCellID : Bytes) (metricType : PerfContainerType) : UeMetricsEntry where
  metricType := metricType
  measUnixTime_msec := 1000
  matchedUEsTotNum := 1
  ueID := 1
  servingCellID := servingCellID
  servingCellRSSINR := 20
  neighborCell1_RF := ⟨3, 10⟩
  neighborCell2_RF := ⟨4, 5⟩
  neighborCell3_RF := ⟨5, 0⟩

/-- A CU-CP record of cell `1112`, the first that is logged. -/
theorem fits_iff_sample : ∃ r, (sampleCell [49, 49, 49, 50, 0] .oCU_CP).report = some (some r) ∧
    r.Fits {} := by
  have hid : strtol (visible (sampleCell [49, 49, 49, 50, 0] .oCU_CP).servingCellID) =
      some 1112 := by decide
  have hempty : LogMon.run {} ([] : List (Processed Nat)) = some {} := rfl
  exact ⟨_, rfl, (fits_iff hempty hid (by decide) rfl).2 (by decide)⟩

/-- The CU-CP record of cell `1111` has 33 fields, and its file 12 columns. -/
theorem not_fits : ¬ ∀ (ps : List (Processed Nat)) (l : LogMon), LogMon.run {} ps = some l →
    ∀ (m : UeMetricsEntry) (id : Int) (r : Report), strtol (visible m.servingCellID) = some id →
      1111 ≤ id → m.report = some (some r) → r.Fits l := by
  intro h
  have hid : strtol (visible (sampleCell [49, 49, 49, 49, 0] .oCU_CP).servingCellID) =
      some 1111 := by decide
  obtain ⟨r, hr⟩ : ∃ r, (sampleCell [49, 49, 49, 49, 0] .oCU_CP).report = some (some r) :=
    ⟨_, rfl⟩
  have hfit := h [] {} rfl _ 1111 r hid (by decide) hr
  have hinv : LogMon.Inv {} := fun _ h => absurd h List.not_mem_nil
  obtain ⟨hc, ⟨-, htype, hlen⟩ | ⟨hm, -⟩⟩ := UeMetricsEntry.report_some hid hr
  · have hheader : r.reprot_type.traceType.indexs r.int_cellId = some cucp4g_index := by
      rw [htype, hc]
      rfl
    have hcolumns := (Report.fits_iff_columns hinv hheader).1 hfit
    rw [hlen, columns_cucp4g_index.2] at hcolumns
    exact absurd hcolumns (by decide)
  · cases hm

end NearRtRic.Xapp
