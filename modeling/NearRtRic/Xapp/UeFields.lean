/-
# What a UE's measurements do to the entry

A measurement overwrites some fields of the entry with values of its own and leaves the
others as they are, or the program does not come through it at all; which of these, and
which fields, can be read off the measurement (`readable`, `carries`).  `Uniform` says
that of a step, and is kept by doing one step after another; `uniform_pmInfos` is the
result for all measurements of a UE.
-/

import NearRtRic.Xapp.Indication

namespace NearRtRic.Xapp

open CString

/-- The fields of an entry that measurements are written to. -/
inductive RfField where
  | serving
  | cellID (k : Fin 3)
  | rssinr (k : Fin 3)
  deriving DecidableEq, Repr

/-! ### Carried measurements -/

/-- The measurement gives the field a value. -/
def L3_RRC_Measurements.carries (rrc : L3_RRC_Measurements) : RfField → Bool
  | .serving =>
      match rrc.servingCellMeasurements with
      | some (.nr_measResultServingMOList list) => list.any fun mo => mo.resultsSSB_Cell.isSome
      | _ => false
  | .cellID k =>
      match rrc.measResultNeighCells with
      | some (.measResultListNR list) => list[k.val]?.isSome
      | _ => false
  | .rssinr k =>
      match rrc.measResultNeighCells with
      | some (.measResultListNR list) => list[k.val]?.any fun mr => mr.resultsSSB_Cell.isSome
      | _ => false

/-- Every cell in it has an id. -/
def L3_RRC_Measurements.readable (rrc : L3_RRC_Measurements) : Bool :=
  (match rrc.servingCellMeasurements with
    | some (.nr_measResultServingMOList list) => list.all fun mo => mo.physCellId.isSome
    | _ => true) &&
    (match rrc.measResultNeighCells with
      | some (.measResultListNR list) => list.all fun mr => mr.physCellId.isSome
      | _ => true)

def PM_Info_Item.carries (info : PM_Info_Item) (f : RfField) : Bool :=
  match info.pmVal with
  | .valueRRC rrc => rrc.carries f
  | .other => false

/-- The measurement is come through. -/
def PM_Info_Item.readable (info : PM_Info_Item) : Bool :=
  info.nameFits &&
    match info.pmVal with
    | .valueRRC rrc => rrc.readable
    | .other => true

/-! ### Overwriting -/

local instance neZeroNeighbors : NeZero 3 := ⟨by decide⟩

/-- The entry with the fields overwritten that have a new value. -/
def UeMetricsEntry.over (m : UeMetricsEntry) (w : RfField → Option Int) : UeMetricsEntry :=
  { m with
    servingCellRSSINR := (w .serving).getD m.servingCellRSSINR
    neighborCell1_RF := ⟨(w (.cellID 0)).getD m.neighborCell1_RF.cellID,
      (w (.rssinr 0)).getD m.neighborCell1_RF.rssinr⟩
    neighborCell2_RF := ⟨(w (.cellID 1)).getD m.neighborCell2_RF.cellID,
      (w (.rssinr 1)).getD m.neighborCell2_RF.rssinr⟩
    neighborCell3_RF := ⟨(w (.cellID 2)).getD m.neighborCell3_RF.cellID,
      (w (.rssinr 2)).getD m.neighborCell3_RF.rssinr⟩ }

/-- Of two overwritings the later one wins. -/
theorem UeMetricsEntry.over_over (m : UeMetricsEntry) (w w' : RfField → Option Int) :
    (m.over w).over w' = m.over fun f => (w' f).or (w f) := by
  have hgetD : ∀ (a b : Option Int) (c : Int), a.getD (b.getD c) = (a.or b).getD c := by
    intro a b c
    cases a <;> rfl
  unfold UeMetricsEntry.over
  simp only [hgetD]

/-- What a field holds. -/
def UeMetricsEntry.rf (m : UeMetricsEntry) : RfField → Int
  | .serving => m.servingCellRSSINR
  | .cellID 0 => m.neighborCell1_RF.cellID
  | .cellID 1 => m.neighborCell2_RF.cellID
  | .cellID 2 => m.neighborCell3_RF.cellID
  | .rssinr 0 => m.neighborCell1_RF.rssinr
  | .rssinr 1 => m.neighborCell2_RF.rssinr
  | .rssinr 2 => m.neighborCell3_RF.rssinr

/-- A field has its new value, or the one it had. -/
@[simp] theorem UeMetricsEntry.rf_over (m : UeMetricsEntry) (w : RfField → Option Int)
    (f : RfField) : (m.over w).rf f = (w f).getD (m.rf f) := by
  match f with
  | .serving => rfl
  | .cellID 0 | .cellID 1 | .cellID 2 => rfl
  | .rssinr 0 | .rssinr 1 | .rssinr 2 => rfl

/-- The entries agree in what is written once for all UEs. -/
def UeMetricsEntry.SameFrame (m m' : UeMetricsEntry) : Prop :=
  m.metricType = m'.metricType ∧ m.measUnixTime_msec = m'.measUnixTime_msec ∧
    m.matchedUEsTotNum = m'.matchedUEsTotNum ∧
      visible m.servingCellID = visible m'.servingCellID

/-- What is written once agrees along a chain of entries. -/
theorem UeMetricsEntry.SameFrame.trans {m m' m'' : UeMetricsEntry} (h : m.SameFrame m')
    (h' : m'.SameFrame m'') : m.SameFrame m'' :=
  ⟨h.1.trans h'.1, h.2.1.trans h'.2.1, h.2.2.1.trans h'.2.2.1, h.2.2.2.trans h'.2.2.2⟩

/-- And the other way round. -/
theorem UeMetricsEntry.SameFrame.symm {m m' : UeMetricsEntry} (h : m.SameFrame m') :
    m'.SameFrame m :=
  ⟨h.1.symm, h.2.1.symm, h.2.2.1.symm, h.2.2.2.symm⟩

/-- **What a report is made of.** -/
theorem UeMetricsEntry.report_congr {m m' : UeMetricsEntry} (h : m.SameFrame m')
    (hid : m.ueID = m'.ueID) (hrf : m.metricType = .oCU_CP → ∀ f, m.rf f = m'.rf f) :
    m.report = m'.report := by
  obtain ⟨htype, htime, hmatched, hcell⟩ := h
  unfold UeMetricsEntry.report
  rw [← htype, ← htime, ← hmatched, ← hid, ← hcell]
  cases hm : m.metricType with
  | oDU => rfl
  | oCU_UP => rfl
  | nothing => rfl
  | oCU_CP =>
      have hrf := hrf hm
      have hserving : m.servingCellRSSINR = m'.servingCellRSSINR := hrf .serving
      have hneighbour1 : m.neighborCell1_RF.values = m'.neighborCell1_RF.values :=
        congrArg₂ (fun a b => [a, b, 0]) (hrf (.cellID 0)) (hrf (.rssinr 0))
      have hneighbour2 : m.neighborCell2_RF.values = m'.neighborCell2_RF.values :=
        congrArg₂ (fun a b => [a, b, 0]) (hrf (.cellID 1)) (hrf (.rssinr 1))
      have hneighbour3 : m.neighborCell3_RF.values = m'.neighborCell3_RF.values :=
        congrArg₂ (fun a b => [a, b, 0]) (hrf (.cellID 2)) (hrf (.rssinr 2))
      rw [hserving, hneighbour1, hneighbour2, hneighbour3]

/-- When an entry is sent. -/
theorem UeMetricsEntry.exists_report_iff (m : UeMetricsEntry) :
    (∃ r, m.report = some (some r)) ↔ (m.metricType = .oCU_CP ∨ m.metricType = .oCU_UP) ∧
      (strtol (visible m.servingCellID)).isSome := by
  unfold UeMetricsEntry.report
  cases strtol (visible m.servingCellID) with
  | none => simp
  | some id =>
      cases m.metricType with
      | oDU => simp
      | nothing => simp
      | oCU_CP => simp
      | oCU_UP => simp

/-- A report has the id of its entry as its IMSI. -/
theorem UeMetricsEntry.ueID_of_report {m : UeMetricsEntry} {r : Report}
    (h : m.report = some (some r)) : m.ueID = r.imsi := by
  obtain ⟨id, -, hr⟩ := Option.map_eq_some_iff.1 h
  cases hm : m.metricType with
  | oDU => simp [hm] at hr
  | nothing => simp [hm] at hr
  | oCU_CP =>
      rw [hm] at hr
      exact congrArg Report.imsi (Option.some.inj hr)
  | oCU_UP =>
      rw [hm] at hr
      exact congrArg Report.imsi (Option.some.inj hr)

/-- The place of a field among the values of a CU-CP report. -/
def RfField.index : RfField → Nat
  | .serving => 6
  | .cellID k => 8 + 3 * k.val
  | .rssinr k => 9 + 3 * k.val

/-- A report of an O-CU-CP has the radio fields of its entry at their places. -/
theorem UeMetricsEntry.rf_of_report {m : UeMetricsEntry} {r : Report}
    (h : m.report = some (some r)) (hm : m.metricType = .oCU_CP) (f : RfField) :
    r.values[f.index]? = some (m.rf f) := by
  obtain ⟨id, -, hr⟩ := Option.map_eq_some_iff.1 h
  rw [hm] at hr
  rw [← Option.some.inj hr]
  match f with
  | .serving => rfl
  | .cellID 0 | .cellID 1 | .cellID 2 => rfl
  | .rssinr 0 | .rssinr 1 | .rssinr 2 => rfl

/-- The step overwrites the fields in `writes` with values that do not depend on the entry,
or, where it is not `readable`, is never come through. -/
def Uniform (run : UeMetricsEntry → Option UeMetricsEntry) (readable : Bool)
    (writes : RfField → Bool) : Prop :=
  if readable then
    ∃ w : RfField → Option Int, (∀ f, (w f).isSome = writes f) ∧ ∀ m, run m = some (m.over w)
  else ∀ m, run m = none

namespace Uniform

variable {run run' : UeMetricsEntry → Option UeMetricsEntry} {readable readable' : Bool}
  {writes writes' : RfField → Bool}

/-- To do nothing writes no field. -/
theorem skip : Uniform some true fun _ => false :=
  ⟨fun _ => none, fun _ => rfl, fun _ => rfl⟩

/-- A step that is never come through. -/
theorem of_none (hreadable : readable = false) (hrun : ∀ m, run m = none) :
    Uniform run readable writes := by
  subst hreadable
  exact hrun

/-- Overwriting with given values, under a condition on the message. -/
theorem write (b : Bool) (w : RfField → Option Int) :
    Uniform (fun m => some (if b then m.over w else m)) true fun f => b && (w f).isSome := by
  cases b with
  | false => exact skip
  | true => exact ⟨w, fun _ => rfl, fun _ => rfl⟩

/-- A step that does the same. -/
theorem of_eq (h : Uniform run readable writes) (hrun : ∀ m, run m = run' m)
    (hreadable : readable = readable') (hwrites : ∀ f, writes f = writes' f) :
    Uniform run' readable' writes' := by
  obtain rfl : run = run' := funext hrun
  obtain rfl : writes = writes' := funext hwrites
  exact hreadable ▸ h

/-- **One step after another.** -/
theorem bind (h : Uniform run readable writes) (h' : Uniform run' readable' writes') :
    Uniform (fun m => (run m).bind run') (readable && readable') fun f =>
      writes f || writes' f := by
  unfold Uniform at h h' ⊢
  cases readable with
  | false =>
      have h : ∀ m, run m = none := h
      intro m
      dsimp only
      rw [h m]
      rfl
  | true =>
      obtain ⟨w, hw, hrun⟩ := h
      cases readable' with
      | false =>
          have h' : ∀ m, run' m = none := h'
          intro m
          dsimp only
          rw [hrun m]
          exact h' _
      | true =>
          obtain ⟨w', hw', hrun'⟩ := h'
          refine ⟨fun f => (w' f).or (w f), fun f => ?_, fun m => ?_⟩
          · rw [Option.isSome_or, hw, hw', Bool.or_comm]
          · dsimp only
            rw [hrun m, Option.bind_some, hrun', UeMetricsEntry.over_over]

end Uniform

/-! ### The loops -/

/-- The values that the `k`-th neighbour is written with. -/
def neighbourValues (k : Nat) (id : Int) (sinr : Option Int) : RfField → Option Int
  | .serving => none
  | .cellID j => if j.val = k then some id else none
  | .rssinr j => if j.val = k then sinr else none

/-- The cell id of a neighbour is one field. -/
theorem setCellID_eq_over (m : UeMetricsEntry) (k : Nat) (id : Int) :
    m.setCellID k id = m.over (neighbourValues k id none) := by
  match k with
  | 0 => rfl
  | 1 => rfl
  | 2 => rfl
  | k + 3 =>
      simp [UeMetricsEntry.setCellID, UeMetricsEntry.over, neighbourValues]

/-- With its SINR it is two. -/
theorem setRSSINR_setCellID_eq_over (m : UeMetricsEntry) (k : Nat) (id sinr : Int) :
    (m.setCellID k id).setRSSINR k sinr = m.over (neighbourValues k id (some sinr)) := by
  match k with
  | 0 => rfl
  | 1 => rfl
  | 2 => rfl
  | k + 3 =>
      simp [UeMetricsEntry.setCellID, UeMetricsEntry.setRSSINR, UeMetricsEntry.over,
        neighbourValues]

variable {type : PerfContainerType}

/-- The value that the serving cell is written with. -/
def servingValue (sinr : Int) : RfField → Option Int
  | .serving => some sinr
  | _ => none

/-- The loop over the serving cells writes the SINR of the serving cell, where one has it. -/
theorem uniform_servingCells (list : List MeasResultNR) :
    Uniform (servingCells type list) (list.all fun mo => mo.physCellId.isSome) fun f =>
      type = .oCU_CP && (f = .serving && list.any fun mo => mo.resultsSSB_Cell.isSome) := by
  induction list with
  | nil =>
      refine Uniform.skip.of_eq (fun _ => rfl) rfl fun f => ?_
      simp
  | cons mo list ih =>
      cases hid : mo.physCellId with
      | none =>
          refine Uniform.of_none (by simp [hid]) fun m => ?_
          rw [servingCells, if_pos hid]
      | some id =>
          have hne : mo.physCellId ≠ none := by simp [hid]
          cases hssb : mo.resultsSSB_Cell with
          | none =>
              refine ih.of_eq (fun m => ?_) (by simp [hid]) fun f => by simp [hssb]
              rw [servingCells, if_neg hne, hssb]
          | some sinr =>
              have hwrite := Uniform.write (type = .oCU_CP) (servingValue (sinr.getD (-1)))
              refine (hwrite.bind ih).of_eq (fun m => ?_) (by simp [hid]) fun f => ?_
              · rw [servingCells, if_neg hne, hssb, Option.bind_some]
                simp only [decide_eq_true_eq]
                rfl
              · cases f with
                | serving =>
                    simp only [servingValue]
                    cases decide (type = .oCU_CP) <;> simp [hssb]
                | cellID j => simp [servingValue]
                | rssinr j => simp [servingValue]

/-- The fields of the neighbours in a list whose first is the `k`-th. -/
def neighbourFields (k : Nat) (list : List MeasResultNR) : RfField → Bool
  | .serving => false
  | .cellID j => k ≤ j.val && list[j.val - k]?.isSome
  | .rssinr j => k ≤ j.val && list[j.val - k]?.any fun mr => mr.resultsSSB_Cell.isSome

/-- A place in a list whose first is the `k`-th is that of the first or lies behind it. -/
theorem getElem?_cons_sub {α : Type} (q : Option α → Bool) (k j : Nat) (a : α) (as : List α) :
    (decide (k ≤ j) && q (a :: as)[j - k]?) =
      (decide (j = k) && q (some a) || decide (k + 1 ≤ j) && q as[j - (k + 1)]?) := by
  rcases Nat.lt_trichotomy j k with h | h | h
  · have h1 : ¬ k ≤ j := by omega
    have h2 : ¬ k + 1 ≤ j := by omega
    have h3 : ¬ j = k := by omega
    simp [h1, h2, h3]
  · simp [h]
  · obtain ⟨d, rfl⟩ : ∃ d, j = k + 1 + d := ⟨j - (k + 1), by omega⟩
    have h1 : k ≤ k + 1 + d := by omega
    have h3 : ¬ k + 1 + d = k := by omega
    have h4 : k + 1 + d - k = d + 1 := by omega
    have h5 : k + 1 + d - (k + 1) = d := by omega
    have h6 : k + 1 ≤ k + 1 + d := by omega
    rw [h4, h5]
    simp [h1, h3, h6]

/-- The fields of a list are those of its first neighbour and of the rest. -/
theorem neighbourFields_cons (k : Nat) (mr : MeasResultNR) (list : List MeasResultNR)
    (id : Int) (f : RfField) : neighbourFields k (mr :: list) f =
      ((neighbourValues k id (mr.resultsSSB_Cell.map (·.getD (-1))) f).isSome ||
        neighbourFields (k + 1) list f) := by
  cases f with
  | serving => rfl
  | cellID j =>
      unfold neighbourFields neighbourValues
      dsimp only
      rw [getElem?_cons_sub Option.isSome]
      by_cases hj : j.val = k <;> simp [hj]
  | rssinr j =>
      unfold neighbourFields neighbourValues
      dsimp only
      rw [getElem?_cons_sub (Option.any fun mr : MeasResultNR => mr.resultsSSB_Cell.isSome)]
      by_cases hj : j.val = k <;> simp [hj]

/-- The loop over the neighbours writes the fields of those it finds. -/
theorem uniform_neighCells (k : Nat) (list : List MeasResultNR) :
    Uniform (neighCells type k list) (list.all fun mr => mr.physCellId.isSome) fun f =>
      type = .oCU_CP && neighbourFields k list f := by
  induction list generalizing k with
  | nil =>
      refine Uniform.skip.of_eq (fun _ => rfl) rfl fun f => ?_
      cases f <;> simp [neighbourFields]
  | cons mr list ih =>
      cases hid : mr.physCellId with
      | none =>
          refine Uniform.of_none (by simp [hid]) fun m => ?_
          rw [neighCells, hid]
      | some id =>
          have hwrite := Uniform.write (type = .oCU_CP)
            (neighbourValues k (id % 2 ^ 64) (mr.resultsSSB_Cell.map (·.getD (-1))))
          refine (hwrite.bind (ih (k + 1))).of_eq (fun m => ?_) (by simp [hid]) fun f => ?_
          · rw [neighCells, hid, Option.bind_some]
            simp only [decide_eq_true_eq]
            cases hssb : mr.resultsSSB_Cell with
            | none =>
                dsimp only
                split
                · rw [setCellID_eq_over]
                  rfl
                · rfl
            | some sinr =>
                dsimp only
                split
                · rw [setRSSINR_setCellID_eq_over]
                  rfl
                · rfl
          · rw [neighbourFields_cons k mr list (id % 2 ^ 64), Bool.and_or_distrib_left]

/-! ### All measurements of a UE -/

/-- The serving cell alone. -/
theorem uniform_serving (serving : Option ServingCellMeasurements) :
    Uniform (servingCellMeasurements type · serving)
      (L3_RRC_Measurements.readable ⟨serving, none⟩)
      fun f => type = .oCU_CP && L3_RRC_Measurements.carries ⟨serving, none⟩ f := by
  match serving with
  | some (.nr_measResultServingMOList list) =>
      refine (uniform_servingCells list).of_eq (fun _ => rfl) (Bool.and_true _).symm fun f => ?_
      cases f with
      | serving => simp [L3_RRC_Measurements.carries]
      | cellID k => simp [L3_RRC_Measurements.carries]
      | rssinr k => simp [L3_RRC_Measurements.carries]
  | some .other =>
      refine Uniform.skip.of_eq (fun _ => rfl) rfl fun f => ?_
      cases f <;> simp [L3_RRC_Measurements.carries]
  | none =>
      refine Uniform.skip.of_eq (fun _ => rfl) rfl fun f => ?_
      cases f <;> simp [L3_RRC_Measurements.carries]

/-- The neighbours alone. -/
theorem uniform_neigh (neigh : Option MeasResultNeighCells) :
    Uniform (measResultNeighCells type · neigh) (L3_RRC_Measurements.readable ⟨none, neigh⟩)
      fun f => type = .oCU_CP && L3_RRC_Measurements.carries ⟨none, neigh⟩ f := by
  match neigh with
  | some (.measResultListNR list) =>
      refine (uniform_neighCells 0 list).of_eq (fun _ => rfl) (Bool.true_and _).symm fun f => ?_
      cases f with
      | serving => rfl
      | cellID k => simp [L3_RRC_Measurements.carries, neighbourFields]
      | rssinr k => simp [L3_RRC_Measurements.carries, neighbourFields]
  | some .other =>
      refine Uniform.skip.of_eq (fun _ => rfl) rfl fun f => ?_
      cases f <;> simp [L3_RRC_Measurements.carries]
  | none =>
      refine Uniform.skip.of_eq (fun _ => rfl) rfl fun f => ?_
      cases f <;> simp [L3_RRC_Measurements.carries]

/-- One item of the measurements writes the fields that it carries. -/
theorem uniform_pmInfo (info : PM_Info_Item) :
    Uniform (pmInfo type · info) info.readable fun f => type = .oCU_CP && info.carries f := by
  unfold pmInfo PM_Info_Item.readable PM_Info_Item.carries
  cases hname : info.nameFits with
  | false => exact Uniform.of_none rfl fun _ => rfl
  | true =>
      cases info.pmVal with
      | other =>
          refine Uniform.skip.of_eq (fun _ => rfl) rfl fun f => ?_
          simp
      | valueRRC rrc =>
          refine ((uniform_serving rrc.servingCellMeasurements).bind
            (uniform_neigh rrc.measResultNeighCells)).of_eq (fun _ => rfl) ?_ fun f => ?_
          · simp [L3_RRC_Measurements.readable]
          · rw [← Bool.and_or_distrib_left]
            cases f <;> simp [L3_RRC_Measurements.carries]

/-- **What all measurements of a UE do to the entry.** -/
theorem uniform_pmInfos (infos : List PM_Info_Item) :
    Uniform (pmInfos type infos) (infos.all fun info => info.readable) fun f =>
      type = .oCU_CP && infos.any fun info => info.carries f := by
  induction infos with
  | nil =>
      refine Uniform.skip.of_eq (fun _ => rfl) rfl fun f => ?_
      simp
  | cons info infos ih =>
      refine ((uniform_pmInfo info).bind ih).of_eq (fun _ => rfl) List.all_cons.symm fun f => ?_
      rw [List.any_cons, Bool.and_or_distrib_left]

variable {infos : List PM_Info_Item} {m m' : UeMetricsEntry}

/-- So all items together overwrite the fields that one of them carries. -/
theorem exists_over_of_readable (h : ∀ info ∈ infos, info.readable) :
    ∃ w : RfField → Option Int,
      (∀ f, (w f).isSome = (type = .oCU_CP && infos.any fun info => info.carries f)) ∧
        ∀ m, pmInfos type infos m = some (m.over w) := by
  have huniform : Uniform (pmInfos type infos) _ _ := uniform_pmInfos infos
  unfold Uniform at huniform
  rwa [if_pos (List.all_eq_true.2 h)] at huniform

/-- They can be come through only where each is readable. -/
theorem readable_of_pmInfos (h : pmInfos type infos m = some m') :
    ∀ info ∈ infos, info.readable := by
  have huniform : Uniform (pmInfos type infos) _ _ := uniform_pmInfos infos
  unfold Uniform at huniform
  split at huniform
  · rename_i hall
    exact List.all_eq_true.1 hall
  · rw [huniform] at h
    cases h

/-- Measurements that are come through only overwrite. -/
theorem exists_over_of_pmInfos (h : pmInfos type infos m = some m') :
    ∃ w : RfField → Option Int, m' = m.over w := by
  obtain ⟨w, -, hrun⟩ := exists_over_of_readable (readable_of_pmInfos h)
  rw [hrun] at h
  exact ⟨w, (Option.some.inj h).symm⟩

/-- They leave what is written once for all UEs. -/
theorem sameFrame_of_pmInfos {n : Nat} (h : pmInfos type infos { m with ueID := n } = some m') :
    m.SameFrame m' := by
  obtain ⟨w, rfl⟩ := exists_over_of_pmInfos h
  exact ⟨rfl, rfl, rfl, rfl⟩

end NearRtRic.Xapp
