/-
# What the position of a UE is inferred from

`PossApp` in `localization.py` keeps a table with one row for each CU-CP record, in which
the SINR of the serving cell and of three neighbours stand in the columns of cells 2 to 5.
`createTarget` gives the model the means of these columns over the rows of a UE that are
not later than a given time.

`window_size` is set and not used, so the means are over all rows with a time in `(0, t]`
(`givenToModel_eq`).  `givenToModel_eq_windowMean_iff` says when that comes to the mean
over the window: what has a time in one of the two intervals only is nothing, or has the
mean of what has a time in both.

Values are exact rationals, and `float` is Python's conversion of a string to one.  `nan`,
which `np.mean` makes of no rows, is `none`.  The model, the labels, the trace file and the
table of results are left out.
-/

import Mathlib.Algebra.Field.Rat
import Mathlib.Data.Fin.VecNotation
import Mathlib.Data.List.Induction
import NearRtRic.Stats.WindowMean
import NearRtRic.Xapp.LogMon

namespace NearRtRic.Xapp

open Stats Text

/-! ### `PossApp` -/

/-- The names in `parsing_key`. -/
inductive Key where
  | timestamp
  | ueImsiComplete
  | servingId
  | servingSINR
  | neighId1
  | neighSINR1
  | neighId2
  | neighSINR2
  | neighId3
  | neighSINR3
  deriving DecidableEq, Repr

namespace Key

def text : Key → Chars
  | timestamp => "timestamp".toList
  | ueImsiComplete => "ueImsiComplete".toList
  | servingId => "L3 serving Id(m_cellId)".toList
  | servingSINR => "L3 serving SINR".toList
  | neighId1 => "L3 neigh Id 1 (cellId)".toList
  | neighSINR1 => "L3 neigh SINR 1".toList
  | neighId2 => "L3 neigh Id 2 (cellId)".toList
  | neighSINR2 => "L3 neigh SINR 2".toList
  | neighId3 => "L3 neigh Id 3 (cellId)".toList
  | neighSINR3 => "L3 neigh SINR 3".toList

/-- Where a value stands in a record. -/
def Indec_dict : Key → Nat
  | timestamp => 0
  | ueImsiComplete => 1
  | servingId => 5
  | servingSINR => 7
  | neighId1 => 9
  | neighSINR1 => 10
  | neighId2 => 12
  | neighSINR2 => 13
  | neighId3 => 15
  | neighSINR3 => 16

/-- The places are those of the columns in the log of the CU-CP records. -/
theorem getElem?_cucp5g_index (k : Key) :
    (cucp5g_index.splitOn ',')[k.Indec_dict]? = some k.text := by
  have hcolumns : (cucp5g_index.splitOn ',').take 17 = [timestamp.text, ueImsiComplete.text,
      "numActiveUes".toList, "DRB.EstabSucc.5QI.UEID (numDrb)".toList,
      "DRB.RelActNbr.5QI.UEID (0)".toList, servingId.text, "UE (imsi)".toList, servingSINR.text,
      "L3 serving SINR 3gpp".toList, neighId1.text, neighSINR1.text,
      "L3 neigh SINR 3gpp 1 (convertedSinr)".toList, neighId2.text, neighSINR2.text,
      "L3 neigh SINR 3gpp 2 (convertedSinr)".toList, neighId3.text, neighSINR3.text] := by
    unfold cucp5g_index text
    repeat rw [toList_eq rfl]
    decide +kernel
  have hplace : k.Indec_dict < 17 := by cases k <;> decide
  rw [← List.getElem?_take_of_lt hplace, hcolumns]
  cases k <;> rfl

end Key

def parsing_key : List Key :=
  [.timestamp, .ueImsiComplete, .servingId, .servingSINR, .neighId1, .neighSINR1, .neighId2,
    .neighSINR2, .neighId3, .neighSINR3]

/-- A row of `SNR_data`; its columns are `timestamp`, `ueImsiComplete` and `SNR1` to `SNR4`. -/
abbrev Row := Fin 6 → ℚ

/-- The vector for the model. -/
abbrev Target := Fin 4 → Option ℚ

local instance neZeroColumns : NeZero 6 := ⟨by decide⟩

/-- The entry of `output_array` that a cell has. -/
def column : Int → Option (Fin 6)
  | 2 => some 2
  | 3 => some 3
  | 4 => some 4
  | 5 => some 5
  | _ => none

/-- The variables of the loop in `pars_Realloc_SNR`. -/
structure Parsing where
  output_array : Row := 0
  scellID : Option Int := none

section

variable (float : Chars → Option ℚ) (data_array : List Chars)

def floatField (k : Key) : Option ℚ := data_array[k.Indec_dict]?.bind float

/-- `int` of a field; the numerals of a report are never near the limit on digits. -/
def intField (k : Key) : Option Int := data_array[k.Indec_dict]?.bind (parseInt 0)

/-- The body of the loop. -/
def parsingStep (s : Parsing) (i : Nat) : Option Parsing := do
  let key ← parsing_key[i]?
  if i < 2 then
    let value ← floatField float data_array key
    return { s with output_array := Function.update s.output_array (Fin.ofNat 6 i) value }
  else if i % 2 = 0 then
    let cellId ← intField data_array key
    let s := if i = 2 then { s with scellID := some cellId } else s
    match column cellId with
    | some j =>
        let snr_value_key ← parsing_key[i + 1]?
        let value ← floatField float data_array snr_value_key
        return { s with output_array := Function.update s.output_array j value }
    | none => return s
  else return s

/-- `none` is an exception. -/
def pars_Realloc_SNR (data_str : Chars) : Option (Row × Int) := do
  let s ← (List.range (parsing_key.length - 1)).foldlM
    (parsingStep float (data_str.splitOn ',')) {}
  let scellID ← s.scellID
  return (s.output_array, scellID)

end

structure PossApp where
  window_size : ℚ := 2 * 10 ^ 3
  SNR_data : List Row := [0]

namespace PossApp

def insertPandas (app : PossApp) (parsingData : Row) : PossApp :=
  { app with SNR_data := app.SNR_data ++ [parsingData] }

def createTarget (app : PossApp) (targetImsi : Int) (current_time : ℚ) : Target :=
  let ueSNR := app.SNR_data.filter fun row =>
    row 0 ≤ current_time ∧ row 0 > 0 ∧ row 1 = (targetImsi : ℚ)
  fun j => mean (ueSNR.map fun row => row (j.natAdd 2))

variable (float : Chars → Option ℚ)

/-- `infernece_poss` up to the input of the model. -/
def infernece_poss (app : PossApp) (data_str : Chars) (targetImsi : Int) (current_time : ℚ) :
    Option (PossApp × Target) := do
  let (parsingData, _) ← pars_Realloc_SNR float data_str
  let app := app.insertPandas parsingData
  return (app, app.createTarget targetImsi current_time)

end PossApp

/-- The messages that `main` has positions inferred for. -/
def Processed.ForPoss (p : Processed ℚ) : Prop := p.msg_type = "cucp".toList ∧ p.int_cellId > 1

instance (p : Processed ℚ) : Decidable p.ForPoss :=
  inferInstanceAs (Decidable (p.msg_type = "cucp".toList ∧ p.int_cellId > 1))

namespace PossApp

variable (float : Chars → Option ℚ)

/-- What `main` does for a message, with what the model is given. -/
def handle (app : PossApp) (p : Processed ℚ) : Option (PossApp × Option Target) :=
  if p.ForPoss then
    (app.infernece_poss float p.msg_info p.msg_imsi p.msg_time).map fun (app, targetData) =>
      (app, some targetData)
  else some (app, none)

def run (app : PossApp) (ps : List (Processed ℚ)) : Option PossApp :=
  ps.foldlM (fun app p => (app.handle float p).map Prod.fst) app

/-- What the model is given for a message that comes after others. -/
def givenToModel (window_size : ℚ) (ps : List (Processed ℚ)) (p : Processed ℚ) : Option Target :=
  (run float { window_size } ps).bind fun app => (app.handle float p).bind Prod.snd

end PossApp

/-! ### Records -/

/-- A CU-CP record: the cells and what it says of them. -/
structure CucpRecord where
  timestamp : ℚ
  imsi : Int
  serving : Int × ℚ
  neigh1 : Int × ℚ
  neigh2 : Int × ℚ
  neigh3 : Int × ℚ
  deriving DecidableEq, Repr

namespace CucpRecord

def mentions (r : CucpRecord) : List (Int × ℚ) := [r.serving, r.neigh1, r.neigh2, r.neigh3]

/-- The SINR that a record reports for a cell: what it says last, and 0 if it says nothing. -/
def sinr (r : CucpRecord) (cell : Int) : ℚ :=
  ((r.mentions.reverse.find? fun m => m.1 = cell).map Prod.snd).getD 0

/-- What the record says of a cell stands in these two fields. -/
def Mentions (float : Chars → Option ℚ) (data_array : List Chars) (id sinr : Key)
    (m : Int × ℚ) : Prop :=
  intField data_array id = some m.1 ∧ floatField float data_array sinr = some m.2

/-- A line is well formed, and this is its record. -/
structure Reads (float : Chars → Option ℚ) (line : Chars) (r : CucpRecord) : Prop where
  timestamp : floatField float (line.splitOn ',') .timestamp = some r.timestamp
  imsi : floatField float (line.splitOn ',') .ueImsiComplete = some (r.imsi : ℚ)
  serving : Mentions float (line.splitOn ',') .servingId .servingSINR r.serving
  neigh1 : Mentions float (line.splitOn ',') .neighId1 .neighSINR1 r.neigh1
  neigh2 : Mentions float (line.splitOn ',') .neighId2 .neighSINR2 r.neigh2
  neigh3 : Mentions float (line.splitOn ',') .neighId3 .neighSINR3 r.neigh3

/-- The cells of the vector. -/
def cell (j : Fin 4) : Int := j.val + 2

/-- The mean of what the records of a UE with a time in `(lo, hi]` report for a cell. -/
def meanSinr (rs : List CucpRecord) (imsi : Int) (lo hi : ℚ) (j : Fin 4) : Option ℚ :=
  meanWithin timestamp (fun r => r.sinr (cell j)) lo hi (rs.filter fun r => r.imsi = imsi)

/-- The means over the window that ends at a time. -/
def windowMean (window_size : ℚ) (rs : List CucpRecord) (imsi : Int) (t : ℚ) : Target :=
  meanSinr rs imsi (t - window_size) t

/-- The records of a UE with a time in one of `(0, t]` and the window only are none, or they have
the means of those with a time in both. -/
def AgreeOutside (window_size : ℚ) (rs : List CucpRecord) (imsi : Int) (t : ℚ) : Prop :=
  within timestamp (min 0 (t - window_size)) (min (max 0 (t - window_size)) t)
      (rs.filter fun r => r.imsi = imsi) = [] ∨
    ∀ j, meanSinr rs imsi (min 0 (t - window_size)) (min (max 0 (t - window_size)) t) j =
      meanSinr rs imsi (max 0 (t - window_size)) t j

/-- The row of a record. -/
def row (r : CucpRecord) : Row :=
  ![r.timestamp, r.imsi, r.sinr 2, r.sinr 3, r.sinr 4, r.sinr 5]

end CucpRecord

/-! ### The parser -/

section

variable {float : Chars → Option ℚ} {data_array : List Chars} {s : Parsing} {i : Nat} {m : Int × ℚ}
  {line : Chars} {r : CucpRecord}

/-- A mention is put into the entry of its cell, if it has one. -/
def place (row : Row) (m : Int × ℚ) : Row :=
  match column m.1 with
  | some j => Function.update row j m.2
  | none => row

/-- A value is placed in the column of its cell, if it has one. -/
theorem place_apply {row : Row} {j : Fin 6} :
    place row m j = if column m.1 = some j then m.2 else row j := by
  unfold place
  cases hc : column m.1 with
  | none => rfl
  | some k =>
      simp only [Option.some.injEq]
      by_cases hk : k = j
      · rw [if_pos hk, ← hk, Function.update_self]
      · rw [if_neg hk, Function.update_of_ne (Ne.symm hk)]

/-- The entries from 2 on are those of the cells 2 to 5. -/
theorem column_eq_some_iff {c : Int} {j : Fin 4} :
    column c = some (j.natAdd 2) ↔ c = CucpRecord.cell j := by
  unfold column CucpRecord.cell
  split
  · revert j
    decide
  · revert j
    decide
  · revert j
    decide
  · revert j
    decide
  · rename_i h2 h3 h4 h5
    constructor
    · intro h
      cases h
    · intro h
      have hne : c ≠ 2 ∧ c ≠ 3 ∧ c ≠ 4 ∧ c ≠ 5 := ⟨h2, h3, h4, h5⟩
      have hj := j.isLt
      exfalso
      omega

/-- Each of the first two keys fills its own column. -/
theorem parsingStep_field {k : Key} {x : ℚ} (hi : i < 2) (hkey : parsing_key[i]? = some k)
    (hx : floatField float data_array k = some x) : parsingStep float data_array s i =
      some { s with output_array := Function.update s.output_array (Fin.ofNat 6 i) x } := by
  unfold parsingStep
  rw [hkey]
  simp only [Option.bind_eq_bind, Option.bind_some, if_pos hi, hx, Option.pure_def]

/-- A cell and its SINR fill the column of the cell. -/
theorem parsingStep_mention {id sinr : Key} (hi : 2 ≤ i) (heven : i % 2 = 0)
    (hid : parsing_key[i]? = some id) (hsinr : parsing_key[i + 1]? = some sinr)
    (hm : CucpRecord.Mentions float data_array id sinr m) : parsingStep float data_array s i =
      some ⟨place s.output_array m, if i = 2 then some m.1 else s.scellID⟩ := by
  unfold parsingStep place
  rw [hid]
  simp only [Option.bind_eq_bind, Option.bind_some, if_neg (show ¬ i < 2 by omega), if_pos heven,
    hm.1, Option.pure_def]
  cases hc : column m.1 with
  | none =>
      dsimp only
      split <;> rfl
  | some j =>
      simp only [hsinr, Option.bind_some, hm.2]
      split <;> rfl

/-- The SINR itself is read with its cell. -/
theorem parsingStep_odd {k : Key} (hi : 2 ≤ i) (hodd : i % 2 ≠ 0)
    (hkey : parsing_key[i]? = some k) : parsingStep float data_array s i = some s := by
  unfold parsingStep
  rw [hkey]
  simp only [Option.bind_eq_bind, Option.bind_some, if_neg (show ¬ i < 2 by omega), if_neg hodd,
    Option.pure_def]

/-- What the placing comes to for a cell is what the record reports for it. -/
theorem place_mentions (row : Row) (j : Fin 4) (hrow : row (j.natAdd 2) = 0) :
    (r.mentions.foldl place row) (j.natAdd 2) = r.sinr (CucpRecord.cell j) := by
  unfold CucpRecord.sinr
  induction r.mentions using List.reverseRecOn with
  | nil => exact hrow
  | append_singleton ms m ih =>
      rw [List.foldl_append, List.foldl_cons, List.foldl_nil, place_apply, List.reverse_append,
        List.reverse_singleton, List.singleton_append, List.find?_cons]
      by_cases hm : m.1 = CucpRecord.cell j
      · rw [if_pos (column_eq_some_iff.2 hm), decide_eq_true hm]
        rfl
      · rw [if_neg (mt column_eq_some_iff.1 hm), decide_eq_false hm]
        exact ih

/-- The columns behind the first two are those of the cells. -/
theorem row_eq (r : CucpRecord) (j : Fin 4) :
    r.row (j.natAdd 2) = r.sinr (CucpRecord.cell j) := by
  match j with
  | 0 => rfl
  | 1 => rfl
  | 2 => rfl
  | 3 => rfl

/-- No mention is put into the entries of the time and of the UE. -/
theorem place_low (row : Row) (m : Int × ℚ) : place row m 0 = row 0 ∧ place row m 1 = row 1 := by
  rw [place_apply, place_apply, if_neg, if_neg]
  · exact ⟨rfl, rfl⟩
  · unfold column
    split <;> decide
  · unfold column
    split <;> decide

/-- To place values leaves the first two columns. -/
theorem foldl_place_low (ms : List (Int × ℚ)) (row : Row) :
    ms.foldl place row 0 = row 0 ∧ ms.foldl place row 1 = row 1 := by
  induction ms generalizing row with
  | nil => exact ⟨rfl, rfl⟩
  | cons m ms ih =>
      rw [List.foldl_cons, (ih _).1, (ih _).2]
      exact place_low row m

/-- The loop fills the row with the time, the UE and the cells that are mentioned. -/
theorem foldlM_parsingStep (h : r.Reads float line) (s : Parsing) :
    (List.range (parsing_key.length - 1)).foldlM (parsingStep float (line.splitOn ',')) s =
      some ⟨r.mentions.foldl place
        (Function.update (Function.update s.output_array 0 r.timestamp) 1 r.imsi),
          some r.serving.1⟩ := by
  rw [show List.range (parsing_key.length - 1) = [0, 1, 2, 3, 4, 5, 6, 7, 8] from rfl]
  simp only [List.foldlM_cons, List.foldlM_nil, Option.bind_eq_bind]
  rw [parsingStep_field (by decide) rfl h.timestamp, Option.bind_some,
    parsingStep_field (by decide) rfl h.imsi, Option.bind_some,
    parsingStep_mention (by decide) rfl rfl rfl h.serving, Option.bind_some,
    parsingStep_odd (by decide) (by decide) rfl, Option.bind_some,
    parsingStep_mention (by decide) rfl rfl rfl h.neigh1, Option.bind_some,
    parsingStep_odd (by decide) (by decide) rfl, Option.bind_some,
    parsingStep_mention (by decide) rfl rfl rfl h.neigh2, Option.bind_some,
    parsingStep_odd (by decide) (by decide) rfl, Option.bind_some,
    parsingStep_mention (by decide) rfl rfl rfl h.neigh3, Option.bind_some]
  rfl

/-- **A well-formed line is laid out by cell.** -/
theorem pars_Realloc_SNR_eq (h : r.Reads float line) :
    pars_Realloc_SNR float line = some (r.row, r.serving.1) := by
  unfold pars_Realloc_SNR
  rw [foldlM_parsingStep h]
  simp only [Option.bind_eq_bind, Option.bind_some, Option.pure_def, Option.some.injEq,
    Prod.mk.injEq, and_true]
  -- the first two entries by hand, the others by cell
  have hcells : ∀ j : Fin 4, r.mentions.foldl place (Function.update (Function.update 0 0
      r.timestamp) 1 r.imsi) (j.natAdd 2) = r.row (j.natAdd 2) := by
    intro j
    rw [row_eq]
    refine place_mentions _ _ ?_
    rw [Function.update_of_ne, Function.update_of_ne]
    · rfl
    · revert j
      decide
    · revert j
      decide
  funext k
  match k with
  | 0 => exact (foldl_place_low _ _).1
  | 1 => exact (foldl_place_low _ _).2
  | 2 => exact hcells 0
  | 3 => exact hcells 1
  | 4 => exact hcells 2
  | 5 => exact hcells 3

end

/-! ### The table and the vector -/

section

variable {float : Chars → Option ℚ} {app : PossApp} {w : ℚ} {ps : List (Processed ℚ)}
  {p : Processed ℚ} {rs : List CucpRecord} {r : CucpRecord}

/-- A record for this app is inserted, and a target made of it. -/
theorem PossApp.handle_forPoss (hp : p.ForPoss) (hr : r.Reads float p.msg_info) :
    app.handle float p = some (app.insertPandas r.row,
      some ((app.insertPandas r.row).createTarget p.msg_imsi p.msg_time)) := by
  unfold PossApp.handle PossApp.infernece_poss
  rw [if_pos hp, pars_Realloc_SNR_eq hr]
  rfl

/-- The table has a row for each record, in the order in which they came. -/
theorem PossApp.run_eq (h : List.Forall₂ (fun p r => CucpRecord.Reads float p.msg_info r)
    (ps.filter fun p => p.ForPoss) rs) :
    app.run float ps = some { app with SNR_data := app.SNR_data ++ rs.map CucpRecord.row } := by
  induction ps generalizing app rs with
  | nil =>
      cases h
      simp [PossApp.run]
  | cons p ps ih =>
      rw [List.filter_cons] at h
      have hstep : ∀ app', (app.handle float p).map Prod.fst = some app' →
          app.run float (p :: ps) = app'.run float ps := by
        intro app' happ
        unfold PossApp.run
        rw [List.foldlM_cons, happ]
        rfl
      by_cases hp : p.ForPoss
      · rw [if_pos (decide_eq_true hp)] at h
        cases h with
        | cons hr h =>
            rw [hstep _ (by rw [handle_forPoss hp hr, Option.map_some]), ih h]
            simp [PossApp.insertPandas]
      · rw [if_neg (by rwa [decide_eq_true_eq])] at h
        rw [hstep app (by rw [PossApp.handle, if_neg hp, Option.map_some]), ih h]

/-- The first row of the table is never in the means, and the window has no part in them. -/
theorem PossApp.createTarget_eq (imsi : Int) (t : ℚ) :
    PossApp.createTarget ⟨w, 0 :: rs.map CucpRecord.row⟩ imsi t =
      CucpRecord.meanSinr rs imsi 0 t := by
  funext j
  unfold PossApp.createTarget CucpRecord.meanSinr meanWithin within
  dsimp only
  rw [List.filter_cons_of_neg (by simp), List.filter_map, List.map_map, List.filter_filter]
  have hrow : ((fun row : Row => row (j.natAdd 2)) ∘ CucpRecord.row) =
      fun r => r.sinr (CucpRecord.cell j) := funext fun r => row_eq r j
  have hfilter : ((fun row : Row => decide (row 0 ≤ t ∧ row 0 > 0 ∧ row 1 = (imsi : ℚ))) ∘
      CucpRecord.row) = fun r =>
        (decide (0 < r.timestamp ∧ r.timestamp ≤ t) && decide (r.imsi = imsi)) := by
    funext r
    have h0 : r.row 0 = r.timestamp := rfl
    have h1 : r.row 1 = (r.imsi : ℚ) := rfl
    rw [Function.comp_apply, ← Bool.decide_and, decide_eq_decide, h0, h1, Int.cast_inj]
    constructor
    · rintro ⟨hle, hpos, himsi⟩
      exact ⟨⟨hpos, hle⟩, himsi⟩
    · rintro ⟨⟨hpos, hle⟩, himsi⟩
      exact ⟨hle, hpos, himsi⟩
  rw [hrow, hfilter]

/-- **The model is given the means over all records of the UE up to its time.** -/
theorem PossApp.givenToModel_eq (hps : List.Forall₂ (fun p r => CucpRecord.Reads float p.msg_info r)
    (ps.filter fun p => p.ForPoss) rs) (hp : p.ForPoss) (hr : r.Reads float p.msg_info) :
    PossApp.givenToModel float w ps p =
      some (CucpRecord.meanSinr (rs ++ [r]) p.msg_imsi 0 p.msg_time) := by
  unfold PossApp.givenToModel
  rw [PossApp.run_eq hps, Option.bind_some, PossApp.handle_forPoss hp hr, Option.bind_some,
    ← PossApp.createTarget_eq (w := w)]
  simp [PossApp.insertPandas]

/-- **The input of the model.**  After any messages, the vector that the model is given for a
record is the one of the means over the window exactly if the UE's records that are in one of
`(0, t]` and the window only are none, or agree with the others. -/
theorem PossApp.givenToModel_eq_windowMean_iff {float : Chars → Option ℚ} {w : ℚ}
    {ps : List (Processed ℚ)} {p : Processed ℚ} {rs : List CucpRecord} {r : CucpRecord}
    (hps : List.Forall₂ (fun p r => CucpRecord.Reads float p.msg_info r)
      (ps.filter fun p => p.ForPoss) rs)
    (hp : p.ForPoss) (hr : r.Reads float p.msg_info)
    (himsi : p.msg_imsi = r.imsi) (htime : p.msg_time = r.timestamp) :
    PossApp.givenToModel float w ps p =
        some (CucpRecord.windowMean w (rs ++ [r]) r.imsi r.timestamp) ↔
      CucpRecord.AgreeOutside w (rs ++ [r]) r.imsi r.timestamp := by
  rw [PossApp.givenToModel_eq hps hp hr, himsi, htime, Option.some.injEq]
  exact funext_iff.trans meanWithin_eq_iff

/-! ### The xApp's records -/

/-- The fields of a report are its time and its values, by their index. -/
theorem intField_info (report : Report) (k : Key) : intField (report.info.splitOn ',') k =
    ((report.time : Int) :: report.values)[k.Indec_dict]? := by
  unfold intField
  rw [Report.splitOn_info, List.getElem?_map, Option.bind_map]
  cases ((report.time : Int) :: report.values)[k.Indec_dict]? with
  | none => rfl
  | some z => exact parseInt_decimal (.inl rfl)

/-- So they are as floats. -/
theorem floatField_info (hfloat : ∀ z : Int, float (decimal z) = some (z : ℚ)) (report : Report)
    (k : Key) : floatField float (report.info.splitOn ',') k =
      ((report.time : Int) :: report.values)[k.Indec_dict]?.map fun z => (z : ℚ) := by
  unfold floatField
  rw [Report.splitOn_info, List.getElem?_map, Option.bind_map]
  cases ((report.time : Int) :: report.values)[k.Indec_dict]? with
  | none => rfl
  | some z => exact hfloat z

/-- The record of an entry. -/
def UeMetricsEntry.cucpRecord (m : UeMetricsEntry) (int_cellId : Int) : CucpRecord where
  timestamp := m.measUnixTime_msec
  imsi := m.ueID
  serving := (int_cellId, m.servingCellRSSINR)
  neigh1 := (m.neighborCell1_RF.cellID, m.neighborCell1_RF.rssinr)
  neigh2 := (m.neighborCell2_RF.cellID, m.neighborCell2_RF.rssinr)
  neigh3 := (m.neighborCell3_RF.cellID, m.neighborCell3_RF.rssinr)

/-- **The CU-CP report of an entry is well formed.** -/
theorem UeMetricsEntry.reads_info (hfloat : ∀ z : Int, float (decimal z) = some (z : ℚ))
    {m : UeMetricsEntry} {report : Report} (hm : m.metricType = .oCU_CP)
    (hreport : m.report = some (some report)) :
    (m.cucpRecord report.int_cellId).Reads float report.info := by
  unfold UeMetricsEntry.report at hreport
  rw [hm] at hreport
  obtain ⟨id, -, hreport⟩ := Option.map_eq_some_iff.1 hreport
  obtain rfl := Option.some.inj hreport
  constructor
  case timestamp => exact (floatField_info hfloat _ _).trans rfl
  case imsi => exact (floatField_info hfloat _ _).trans rfl
  all_goals exact ⟨(intField_info _ _).trans rfl, (floatField_info hfloat _ _).trans rfl⟩

end

/-- A report of cell 2 on UE 1, with three neighbours. -/
def sampleCucp (time : Nat) (sinr : Int) : Report :=
  ⟨2, 1, .cucp, time, [1, 1, 0, 0, 2, 1, sinr, 0, 3, 5, 0, 4, 5, 0, 5, 5, 0]⟩

def sampleRecord (time : Nat) (sinr : Int) : CucpRecord :=
  ⟨time, 1, (2, sinr), (3, 5), (4, 5), (5, 5)⟩

def sampleFloat (s : Chars) : Option ℚ := (parseInt 0 s).map fun z => (z : ℚ)

def sampleMessage (time : Nat) (sinr : Int) : Processed ℚ :=
  (sampleCucp time sinr).processed fun n => (n : ℚ)

/-- The example's message is read as its record. -/
theorem sampleRecord_reads (time : Nat) (sinr : Int) :
    (sampleRecord time sinr).Reads sampleFloat (sampleMessage time sinr).msg_info := by
  have hfloat : ∀ z : Int, sampleFloat (decimal z) = some (z : ℚ) := by
    intro z
    unfold sampleFloat
    rw [parseInt_decimal (.inl rfl)]
    rfl
  constructor
  case timestamp => exact (floatField_info hfloat (sampleCucp time sinr) _).trans rfl
  case imsi => exact (floatField_info hfloat (sampleCucp time sinr) _).trans rfl
  all_goals exact ⟨(intField_info (sampleCucp time sinr) _).trans rfl,
    (floatField_info hfloat (sampleCucp time sinr) _).trans rfl⟩

/-- A second record that is not later than the window is long. -/
theorem PossApp.givenToModel_second : PossApp.givenToModel sampleFloat 2000
    [sampleMessage 1000 10] (sampleMessage 2000 20) =
      some (CucpRecord.windowMean 2000 [sampleRecord 1000 10, sampleRecord 2000 20] 1 2000) := by
  have hps : List.Forall₂ (fun p r => CucpRecord.Reads sampleFloat p.msg_info r)
      ([sampleMessage 1000 10].filter fun p => p.ForPoss) [sampleRecord 1000 10] :=
    .cons (sampleRecord_reads 1000 10) .nil
  have hagree : CucpRecord.AgreeOutside 2000 [sampleRecord 1000 10, sampleRecord 2000 20] 1 2000 :=
    .inl (by decide +kernel)
  exact (PossApp.givenToModel_eq_windowMean_iff hps (by decide) (sampleRecord_reads 2000 20) rfl
    rfl).2 hagree

/-- After four seconds the first record is not in the window any more, and still in the mean. -/
theorem PossApp.not_windowed : ¬ ∀ (ps : List (Processed ℚ)) (p : Processed ℚ)
    (rs : List CucpRecord) (r : CucpRecord),
    List.Forall₂ (fun p r => CucpRecord.Reads sampleFloat p.msg_info r)
      (ps.filter fun p => p.ForPoss) rs →
    p.ForPoss → r.Reads sampleFloat p.msg_info → p.msg_imsi = r.imsi →
    p.msg_time = r.timestamp → PossApp.givenToModel sampleFloat 2000 ps p =
      some (CucpRecord.windowMean 2000 (rs ++ [r]) r.imsi r.timestamp) := by
  intro h
  have hps : List.Forall₂ (fun p r => CucpRecord.Reads sampleFloat p.msg_info r)
      ([sampleMessage 1000 10].filter fun p => p.ForPoss) [sampleRecord 1000 10] :=
    .cons (sampleRecord_reads 1000 10) .nil
  have hforPoss : (sampleMessage 5000 20).ForPoss := by decide
  have hmean := h _ _ _ _ hps hforPoss (sampleRecord_reads 5000 20) rfl rfl
  rw [PossApp.givenToModel_eq hps hforPoss (sampleRecord_reads 5000 20)] at hmean
  have hcell := congrFun (Option.some.inj hmean) 0
  have hall : CucpRecord.meanSinr ([sampleRecord 1000 10] ++ [sampleRecord 5000 20]) 1 0 5000 0 =
      some 15 := by decide +kernel
  have hwindow : CucpRecord.windowMean 2000 ([sampleRecord 1000 10] ++ [sampleRecord 5000 20]) 1
      5000 0 = some 20 := by decide +kernel
  have heq : (some 15 : Option ℚ) = some 20 := hall.symm.trans (hcell.trans hwindow)
  revert heq
  decide

end NearRtRic.Xapp
