/-
# Which indications are come through

`Total` says that `procRicIndication` returns, whatever is in the memory that it
allocates; `total_iff` says of which indications that is true.  There are fewer than 256
IEs, since `idx` has eight bits and would start again, every payload decodes, and every
message is `Handled` with the cell that the headers before it gave.

For the loop over the UEs the invariant is what `strUEID` holds, `copyAll`, which is
known from the ids alone, and that the cell id of the entry stays.  Where a message is
not handled, an entry without any NUL in it lets none through.
-/

import NearRtRic.Xapp.Decoded

namespace NearRtRic.Xapp

open CString

/-! ### The statement -/

/-- The number that is read behind some ids: what was left at each of the six places. -/
def readId (ids : List Bytes) : Option Int :=
  strtol (visible ((List.range 6).map (leftAt ids)))

/-- A UE behind those with the given ids: its id fits, the number that is read is one of the
32 bits, and its measurements are there and come through. -/
structure PerUE_PM_Item.Handled (item : PerUE_PM_Item) (ids : List Bytes) : Prop where
  fits : item.IdFits
  bit : ∃ n, readId (ids ++ [item.ueId]) = some n ∧ 1 ≤ n ∧ n ≤ 32
  readable : ∃ infos, item.list_of_PM_Information = some infos ∧ ∀ info ∈ infos, info.readable

/-- Nothing in it is parsed. -/
def PF_Container.isEmpty : PF_Container → Bool
  | .oDU cellResourceReportList => cellResourceReportList.isEmpty
  | .oCU_UP pf_ContainerList => pf_ContainerList.all (·.isEmpty)
  | _ => true

/-- The types of the containers of a message. -/
def IndicationMessage_Format1.types (m : IndicationMessage_Format1) :
    List (Option PerfContainerType) :=
  m.pm_Containers.map fun c => c.map PF_Container.type

/-- **A message that is come through**, with what the headers before it gave. -/
structure IndicationMessage_Format1.Handled (m : IndicationMessage_Format1) (h : Header) :
    Prop where
  containers : ∀ c, some c ∈ m.pm_Containers → c.isEmpty
  type : metricType m.types ≠ .oDU
  cell : ∀ infos, m.list_of_PM_Information = some infos → ∀ info ∈ infos, info.readsForCell
  entry : ∀ items, m.list_of_matched_UEs = some items → items ≠ [] →
    metricType m.types ≠ .nothing ∧ (strtol (visible h.gCellID)).isSome
  ues : ∀ items, m.list_of_matched_UEs = some items → ∀ i (item : PerUE_PM_Item),
    items[i]? = some item → item.Handled ((items.take i).map (·.ueId))

/-- All IEs, from a header on. -/
def Handled (e2sm : E2SM) : Header → List RICindication_IE → Prop
  | _, [] => True
  | h, .message payload :: ies =>
      (∃ decodedMsg, e2sm.e2sm_decode_ric_indication_message payload = some decodedMsg ∧
        ∀ m : IndicationMessage_Format1, decodedMsg = .indicationMessage_Format1 m →
          m.Handled h) ∧
        Handled e2sm h ies
  | h, .header payload :: ies =>
      ∃ decodedHdr, e2sm.e2sm_decode_ric_indication_header payload = some decodedHdr ∧
        Handled e2sm (h.next decodedHdr) ies
  | h, .other :: ies => Handled e2sm h ies

/-- **The indication is processed**, whatever is in the memory. -/
def Total (e2sm : E2SM) (protocolIEs : List RICindication_IE) : Prop :=
  ∀ garbage : Nat → Garbage, ∃ rounds sent,
    procRicIndication e2sm protocolIEs rounds garbage 0 {} = .returned sent

/-! ### PLMNs -/

/-- A number takes at least its one digit and the NUL. -/
theorem two_le_length_itoa10 (value : Nat) : 2 ≤ (itoa10 value).length := by
  have hdigits : (toString value).toList = Nat.toDigits 10 value := by simp
  have hpos : 0 < (Nat.toDigits 10 value).length := Nat.length_toDigits_pos
  unfold itoa10 ascii
  rw [List.length_append, List.length_map, hdigits, List.length_singleton]
  omega

/-- **The NUL behind the last number** is stored past the end. -/
theorem printFrom_eq_none {values : List Nat} {i : Nat} {temp : Bytes} (hne : values ≠ [])
    (hlen : temp.length ≤ i + values.length) : printFrom i values temp = none := by
  induction values generalizing i temp with
  | nil => exact absurd rfl hne
  | cons value values ih =>
      rw [printFrom]
      cases hstore : store i (itoa10 value) temp with
      | none => rfl
      | some temp' =>
          rw [List.length_cons] at hlen
          rw [Option.bind_some]
          refine ih ?_ ?_
          · rintro rfl
            have htwo := two_le_length_itoa10 value
            have hlt : ¬ i + (itoa10 value).length ≤ temp.length := by
              rw [List.length_nil] at hlen
              omega
            unfold store at hstore
            rw [if_neg hlt] at hstore
            cases hstore
          · rw [length_of_store hstore]
            omega

/-- So `ParsePLMNIdentity` stores past the end of its text for every PLMN. -/
theorem ParsePLMNIdentity_eq_none (pLMN_Identity : PLMN_Identity) :
    ParsePLMNIdentity pLMN_Identity = none := by
  obtain ⟨data, hdata⟩ := pLMN_Identity
  have hlen : (halves data).length = 6 := by
    match data, hdata with
    | [_, _, _], _ => rfl
  have hne : halves data ≠ [] := List.ne_nil_of_length_pos (by omega)
  have hprint : printFrom 0 (halves data) (List.replicate 6 0) = none := by
    refine printFrom_eq_none hne ?_
    rw [List.length_replicate]
    omega
  unfold ParsePLMNIdentity
  rw [if_neg (not_not.2 hdata), hprint]
  rfl

/-- A container comes through where there is nothing to parse. -/
theorem PF_Container.parses_eq_isEmpty (c : PF_Container) : c.parses = c.isEmpty := by
  have hall : ∀ plmnList : List PLMN_Identity,
      (plmnList.all fun p => (ParsePLMNIdentity p).isSome) = plmnList.isEmpty := by
    intro plmnList
    cases plmnList with
    | nil => rfl
    | cons p plmnList =>
        rw [List.all_cons, ParsePLMNIdentity_eq_none]
        rfl
  match c with
  | .oDU [] => rfl
  | .oDU (nRCGI :: list) =>
      simp only [PF_Container.parses, List.all_cons, ParsePLMNIdentity_eq_none]
      rfl
  | .oCU_UP list =>
      simp only [PF_Container.parses, PF_Container.isEmpty, hall]
  | .oCU_CP => rfl
  | .other => rfl

/-! ### The containers -/

/-- **All containers**: the entries are those of the first that allocates them. -/
theorem foldlM_next (h : Header) (g : Garbage) (cs : List (Option PF_Container)) (e : Entries) :
    cs.foldlM (Entries.next h g) e =
      if cs.all fun c => c.all PF_Container.isEmpty then
        some ⟨(cs.map fun c => c.map PF_Container.type).foldl (Containers.next h g.ueMetrics)
            e.toContainers,
          e.cellID.or ((((cs.map fun c => c.map PF_Container.type).filterMap id).find?
            (· ≠ .nothing)).map fun type => h.copyCellID type g.cellID)⟩
      else none := by
  induction cs generalizing e with
  | nil => simp
  | cons c cs ih =>
      rw [List.foldlM_cons, List.all_cons, List.map_cons, List.foldl_cons]
      cases c with
      | none => exact ih e
      | some c =>
          rw [Entries.next, PF_Container.parses_eq_isEmpty, Option.all_some]
          cases c.isEmpty with
          | false => rfl
          | true =>
              have hcell : ∀ types : List PerfContainerType,
                  (if c.type = .nothing then e.cellID
                    else e.cellID.or (some (h.copyCellID c.type g.cellID))).or
                      ((types.find? (· ≠ .nothing)).map fun type => h.copyCellID type g.cellID) =
                    e.cellID.or (((c.type :: types).find? (· ≠ .nothing)).map fun type =>
                      h.copyCellID type g.cellID) := by
                intro types
                rw [List.find?_cons]
                by_cases htype : c.type = .nothing
                · rw [if_pos htype, decide_eq_false (not_not.2 htype)]
                · rw [if_neg htype, decide_eq_true htype, Option.or_assoc]
                  rfl
              rw [if_pos rfl, Bool.true_and]
              refine (ih _).trans ?_
              dsimp only
              rw [hcell]
              rfl

/-! ### The loop over the UEs -/

variable {ids : List Bytes} {cellID : Bytes} {type : PerfContainerType} {rem : Nat} {s : Scan}
  {item : PerUE_PM_Item}

/-- What is in `strUEID` behind some ids, place by place. -/
theorem copyAll_eq_map_leftAt (h : EndsAtFive (copyAll ids strUEID_init)) :
    copyAll ids strUEID_init = (List.range 6).map (leftAt ids) := by
  refine List.ext_getElem ?_ fun p hp hp' => ?_
  · rw [h.length_eq, List.length_map, List.length_range]
  · rw [List.getElem_map, List.getElem_range, ← getD_copyAll, List.getD_eq_getElem _ _ hp]

/-- The shift fits if the number that is read is one of the 32 bits. -/
theorem shiftFits_iff (b : Bytes) :
    shiftFits b ↔ ∃ n, strtol (visible b) = some n ∧ 1 ≤ n ∧ n ≤ 32 := by
  unfold shiftFits
  cases strtol (visible b) with
  | none => simp
  | some n => simp

/-- The bit of a UE whose id fits. -/
theorem shiftFits_strncpy_iff (hends : EndsAtFive (copyAll ids strUEID_init))
    (hfits : item.IdFits) : shiftFits (strncpy item.ueId (copyAll ids strUEID_init)) ↔
      ∃ n, readId (ids ++ [item.ueId]) = some n ∧ 1 ≤ n ∧ n ≤ 32 := by
  have hcopy : EndsAtFive (copyAll (ids ++ [item.ueId]) strUEID_init) := by
    rw [copyAll_append_singleton]
    exact hends.strncpy hfits
  rw [← copyAll_append_singleton, shiftFits_iff, copyAll_eq_map_leftAt hcopy]
  rfl

/-- The loop behind some UEs: what is in `strUEID`, and the cell id of the entry. -/
structure Behind (ids : List Bytes) (cellID : Bytes) (s : Scan) : Prop where
  strUEID : s.strUEID = copyAll ids strUEID_init
  endsAtFive : EndsAtFive s.strUEID
  entry : ∃ m, s.ueMetrics = some m ∧ m.servingCellID = cellID

/-- The measurements of a UE leave the cell id as it is. -/
theorem servingCellID_of_pmInfos {infos : List PM_Info_Item} {m m' : UeMetricsEntry} {n : Nat}
    (h : pmInfos type infos { m with ueID := n } = some m') :
    m'.servingCellID = m.servingCellID := by
  obtain ⟨w, rfl⟩ := exists_over_of_pmInfos h
  rfl

/-- A report can be made if a number is read from the cell id. -/
theorem UeMetricsEntry.isSome_report (m : UeMetricsEntry) :
    m.report.isSome = (strtol (visible m.servingCellID)).isSome := Option.isSome_map

/-- **One UE is come through** where it is handled and the cell id of the entry is a text that
starts with a number. -/
theorem Behind.isSome_checkedUE_iff (hs : Behind ids cellID s) :
    (checkedUE type rem s item).isSome ↔
      (terminated cellID ∧ (strtol (visible cellID)).isSome) ∧ item.Handled ids := by
  obtain ⟨ueMetrics, b⟩ := s
  obtain ⟨rfl, hends, m, rfl, rfl⟩ := hs
  unfold checkedUE
  constructor
  · intro h
    split at h
    · rename_i hcheck
      rw [Bool.and_eq_true] at hcheck
      obtain ⟨⟨s', r⟩, hperUE⟩ := Option.isSome_iff_exists.1 h
      obtain ⟨hfits, infos, hinfos, m', hm', hreport, -⟩ := (perUE_eq_some_iff hends).1 hperUE
      have hcell : (strtol (visible m'.servingCellID)).isSome := by
        rw [← UeMetricsEntry.isSome_report, hreport]
        rfl
      rw [servingCellID_of_pmInfos hm'] at hcell
      exact ⟨⟨hcheck.2, hcell⟩, hfits, (shiftFits_strncpy_iff hends hfits).1 hcheck.1, infos,
        hinfos, readable_of_pmInfos hm'⟩
    · cases h
  · rintro ⟨⟨hterm, hcell⟩, hfits, hbit, infos, hinfos, hread⟩
    have hcheck : (shiftFits (strncpy item.ueId (copyAll ids strUEID_init)) &&
        (some m).all fun m => terminated m.servingCellID) = true := by
      rw [Bool.and_eq_true]
      exact ⟨(shiftFits_strncpy_iff hends hfits).2 hbit, hterm⟩
    obtain ⟨w, -, hrun⟩ := exists_over_of_readable hread
    have hreport : (UeMetricsEntry.over { m with
        ueID := intUEID (strncpy item.ueId (copyAll ids strUEID_init)) } w).report.isSome := by
      rw [UeMetricsEntry.isSome_report]
      exact hcell
    obtain ⟨r, hr⟩ := Option.isSome_iff_exists.1 hreport
    rw [if_pos hcheck, Option.isSome_iff_exists]
    exact ⟨_, (perUE_eq_some_iff hends).2 ⟨hfits, infos, hinfos, _, hrun _, hr, rfl⟩⟩

/-- The loop goes on behind one more id. -/
theorem Behind.checkedUE (hs : Behind ids cellID s) {next : Scan × Option Report}
    (h : checkedUE type rem s item = some next) (hrem : rem ≠ 0) :
    Behind (ids ++ [item.ueId]) cellID next.1 := by
  obtain ⟨ueMetrics, b⟩ := s
  obtain ⟨s', r⟩ := next
  obtain ⟨rfl, hends, m, rfl, rfl⟩ := hs
  unfold Xapp.checkedUE at h
  split at h
  · obtain ⟨hfits, infos, -, m', hm', -, rfl⟩ := (perUE_eq_some_iff hends).1 h
    exact ⟨(copyAll_append_singleton ids item.ueId _).symm, hends.strncpy hfits, m', if_neg hrem,
      servingCellID_of_pmInfos hm'⟩
  · cases h

/-- What holds at every place of a list with one more element in front. -/
theorem forall_getElem?_cons {α : Type} {P : Nat → α → Prop} {a : α} {as : List α} :
    (∀ i x, (a :: as)[i]? = some x → P i x) ↔ P 0 a ∧ ∀ i x, as[i]? = some x → P (i + 1) x := by
  constructor
  · intro h
    exact ⟨h 0 a rfl, fun i x hx => h (i + 1) x hx⟩
  · rintro ⟨hzero, hsucc⟩ i x hx
    cases i with
    | zero => exact Option.some.inj hx ▸ hzero
    | succ i => exact hsucc i x hx

/-- **All UEs.** -/
theorem Behind.isSome_checkedUEs_iff (hs : Behind ids cellID s) (items : List PerUE_PM_Item) :
    (checkedUEs type s items).isSome ↔
      (items ≠ [] → terminated cellID ∧ (strtol (visible cellID)).isSome) ∧
        ∀ i (item : PerUE_PM_Item), items[i]? = some item →
          item.Handled (ids ++ (items.take i).map (·.ueId)) := by
  induction items generalizing ids s with
  | nil => simp [checkedUEs]
  | cons a items ih =>
      have hstep : (Xapp.checkedUE type items.length s a).isSome ↔ _ := hs.isSome_checkedUE_iff
      have htake : ∀ i, ids ++ ((a :: items).take (i + 1)).map (·.ueId) =
          (ids ++ [a.ueId]) ++ (items.take i).map (·.ueId) := by
        intro i
        simp
      rw [checkedUEs, forall_getElem?_cons]
      simp only [htake, List.take_zero, List.map_nil, List.append_nil]
      cases hue : Xapp.checkedUE type items.length s a with
      | none =>
          rw [hue] at hstep
          constructor
          · intro h
            cases h
          · rintro ⟨hcell, hhandled, -⟩
            exact absurd (hstep.2 ⟨hcell (List.cons_ne_nil _ _), hhandled⟩) (by simp)
      | some next =>
          rw [hue] at hstep
          obtain ⟨hcell, hhandled⟩ := hstep.1 rfl
          have hrest : (checkedUEs type next.1 items).isSome ↔
              ∀ i (item : PerUE_PM_Item), items[i]? = some item →
                item.Handled ((ids ++ [a.ueId]) ++ (items.take i).map (·.ueId)) := by
            cases items with
            | nil => simp [checkedUEs]
            | cons a' items' =>
                rw [ih (hs.checkedUE hue (Nat.succ_ne_zero _))]
                exact and_iff_right fun _ => hcell
          rw [Option.bind_some, Option.isSome_map, hrest]
          exact ⟨fun h => ⟨fun _ => hcell, hhandled, h⟩, fun h => h.2.2⟩

/-- Without an entry no UE is come through. -/
theorem isSome_checkedUEs_none (b : Bytes) (items : List PerUE_PM_Item) :
    (checkedUEs type ⟨none, b⟩ items).isSome ↔ items = [] := by
  cases items with
  | nil => exact iff_of_true rfl rfl
  | cons a items => simp [checkedUEs, checkedUE, perUE]

/-! ### The cell id -/

variable {h : Header}

/-- `gCellID` has room for a NUL at 4, and for the NUL behind its copies. -/
structure Header.Fits (h : Header) : Prop where
  length_gCellID : 5 ≤ h.gCellID.length
  length_visible : (visible h.gCellID).length ≤ 7

/-- The arrays fit before the first header. -/
theorem Header.fits_init : Header.init.Fits := ⟨by decide, by decide⟩

/-- They fit after a cell was written to them. -/
theorem Header.Fits.setCell (hfits : h.Fits) (plmn_id : PLMN_Identity) (id : NodeID) :
    (h.setCell plmn_id id).Fits := by
  have hlen : ∀ src : Bytes, 4 < (memcpy src h.gCellID).length := by
    intro src
    have hfive := hfits.length_gCellID
    rw [length_memcpy]
    omega
  unfold Header.setCell
  constructor
  · dsimp only
    rw [List.length_set]
    exact hlen _
  · exact (length_visible_set_zero_le (hlen _)).trans (by decide)

/-- So they fit after every header. -/
theorem Header.Fits.next (hfits : h.Fits) (decodedHdr : E2SM_KPM_IndicationHeader) :
    (h.next decodedHdr).Fits := by
  -- the time has no part in it
  have htime : ∀ msec, Header.Fits { h with gMeasUnixTime_msec := msec } :=
    fun _ => ⟨hfits.length_gCellID, hfits.length_visible⟩
  match decodedHdr with
  | .indicationHeader_Format1 _ (.gNB plmn_id gnb_ID) => exact (htime _).setCell plmn_id gnb_ID
  | .indicationHeader_Format1 _ (.eNB pLMN_Identity (.macro_eNB_ID id)) =>
      exact (htime _).setCell pLMN_Identity id
  | .indicationHeader_Format1 _ (.eNB _ .other) => exact htime _
  | .indicationHeader_Format1 _ .en_gNB => exact htime _
  | .indicationHeader_Format1 _ .ng_eNB => exact htime _
  | .other => exact hfits

/-- The copy of a cell id that fits ends in its array, whatever was there. -/
theorem terminated_copyCellID (hfits : h.Fits) (htype : type ≠ .oDU) (garbage : Bytes) :
    terminated (h.copyCellID type garbage) := by
  have hseven := hfits.length_visible
  have hlen : (visible h.gCellID ++ [0]).length ≤ 8 := by
    rw [List.length_append, List.length_singleton]
    omega
  unfold terminated Header.copyCellID
  rw [if_neg htype, memcpy, List.take_append, List.take_of_length_le hlen,
    List.contains_iff_mem]
  simp

/-- It reads as the cell id of the header. -/
theorem visible_copyCellID (htype : type ≠ .oDU) (garbage : UeMetricsEntry) :
    visible (h.copyCellID type garbage.servingCellID) = visible h.gCellID :=
  visible_alloc htype garbage

/-- Memory without a NUL. -/
def Garbage.ones : Garbage :=
  ⟨{ blank 0 with servingCellID := List.replicate 8 1 }, List.replicate 8 1, rfl, rfl⟩

/-- For an O-DU the text does not end. -/
theorem not_terminated_copyCellID : ¬ terminated (h.copyCellID .oDU Garbage.ones.cellID) := by
  unfold terminated
  rw [List.contains_iff_mem]
  intro hmem
  rcases List.mem_append.1 (List.mem_of_mem_take hmem) with hmem | hmem
  · exact zero_notMem_visible _ hmem
  · exact absurd (List.eq_of_mem_replicate (List.mem_of_mem_drop hmem)) (by decide)

/-! ### A message -/

variable {m : IndicationMessage_Format1} {g : Garbage} {p p' : Progress}

/-- The entries behind the containers of a message. -/
def IndicationMessage_Format1.entries (m : IndicationMessage_Format1) (h : Header)
    (type : PerfContainerType) (g : Garbage) : Entries where
  gPFContainterType := (m.types.filterMap id).getLastD type
  ueMetrics :=
    if metricType m.types = .nothing then none
    else some (UeMetricsEntry.alloc h g.ueMetrics (metricType m.types))
  cellID :=
    if metricType m.types = .nothing then none
    else some (h.copyCellID (metricType m.types) g.cellID)

/-- A message is come through where its checks succeed, and adds the reports of its UEs. -/
theorem IndicationMessage_Format1.process_eq : m.process g p =
    if (m.pm_Containers.all fun c => c.all PF_Container.isEmpty) &&
        (m.list_of_PM_Information.getD []).all (·.readsForCell) then
      ((m.entries p.header p.gPFContainterType g).matchedUEs m.list_of_matched_UEs).bind
        fun sent =>
          if (m.entries p.header p.gPFContainterType g).cellID.all terminated then
            some ⟨p.header, (m.entries p.header p.gPFContainterType g).gPFContainterType,
              p.sent ++ sent⟩
          else none
    else none := by
  have hentries : m.pm_Containers.foldlM (Entries.next p.header g)
      { gPFContainterType := p.gPFContainterType } =
        if m.pm_Containers.all fun c => c.all PF_Container.isEmpty then
          some (m.entries p.header p.gPFContainterType g)
        else none := by
    rw [foldlM_next, foldl_next, Option.none_or, Option.none_or]
    have hfind := find?_eq m.types
    unfold IndicationMessage_Format1.types at hfind
    rw [hfind]
    unfold IndicationMessage_Format1.entries IndicationMessage_Format1.types
    by_cases htype : metricType (m.pm_Containers.map fun c => c.map PF_Container.type) = .nothing
    · simp only [if_pos htype, Option.map_none]
    · simp only [if_neg htype, Option.map_some]
  unfold IndicationMessage_Format1.process
  rw [hentries]
  cases m.pm_Containers.all fun c => c.all PF_Container.isEmpty with
  | false => rfl
  | true =>
      rw [if_pos rfl, Option.bind_some, Bool.true_and]

/-- The UEs are come through where there are none, or an entry whose cell id is a number and
each of them is handled. -/
theorem isSome_matchedUEs_iff (list : Option (List PerUE_PM_Item)) :
    ((m.entries h type g).matchedUEs list).isSome ↔ ∀ items, list = some items →
      (items ≠ [] → metricType m.types ≠ .nothing ∧
        terminated (h.copyCellID (metricType m.types) g.ueMetrics.servingCellID) ∧
          (strtol (visible
            (h.copyCellID (metricType m.types) g.ueMetrics.servingCellID))).isSome) ∧
      ∀ i (item : PerUE_PM_Item), items[i]? = some item →
        item.Handled ((items.take i).map (·.ueId)) := by
  cases list with
  | none => exact iff_of_true rfl nofun
  | some items =>
      simp only [Option.some.injEq, forall_eq']
      unfold Entries.matchedUEs IndicationMessage_Format1.entries
      dsimp only
      by_cases htype : metricType m.types = .nothing
      · rw [if_pos htype, Option.map_none, isSome_checkedUEs_none]
        constructor
        · rintro rfl
          exact ⟨fun hne => absurd rfl hne, nofun⟩
        · rintro ⟨hentry, -⟩
          by_contra hne
          exact (hentry hne).1 htype
      · have hbehind : Behind [] (h.copyCellID (metricType m.types) g.ueMetrics.servingCellID)
            ⟨some { UeMetricsEntry.alloc h g.ueMetrics (metricType m.types) with
              matchedUEsTotNum := items.length }, strUEID_init⟩ :=
          ⟨rfl, endsAtFive_init, _, rfl, rfl⟩
        rw [if_neg htype, Option.map_some, hbehind.isSome_checkedUEs_iff]
        simp only [List.nil_append, ne_eq, htype, not_false_iff, true_and]

/-- Where the checks succeed the UEs are reported as without them. -/
theorem matchedUEs_of_checkedUEs {items : List PerUE_PM_Item} {sent : List (Option Report)}
    (hsent : checkedUEs type s items = some sent) : matchedUEs type s items = sent := by
  induction items generalizing s sent with
  | nil => exact Option.some.inj hsent
  | cons a items ih =>
      rw [checkedUEs] at hsent
      obtain ⟨⟨s', r⟩, hue, hsent⟩ := Option.bind_eq_some_iff.1 hsent
      obtain ⟨sent', hrest, rfl⟩ := Option.map_eq_some_iff.1 hsent
      unfold checkedUE at hue
      split at hue
      · rw [matchedUEs, hue]
        exact congrArg (r :: ·) (ih hrest)
      · cases hue

/-- **What is sent for a message that is come through** are its reports. -/
theorem sent_of_process (hp : m.process g p = some p') :
    p'.sent = p.sent ++ procIndicationMessage p.header g.ueMetrics
      ⟨m.types, m.list_of_matched_UEs.getD []⟩ := by
  rw [IndicationMessage_Format1.process_eq] at hp
  split at hp
  · obtain ⟨sent, hsent, hp⟩ := Option.bind_eq_some_iff.1 hp
    split at hp
    · rw [← Option.some.inj hp, procIndicationMessage_eq, find?_eq]
      refine congrArg (p.sent ++ ·) ?_
      cases hlist : m.list_of_matched_UEs with
      | none =>
          rw [hlist] at hsent
          exact (Option.some.inj hsent).symm
      | some items =>
          rw [hlist] at hsent
          unfold Entries.matchedUEs IndicationMessage_Format1.entries at hsent
          dsimp only at hsent
          by_cases htype : metricType m.types = .nothing
          · rw [if_pos htype] at hsent
            have hnil : items = [] :=
              (isSome_checkedUEs_none _ _).1 (Option.isSome_of_eq_some hsent)
            rw [hnil] at hsent ⊢
            exact (Option.some.inj hsent).symm
          · -- where there is an entry, the last container is one of this message
            have hlast : (m.types.filterMap id).getLastD p.gPFContainterType =
                gPFContainterType m.types := by
              have hfind := find?_of_metricType htype
              unfold gPFContainterType
              cases hcs : m.types.filterMap id with
              | nil =>
                  rw [hcs] at hfind
                  cases hfind
              | cons type types => rw [List.getLastD_cons, List.getLastD_cons]
            rw [if_neg htype, hlast] at hsent
            rw [if_neg htype]
            exact (matchedUEs_of_checkedUEs hsent).symm
    · cases hp
  · cases hp

/-- The check of the containers. -/
theorem all_isEmpty_iff (cs : List (Option PF_Container)) :
    (cs.all fun c => c.all PF_Container.isEmpty) ↔ ∀ c, some c ∈ cs → c.isEmpty := by
  rw [List.all_eq_true]
  constructor
  · intro hall c hc
    exact hall (some c) hc
  · intro hall c hc
    cases c with
    | none => rfl
    | some c => exact hall c hc

/-- The check of the measurements of the cell. -/
theorem all_readsForCell_iff (list : Option (List PM_Info_Item)) :
    (list.getD []).all (·.readsForCell) ↔
      ∀ infos, list = some infos → ∀ info ∈ infos, info.readsForCell := by
  cases list with
  | none => exact iff_of_true rfl nofun
  | some infos => simp

/-- **A handled message is come through.** -/
theorem IndicationMessage_Format1.Handled.exists_process (hm : m.Handled p.header)
    (hfits : p.header.Fits) (g : Garbage) :
    ∃ p', m.process g p = some p' ∧ p'.header = p.header := by
  have hterm : ∀ garbage, terminated (p.header.copyCellID (metricType m.types) garbage) :=
    terminated_copyCellID hfits hm.type
  have hues : ((m.entries p.header p.gPFContainterType g).matchedUEs
      m.list_of_matched_UEs).isSome := by
    refine (isSome_matchedUEs_iff _).2 fun items hitems => ⟨fun hne => ?_, hm.ues items hitems⟩
    obtain ⟨htype, hcell⟩ := hm.entry items hitems hne
    refine ⟨htype, hterm _, ?_⟩
    rwa [visible_copyCellID hm.type]
  obtain ⟨sent, hsent⟩ := Option.isSome_iff_exists.1 hues
  have hcell : (m.entries p.header p.gPFContainterType g).cellID.all terminated := by
    unfold IndicationMessage_Format1.entries
    dsimp only
    split
    · rfl
    · exact hterm _
  have hparts : ((m.pm_Containers.all fun c => c.all PF_Container.isEmpty) &&
      (m.list_of_PM_Information.getD []).all (·.readsForCell)) = true := by
    rw [Bool.and_eq_true]
    exact ⟨(all_isEmpty_iff _).2 hm.containers, (all_readsForCell_iff _).2 hm.cell⟩
  rw [process_eq, if_pos hparts, hsent, Option.bind_some, if_pos hcell]
  exact ⟨_, rfl, rfl⟩

/-- **Only a handled message is come through with memory without a NUL.** -/
theorem handled_of_process (hp : m.process .ones p = some p') :
    m.Handled p.header ∧ p'.header = p.header := by
  rw [IndicationMessage_Format1.process_eq] at hp
  split at hp
  · rename_i hparts
    rw [Bool.and_eq_true] at hparts
    obtain ⟨sent, hsent, hp⟩ := Option.bind_eq_some_iff.1 hp
    have hues := (isSome_matchedUEs_iff _).1 (Option.isSome_of_eq_some hsent)
    split at hp
    · rename_i hcell
      have htype : metricType m.types ≠ .oDU := by
        intro htype
        unfold IndicationMessage_Format1.entries at hcell
        rw [htype] at hcell
        exact not_terminated_copyCellID hcell
      refine ⟨⟨(all_isEmpty_iff _).1 hparts.1, htype, (all_readsForCell_iff _).1 hparts.2,
        fun items hitems hne => ?_, fun items hitems => (hues items hitems).2⟩, ?_⟩
      · obtain ⟨hne, -, hnumber⟩ := (hues items hitems).1 hne
        rw [visible_copyCellID htype] at hnumber
        exact ⟨hne, hnumber⟩
      · rw [← Option.some.inj hp]
    · cases hp
  · cases hp

/-! ### The loop over the IEs -/

variable {e2sm : E2SM} {ie : RICindication_IE} {ies rest : List RICindication_IE}

/-- **One IE that is handled is come through.** -/
theorem exists_next_of_handled (hh : Handled e2sm p.header (ie :: rest)) (hfits : p.header.Fits)
    (g : Garbage) : ∃ p', p.next e2sm g ie = some p' ∧ p'.header.Fits ∧
      Handled e2sm p'.header rest := by
  cases ie with
  | other => exact ⟨p, rfl, hfits, hh⟩
  | header payload =>
      obtain ⟨decodedHdr, hdecode, hrest⟩ := hh
      refine ⟨{ p with header := p.header.next decodedHdr }, ?_, hfits.next decodedHdr, hrest⟩
      rw [Progress.next, hdecode]
      rfl
  | message payload =>
      obtain ⟨⟨decodedMsg, hdecode, hm⟩, hrest⟩ := hh
      rw [Progress.next, hdecode, Option.bind_some]
      cases decodedMsg with
      | other => exact ⟨p, rfl, hfits, hrest⟩
      | indicationMessage_Format1 m =>
          obtain ⟨p', hp', hheader⟩ := (hm m rfl).exists_process hfits g
          refine ⟨p', hp', ?_⟩
          rw [hheader]
          exact ⟨hfits, hrest⟩

/-- **With memory without a NUL, only a handled IE.** -/
theorem handled_of_next (hp : p.next e2sm .ones ie = some p')
    (hrest : Handled e2sm p'.header rest) : Handled e2sm p.header (ie :: rest) := by
  cases ie with
  | other =>
      rw [← Option.some.inj hp] at hrest
      exact hrest
  | header payload =>
      obtain ⟨decodedHdr, hdecode, rfl⟩ := Option.map_eq_some_iff.1 hp
      exact ⟨decodedHdr, hdecode, hrest⟩
  | message payload =>
      obtain ⟨decodedMsg, hdecode, hp⟩ := Option.bind_eq_some_iff.1 hp
      cases decodedMsg with
      | other =>
          rw [← Option.some.inj hp] at hrest
          exact ⟨⟨_, hdecode, nofun⟩, hrest⟩
      | indicationMessage_Format1 m =>
          obtain ⟨hm, hheader⟩ := handled_of_process hp
          rw [hheader] at hrest
          refine ⟨⟨_, hdecode, fun m' hm' => ?_⟩, hrest⟩
          cases hm'
          exact hm

variable {idx : UInt8}

/-- The next place, as long as the index does not start again. -/
theorem drop_succ_of_drop_eq_cons (hlen : ies.length < 256)
    (hdrop : ies.drop idx.toNat = ie :: rest) :
    ies[idx.toNat]? = some ie ∧ ies.drop (idx + 1).toNat = rest := by
  have hget : ies[idx.toNat]? = some ie := by
    have hfirst := congrArg List.head? hdrop
    rwa [List.head?_drop] at hfirst
  have hlt : idx.toNat < ies.length := (List.getElem?_eq_some_iff.1 hget).1
  have hsucc : (idx + 1).toNat = idx.toNat + 1 := by
    rw [UInt8.toNat_add, UInt8.toNat_one]
    omega
  refine ⟨hget, ?_⟩
  rw [hsucc, ← List.drop_drop, hdrop, List.drop_one, List.tail_cons]

/-- No IE is left at the index. -/
theorem getElem?_of_drop_eq_nil (hdrop : ies.drop idx.toNat = []) : ies[idx.toNat]? = none :=
  List.getElem?_eq_none (List.drop_eq_nil_iff.1 hdrop)

/-- IEs that are come through are processed in as many rounds as it takes. -/
theorem exists_returned_of_handled (hlen : ies.length < 256) (hdrop : ies.drop idx.toNat = rest)
    (hfits : p.header.Fits) (hh : Handled e2sm p.header rest) (garbage : Nat → Garbage) :
    ∃ rounds sent, procRicIndication e2sm ies rounds garbage idx p = .returned sent := by
  induction rest generalizing idx p garbage with
  | nil =>
      refine ⟨1, p.sent, ?_⟩
      rw [procRicIndication, getElem?_of_drop_eq_nil hdrop]
  | cons ie rest ih =>
      obtain ⟨hget, hdrop⟩ := drop_succ_of_drop_eq_cons hlen hdrop
      obtain ⟨p', hp', hfits', hrest⟩ := exists_next_of_handled hh hfits (garbage 0)
      obtain ⟨rounds, sent, hreturned⟩ := ih hdrop hfits' hrest fun n => garbage (n + 1)
      refine ⟨rounds + 1, sent, ?_⟩
      rw [procRicIndication, hget]
      dsimp only
      rw [hp']
      exact hreturned

/-- Conversely, what returned has come through its IEs. -/
theorem handled_of_returned (hlen : ies.length < 256) (hdrop : ies.drop idx.toNat = rest)
    {rounds : Nat} {sent : List (Option Report)}
    (hreturned : procRicIndication e2sm ies rounds (fun _ => .ones) idx p = .returned sent) :
    Handled e2sm p.header rest := by
  induction rest generalizing idx p rounds with
  | nil => exact trivial
  | cons ie rest ih =>
      obtain ⟨hget, hdrop⟩ := drop_succ_of_drop_eq_cons hlen hdrop
      cases rounds with
      | zero => cases hreturned
      | succ rounds =>
          rw [procRicIndication, hget] at hreturned
          dsimp only at hreturned
          split at hreturned
          · cases hreturned
          · rename_i p' hp'
            exact handled_of_next hp' (ih hdrop hreturned)

/-- **From 256 IEs on the loop does not end**: there is one at every index. -/
theorem procRicIndication_ne_returned (hlen : 256 ≤ ies.length) (rounds : Nat)
    (garbage : Nat → Garbage) (sent : List (Option Report)) :
    procRicIndication e2sm ies rounds garbage idx p ≠ .returned sent := by
  induction rounds generalizing idx p garbage with
  | zero => exact nofun
  | succ rounds ih =>
      have hlt : idx.toNat < ies.length := lt_of_lt_of_le idx.toNat_lt hlen
      rw [procRicIndication, List.getElem?_eq_getElem hlt]
      dsimp only
      split
      · exact nofun
      · exact ih _

/-- **Which indications are processed.** -/
theorem total_iff (e2sm : E2SM) (protocolIEs : List RICindication_IE) :
    Total e2sm protocolIEs ↔
      protocolIEs.length < 256 ∧ Handled e2sm Header.init protocolIEs := by
  have hstart : protocolIEs.drop (0 : UInt8).toNat = protocolIEs := rfl
  constructor
  · intro htotal
    obtain ⟨rounds, sent, hreturned⟩ := htotal fun _ => .ones
    have hlen : protocolIEs.length < 256 := by
      by_contra hlen
      exact procRicIndication_ne_returned (not_lt.1 hlen) _ _ _ hreturned
    exact ⟨hlen, handled_of_returned hlen hstart hreturned⟩
  · rintro ⟨hlen, hh⟩ garbage
    exact exists_returned_of_handled hlen hstart Header.fits_init hh garbage

/-- **A message that does not decode** is not processed. -/
theorem not_total : ¬ ∀ e2sm protocolIEs, Total e2sm protocolIEs := by
  intro hall
  obtain ⟨rounds, sent, hreturned⟩ :=
    hall ⟨fun _ => none, fun _ => none⟩ [.message []] fun _ => .ones
  cases rounds with
  | zero => cases hreturned
  | succ rounds => cases hreturned

end NearRtRic.Xapp
