/-
# What a UE's report depends on

All UEs of a message share one entry and one buffer for their ids, and neither is
cleared between two of them: a measurement that a UE does not carry is reported with
the value of an earlier UE, or with what `malloc` left there, and an id of fewer than
five digits is read with the last digits of an earlier one.

`Determines` says of a UE's item that it leaves no such gap, and `independent_iff` that
its report is independent of the other UEs exactly then.  The first direction is carried
by `Uniform`: what a measurement does to an entry is to overwrite some fields with
values of its own.  For the second, a UE before it with an id of five zeros or of five
ones, or two contents of the entry, give two reports.
-/

import NearRtRic.Xapp.UeFields

namespace NearRtRic.Xapp

open CString Text

/-! ### The statement -/

/-- One of the measurements gives the field a value. -/
def PerUE_PM_Item.carries (item : PerUE_PM_Item) (f : RfField) : Bool :=
  (item.list_of_PM_Information.getD []).any (·.carries f)

/-- The id of the `i`-th UE fills the buffer, or ends the number that is read from it. -/
def PerUE_PM_Item.fixesId (item : PerUE_PM_Item) (i : Nat) : Bool :=
  i = 0 || 5 ≤ item.ueId.length || numberEnd item.ueId ≠ []

/-- The type of the last container, and of the first that allocates the entry. -/
def gPFContainterType (cs : List (Option PerfContainerType)) : PerfContainerType :=
  (cs.filterMap id).getLastD .nothing

def metricType (cs : List (Option PerfContainerType)) : PerfContainerType :=
  ((cs.filterMap id).find? (· ≠ .nothing)).getD .nothing

/-- **The item leaves no gap**: its id is its own, and where a CU-CP report is made of it,
it carries every measurement of that. -/
def PerUE_PM_Item.Determines (item : PerUE_PM_Item) (cs : List (Option PerfContainerType))
    (i : Nat) : Prop :=
  item.fixesId i ∧ (metricType cs = .oCU_CP →
    gPFContainterType cs = .oCU_CP ∧ ∀ f, item.carries f)

/-- The buffer has room for the id. -/
def PerUE_PM_Item.IdFits (item : PerUE_PM_Item) : Prop :=
  item.ueId.length ≤ 5 ∨ item.ueId.length = 6 ∧ 0 ∈ item.ueId

/-- A report is made of the item. -/
def PerUE_PM_Item.Reported (item : PerUE_PM_Item) (h : Header)
    (cs : List (Option PerfContainerType)) : Prop :=
  (metricType cs = .oCU_CP ∨ metricType cs = .oCU_UP) ∧
    (strtol (visible h.gCellID)).isSome ∧
      item.IdFits ∧
        ∃ infos, item.list_of_PM_Information = some infos ∧ ∀ info ∈ infos, info.readable

/-- The report that is sent for the `i`-th UE. -/
def sentFor (h : Header) (garbage : UeMetricsEntry) (cs : List (Option PerfContainerType))
    (items : List PerUE_PM_Item) (i : Nat) : Option Report :=
  ((procIndicationMessage h garbage ⟨cs, items⟩)[i]?).join

/-- **The report for the `i`-th UE depends on its own item only**: wherever one is sent in
two messages with the same header, the same containers and as many UEs, it is the same,
whatever the other UEs are and whatever is in the memory that is allocated. -/
def Independent (h : Header) (cs : List (Option PerfContainerType)) (i : Nat)
    (item : PerUE_PM_Item) : Prop :=
  ∀ (garbage garbage' : UeMetricsEntry) (items items' : List PerUE_PM_Item),
    items.length = items'.length → items[i]? = some item → items'[i]? = some item →
      ∀ r r', sentFor h garbage cs items i = some r → sentFor h garbage' cs items' i = some r' →
        r.text = r'.text

/-! ### The containers -/

/-- The loop over the containers leaves the last type, and the entry of the first that is one. -/
theorem foldl_next (h : Header) (garbage : UeMetricsEntry)
    (cs : List (Option PerfContainerType)) (s : Containers) :
    cs.foldl (Containers.next h garbage) s =
      ⟨(cs.filterMap id).getLastD s.gPFContainterType,
        s.ueMetrics.or (((cs.filterMap id).find? (· ≠ .nothing)).map
          (UeMetricsEntry.alloc h garbage))⟩ := by
  induction cs generalizing s with
  | nil => simp
  | cons c cs ih =>
      rw [List.foldl_cons, ih]
      cases c with
      | none => rfl
      | some type =>
          simp only [Containers.next, List.filterMap_cons, id, List.getLastD_cons]
          by_cases htype : type = .nothing
          · simp [htype]
          · simp [htype]

/-- The cell id of the entry is the header's where a report is made. -/
theorem visible_alloc {h : Header} {type : PerfContainerType} (htype : type ≠ .oDU)
    (garbage : UeMetricsEntry) :
    visible (UeMetricsEntry.alloc h garbage type).servingCellID = visible h.gCellID := by
  unfold UeMetricsEntry.alloc
  dsimp only
  rw [if_neg htype, memcpy, List.append_assoc]
  exact visible_of_notMem_append (zero_notMem_visible _) _

/-! ### The id -/

/-- `strUEID` between two UEs. -/
def EndsAtFive (b : Bytes) : Prop := ∃ five : Bytes, five.length = 5 ∧ b = five ++ [0]

/-- At the start five digits and a NUL are there. -/
theorem endsAtFive_init : EndsAtFive strUEID_init := ⟨List.replicate 5 48, rfl, rfl⟩

variable {b : Bytes} {src : Bytes}

/-- The array has six bytes. -/
theorem EndsAtFive.length_eq (hb : EndsAtFive b) : b.length = 6 := by
  obtain ⟨five, hfive, rfl⟩ := hb
  rw [List.length_append, hfive]
  rfl

/-- An id that fits, in the buffer. -/
theorem EndsAtFive.strncpy (hb : EndsAtFive b)
    (hsrc : src.length ≤ 5 ∨ src.length = 6 ∧ 0 ∈ src) :
    EndsAtFive (CString.strncpy src b) := by
  obtain ⟨five, hfive, rfl⟩ := hb
  have hle : (visible src).length ≤ src.length := (List.takeWhile_prefix _).length_le
  unfold CString.strncpy
  rcases hsrc with hsrc | ⟨hsrc, hmem⟩
  · refine ⟨visible src ++ List.replicate (src.length - (visible src).length) 0 ++
      five.drop src.length, ?_, ?_⟩
    · simp only [List.length_append, List.length_replicate, List.length_drop]
      omega
    · rw [List.drop_append_of_le_length (by omega), ← List.append_assoc]
  · have hne : (visible src).length ≠ src.length := by
      intro heq
      have hself : visible src = src := (List.takeWhile_prefix _).eq_of_length heq
      exact zero_notMem_visible src (hself.symm ▸ hmem)
    obtain ⟨k, hk⟩ : ∃ k, src.length - (visible src).length = k + 1 :=
      ⟨src.length - (visible src).length - 1, by omega⟩
    refine ⟨visible src ++ List.replicate k 0, ?_, ?_⟩
    · simp only [List.length_append, List.length_replicate]
      omega
    · rw [List.drop_eq_nil_of_le (by simp [hsrc, hfive]), hk, List.replicate_succ',
        List.append_nil, List.append_assoc]

/-- What the buffer has room for. -/
theorem fitsUEID_iff (hb : EndsAtFive b) : fitsUEID (strncpy src b) ↔
    src.length ≤ 5 ∨ src.length = 6 ∧ 0 ∈ src := by
  constructor
  · intro h
    unfold fitsUEID at h
    rw [Bool.and_eq_true, decide_eq_true_eq, length_strncpy, hb.length_eq,
      List.contains_iff_mem] at h
    obtain ⟨hlen, hmem⟩ := h
    by_cases h5 : src.length ≤ 5
    · exact .inl h5
    · have h6 : src.length = 6 := by omega
      refine .inr ⟨h6, ?_⟩
      by_contra hsrc
      have hdrop : b.drop src.length = [] := List.drop_eq_nil_of_le (by rw [hb.length_eq, h6])
      unfold strncpy at hmem
      rw [visible_eq_self hsrc, Nat.sub_self, hdrop, List.replicate_zero, List.append_nil,
        List.append_nil] at hmem
      exact hsrc hmem
  · intro h
    obtain ⟨five, hfive, heq⟩ := hb.strncpy h
    rw [heq, fitsUEID, List.length_append, hfive]
    simp

/-- **An id of its own**: what was in the buffer does not matter. -/
theorem strtol_visible_strncpy (hb : EndsAtFive b)
    (hfits : src.length ≤ 5 ∨ src.length = 6 ∧ 0 ∈ src)
    (hsrc : 5 ≤ src.length ∨ numberEnd src ≠ []) :
    strtol (visible (strncpy src b)) = strtol (visible src) := by
  obtain ⟨five, hfive, rfl⟩ := hb
  rw [visible_strncpy]
  split
  · rfl
  · rename_i hzero
    rw [visible_eq_self hzero]
    rcases hsrc with hsrc | hsrc
    · have h5 : five.length = src.length := by
        rcases hfits with hfits | ⟨-, hmem⟩
        · omega
        · exact absurd hmem hzero
      rw [← h5, List.drop_left, visible_cons, if_pos rfl, List.append_nil]
    · exact strtol_append hsrc _

/-! ### The loop over the UEs -/

variable {type : PerfContainerType} {rem : Nat} {s s' : Scan} {m m₀ : UeMetricsEntry}
  {item : PerUE_PM_Item} {items : List PerUE_PM_Item} {infos : List PM_Info_Item}

/-- **One UE.** -/
theorem perUE_eq_some_iff (hb : EndsAtFive b) {r : Option Report} :
    perUE type rem ⟨some m, b⟩ item = some (s', r) ↔
      item.IdFits ∧ ∃ infos, item.list_of_PM_Information = some infos ∧
        ∃ m', pmInfos type infos { m with ueID := intUEID (strncpy item.ueId b) } = some m' ∧
          m'.report = some r ∧ s' = ⟨if rem = 0 then none else some m', strncpy item.ueId b⟩ := by
  unfold perUE
  rw [Option.bind_some]
  dsimp only
  by_cases hfits : item.IdFits
  · rw [if_pos ((fitsUEID_iff hb).2 hfits)]
    simp only [hfits, true_and, Option.bind_eq_some_iff, Option.map_eq_some_iff, Prod.mk.injEq,
      eq_comm (a := s')]
    constructor
    · rintro ⟨infos, hinfos, m', hm', r', hr', rfl, rfl⟩
      exact ⟨infos, hinfos, m', hm', hr', rfl⟩
    · rintro ⟨infos, hinfos, m', hm', hr', rfl⟩
      exact ⟨infos, hinfos, m', hm', r, hr', rfl, rfl⟩
  · rw [if_neg (mt (fitsUEID_iff hb).1 hfits)]
    simp [hfits]

/-- What the loop keeps. -/
def Shared (m₀ : UeMetricsEntry) (s : Scan) : Prop :=
  EndsAtFive s.strUEID ∧ ∃ m, s.ueMetrics = some m ∧ m₀.SameFrame m

/-- **One UE keeps what is shared**, as long as there are others behind it. -/
theorem Shared.perUE (hs : Shared m₀ s) {r : Option Report}
    (h : perUE type rem s item = some (s', r)) (hrem : rem ≠ 0) : Shared m₀ s' := by
  obtain ⟨ueMetrics, b⟩ := s
  obtain ⟨hb, m, rfl, hframe⟩ := hs
  obtain ⟨hfits, infos, -, m', hm', -, rfl⟩ := (perUE_eq_some_iff hb).1 h
  refine ⟨hb.strncpy hfits, m', if_neg hrem, hframe.trans (sameFrame_of_pmInfos hm')⟩

/-- A UE leaves its id in `strUEID`. -/
theorem Shared.strUEID_perUE (hs : Shared m₀ s) {r : Option Report}
    (h : Xapp.perUE type rem s item = some (s', r)) :
    s'.strUEID = strncpy item.ueId s.strUEID := by
  obtain ⟨ueMetrics, b⟩ := s
  obtain ⟨hb, m, rfl, -⟩ := hs
  obtain ⟨-, infos, -, m', -, -, rfl⟩ := (perUE_eq_some_iff hb).1 h
  rfl

/-- A buffer after ids were copied to it, one after the other. -/
def copyAll (ids : List Bytes) (b : Bytes) : Bytes := ids.foldl (fun b id => strncpy id b) b

/-- One more id is copied over what the others left. -/
theorem copyAll_append_singleton (ids : List Bytes) (id b : Bytes) :
    copyAll (ids ++ [id]) b = strncpy id (copyAll ids b) := by
  simp [copyAll]

/-- **The run up to a UE.** -/
theorem exists_perUE_of_getElem? (hs : Shared m₀ s) {i : Nat} (hitem : items[i]? = some item)
    {r : Option Report} (hr : (matchedUEs type s items)[i]? = some r) :
    ∃ sᵢ s' rem, Shared m₀ sᵢ ∧
      sᵢ.strUEID = copyAll ((items.take i).map (·.ueId)) s.strUEID ∧
        Xapp.perUE type rem sᵢ item = some (s', r) := by
  induction items generalizing s i with
  | nil => cases hitem
  | cons a items ih =>
      rw [matchedUEs] at hr
      cases hperUE : perUE type items.length s a with
      | none =>
          rw [hperUE] at hr
          cases hr
      | some next =>
          obtain ⟨s', r'⟩ := next
          rw [hperUE] at hr
          cases i with
          | zero =>
              obtain rfl : a = item := Option.some.inj hitem
              obtain rfl : r' = r := Option.some.inj hr
              exact ⟨s, s', _, hs, rfl, hperUE⟩
          | succ i =>
              have hitem : items[i]? = some item := hitem
              have hlen : items.length ≠ 0 := by
                intro hnil
                rw [List.length_eq_zero_iff.1 hnil] at hitem
                cases hitem
              obtain ⟨sᵢ, s'', rem, hsᵢ, hcopy, h⟩ := ih (hs.perUE hperUE hlen) hitem hr
              refine ⟨sᵢ, s'', rem, hsᵢ, hcopy.trans ?_, h⟩
              rw [hs.strUEID_perUE hperUE]
              rfl

/-- The entry that the loop starts with. -/
def startEntry (h : Header) (garbage : UeMetricsEntry) (count : Nat) (type : PerfContainerType) :
    UeMetricsEntry :=
  { UeMetricsEntry.alloc h garbage type with matchedUEsTotNum := count }

/-- The message is the loop over its UEs, with the entry made for the containers. -/
theorem procIndicationMessage_eq (h : Header) (garbage : UeMetricsEntry)
    (cs : List (Option PerfContainerType)) (items : List PerUE_PM_Item) :
    procIndicationMessage h garbage ⟨cs, items⟩ = matchedUEs (gPFContainterType cs)
      ⟨((cs.filterMap id).find? (· ≠ .nothing)).map (startEntry h garbage items.length),
        strUEID_init⟩ items := by
  unfold procIndicationMessage
  rw [foldl_next, Option.none_or]
  dsimp only
  rw [Option.map_map]
  rfl

variable {h : Header} {garbage garbage' : UeMetricsEntry} {cs : List (Option PerfContainerType)}
  {items' : List PerUE_PM_Item} {i : Nat} {r r' : Report}

/-- The container that allocates the entry, if there is one. -/
theorem find?_eq (cs : List (Option PerfContainerType)) :
    (cs.filterMap id).find? (· ≠ .nothing) =
      if metricType cs = .nothing then none else some (metricType cs) := by
  unfold metricType
  cases hfind : (cs.filterMap id).find? (· ≠ .nothing) with
  | none => rfl
  | some type =>
      have hne : type ≠ .nothing := by simpa using List.find?_some hfind
      rw [Option.getD_some, if_neg hne]

/-- The type that is found is the first that is one. -/
theorem find?_of_metricType (htype : metricType cs ≠ .nothing) :
    (cs.filterMap id).find? (· ≠ .nothing) = some (metricType cs) := by
  rw [find?_eq, if_neg htype]

/-- **A report that is sent is made of the UE's item** and an entry that it shares. -/
theorem exists_perUE_of_sentFor (hitem : items[i]? = some item)
    (hr : sentFor h garbage cs items i = some r) :
    ∃ sᵢ s' rem, Shared (startEntry h garbage items.length (metricType cs)) sᵢ ∧
      sᵢ.strUEID = copyAll ((items.take i).map (·.ueId)) strUEID_init ∧
        perUE (gPFContainterType cs) rem sᵢ item = some (s', some r) := by
  unfold sentFor at hr
  rw [procIndicationMessage_eq] at hr
  have hr := Option.join_eq_some_iff.1 hr
  by_cases htype : metricType cs = .nothing
  · rw [find?_eq, if_pos htype] at hr
    cases items with
    | nil => cases hitem
    | cons a items => cases hr
  · rw [find?_of_metricType htype] at hr
    have hs : Shared (startEntry h garbage items.length (metricType cs))
        ⟨some (startEntry h garbage items.length (metricType cs)), strUEID_init⟩ :=
      ⟨endsAtFive_init, _, rfl, rfl, rfl, rfl, rfl⟩
    exact exists_perUE_of_getElem? hs hitem hr

/-- Only then is a report made. -/
theorem reported_of_sentFor (hitem : items[i]? = some item)
    (hr : sentFor h garbage cs items i = some r) : item.Reported h cs := by
  obtain ⟨⟨ueMetrics, b⟩, s', rem, ⟨hb, m, rfl, hframe⟩, -, hperUE⟩ :=
    exists_perUE_of_sentFor hitem hr
  obtain ⟨hfits, infos, hinfos, m', hm', hreport, -⟩ := (perUE_eq_some_iff hb).1 hperUE
  have hframe := hframe.trans (sameFrame_of_pmInfos hm')
  obtain ⟨htype, hcell⟩ := m'.exists_report_iff.1 ⟨r, hreport⟩
  rw [← hframe.1] at htype
  have hne : metricType cs ≠ .oDU := by
    rintro hne
    have htype : metricType cs = .oCU_CP ∨ metricType cs = .oCU_UP := htype
    rw [hne] at htype
    simp at htype
  have hvisible : visible m'.servingCellID = visible h.gCellID :=
    hframe.2.2.2.symm.trans (visible_alloc hne garbage)
  exact ⟨htype, hvisible ▸ hcell, hfits, infos, hinfos, readable_of_pmInfos hm'⟩

/-- **No gap, no dependence.** -/
theorem text_eq_of_determines (hdet : item.Determines cs i)
    (hlen : items.length = items'.length) (hitem : items[i]? = some item)
    (hitem' : items'[i]? = some item) (hr : sentFor h garbage cs items i = some r)
    (hr' : sentFor h garbage' cs items' i = some r') : r.text = r'.text := by
  obtain ⟨htype, -⟩ := reported_of_sentFor hitem hr
  obtain ⟨⟨ueMetrics, b⟩, s₁, rem, ⟨hb, m, rfl, hframe⟩, hfirst, hperUE⟩ :=
    exists_perUE_of_sentFor hitem hr
  obtain ⟨⟨ueMetrics, b'⟩, s₁', rem', ⟨hb', m', rfl, hframe'⟩, hfirst', hperUE'⟩ :=
    exists_perUE_of_sentFor hitem' hr'
  obtain ⟨hfits, infos, hinfos, m₁, hm₁, hreport, -⟩ := (perUE_eq_some_iff hb).1 hperUE
  obtain ⟨-, infos', hinfos', m₁', hm₁', hreport', -⟩ := (perUE_eq_some_iff hb').1 hperUE'
  obtain rfl : infos = infos' := Option.some.inj (hinfos.symm.trans hinfos')
  obtain ⟨hfixes, hcarries⟩ := hdet
  -- the ids
  have hid : intUEID (strncpy item.ueId b) = intUEID (strncpy item.ueId b') := by
    by_cases hi : i = 0
    · subst hi
      have hinit : b = strUEID_init := hfirst
      have hinit' : b' = strUEID_init := hfirst'
      rw [hinit, hinit']
    · have hsrc : 5 ≤ item.ueId.length ∨ numberEnd item.ueId ≠ [] := by
        simpa [PerUE_PM_Item.fixesId, hi] using hfixes
      unfold intUEID
      rw [strtol_visible_strncpy hb hfits hsrc, strtol_visible_strncpy hb' hfits hsrc]
  -- what is written once
  have hne : metricType cs ≠ .oDU := by
    intro hne
    rw [hne] at htype
    simp at htype
  have hstart : (startEntry h garbage items.length (metricType cs)).SameFrame
      (startEntry h garbage' items'.length (metricType cs)) :=
    ⟨rfl, rfl, congrArg (fun n : Nat => (n : Int)) hlen,
      (visible_alloc hne garbage).trans (visible_alloc hne garbage').symm⟩
  have hframe₁ := hframe.trans (sameFrame_of_pmInfos hm₁)
  have hframe₁' := hframe'.trans (sameFrame_of_pmInfos hm₁')
  -- the measurements
  obtain ⟨w, hw, hrun⟩ := exists_over_of_readable (readable_of_pmInfos hm₁)
  rw [hrun] at hm₁ hm₁'
  obtain rfl := Option.some.inj hm₁
  obtain rfl := Option.some.inj hm₁'
  have hreports := UeMetricsEntry.report_congr (hframe₁.symm.trans (hstart.trans hframe₁')) hid
    fun hcp f => by
      obtain ⟨hlast, hall⟩ := hcarries (hframe₁.1.trans hcp)
      have hsome : (w f).isSome := by
        have hf := hall f
        rw [PerUE_PM_Item.carries, hinfos] at hf
        rw [hw, hlast]
        simpa using hf
      obtain ⟨z, hz⟩ := Option.isSome_iff_exists.1 hsome
      simp [hz]
  rw [hreport, hreport'] at hreports
  rw [Option.some.inj (Option.some.inj hreports)]

/-! ### Two runs that differ -/

/-- A UE without measurements whose id is five times a digit. -/
def filler (d : UInt8) : PerUE_PM_Item := ⟨List.replicate 5 d, some []⟩

/-- The item as the `i`-th. -/
def fillers (d : UInt8) (i : Nat) (item : PerUE_PM_Item) : List PerUE_PM_Item :=
  List.replicate i (filler d) ++ [item]

/-- The item has `i` others in front. -/
theorem length_fillers (d : UInt8) (i : Nat) (item : PerUE_PM_Item) :
    (fillers d i item).length = i + 1 := by
  simp [fillers]

/-- It is the `i`-th. -/
theorem getElem?_fillers (d : UInt8) (i : Nat) (item : PerUE_PM_Item) :
    (fillers d i item)[i]? = some item := by
  simp [fillers]

/-- Memory with the same number in all fields. -/
def blank (z : Int) : UeMetricsEntry where
  metricType := .nothing
  measUnixTime_msec := 0
  matchedUEsTotNum := 0
  ueID := 0
  servingCellID := []
  servingCellRSSINR := z
  neighborCell1_RF := ⟨z, z⟩
  neighborCell2_RF := ⟨z, z⟩
  neighborCell3_RF := ⟨z, z⟩

/-- All fields have the same number. -/
theorem rf_blank (z : Int) (f : RfField) : (blank z).rf f = z := by
  match f with
  | .serving => rfl
  | .cellID 0 | .cellID 1 | .cellID 2 => rfl
  | .rssinr 0 | .rssinr 1 | .rssinr 2 => rfl

/-- The entry is one that is sent. -/
def UeMetricsEntry.Sendable (m : UeMetricsEntry) : Prop :=
  (m.metricType = .oCU_CP ∨ m.metricType = .oCU_UP) ∧
    (strtol (visible m.servingCellID)).isSome

/-- The id of a filler fills the array. -/
theorem strncpy_filler {d : UInt8} (hd : d ≠ 0) (hb : EndsAtFive b) :
    strncpy (filler d).ueId b = List.replicate 5 d ++ [0] := by
  obtain ⟨five, hfive, rfl⟩ := hb
  have hmem : 0 ∉ List.replicate 5 d := fun h0 => hd (List.eq_of_mem_replicate h0).symm
  have hlen : (List.replicate 5 d).length = five.length := by rw [hfive, List.length_replicate]
  unfold strncpy filler
  dsimp only
  rw [visible_eq_self hmem, Nat.sub_self, List.replicate_zero, List.append_nil, hlen,
    List.drop_left]

/-- The UEs before the item leave the entry as it is, and their id. -/
theorem exists_matchedUEs_fillers {d : UInt8} (hd : d ≠ 0) (hsend : m.Sendable)
    (hb : EndsAtFive b) (i : Nat) : ∃ n,
      (matchedUEs type ⟨some m, b⟩ (fillers d i item))[i]? =
        (matchedUEs type ⟨some { m with ueID := n },
          if i = 0 then b else List.replicate 5 d ++ [0]⟩ [item])[0]? := by
  induction i generalizing m b with
  | zero => exact ⟨m.ueID, rfl⟩
  | succ i ih =>
      set m₁ : UeMetricsEntry := { m with ueID := intUEID (strncpy (filler d).ueId b) } with hm₁
      have hsend₁ : m₁.Sendable := hsend
      obtain ⟨r, hr⟩ := m₁.exists_report_iff.2 hsend₁
      have hlen : (fillers d i item).length ≠ 0 := by
        rw [length_fillers]
        omega
      have hstep : perUE type (fillers d i item).length ⟨some m, b⟩ (filler d) =
          some (⟨some m₁, List.replicate 5 d ++ [0]⟩, some r) := by
        refine (perUE_eq_some_iff hb).2 ⟨.inl (le_refl _), [], rfl, m₁, rfl, hr, ?_⟩
        rw [if_neg hlen, strncpy_filler hd hb]
      obtain ⟨n, hn⟩ := ih hsend₁ (b := List.replicate 5 d ++ [0]) ⟨_, List.length_replicate, rfl⟩
      refine ⟨n, ?_⟩
      have hcons : fillers d (i + 1) item = filler d :: fillers d i item := rfl
      rw [hcons, matchedUEs, hstep, List.getElem?_cons_succ, hn, if_neg (Nat.succ_ne_zero i),
        ite_self]

/-- The buffer that the item's id is copied to. -/
def bufferAt (d : UInt8) (i : Nat) : Bytes :=
  if i = 0 then strUEID_init else List.replicate 5 d ++ [0]

/-- So the buffer in front of the item has its NUL at the end. -/
theorem endsAtFive_bufferAt (d : UInt8) (i : Nat) : EndsAtFive (bufferAt d i) := by
  unfold bufferAt
  split
  · exact endsAtFive_init
  · exact ⟨_, List.length_replicate, rfl⟩

/-- **What is sent behind such UEs**: the id is read with their digits, and what the item does
not carry is what the memory held. -/
theorem exists_sentFor_fillers (hrep : item.Reported h cs)
    (hinfos : item.list_of_PM_Information = some infos) {w : RfField → Option Int}
    (hrun : ∀ m, pmInfos (gPFContainterType cs) infos m = some (m.over w))
    (z : Int) {d : UInt8} (hd : d ≠ 0) (i : Nat) :
    ∃ r, sentFor h (blank z) cs (fillers d i item) i = some r ∧
      r.imsi = intUEID (strncpy item.ueId (bufferAt d i)) ∧
        (metricType cs = .oCU_CP → ∀ f, r.values[f.index]? = some ((w f).getD z)) := by
  obtain ⟨htype, hcell, hfits, -⟩ := hrep
  have hnothing : metricType cs ≠ .nothing := by
    intro hnothing
    rw [hnothing] at htype
    simp at htype
  have hne : metricType cs ≠ .oDU := by
    intro hne
    rw [hne] at htype
    simp at htype
  set m₀ := startEntry h (blank z) (fillers d i item).length (metricType cs) with hm₀
  have hsend : m₀.Sendable := by
    refine ⟨htype, ?_⟩
    have hvisible : visible m₀.servingCellID = visible h.gCellID := visible_alloc hne (blank z)
    rw [hvisible]
    exact hcell
  obtain ⟨n, hn⟩ : ∃ n, (matchedUEs (gPFContainterType cs) ⟨some m₀, strUEID_init⟩
      (fillers d i item))[i]? = (matchedUEs (gPFContainterType cs)
        ⟨some { m₀ with ueID := n }, bufferAt d i⟩ [item])[0]? :=
    exists_matchedUEs_fillers hd hsend endsAtFive_init i
  set m₁ : UeMetricsEntry :=
    { m₀ with ueID := intUEID (strncpy item.ueId (bufferAt d i)) } with hm₁
  have hsend₁ : (m₁.over w).Sendable := hsend
  obtain ⟨r, hr⟩ := (m₁.over w).exists_report_iff.2 hsend₁
  have hstep : perUE (gPFContainterType cs) 0 ⟨some { m₀ with ueID := n }, bufferAt d i⟩ item =
      some (⟨none, strncpy item.ueId (bufferAt d i)⟩, some r) :=
    (perUE_eq_some_iff (endsAtFive_bufferAt d i)).2
      ⟨hfits, infos, hinfos, m₁.over w, hrun m₁, hr, rfl⟩
  refine ⟨r, ?_, (UeMetricsEntry.ueID_of_report hr).symm, fun hcp f => ?_⟩
  · have hlast : (matchedUEs (gPFContainterType cs)
        ⟨some { m₀ with ueID := n }, bufferAt d i⟩ [item])[0]? = some (some r) := by
      rw [matchedUEs, List.length_nil, hstep]
      rfl
    unfold sentFor
    rw [procIndicationMessage_eq, find?_of_metricType hnothing, Option.map_some]
    exact Option.join_eq_some_iff.2 (hn.trans hlast)
  · have hblank : m₁.rf f = z := by
      have hrf : m₁.rf f = (blank z).rf f := by
        match f with
        | .serving => rfl
        | .cellID 0 | .cellID 1 | .cellID 2 => rfl
        | .rssinr 0 | .rssinr 1 | .rssinr 2 => rfl
      rw [hrf, rf_blank]
    rw [UeMetricsEntry.rf_of_report hr hcp f, UeMetricsEntry.rf_over, hblank]

/-- An id that leaves room for digits reads on. -/
theorem fixesId_of_intUEID_eq
    (hid : intUEID (strncpy item.ueId (bufferAt 48 i)) =
      intUEID (strncpy item.ueId (bufferAt 49 i))) : item.fixesId i := by
  by_contra hfixes
  simp only [PerUE_PM_Item.fixesId, Bool.or_eq_true, decide_eq_true_eq, not_or, not_le,
    ne_eq, not_not] at hfixes
  obtain ⟨⟨hi, hlen⟩, hend⟩ := hfixes
  have hzero : 0 ∉ item.ueId := fun hmem => numberEnd_ne_nil_of_mem hmem hend
  have hread : ∀ d : UInt8, d ≠ 0 → visible (strncpy item.ueId (bufferAt d i)) =
      item.ueId ++ List.replicate (5 - item.ueId.length) d := by
    intro d hd
    have hmem : 0 ∉ List.replicate (5 - item.ueId.length) d := fun h0 =>
      hd (List.eq_of_mem_replicate h0).symm
    rw [visible_strncpy, if_neg hzero, bufferAt, if_neg hi,
      List.drop_append_of_le_length (by rw [List.length_replicate]; omega), List.drop_replicate,
      visible_of_notMem_append hmem]
  obtain ⟨x, y, hx, hy, hne, hxlt, hylt⟩ := strtol_zeros_ne_ones hend
    (n := 5 - item.ueId.length) (by omega)
  have hpow : 10 ^ (item.ueId.length + (5 - item.ueId.length)) = 100000 := by
    rw [Nat.add_sub_cancel' (by omega)]
    rfl
  rw [hpow] at hxlt hylt
  unfold intUEID at hid
  rw [hread 48 (by decide), hread 49 (by decide), hx, hy, Option.getD_some,
    Option.getD_some] at hid
  omega

/-- **A report depends on its own item exactly if that leaves no gap**, or if none is made. -/
theorem independent_iff (h : Header) (cs : List (Option PerfContainerType)) (i : Nat)
    (item : PerUE_PM_Item) :
    Independent h cs i item ↔ (item.Reported h cs → item.Determines cs i) := by
  constructor
  · intro hind hrep
    have ⟨_, _, _, infos, hinfos, hreadable⟩ := hrep
    obtain ⟨w, hw, hrun⟩ := exists_over_of_readable hreadable
    obtain ⟨r, hr, himsi, hvalues⟩ :=
      exists_sentFor_fillers hrep hinfos hrun 0 (d := 48) (by decide) i
    obtain ⟨r', hr', himsi', hvalues'⟩ :=
      exists_sentFor_fillers hrep hinfos hrun 1 (d := 49) (by decide) i
    have hlen : (fillers 48 i item).length = (fillers 49 i item).length := by
      rw [length_fillers, length_fillers]
    obtain rfl : r = r' := Report.text_injective (hind _ _ _ _ hlen (getElem?_fillers _ _ _)
      (getElem?_fillers _ _ _) r r' hr hr')
    refine ⟨fixesId_of_intUEID_eq (himsi.symm.trans himsi'), fun hcp => ?_⟩
    have hwrites : ∀ f, gPFContainterType cs = .oCU_CP ∧ item.carries f := by
      intro f
      have hvalue : (w f).getD 0 = (w f).getD 1 :=
        Option.some.inj ((hvalues hcp f).symm.trans (hvalues' hcp f))
      have hsome : (w f).isSome := by
        cases hf : w f with
        | none =>
            rw [hf] at hvalue
            cases hvalue
        | some v => rfl
      rw [hw, Bool.and_eq_true, decide_eq_true_eq] at hsome
      unfold PerUE_PM_Item.carries
      rw [hinfos]
      exact hsome
    exact ⟨(hwrites .serving).1, fun f => (hwrites f).2⟩
  · intro hdet garbage garbage' items items' hlen hitem hitem' r r' hr hr'
    exact text_eq_of_determines (hdet (reported_of_sentFor hitem hr)) hlen hitem hitem' hr hr'

/-- A UE with one measurement, of its serving cell. -/
def servedUE (ueId : Bytes) (sinr : Int) : PerUE_PM_Item :=
  ⟨ueId, some [⟨none, .valueRRC ⟨some (.nr_measResultServingMOList [⟨some 1, some (some sinr)⟩]),
    none⟩⟩]⟩

/-- Two indications that differ in the SINR of the first UE: the second UE, which carries no
measurement, is reported with it, and with the last digits of the first one's id. -/
theorem not_independent : ¬ ∀ h cs i item, Independent h cs i item := by
  intro hall
  have hind := hall ⟨1, ascii "1112"⟩ [some .oCU_CP] 1 ⟨ascii "7", some []⟩ (blank 0) (blank 0)
    [servedUE (ascii "00001") 10, ⟨ascii "7", some []⟩]
    [servedUE (ascii "00002") 20, ⟨ascii "7", some []⟩] (by simp) (by simp) (by simp)
  have hfirst : sentFor ⟨1, ascii "1112"⟩ (blank 0) [some .oCU_CP]
      [servedUE (ascii "00001") 10, ⟨ascii "7", some []⟩] 1 =
        some ⟨2, 70001, .cucp, 1, [70001, 2, 0, 0, 2, 70001, 10, 0, 0, 0, 0, 0, 0, 0, 0, 0, 0,
          0, 0, 0, 0, 0, 0, 0, 0, 0, 0, 0, 0, 0, 0, 0]⟩ := by
    decide +kernel
  have hsecond : sentFor ⟨1, ascii "1112"⟩ (blank 0) [some .oCU_CP]
      [servedUE (ascii "00002") 20, ⟨ascii "7", some []⟩] 1 =
        some ⟨2, 70002, .cucp, 1, [70002, 2, 0, 0, 2, 70002, 20, 0, 0, 0, 0, 0, 0, 0, 0, 0, 0,
          0, 0, 0, 0, 0, 0, 0, 0, 0, 0, 0, 0, 0, 0, 0]⟩ := by
    decide +kernel
  exact absurd (Report.text_injective (hind _ _ hfirst hsecond)) (by decide)

end NearRtRic.Xapp
