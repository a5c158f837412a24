/-
# The cells of a gNB and their index keys

A gNB's served NR cells are in its record, and each is stored again under its cell id
and under the gNB's name with its PCI.  `Indexed` says that the keys of these two
kinds are those of the record's cells and hold them.

`UpdateGnb` removes the keys of the old cells before it writes the new ones;
`SaveNodeb` only writes.  `indexed_iff` states which sequences of the two keep the
index: those in which the cells of one record have ids and PCIs of their own, and no
save drops a cell id or a PCI.
-/

import NearRtRic.E2Manager.UpdateGnb

namespace NearRtRic.E2Manager

open Effect

/-- The cells of the record that is stored for a RAN. -/
def Sdl.servedNrCells (s : Sdl) (ranName : String) : List ServedNRCell :=
  ((s.nodeb ranName).bind NodebInfo.getGnb).elim [] (·.servedNrCells)

/-- **The index of a gNB's cells**: each of its cells is stored under its keys, and what
is stored under a cell id or under a PCI of the gNB is one of them. -/
structure Indexed (n : String) (s : Sdl) : Prop where
  cell_stored : ∀ cell ∈ s.servedNrCells n,
    s.value (.nrCellId cell.cellId) = some (.servedNrCell cell) ∧
    s.value (.cellNamePci n cell.nrPci) = some (.servedNrCell cell)
  id_served : ∀ id v, s.value (.nrCellId id) = some v →
    ∃ cell ∈ s.servedNrCells n, cell.cellId = id
  pci_served : ∀ pci v, s.value (.cellNamePci n pci) = some v →
    ∃ cell ∈ s.servedNrCells n, cell.nrPci = pci

/-- A call that writes the record of the gNB `n`. -/
inductive GnbCall
  /-- `SaveNodeb` as a setup handler calls it: with the name of the stored record, and with
  or without the configuration of a gNB. -/
  | saveNodeb (globalNbId : Option GlobalNbId) (record : NodebInfo) (gnb : Option Gnb)
  | updateGnb (gnb : Gnb)
  deriving DecidableEq, Repr

namespace GnbCall

def identity (n : String) (globalNbId : Option GlobalNbId) : NbIdentity :=
  { inventoryName := n, globalNbId }

def entity (n : String) (record : NodebInfo) (gnb : Option Gnb) : NodebInfo :=
  { record with ranName := n, configuration := gnb.map .gnb }

/-- The store after a call, no call of the store failing. -/
def exec (n : String) (s : Sdl) : GnbCall → Sdl
  | saveNodeb globalNbId record gnb =>
      match RNibWriter.saveNodeb (identity n globalNbId) (entity n record gnb) s with
      | .ok s' => s'
      | .error _ => s
  | updateGnb gnb =>
      ((UpdateGnbRequestHandler.handle ⟨n, gnb⟩).run GnbStoreCall.exec [] s).2

def run (n : String) (s : Sdl) (calls : List GnbCall) : Sdl := calls.foldl (exec n) s

end GnbCall

/-- Different cells have different cell ids and different PCIs. -/
def Distinct (cells : List ServedNRCell) : Prop :=
  ∀ cell ∈ cells, ∀ cell' ∈ cells, cell.cellId = cell'.cellId ∨ cell.nrPci = cell'.nrPci →
    cell = cell'

/-- No cell id and no PCI of the old cells is missing from the new ones. -/
def Covers (old new : List ServedNRCell) : Prop :=
  ∀ cell ∈ old, (∃ cell' ∈ new, cell'.cellId = cell.cellId) ∧
    ∃ cell' ∈ new, cell'.nrPci = cell.nrPci

/-- The condition on a call: it is refused, or its cells are distinct and, for a save,
cover those that are stored. -/
def GnbCall.KeepsIndex (n : String) (s : Sdl) : GnbCall → Prop
  | saveNodeb globalNbId record gnb =>
      (∀ pairs, RNibWriter.saveNodebPairs (identity n globalNbId) (entity n record gnb) ≠
        .ok pairs) ∨
      Distinct (gnb.elim [] (·.servedNrCells)) ∧
        Covers (s.servedNrCells n) (gnb.elim [] (·.servedNrCells))
  | updateGnb gnb =>
      UpdateGnbRequestHandler.validateRequestBody ⟨n, gnb⟩ ≠ .ok () ∨
      (s.nodeb n).bind NodebInfo.getGnb = none ∨ Distinct gnb.servedNrCells

/-- Every call keeps the index, at the point where it is made. -/
def GnbCall.AllKeepIndex (n : String) (s : Sdl) : List GnbCall → Prop
  | [] => True
  | c :: calls => c.KeepsIndex n s ∧ AllKeepIndex n (c.exec n s) calls

/-! ### What `Set` stores -/

namespace Sdl

variable {s : Sdl} {pairs : Pairs} {k : Key}

/-- A key that a pair names has the value of one of its pairs. -/
theorem exists_set_value {v : k.Value} (hmem : ⟨k, v⟩ ∈ pairs) :
    ∃ w, ⟨k, w⟩ ∈ pairs ∧ (s.set pairs).value k = some w := by
  induction pairs generalizing s v with
  | nil => cases hmem
  | cons p pairs ih =>
      by_cases htail : ∃ w, ⟨k, w⟩ ∈ pairs
      · obtain ⟨w, hw⟩ := htail
        obtain ⟨w', hw', hvalue⟩ :=
          ih (s := { s with value := Function.update s.value p.1 (some p.2) }) hw
        exact ⟨w', List.mem_cons_of_mem p hw', hvalue⟩
      · have hne : ∀ q ∈ pairs, q.1 ≠ k := by
          rintro ⟨k', w⟩ hq rfl
          exact htail ⟨w, hq⟩
        have hp : p = ⟨k, v⟩ := by
          rcases List.mem_cons.1 hmem with heq | hmem
          · exact heq.symm
          · exact absurd ⟨v, hmem⟩ htail
        subst hp
        have := set_value_of_ne { s with value := Function.update s.value k (some v) } hne
        exact ⟨v, List.mem_cons_self, this.trans (Function.update_self ..)⟩

/-- A key has the value that all of its pairs give it. -/
theorem set_value_of_mem {v : k.Value} (hmem : ⟨k, v⟩ ∈ pairs)
    (hall : ∀ w, ⟨k, w⟩ ∈ pairs → w = v) : (s.set pairs).value k = some v := by
  obtain ⟨w, hw, hvalue⟩ := exists_set_value (s := s) hmem
  rw [hvalue, hall w hw]

/-- What is stored under a key was there before or is in a pair. -/
theorem mem_of_set_value {v : k.Value} (h : (s.set pairs).value k = some v) :
    (∃ w, ⟨k, w⟩ ∈ pairs) ∨ s.value k = some v := by
  by_cases hex : ∃ w, ⟨k, w⟩ ∈ pairs
  · exact .inl hex
  · refine .inr ?_
    rwa [set_value_of_ne s] at h
    rintro ⟨k', w⟩ hq rfl
    exact hex ⟨w, hq⟩

end Sdl

/-! ### The pairs of the cells -/

/-- The pairs that `appendGnbCells` appends. -/
def cellPairs (n : String) (cells : List ServedNRCell) : Pairs :=
  cells.flatMap fun cell =>
    [⟨.nrCellId cell.cellId, Cell.servedNrCell cell⟩,
      ⟨.cellNamePci n cell.nrPci, Cell.servedNrCell cell⟩]

/-- Where `appendGnbCells` accepts the cells it appends their two keys each, and every cell has an
id. -/
theorem appendGnbCells_ok {n : String} {cells : List ServedNRCell} {pairs pairs' : Pairs}
    (h : RNibWriter.appendGnbCells n cells pairs = .ok pairs') :
    pairs' = pairs ++ cellPairs n cells ∧ ∀ cell ∈ cells, cell.cellId ≠ "" := by
  induction cells generalizing pairs with
  | nil => exact ⟨by simpa [cellPairs] using (Except.ok.inj h).symm, List.forall_mem_nil _⟩
  | cons cell cells ih =>
      obtain ⟨byId, hId, h⟩ := except_bind_eq_ok.1 h
      obtain ⟨byPci, hPci, h⟩ := except_bind_eq_ok.1 h
      obtain ⟨rfl, hids⟩ := ih h
      unfold validateAndBuild at hId hPci
      split at hId
      · split at hPci
        · rename_i hid _
          obtain rfl := Except.ok.inj hId
          obtain rfl := Except.ok.inj hPci
          exact ⟨by simp [cellPairs], List.forall_mem_cons.2 ⟨hid, hids⟩⟩
        · cases hPci
      · cases hId

/-- It accepts every list of cells with ids of a RAN that has a name. -/
theorem appendGnbCells_of_ne {n : String} (hn : n ≠ "") {cells : List ServedNRCell} (pairs : Pairs)
    (h : ∀ cell ∈ cells, cell.cellId ≠ "") :
    RNibWriter.appendGnbCells n cells pairs = .ok (pairs ++ cellPairs n cells) := by
  induction cells generalizing pairs with
  | nil => simp [RNibWriter.appendGnbCells, cellPairs]
  | cons cell cells ih =>
      obtain ⟨hid, hids⟩ := List.forall_mem_cons.1 h
      unfold RNibWriter.appendGnbCells
      rw [validateAndBuild_of_valid (show (Key.nrCellId cell.cellId).Valid from hid),
        validateAndBuild_of_valid (show (Key.cellNamePci n cell.nrPci).Valid from hn)]
      refine (ih _ hids).trans ?_
      simp [cellPairs]

/-- The pairs of the cells under a cell id are those of the cells with that id. -/
theorem mem_cellPairs_id {n : String} {cells : List ServedNRCell} {id : String} {v : Cell} :
    (⟨.nrCellId id, v⟩ : (k : Key) × k.Value) ∈ cellPairs n cells ↔
      ∃ cell ∈ cells, cell.cellId = id ∧ v = .servedNrCell cell := by
  unfold cellPairs
  rw [List.mem_flatMap]
  refine exists_congr fun cell => and_congr_right fun _ => ?_
  constructor
  · intro hmem
    rcases List.mem_cons.1 hmem with heq | hmem
    · cases heq
      exact ⟨rfl, rfl⟩
    · cases List.mem_singleton.1 hmem
  · rintro ⟨rfl, rfl⟩
    exact List.mem_cons_self

/-- The pairs of the cells under a PCI are those of the cells with that PCI. -/
theorem mem_cellPairs_pci {n : String} {cells : List ServedNRCell} {pci : Nat} {v : Cell} :
    (⟨.cellNamePci n pci, v⟩ : (k : Key) × k.Value) ∈ cellPairs n cells ↔
      ∃ cell ∈ cells, cell.nrPci = pci ∧ v = .servedNrCell cell := by
  unfold cellPairs
  rw [List.mem_flatMap]
  refine exists_congr fun cell => and_congr_right fun _ => ?_
  constructor
  · intro hmem
    rcases List.mem_cons.1 hmem with heq | hmem
    · cases heq
    · cases List.mem_singleton.1 hmem
      exact ⟨rfl, rfl⟩
  · rintro ⟨rfl, rfl⟩
    exact List.mem_cons_of_mem _ List.mem_cons_self

/-- Pairs that write the record of a RAN, and no cell. -/
def RecordPairs (n : String) (nb : NodebInfo) (pairs : Pairs) : Prop :=
  ∃ index, pairs = ⟨.nodebName n, nb⟩ :: index ∧ ∀ p ∈ index, ∃ t a b, p.1 = .nodebId t a b

/-- The pairs that write a gNB's record, and its cells with their keys. -/
def GnbPairs (n : String) (nb : NodebInfo) (cells : List ServedNRCell) (pairs : Pairs) : Prop :=
  ∃ head, RecordPairs n nb head ∧ pairs = head ++ cellPairs n cells

/-- **What an update of a gNB sets**, for a record with a name and cells with ids. -/
theorem RNibWriter.exists_updateGnbCells_eq {nb : NodebInfo} {cells : List ServedNRCell}
    (hname : nb.ranName ≠ "") (hids : ∀ cell ∈ cells, cell.cellId ≠ "") :
    ∃ pairs, GnbPairs nb.ranName nb cells pairs ∧
      ∀ s, RNibWriter.updateGnbCells nb cells s = .ok (s.set pairs) := by
  obtain ⟨head, hhead, hrecord⟩ : ∃ head, RNibWriter.buildUpdateNodebInfoPairs nb = .ok head ∧
      RecordPairs nb.ranName nb head := by
    unfold RNibWriter.buildUpdateNodebInfoPairs
    rw [validateAndBuild_of_valid (show (Key.nodebName nb.ranName).Valid from hname)]
    cases hid : RNibWriter.nodebIdPair nb with
    | error e => exact ⟨_, rfl, [], rfl, List.forall_mem_nil _⟩
    | ok p =>
        exact ⟨_, rfl, [p], rfl, List.forall_mem_singleton.2 ⟨_, _, _, validateAndBuild_fst hid⟩⟩
  refine ⟨head ++ cellPairs nb.ranName cells, ⟨head, hrecord, rfl⟩, fun s => ?_⟩
  unfold RNibWriter.updateGnbCells
  rw [hhead]
  exact congrArg (fun r => r >>= fun pairs => Except.ok (s.set pairs))
    (appendGnbCells_of_ne hname head hids)

/-- **What a save of a gNB sets**, where it is not refused. -/
theorem saveNodebPairs_gnb {n : String} {globalNbId : Option GlobalNbId} {record : NodebInfo}
    {gnb : Option Gnb} {pairs : Pairs}
    (h : RNibWriter.saveNodebPairs (GnbCall.identity n globalNbId) (GnbCall.entity n record gnb) =
      .ok pairs) :
    n ≠ "" ∧ GnbPairs n (GnbCall.entity n record gnb) (gnb.elim [] (·.servedNrCells)) pairs ∧
      ∀ cell ∈ gnb.elim [] (·.servedNrCells), cell.cellId ≠ "" := by
  obtain ⟨hn, -⟩ := saveNodebPairs_shape h
  have hn : n ≠ "" := hn
  unfold RNibWriter.saveNodebPairs at h
  split at h
  · cases h
  obtain ⟨name, hname, h⟩ := except_bind_eq_ok.1 h
  obtain ⟨byId, hId, h⟩ := except_bind_eq_ok.1 h
  obtain ⟨pairs₁, henb, hgnb⟩ := except_bind_eq_ok.1 h
  rw [validateAndBuild_of_valid
    (show (Key.nodebName (GnbCall.identity n globalNbId).inventoryName).Valid from hn)] at hname
  obtain rfl := Except.ok.inj hname
  have hrecord : RecordPairs n (GnbCall.entity n record gnb)
      (⟨.nodebName n, GnbCall.entity n record gnb⟩ :: byId) :=
    ⟨byId, rfl, nodebId_of_isNotEmpty hId⟩
  have hnoenb : (GnbCall.entity n record gnb).getEnb = none := by
    cases gnb <;> rfl
  rw [hnoenb] at henb
  obtain rfl := Except.ok.inj henb
  cases gnb with
  | none =>
      obtain rfl := Except.ok.inj hgnb
      exact ⟨hn, ⟨_, hrecord, (List.append_nil _).symm⟩, List.forall_mem_nil _⟩
  | some g =>
      obtain ⟨rfl, hids⟩ := appendGnbCells_ok hgnb
      exact ⟨hn, ⟨_, hrecord, rfl⟩, hids⟩

/-! ### The index after a write -/

variable {n : String} {s s' : Sdl} {nb : NodebInfo} {old cells : List ServedNRCell} {pairs : Pairs}

/-- The cell ids and the PCIs under which something is stored are those of a list. -/
structure HasKeys (n : String) (s : Sdl) (cells : List ServedNRCell) : Prop where
  ids : ∀ id, (∃ v, s.value (.nrCellId id) = some v) ↔ ∃ cell ∈ cells, cell.cellId = id
  pcis : ∀ pci, (∃ v, s.value (.cellNamePci n pci) = some v) ↔ ∃ cell ∈ cells, cell.nrPci = pci

/-- Where the index is right, the stored keys are those of the served cells. -/
theorem Indexed.hasKeys (h : Indexed n s) : HasKeys n s (s.servedNrCells n) where
  ids id := by
    constructor
    · rintro ⟨v, hv⟩
      exact h.id_served id v hv
    · rintro ⟨cell, hcell, rfl⟩
      exact ⟨_, (h.cell_stored cell hcell).1⟩
  pcis pci := by
    constructor
    · rintro ⟨v, hv⟩
      exact h.pci_served pci v hv
    · rintro ⟨cell, hcell, rfl⟩
      exact ⟨_, (h.cell_stored cell hcell).2⟩

/-- The record's own pairs name no cell. -/
theorem GnbPairs.mem_id (h : GnbPairs n nb cells pairs) {id : String} {v : Cell} :
    (⟨.nrCellId id, v⟩ : (k : Key) × k.Value) ∈ pairs ↔
      ∃ cell ∈ cells, cell.cellId = id ∧ v = .servedNrCell cell := by
  obtain ⟨_, ⟨index, rfl, hindex⟩, rfl⟩ := h
  rw [List.mem_append, ← mem_cellPairs_id]
  refine or_iff_right fun hmem => ?_
  rcases List.mem_cons.1 hmem with heq | hmem
  · cases heq
  · obtain ⟨t, a, b, hk⟩ := hindex _ hmem
    cases hk

/-- Among the pairs of a gNB, those under a PCI are its cells with that PCI. -/
theorem GnbPairs.mem_pci (h : GnbPairs n nb cells pairs) {pci : Nat} {v : Cell} :
    (⟨.cellNamePci n pci, v⟩ : (k : Key) × k.Value) ∈ pairs ↔
      ∃ cell ∈ cells, cell.nrPci = pci ∧ v = .servedNrCell cell := by
  obtain ⟨_, ⟨index, rfl, hindex⟩, rfl⟩ := h
  rw [List.mem_append, ← mem_cellPairs_pci]
  refine or_iff_right fun hmem => ?_
  rcases List.mem_cons.1 hmem with heq | hmem
  · cases heq
  · obtain ⟨t, a, b, hk⟩ := hindex _ hmem
    cases hk

/-- Writing a gNB's pairs writes its record. -/
theorem GnbPairs.nodeb (h : GnbPairs n nb cells pairs) : (s.set pairs).nodeb n = some nb := by
  obtain ⟨_, ⟨index, rfl, hindex⟩, rfl⟩ := h
  have hrest : ∀ p ∈ index ++ cellPairs n cells, p.1.IsIndex := by
    intro p hp
    rcases List.mem_append.1 hp with hp | hp
    · obtain ⟨t, a, b, hk⟩ := hindex p hp
      rw [hk]
      trivial
    · obtain ⟨cell, -, hp⟩ := List.mem_flatMap.1 hp
      rcases List.mem_cons.1 hp with rfl | hp
      · trivial
      · obtain rfl := List.mem_singleton.1 hp
        trivial
  have hset : (s.set (⟨.nodebName n, nb⟩ :: (index ++ cellPairs n cells))).nodeb =
      Function.update s.nodeb n (some nb) := Sdl.nodeb_set_cons s hrest
  exact (congrFun hset n).trans (Function.update_self ..)

/-- **The index after the cells of a gNB are written** into a store whose cell keys are
those of a list: it is in order exactly when the cells are distinct and cover the
list. -/
theorem indexed_set_iff (hkeys : HasKeys n s old) (hpairs : GnbPairs n nb cells pairs)
    (hnb : nb.getGnb.elim [] (·.servedNrCells) = cells)
    (hvalue : s'.value = (s.set pairs).value) :
    Indexed n s' ↔ Distinct cells ∧ Covers old cells := by
  have hserved : s'.servedNrCells n = cells := by
    have hnodeb : s'.nodeb n = some nb := (congrFun hvalue (.nodebName n)).trans hpairs.nodeb
    unfold Sdl.servedNrCells
    rw [hnodeb]
    exact hnb
  have hid : ∀ id, s'.value (.nrCellId id) = (s.set pairs).value (.nrCellId id) := fun id =>
    congrFun hvalue _
  have hpci : ∀ pci, s'.value (.cellNamePci n pci) = (s.set pairs).value (.cellNamePci n pci) :=
    fun pci => congrFun hvalue _
  constructor
  · intro h
    refine ⟨fun cell hcell cell' hcell' hsame => ?_, fun cell hcell => ⟨?_, ?_⟩⟩
    · have hstored := h.cell_stored cell (hserved ▸ hcell)
      have hstored' := h.cell_stored cell' (hserved ▸ hcell')
      rcases hsame with hsame | hsame
      · have heq := hstored.1.symm.trans (hsame ▸ hstored'.1)
        exact Cell.servedNrCell.inj (Option.some.inj heq)
      · have heq := hstored.2.symm.trans (hsame ▸ hstored'.2)
        exact Cell.servedNrCell.inj (Option.some.inj heq)
    · -- the old key still has a value, so a new cell has it
      by_contra hnone
      obtain ⟨v, hv⟩ := (hkeys.ids cell.cellId).2 ⟨cell, hcell, rfl⟩
      have hkept : s'.value (.nrCellId cell.cellId) = some v := by
        rw [hid, Sdl.set_value_of_ne s, hv]
        rintro ⟨k, w⟩ hmem rfl
        obtain ⟨cell', hcell', heq, -⟩ := hpairs.mem_id.1 hmem
        exact hnone ⟨cell', hcell', heq⟩
      obtain ⟨cell', hcell', heq⟩ := h.id_served _ v hkept
      exact hnone ⟨cell', hserved ▸ hcell', heq⟩
    · by_contra hnone
      obtain ⟨v, hv⟩ := (hkeys.pcis cell.nrPci).2 ⟨cell, hcell, rfl⟩
      have hkept : s'.value (.cellNamePci n cell.nrPci) = some v := by
        rw [hpci, Sdl.set_value_of_ne s, hv]
        rintro ⟨k, w⟩ hmem rfl
        obtain ⟨cell', hcell', heq, -⟩ := hpairs.mem_pci.1 hmem
        exact hnone ⟨cell', hcell', heq⟩
      obtain ⟨cell', hcell', heq⟩ := h.pci_served _ v hkept
      exact hnone ⟨cell', hserved ▸ hcell', heq⟩
  · rintro ⟨hdistinct, hcovers⟩
    refine ⟨fun cell hcell => ⟨?_, ?_⟩, fun id v hv => ?_, fun pci v hv => ?_⟩
    · rw [hserved] at hcell
      rw [hid]
      refine Sdl.set_value_of_mem (hpairs.mem_id.2 ⟨cell, hcell, rfl, rfl⟩) fun w hw => ?_
      obtain ⟨cell', hcell', heq, rfl⟩ := hpairs.mem_id.1 hw
      rw [hdistinct cell' hcell' cell hcell (.inl heq)]
    · rw [hserved] at hcell
      rw [hpci]
      refine Sdl.set_value_of_mem (hpairs.mem_pci.2 ⟨cell, hcell, rfl, rfl⟩) fun w hw => ?_
      obtain ⟨cell', hcell', heq, rfl⟩ := hpairs.mem_pci.1 hw
      rw [hdistinct cell' hcell' cell hcell (.inr heq)]
    · rw [hid] at hv
      rw [hserved]
      rcases Sdl.mem_of_set_value hv with ⟨w, hw⟩ | hv
      · obtain ⟨cell, hcell, heq, -⟩ := hpairs.mem_id.1 hw
        exact ⟨cell, hcell, heq⟩
      · obtain ⟨cell, hcell, rfl⟩ := (hkeys.ids id).1 ⟨v, hv⟩
        exact (hcovers cell hcell).1
    · rw [hpci] at hv
      rw [hserved]
      rcases Sdl.mem_of_set_value hv with ⟨w, hw⟩ | hv
      · obtain ⟨cell, hcell, heq, -⟩ := hpairs.mem_pci.1 hw
        exact ⟨cell, hcell, heq⟩
      · obtain ⟨cell, hcell, rfl⟩ := (hkeys.pcis pci).1 ⟨v, hv⟩
        exact (hcovers cell hcell).2

/-! ### The two operations -/

/-- The stored record carries the gNB's name, and its cells have ids. -/
def Stored (n : String) (s : Sdl) : Prop :=
  ∀ nb, s.nodeb n = some nb → nb.ranName = n ∧ n ≠ "" ∧
    ∀ cell ∈ nb.getGnb.elim [] (·.servedNrCells), cell.cellId ≠ ""

/-- The keys to remove include both keys of every old cell with an id. -/
theorem mem_buildCellKeysToRemove (hn : n ≠ "") {cell : ServedNRCell} (hcell : cell ∈ old)
    (hid : cell.cellId ≠ "") :
    .nrCellId cell.cellId ∈ RNibWriter.buildCellKeysToRemove n old ∧
    .cellNamePci n cell.nrPci ∈ RNibWriter.buildCellKeysToRemove n old := by
  unfold RNibWriter.buildCellKeysToRemove
  rw [List.mem_flatMap, List.mem_flatMap]
  constructor
  · exact ⟨cell, hcell, List.mem_filter.2 ⟨List.mem_cons_self, decide_eq_true hid⟩⟩
  · exact ⟨cell, hcell, List.mem_filter.2
      ⟨List.mem_cons_of_mem _ List.mem_cons_self, decide_eq_true hn⟩⟩

/-- Taking out the keys of all cells leaves no cell key. -/
theorem Indexed.remove (h : Indexed n s) (hn : n ≠ "")
    (hids : ∀ cell ∈ s.servedNrCells n, cell.cellId ≠ "") :
    HasKeys n (s.remove (RNibWriter.buildCellKeysToRemove n (s.servedNrCells n))) [] := by
  have hgone : ∀ (keys : List Key) (k : Key) (v : k.Value), (s.remove keys).value k = some v →
      k ∉ keys ∧ s.value k = some v := by
    intro keys k v hv
    unfold Sdl.remove at hv
    dsimp only at hv
    split at hv
    · cases hv
    · exact ⟨‹_›, hv⟩
  refine ⟨fun id => ⟨?_, ?_⟩, fun pci => ⟨?_, ?_⟩⟩
  · rintro ⟨v, hv⟩
    obtain ⟨hkept, hv⟩ := hgone _ _ v hv
    obtain ⟨cell, hcell, rfl⟩ := h.id_served id v hv
    exact absurd (mem_buildCellKeysToRemove hn hcell (hids cell hcell)).1 hkept
  · rintro ⟨cell, hcell, -⟩
    cases hcell
  · rintro ⟨v, hv⟩
    obtain ⟨hkept, hv⟩ := hgone _ _ v hv
    obtain ⟨cell, hcell, rfl⟩ := h.pci_served pci v hv
    exact absurd (mem_buildCellKeysToRemove hn hcell (hids cell hcell)).2 hkept
  · rintro ⟨cell, hcell, -⟩
    cases hcell

namespace GnbCall

/-- The step of the history is the writer's `SaveNodeb`, and leaves the store alone where that is
refused. -/
theorem exec_saveNodeb_eq (globalNbId : Option GlobalNbId) (record : NodebInfo)
    (gnb : Option Gnb) : (saveNodeb globalNbId record gnb).exec n s =
      match RNibWriter.saveNodeb (identity n globalNbId) (entity n record gnb) s with
      | .ok s' => s'
      | .error _ => s := rfl

/-- A `SaveNodeb` that is accepted sets the pairs it built. -/
theorem exec_saveNodeb {globalNbId : Option GlobalNbId} {record : NodebInfo} {gnb : Option Gnb}
    (h : RNibWriter.saveNodebPairs (identity n globalNbId) (entity n record gnb) = .ok pairs) :
    ((saveNodeb globalNbId record gnb).exec n s).value = (s.set pairs).value := by
  rw [exec_saveNodeb_eq]
  unfold RNibWriter.saveNodeb
  rw [h]
  exact saveNodebMembers_value _ _ _

/-- A `SaveNodeb` whose pairs cannot be built leaves the store as it is. -/
theorem exec_saveNodeb_refused {globalNbId : Option GlobalNbId} {record : NodebInfo}
    {gnb : Option Gnb} (h : ∀ pairs, RNibWriter.saveNodebPairs (identity n globalNbId)
      (entity n record gnb) ≠ .ok pairs) : (saveNodeb globalNbId record gnb).exec n s = s := by
  rw [exec_saveNodeb_eq]
  unfold RNibWriter.saveNodeb
  cases hp : RNibWriter.saveNodebPairs (identity n globalNbId) (entity n record gnb) with
  | ok pairs => exact absurd hp (h pairs)
  | error e => rfl

/-- The step of the history is the handler of the gNB update, run to its end. -/
theorem exec_updateGnb_eq (gnb : Gnb) : (updateGnb gnb).exec n s =
    ((UpdateGnbRequestHandler.handle ⟨n, gnb⟩).run GnbStoreCall.exec [] s).2 := rfl

/-- A request with a cell that is not valid changes nothing. -/
theorem exec_updateGnb_invalid {gnb : Gnb}
    (h : UpdateGnbRequestHandler.validateRequestBody ⟨n, gnb⟩ ≠ .ok ()) :
    (updateGnb gnb).exec n s = s := by
  rw [exec_updateGnb_eq]
  unfold UpdateGnbRequestHandler.handle
  cases hv : UpdateGnbRequestHandler.validateRequestBody ⟨n, gnb⟩ with
  | ok u => exact absurd hv h
  | error e => rfl

/-- A request that is valid goes on with the record that is stored. -/
theorem exec_updateGnb_valid {gnb : Gnb}
    (h : UpdateGnbRequestHandler.validateRequestBody ⟨n, gnb⟩ = .ok ()) :
    (updateGnb gnb).exec n s = match RNibReader.getNodeb n s with
      | .error _ => s
      | .ok nb => ((UpdateGnbRequestHandler.updateGnbCells nb ⟨n, gnb⟩).run
          GnbStoreCall.exec [] s).2 := by
  rw [exec_updateGnb_eq]
  unfold UpdateGnbRequestHandler.handle
  rw [h]
  have hrun : ∀ f : Except Err NodebInfo → Program gnbStore (Except Err NodebInfo),
      (GnbStore.getNodeb n >>= f).run GnbStoreCall.exec [] s =
        (f (RNibReader.getNodeb n s)).run GnbStoreCall.exec [] s := fun _ => rfl
  dsimp only
  rw [hrun]
  cases RNibReader.getNodeb n s with
  | ok nb => rfl
  | error e => cases e <;> rfl

/-- A request for a RAN that is not stored, or is no gNB, changes nothing. -/
theorem exec_updateGnb_absent {gnb : Gnb} (h : (s.nodeb n).bind NodebInfo.getGnb = none) :
    (updateGnb gnb).exec n s = s := by
  by_cases hv : UpdateGnbRequestHandler.validateRequestBody ⟨n, gnb⟩ = .ok ()
  · rw [exec_updateGnb_valid hv]
    split
    · rfl
    · rename_i nb hnb
      have hstored : s.nodeb n = some nb := by
        unfold RNibReader.getNodeb at hnb
        split at hnb
        · cases hnb
        · cases hs : s.nodeb n with
          | none =>
              rw [hs] at hnb
              cases hnb
          | some nb' =>
              rw [hs] at hnb
              exact congrArg some (Except.ok.inj hnb)
      rw [hstored, Option.bind_some] at h
      unfold UpdateGnbRequestHandler.updateGnbCells
      rw [h]
      rfl
  · exact exec_updateGnb_invalid hv

/-- The record that a request writes. -/
def withCells (nb : NodebInfo) (g : Gnb) (servedNrCells : List ServedNRCell) : NodebInfo :=
  { nb with configuration := some (.gnb { g with servedNrCells }) }

/-- **What a request for a stored gNB writes**: the old cells' keys are taken out, then the
record and the new cells are set. -/
theorem exec_updateGnb {gnb : Gnb} {nb : NodebInfo} {g : Gnb}
    (hv : UpdateGnbRequestHandler.validateRequestBody ⟨n, gnb⟩ = .ok ())
    (hn : n ≠ "") (hnb : s.nodeb n = some nb) (hg : nb.getGnb = some g) (hname : nb.ranName = n) :
    ∃ pairs, GnbPairs n (withCells nb g gnb.servedNrCells) gnb.servedNrCells pairs ∧
      (updateGnb gnb).exec n s =
        (s.remove (RNibWriter.buildCellKeysToRemove n g.servedNrCells)).set pairs := by
  subst hname
  have hget : RNibReader.getNodeb nb.ranName s = .ok nb := by
    unfold RNibReader.getNodeb
    rw [if_neg hn, hnb]
    rfl
  obtain ⟨nb', hnb'⟩ : ∃ nb', nb' = withCells nb g gnb.servedNrCells := ⟨_, rfl⟩
  have hranName : nb'.ranName = nb.ranName := hnb' ▸ rfl
  rw [← hnb']
  obtain ⟨pairs, hpairs, hwrite⟩ := RNibWriter.exists_updateGnbCells_eq
    (show nb'.ranName ≠ "" by rwa [hranName]) (UpdateGnbRequestHandler.validateRequestBody_ok hv).2
  rw [hranName] at hpairs
  have hupdate : ∀ (s₁ : Sdl) (f : Except Err Unit → Program gnbStore (Except Err NodebInfo)),
      (GnbStore.updateGnbCells nb' gnb.servedNrCells >>= f).run GnbStoreCall.exec [] s₁ =
        (f (.ok ())).run GnbStoreCall.exec [] (s₁.set pairs) := by
    intro s₁ f
    have hexec : storeWrite (RNibWriter.updateGnbCells nb' gnb.servedNrCells)
        { store := .ok } s₁ = (.ok (), s₁.set pairs) := by
      unfold storeWrite
      rw [hwrite s₁]
    rw [GnbStore.run_updateGnbCells]
    exact congrArg (fun r => (f r.1).run GnbStoreCall.exec [] r.2) hexec
  refine ⟨pairs, hpairs, ?_⟩
  rw [exec_updateGnb_valid hv, hget]
  dsimp only
  unfold UpdateGnbRequestHandler.updateGnbCells
  rw [hg]
  subst hnb'
  dsimp only
  by_cases hcells : g.servedNrCells.isEmpty
  · rw [if_pos hcells]
    have hnone : s.remove (RNibWriter.buildCellKeysToRemove nb.ranName g.servedNrCells) = s := by
      have hnil : g.servedNrCells = [] := List.isEmpty_iff.1 hcells
      rw [hnil]
      rfl
    rw [hnone]
    exact congrArg Prod.snd (hupdate s _)
  · rw [if_neg hcells]
    exact congrArg Prod.snd
      (hupdate (s.remove (RNibWriter.buildCellKeysToRemove nb.ranName g.servedNrCells)) _)

/-! ### Sequences of calls -/

/-- What a write of the gNB's record leaves stored. -/
theorem Stored.set (hn : n ≠ "") (hpairs : GnbPairs n nb cells pairs) (hname : nb.ranName = n)
    (hnb : nb.getGnb.elim [] (·.servedNrCells) = cells) (hids : ∀ cell ∈ cells, cell.cellId ≠ "")
    (hvalue : s'.value = (s.set pairs).value) : Stored n s' := by
  intro nb' hnb'
  have hnodeb : s'.nodeb n = some nb := (congrFun hvalue (.nodebName n)).trans hpairs.nodeb
  obtain rfl : nb = nb' := Option.some.inj (hnodeb.symm.trans hnb')
  exact ⟨hname, hn, fun cell hcell => hids cell (hnb ▸ hcell)⟩

/-- **One call keeps the index exactly when it meets the condition.** -/
theorem exec_spec (hi : Indexed n s) (hs : Stored n s) (c : GnbCall) :
    (Indexed n (c.exec n s) ↔ c.KeepsIndex n s) ∧ Stored n (c.exec n s) := by
  cases c with
  | saveNodeb globalNbId record gnb =>
      by_cases hrefused : ∀ pairs, RNibWriter.saveNodebPairs (identity n globalNbId)
          (entity n record gnb) ≠ .ok pairs
      · rw [exec_saveNodeb_refused hrefused]
        exact ⟨⟨fun _ => .inl hrefused, fun _ => hi⟩, hs⟩
      · obtain ⟨pairs, hpairs⟩ := not_forall_not.1 hrefused
        obtain ⟨hn, hgnb, hids⟩ := saveNodebPairs_gnb hpairs
        have hcells : (entity n record gnb).getGnb.elim [] (·.servedNrCells) =
            gnb.elim [] (·.servedNrCells) := by
          cases gnb <;> rfl
        have hvalue := exec_saveNodeb (s := s) hpairs
        refine ⟨(indexed_set_iff hi.hasKeys hgnb hcells hvalue).trans ?_,
          Stored.set hn hgnb rfl hcells hids hvalue⟩
        exact (or_iff_right fun h => h pairs hpairs).symm
  | updateGnb gnb =>
      by_cases hv : UpdateGnbRequestHandler.validateRequestBody ⟨n, gnb⟩ = .ok ()
      · cases hg : (s.nodeb n).bind NodebInfo.getGnb with
        | none =>
            rw [exec_updateGnb_absent hg]
            exact ⟨⟨fun _ => .inr (.inl hg), fun _ => hi⟩, hs⟩
        | some g =>
            obtain ⟨nb, hnb, hnbg⟩ := Option.bind_eq_some_iff.1 hg
            obtain ⟨hname, hn, hids⟩ := hs nb hnb
            obtain ⟨pairs, hpairs, hexec⟩ := exec_updateGnb hv hn hnb hnbg hname
            have hserved : s.servedNrCells n = g.servedNrCells := by
              unfold Sdl.servedNrCells
              rw [hg]
              rfl
            have hkeys : HasKeys n
                (s.remove (RNibWriter.buildCellKeysToRemove n g.servedNrCells)) [] := by
              rw [← hserved]
              refine hi.remove hn fun cell hcell => hids cell ?_
              rw [hnbg]
              rw [hserved] at hcell
              exact hcell
            have hvalue := congrArg Sdl.value hexec
            refine ⟨(indexed_set_iff hkeys hpairs rfl hvalue).trans ?_,
              Stored.set hn hpairs hname rfl
                (UpdateGnbRequestHandler.validateRequestBody_ok hv).2 hvalue⟩
            constructor
            · exact fun h => .inr (.inr h.1)
            · rintro (hinvalid | hnone | hdistinct)
              · exact absurd hv hinvalid
              · rw [hg] at hnone
                cases hnone
              · exact ⟨hdistinct, List.forall_mem_nil _⟩
      · rw [exec_updateGnb_invalid hv]
        exact ⟨⟨fun _ => .inl hv, fun _ => hi⟩, hs⟩

/-- The index of the empty store is right. -/
theorem indexed_empty (n : String) : Indexed n Sdl.empty where
  cell_stored _ hcell := absurd hcell List.not_mem_nil
  id_served _ _ hv := by cases hv
  pci_served _ _ hv := by cases hv

/-- The empty store holds no record, so nothing contradicts `Stored`. -/
theorem stored_empty (n : String) : Stored n Sdl.empty := by
  intro nb hnb
  have hnone : (none : Option NodebInfo) = some nb := hnb
  cases hnone

/-- **When the cell index of a gNB stays in order**: after every call of a sequence,
exactly when every call keeps it. -/
theorem indexed_iff (n : String) (calls : List GnbCall) :
    (∀ k, Indexed n (run n Sdl.empty (calls.take k))) ↔ AllKeepIndex n Sdl.empty calls := by
  suffices h : ∀ s : Sdl, Indexed n s → Stored n s →
      ((∀ k, Indexed n (run n s (calls.take k))) ↔ AllKeepIndex n s calls) from
    h _ (indexed_empty n) (stored_empty n)
  induction calls with
  | nil =>
      intro s hi _
      exact ⟨fun _ => trivial, fun _ k => by simpa [run] using hi⟩
  | cons c calls ih =>
      intro s hi hs
      obtain ⟨hstep, hstored⟩ := exec_spec hi hs c
      constructor
      · intro hall
        have hc : Indexed n (c.exec n s) := hall 1
        exact ⟨hstep.1 hc, (ih _ hc hstored).1 fun k => hall (k + 1)⟩
      · rintro ⟨hkeep, hrest⟩ k
        cases k with
        | zero => exact hi
        | succ k => exact (ih _ (hstep.2 hkeep) hstored).2 hrest k

/-- **A gNB that answers a second ENDC setup with another cell**: the keys of the first one
stay. -/
theorem not_indexed :
    ¬ Indexed "gnb1" (run "gnb1" Sdl.empty
      [.saveNodeb (some ⟨"02f829", "b5c6"⟩) { ranName := "gnb1", nodeType := .GNB }
        (some { servedNrCells := [⟨"02f829:0001", 5, .FDD, none, [], []⟩] }),
      .saveNodeb (some ⟨"02f829", "b5c6"⟩) { ranName := "gnb1", nodeType := .GNB }
        (some { servedNrCells := [⟨"02f829:0002", 6, .FDD, none, [], []⟩] })]) := by
  intro h
  obtain ⟨cell, hcell, hid⟩ := h.id_served "02f829:0001"
    (.servedNrCell ⟨"02f829:0001", 5, .FDD, none, [], []⟩) (by decide +kernel)
  have hserved : cell ∈ [(⟨"02f829:0002", 6, .FDD, none, [], []⟩ : ServedNRCell)] := hcell
  obtain rfl := List.mem_singleton.1 hserved
  revert hid
  decide

end GnbCall

end NearRtRic.E2Manager
