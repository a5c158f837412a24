/-
# A failed update of a gNB's cells

`UpdateGnbRequestHandler` makes up to three calls of the store: it reads the
record, removes the keys of the old cells, and writes the record with the keys of
the new ones.  The checks of the request stand before all of them, and the keys to
write are built before the write, so a failure leaves the store alone, except
between the two writes: where the removal succeeded and the write does not, the
handler returns its error and the removed keys stay removed, while the record still
has the cells.  `sameCells_iff` says that this is the only way.
-/

import NearRtRic.E2Manager.CellIndex

namespace NearRtRic.E2Manager

open Effect Program

/-- The record of a RAN and the keys of all cells are as they were. -/
structure SameCells (ranName : String) (s s' : Sdl) : Prop where
  nodeb : s'.nodeb ranName = s.nodeb ranName
  cellId : ∀ id, s'.value (.cellId id) = s.value (.cellId id)
  nrCellId : ∀ id, s'.value (.nrCellId id) = s.value (.nrCellId id)
  cellNamePci : ∀ n pci, s'.value (.cellNamePci n pci) = s.value (.cellNamePci n pci)

/-- A store has the same cells as itself. -/
theorem SameCells.refl (ranName : String) (s : Sdl) : SameCells ranName s s :=
  ⟨rfl, fun _ => rfl, fun _ => rfl, fun _ _ => rfl⟩

/-- The removal of keys that are not stored changes nothing. -/
theorem Sdl.remove_of_absent {s : Sdl} {keys : List Key} (h : ∀ k ∈ keys, s.value k = none) :
    s.remove keys = s := by
  have hvalue : (fun k => if k ∈ keys then none else s.value k) = s.value := by
    funext k
    split
    · rename_i hk
      exact (h k hk).symm
    · rfl
  unfold remove
  rw [hvalue]

/-- The keys of cells are NR cell ids and PCIs. -/
theorem RNibWriter.mem_buildCellKeysToRemove_kind {n : String} {cells : List ServedNRCell}
    {k : Key} (hk : k ∈ buildCellKeysToRemove n cells) :
    (∃ id, k = .nrCellId id) ∨ ∃ pci, k = .cellNamePci n pci := by
  obtain ⟨cell, -, hk⟩ := List.mem_flatMap.1 hk
  have hk := (List.mem_filter.1 hk).1
  rcases List.mem_cons.1 hk with rfl | hk
  · exact .inl ⟨_, rfl⟩
  · exact .inr ⟨_, List.mem_singleton.1 hk⟩

/-- Where a removed key was stored, the keys of the cells are not as they were. -/
theorem SameCells.absent_of_remove {ranName n : String} {s : Sdl} {cells : List ServedNRCell}
    (h : SameCells ranName s (s.remove (RNibWriter.buildCellKeysToRemove n cells))) :
    ∀ k ∈ RNibWriter.buildCellKeysToRemove n cells, s.value k = none := by
  intro k hk
  have hsame : (s.remove (RNibWriter.buildCellKeysToRemove n cells)).value k = s.value k := by
    rcases RNibWriter.mem_buildCellKeysToRemove_kind hk with ⟨id, rfl⟩ | ⟨pci, rfl⟩
    · exact h.nrCellId id
    · exact h.cellNamePci n pci
  rw [← hsame]
  exact if_pos hk

/-! ### The calls in a run -/

section Run

variable {cs : List StoreOutcome} {s s' : Sdl}

/-- A write that fails without effect leaves the store as it was, one that returns
nil has written. -/
theorem storeWrite_cases {w : Sdl → Except Err Sdl} {c : Outcome}
    (hc : c.store ≠ .failsAfterEffect) :
    (∃ s', w s = .ok s' ∧ c.store = .ok ∧ storeWrite w c s = (.ok (), s')) ∨
      ((c.store = .fails ∨ ∃ e, w s = .error e) ∧ ∃ e, storeWrite w c s = (.error e, s)) := by
  unfold storeWrite
  cases hw : w s with
  | error e => exact .inr ⟨.inr ⟨e, rfl⟩, e, rfl⟩
  | ok s' =>
      cases hstore : c.store with
      | ok => exact .inl ⟨s', rfl, rfl, rfl⟩
      | fails => exact .inr ⟨.inl rfl, .internal, rfl⟩
      | failsAfterEffect => exact absurd hstore hc

/-- The pairs of an update cannot be built exactly where the record has no name:
the cells that passed the checks have ids. -/
theorem RNibWriter.updateGnbCells_eq_error (nb : NodebInfo) {cells : List ServedNRCell}
    (hcells : ∀ cell ∈ cells, cell.cellId ≠ "") :
    (∃ e, RNibWriter.updateGnbCells nb cells s = .error e) ↔ nb.ranName = "" := by
  by_cases hname : nb.ranName = ""
  · have hinvalid : validateAndBuild (.nodebName nb.ranName) nb = .error .validation := by
      simp [validateAndBuild, Key.Valid, hname]
    unfold RNibWriter.updateGnbCells RNibWriter.buildUpdateNodebInfoPairs
    rw [hinvalid]
    exact ⟨fun _ => hname, fun _ => ⟨.validation, rfl⟩⟩
  · refine ⟨?_, fun h => absurd h hname⟩
    rintro ⟨e, he⟩
    obtain ⟨pairs, -, hok⟩ := RNibWriter.exists_updateGnbCells_eq hname hcells
    rw [hok] at he
    cases he

end Run

/-! ### Between the two writes -/

namespace UpdateGnbRequestHandler

variable {request : UpdateGnbRequest} {cs : List StoreOutcome} {s s' : Sdl} {nb : NodebInfo}
  {gnb : Gnb}

/-- The handler of a valid request for a stored gNB removes the keys of its cells,
and then cannot write: the store fails, or the record has no name. -/
structure Interrupted (request : UpdateGnbRequest) (cs : List StoreOutcome) (s : Sdl)
    (nb : NodebInfo) (gnb : Gnb) : Prop where
  valid : validateRequestBody request = .ok ()
  answered : outcome cs 0 = .ok
  stored : RNibReader.getNodeb request.ranName s = .ok nb
  gnb : nb.getGnb = some gnb
  removed : outcome cs 1 = .ok
  refused : outcome cs 2 = .fails ∨ nb.ranName = ""

/-- The update is interrupted, and one of the keys that were removed was stored. -/
def Torn (request : UpdateGnbRequest) (cs : List StoreOutcome) (s : Sdl) : Prop :=
  ∃ nb gnb, Interrupted request cs s nb gnb ∧
    ∃ k ∈ RNibWriter.buildCellKeysToRemove nb.ranName gnb.servedNrCells, s.value k ≠ none

/-- The write of the new cells, and the answer of the handler after it. -/
def writeNewCells (nb : NodebInfo) (servedNrCells : List ServedNRCell) :
    Program gnbStore (Except Err NodebInfo) := do
  match ← GnbStore.updateGnbCells nb servedNrCells with
  | .error _ => return .error .rnibDb
  | .ok () => return .ok nb

/-- The write answers with the record, or leaves the store alone. -/
theorem run_writeNewCells (hcs : ∀ n, outcome cs n ≠ .failsAfterEffect) {cells : List ServedNRCell}
    (hcells : ∀ cell ∈ cells, cell.cellId ≠ "") (nb : NodebInfo) :
    (∃ s', (writeNewCells nb cells).run GnbStoreCall.exec cs s = (some (.ok nb), s') ∧
        ¬ (outcome cs 0 = .fails ∨ nb.ranName = "")) ∨
      (writeNewCells nb cells).run GnbStoreCall.exec cs s = (some (.error .rnibDb), s) ∧
        (outcome cs 0 = .fails ∨ nb.ranName = "") := by
  have hwrite := storeWrite_cases (s := s) (c := { store := outcome cs 0 })
    (w := RNibWriter.updateGnbCells nb cells) (hcs 0)
  have hrefused := RNibWriter.updateGnbCells_eq_error (s := s) nb hcells
  unfold writeNewCells
  rw [GnbStore.run_updateGnbCells]
  rcases hwrite with ⟨s', hok, hc, heq⟩ | ⟨hfail, e, heq⟩
  · rw [heq]
    refine .inl ⟨s', rfl, ?_⟩
    rintro (h | h)
    · rw [show outcome cs 0 = .ok from hc] at h
      cases h
    · obtain ⟨e, he⟩ := hrefused.2 h
      rw [hok] at he
      cases he
  · rw [heq]
    exact .inr ⟨rfl, hfail.imp id hrefused.1⟩

/-- The removal of the old cells' keys; where there are none, it is no call. -/
def removeOldCells (nb : NodebInfo) (gnb : Gnb) : Program gnbStore (Except Err Unit) :=
  if gnb.servedNrCells.isEmpty then pure (.ok ())
  else GnbStore.removeServedNrCells nb.ranName gnb.servedNrCells

/-- `updateGnbCells` on a gNB is the removal and then the write. -/
theorem updateGnbCells_eq (hgnb : nb.getGnb = some gnb) :
    updateGnbCells nb request = (do
      match ← removeOldCells nb gnb with
      | .error _ => return .error .rnibDb
      | .ok () =>
          writeNewCells (GnbCall.withCells nb gnb request.gnb.servedNrCells)
            request.gnb.servedNrCells) := by
  unfold updateGnbCells removeOldCells
  rw [hgnb]
  dsimp only
  by_cases hcells : gnb.servedNrCells.isEmpty
  · rw [if_pos hcells, if_pos hcells]
    rfl
  · rw [if_neg hcells, if_neg hcells]
    rfl

/-- The removal answers nil with the old keys gone, or fails and leaves the store
alone. -/
theorem run_removeOldCells (hcs : ∀ n, outcome cs n ≠ .failsAfterEffect)
    (f : Except Err Unit → Program gnbStore (Except Err NodebInfo)) :
    (∃ ds, (removeOldCells nb gnb >>= f).run GnbStoreCall.exec cs s =
        (f (.ok ())).run GnbStoreCall.exec ds
          (s.remove (RNibWriter.buildCellKeysToRemove nb.ranName gnb.servedNrCells)) ∧
        (gnb.servedNrCells ≠ [] → outcome cs 0 = .ok ∧ ds = cs.tail) ∧
        ∀ n, outcome ds n ≠ .failsAfterEffect) ∨
      outcome cs 0 ≠ .ok ∧ ∃ e ds, (removeOldCells nb gnb >>= f).run GnbStoreCall.exec cs s =
        (f (.error e)).run GnbStoreCall.exec ds s := by
  unfold removeOldCells
  by_cases hcells : gnb.servedNrCells = []
  · refine .inl ⟨cs, ?_, fun h => absurd hcells h, hcs⟩
    rw [hcells, Sdl.remove_of_absent (by simp [RNibWriter.buildCellKeysToRemove])]
    rfl
  · have hne : ¬ gnb.servedNrCells.isEmpty := by simpa using hcells
    rw [if_neg hne, GnbStore.run_removeServedNrCells]
    rcases storeWrite_cases (s := s) (c := { store := outcome cs 0 })
      (w := RNibWriter.removeServedNrCells nb.ranName gnb.servedNrCells) (hcs 0) with
      ⟨s', hok, hc, heq⟩ | ⟨hfail, e, heq⟩
    · obtain rfl := Except.ok.inj hok
      rw [heq]
      exact .inl ⟨cs.tail, rfl, fun _ => ⟨hc, rfl⟩, fun n => hcs (n + 1)⟩
    · rw [heq]
      refine .inr ⟨?_, e, cs.tail, rfl⟩
      rcases hfail with hfail | ⟨e', he'⟩
      · rw [show outcome cs 0 = .fails from hfail]
        nofun
      · cases he'

/-- **What the handler leaves behind an error:** the store as it was, or, where it
is interrupted, the store without the keys of the old cells. -/
theorem store_of_error (hcs : ∀ n, outcome cs n ≠ .failsAfterEffect) {e : Err}
    (h : (handle request).run GnbStoreCall.exec cs s = (some (.error e), s')) :
    s' = s ∨ ∃ nb gnb, Interrupted request cs s nb gnb ∧
      s' = s.remove (RNibWriter.buildCellKeysToRemove nb.ranName gnb.servedNrCells) := by
  unfold handle at h
  cases hvalid : validateRequestBody request with
  | error e' =>
      rw [hvalid] at h
      exact .inl (Prod.mk.inj h).2.symm
  | ok u =>
      rw [hvalid] at h
      dsimp only at h
      rw [GnbStore.run_getNodeb] at h
      split at h
      · exact .inl (Prod.mk.inj h).2.symm
      · exact .inl (Prod.mk.inj h).2.symm
      · rename_i nb hread
        obtain ⟨hanswered, hstored⟩ := storeRead_eq_ok.1 hread
        cases hgnb : nb.getGnb with
        | none =>
            unfold updateGnbCells at h
            rw [hgnb] at h
            exact .inl (Prod.mk.inj h).2.symm
        | some gnb =>
            rw [updateGnbCells_eq hgnb] at h
            rcases run_removeOldCells (fun n => hcs (n + 1)) _ with
              ⟨ds, hrun, hds, hcs'⟩ | ⟨-, e', ds, hrun⟩
            · rw [hrun] at h
              rcases run_writeNewCells hcs' (validateRequestBody_ok hvalid).2 _ with
                ⟨s'', hwrite, -⟩ | ⟨hwrite, hrefused⟩
              · rw [hwrite] at h
                cases h
              · rw [hwrite] at h
                obtain rfl := (Prod.mk.inj h).2
                by_cases hcells : gnb.servedNrCells = []
                · rw [hcells]
                  exact .inl (Sdl.remove_of_absent (by simp [RNibWriter.buildCellKeysToRemove]))
                · obtain ⟨hremoved, rfl⟩ := hds hcells
                  exact .inr ⟨nb, gnb, ⟨hvalid, hanswered, hstored, hgnb, hremoved, hrefused⟩, rfl⟩
            · rw [hrun] at h
              exact .inl (Prod.mk.inj h).2.symm

/-- An interrupted handler returns an error and leaves the store without the keys of
the old cells. -/
theorem run_of_interrupted (hcs : ∀ n, outcome cs n ≠ .failsAfterEffect)
    (h : Interrupted request cs s nb gnb) (hcells : gnb.servedNrCells ≠ []) :
    (handle request).run GnbStoreCall.exec cs s = (some (.error .rnibDb),
      s.remove (RNibWriter.buildCellKeysToRemove nb.ranName gnb.servedNrCells)) := by
  have hread : (storeRead (RNibReader.getNodeb request.ranName) { store := outcome cs 0 } s).1 =
      .ok nb := storeRead_eq_ok.2 ⟨h.answered, h.stored⟩
  unfold handle
  rw [h.valid]
  dsimp only
  rw [GnbStore.run_getNodeb, hread]
  dsimp only
  rw [updateGnbCells_eq h.gnb]
  rcases run_removeOldCells (fun n => hcs (n + 1)) _ with ⟨ds, hrun, hds, hcs'⟩ | ⟨hfail, -⟩
  · obtain ⟨-, rfl⟩ := hds hcells
    rw [hrun]
    have hwrite := run_writeNewCells
      (s := s.remove (RNibWriter.buildCellKeysToRemove nb.ranName gnb.servedNrCells)) hcs'
      (validateRequestBody_ok h.valid).2 (GnbCall.withCells nb gnb request.gnb.servedNrCells)
    rcases hwrite with ⟨s'', -, hwritten⟩ | ⟨hwrite, -⟩
    · exact absurd h.refused hwritten
    · exact hwrite
  · exact absurd h.removed hfail

/-- **A failed update is undone, but for one interruption.**  For every store,
request and pattern of failures without effect: the record and all keys of cells are
as they were after every error the handler returns, exactly where it does not fail
between the removal of stored keys and the write. -/
theorem sameCells_iff (hcs : ∀ c ∈ cs, c ≠ .failsAfterEffect) :
    (∀ e s', (handle request).run GnbStoreCall.exec cs s = (some (.error e), s') →
      SameCells request.ranName s s') ↔ ¬ Torn request cs s := by
  have hcs := fun n => outcome_of_forall hcs (show StoreOutcome.ok ≠ _ from nofun) n
  constructor
  · rintro h ⟨nb, gnb, hint, k, hk, hstored⟩
    have hcells : gnb.servedNrCells ≠ [] := by
      intro hnil
      rw [hnil] at hk
      cases hk
    exact hstored ((h _ _ (run_of_interrupted hcs hint hcells)).absent_of_remove k hk)
  · intro h e s' hrun
    rcases store_of_error hcs hrun with rfl | ⟨nb, gnb, hint, rfl⟩
    · exact .refl _ _
    · have habsent : ∀ k ∈ RNibWriter.buildCellKeysToRemove nb.ranName gnb.servedNrCells,
          s.value k = none := fun k hk => not_not.1 fun hk' => h ⟨nb, gnb, hint, k, hk, hk'⟩
      rw [Sdl.remove_of_absent habsent]
      exact .refl _ _

/-! ### A gNB with one cell -/

/-- The store of a gNB with one cell. -/
def oneCell : Sdl :=
  GnbCall.run "gnb1" Sdl.empty
    [.saveNodeb (some ⟨"02f829", "b5c6"⟩) { ranName := "gnb1", nodeType := .GNB }
      (some { servedNrCells := [⟨"02f829:0001", 5, .FDD, none, [], []⟩] })]

/-- A request that replaces it by another cell. -/
def otherCell : UpdateGnbRequest where
  ranName := "gnb1"
  gnb := { servedNrCells := [⟨"02f829:0002", 6, .FDD, some { fdd := some "" }, ["02f829"], []⟩] }

/-- Where the write finds the store out of reach, nothing is lost if the removal
found it so before. -/
theorem sameCells_iff_otherCell :
    (∀ e s', (handle otherCell).run GnbStoreCall.exec [.ok, .fails] oneCell =
      (some (.error e), s') → SameCells "gnb1" oneCell s') ↔
        ¬ Torn otherCell [.ok, .fails] oneCell :=
  sameCells_iff (by decide)

/-- **The store fails between the two writes:** the record has its cell, and the
keys of the cell are gone. -/
theorem not_sameCells :
    ¬ ∀ e s', (handle otherCell).run GnbStoreCall.exec [.ok, .ok, .fails] oneCell =
      (some (.error e), s') → SameCells "gnb1" oneCell s' := by
  intro h
  have hkey := (h .rnibDb _ rfl).nrCellId "02f829:0001"
  revert hkey
  decide +kernel

end UpdateGnbRequestHandler

end NearRtRic.E2Manager
