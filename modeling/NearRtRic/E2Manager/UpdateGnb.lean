/-
# The request that replaces the cells of a gNB

`UpdateGnbRequestHandler` checks the cells it is given, takes the index keys of the
gNB's old cells out of the store (`RemoveServedNrCells`) and writes the record with
the new ones and their keys (`UpdateGnbCells`).  It is a program over `gnbStore`, the
three calls it makes of `RNibDataService`.
-/

import NearRtRic.E2Manager.Interface

namespace NearRtRic.E2Manager

open Effect

namespace RNibWriter

/-- `buildCellKeysToRemove`: a key that cannot be built is left out. -/
def buildCellKeysToRemove (inventoryName : String) (servedNrCellsToRemove : List ServedNRCell) :
    List Key :=
  servedNrCellsToRemove.flatMap fun cell =>
    [Key.nrCellId cell.cellId, .cellNamePci inventoryName cell.nrPci].filter (·.Valid)

/-- `rNibWriter.RemoveServedNrCells`. -/
def removeServedNrCells (inventoryName : String) (servedNrCells : List ServedNRCell) (s : Sdl) :
    Except Err Sdl :=
  .ok (s.remove (buildCellKeysToRemove inventoryName servedNrCells))

/-- `rNibWriter.UpdateGnbCells`. -/
def updateGnbCells (nodebInfo : NodebInfo) (servedNrCells : List ServedNRCell) (s : Sdl) :
    Except Err Sdl := do
  let pairs ← buildUpdateNodebInfoPairs nodebInfo
  let pairs ← appendGnbCells nodebInfo.ranName servedNrCells pairs
  return s.set pairs

end RNibWriter

/-- The calls of `RNibDataService` that the handler makes. -/
inductive GnbStoreCall
  | getNodeb (ranName : String)
  | removeServedNrCells (inventoryName : String) (servedNrCells : List ServedNRCell)
  | updateGnbCells (nodebInfo : NodebInfo) (servedNrCells : List ServedNRCell)
  deriving DecidableEq, Repr

abbrev GnbStoreCall.Answer : GnbStoreCall → Type
  | getNodeb _ => Except Err NodebInfo
  | removeServedNrCells _ _ | updateGnbCells _ _ => Except Err Unit

abbrev gnbStore : Interface where
  Op := GnbStoreCall
  Ans := GnbStoreCall.Answer

/-- The meaning of the calls; `c` says what becomes of each. -/
def GnbStoreCall.exec : (o : GnbStoreCall) → StoreOutcome → Sdl → o.Answer × Sdl
  | .getNodeb r, c, s => storeRead (RNibReader.getNodeb r) { store := c } s
  | .removeServedNrCells n cells, c, s =>
      storeWrite (RNibWriter.removeServedNrCells n cells) { store := c } s
  | .updateGnbCells nb cells, c, s =>
      storeWrite (RNibWriter.updateGnbCells nb cells) { store := c } s

instance : Inhabited StoreOutcome := ⟨.ok⟩

namespace GnbStore

def getNodeb (ranName : String) : Program gnbStore (Except Err NodebInfo) :=
  @Program.perform gnbStore (.getNodeb ranName)

def removeServedNrCells (inventoryName : String) (servedNrCells : List ServedNRCell) :
    Program gnbStore (Except Err Unit) :=
  @Program.perform gnbStore (.removeServedNrCells inventoryName servedNrCells)

def updateGnbCells (nodebInfo : NodebInfo) (servedNrCells : List ServedNRCell) :
    Program gnbStore (Except Err Unit) :=
  @Program.perform gnbStore (.updateGnbCells nodebInfo servedNrCells)

open Program

variable {β : Type} {cs : List StoreOutcome} {s : Sdl}

/-- The run goes on with what the read of the record answers. -/
@[simp] theorem run_getNodeb (r : String) (f : Except Err NodebInfo → Program gnbStore β) :
    (getNodeb r >>= f).run GnbStoreCall.exec cs s =
      (f (storeRead (RNibReader.getNodeb r) { store := outcome cs 0 } s).1).run
        GnbStoreCall.exec cs.tail s := by
  have hrun : (getNodeb r >>= f).run GnbStoreCall.exec cs s =
      (f (storeRead (RNibReader.getNodeb r) { store := outcome cs 0 } s).1).run
        GnbStoreCall.exec cs.tail
          (storeRead (RNibReader.getNodeb r) { store := outcome cs 0 } s).2 := rfl
  rw [hrun, storeRead_snd]

/-- The run goes on from the store that the removal of the old cells left. -/
@[simp] theorem run_removeServedNrCells (n : String) (cells : List ServedNRCell)
    (f : Except Err Unit → Program gnbStore β) :
    (removeServedNrCells n cells >>= f).run GnbStoreCall.exec cs s =
      (f (storeWrite (RNibWriter.removeServedNrCells n cells) { store := outcome cs 0 } s).1).run
        GnbStoreCall.exec cs.tail
          (storeWrite (RNibWriter.removeServedNrCells n cells) { store := outcome cs 0 } s).2 :=
  rfl

/-- The run goes on from the store that the write of the new cells left. -/
@[simp] theorem run_updateGnbCells (nb : NodebInfo) (cells : List ServedNRCell)
    (f : Except Err Unit → Program gnbStore β) :
    (updateGnbCells nb cells >>= f).run GnbStoreCall.exec cs s =
      (f (storeWrite (RNibWriter.updateGnbCells nb cells) { store := outcome cs 0 } s).1).run
        GnbStoreCall.exec cs.tail
          (storeWrite (RNibWriter.updateGnbCells nb cells) { store := outcome cs 0 } s).2 :=
  rfl

end GnbStore

/-- `models.UpdateGnbRequest`: the name in the path, the gNB in the body. -/
structure UpdateGnbRequest where
  ranName : String
  gnb : Gnb
  deriving DecidableEq, Repr

namespace UpdateGnbRequestHandler

/-- `isServedNrCellInfoChoiceNrModeValid`, `isNrNeighbourInfoChoiceNrModeValid`. -/
def isChoiceNrModeValid (name : String) (choiceNrMode : ChoiceNRMode) : Except Err Unit :=
  if choiceNrMode.fdd.isSome then .ok ()
  else if choiceNrMode.tdd.isSome then .ok ()
  else .error (.text name)

/-- `isServedNrCellInformationValid`. -/
def isServedNrCellInformationValid (cell : ServedNRCell) : Except Err Unit :=
  if cell.cellId = "" then .error (.text "cellId")
  else match cell.choiceNrMode with
    | none => .error (.text "choiceNrMode")
    | some choiceNrMode =>
        if cell.nrMode = .UNKNOWN then .error (.text "nrMode")
        else if cell.nrPci = 0 then .error (.text "nrPci")
        else if cell.servedPlmns.isEmpty then .error (.text "servedPlmns")
        else isChoiceNrModeValid "served nr cell fdd / tdd" choiceNrMode

/-- `isNrNeighbourInformationValid`. -/
def isNrNeighbourInformationValid (neighbour : NrNeighbourInformation) : Except Err Unit :=
  if neighbour.nrCgi = "" then .error (.text "nrCgi")
  else match neighbour.choiceNrMode with
    | none => .error (.text "choiceNrMode")
    | some choiceNrMode =>
        if neighbour.nrMode = .UNKNOWN then .error (.text "nrMode")
        else if neighbour.nrPci = 0 then .error (.text "nrPci")
        else isChoiceNrModeValid "nr neighbour fdd / tdd" choiceNrMode

/-- `validateRequestBody`: every failed check is the one error. -/
def validateRequestBody (request : UpdateGnbRequest) : Except Err Unit :=
  if request.gnb.servedNrCells.isEmpty then .error .requestValidation
  else
    let check : Except Err Unit := request.gnb.servedNrCells.forM fun cell => do
      isServedNrCellInformationValid cell
      cell.nrNeighbourInfos.forM isNrNeighbourInformationValid
    check.mapError fun _ => .requestValidation

/-- `updateGnbCells`; the record that the response shows. -/
def updateGnbCells (nodebInfo : NodebInfo) (request : UpdateGnbRequest) :
    Program gnbStore (Except Err NodebInfo) :=
  match nodebInfo.getGnb with
  | none => return .error .internalError
  | some gnb => do
      let removed ←
        if gnb.servedNrCells.isEmpty then pure (.ok ())
        else GnbStore.removeServedNrCells nodebInfo.ranName gnb.servedNrCells
      match removed with
      | .error _ => return .error .rnibDb
      | .ok () =>
          let gnb := { gnb with servedNrCells := request.gnb.servedNrCells }
          let nodebInfo := { nodebInfo with configuration := some (.gnb gnb) }
          match ← GnbStore.updateGnbCells nodebInfo request.gnb.servedNrCells with
          | .error _ => return .error .rnibDb
          | .ok () => return .ok nodebInfo

/-- `Handle`. -/
def handle (request : UpdateGnbRequest) : Program gnbStore (Except Err NodebInfo) :=
  match validateRequestBody request with
  | .error err => return .error err
  | .ok () => do
      match ← GnbStore.getNodeb request.ranName with
      | .error .resourceNotFound => return .error .ranNotFound
      | .error _ => return .error .rnibDb
      | .ok nodebInfo => updateGnbCells nodebInfo request

/-- A loop of checks that succeeds has checked every element. -/
theorem forM_ok {α : Type} {f : α → Except Err Unit} {l : List α} (h : l.forM f = .ok ()) :
    ∀ a ∈ l, f a = .ok () := by
  induction l with
  | nil => exact List.forall_mem_nil _
  | cons a l ih =>
      have h : (f a >>= fun _ => l.forM f) = .ok () := h
      obtain ⟨⟨⟩, ha, hl⟩ := except_bind_eq_ok.1 h
      exact List.forall_mem_cons.2 ⟨ha, ih hl⟩

/-- **A request that is accepted has cells, and each of them can be indexed.** -/
theorem validateRequestBody_ok {request : UpdateGnbRequest}
    (h : validateRequestBody request = .ok ()) :
    request.gnb.servedNrCells ≠ [] ∧ ∀ cell ∈ request.gnb.servedNrCells, cell.cellId ≠ "" := by
  unfold validateRequestBody at h
  split at h
  · cases h
  · rename_i hne
    refine ⟨by simpa using hne, fun cell hcell => ?_⟩
    have hall : request.gnb.servedNrCells.forM (fun cell => do
        isServedNrCellInformationValid cell
        cell.nrNeighbourInfos.forM isNrNeighbourInformationValid) = .ok () := by
      revert h
      cases request.gnb.servedNrCells.forM (fun cell => do
        isServedNrCellInformationValid cell
        cell.nrNeighbourInfos.forM isNrNeighbourInformationValid) with
      | ok u => exact fun _ => rfl
      | error e => exact nofun
    obtain ⟨⟨⟩, hinfo, -⟩ := except_bind_eq_ok.1 (forM_ok hall cell hcell)
    unfold isServedNrCellInformationValid at hinfo
    split at hinfo
    · cases hinfo
    · assumption

end UpdateGnbRequestHandler

end NearRtRic.E2Manager
