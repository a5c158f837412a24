/-
# Stores through a moving pointer

A function that fills a buffer through a pointer stores a byte and moves on (`*pos++ = b`),
or stores without moving, or steps back.  A `Cursor` is where the pointer is, as an offset
from the start of the buffer, and every store that was made, so that it can be said of a
function which places it wrote (`Within`) and what the buffer holds afterwards (`apply`).

A pointer that only moved forward is described by the bytes it passed (`passed`).

Nothing here names the repository.
-/

import NearRtRic.CString.Basic
import Mathlib.Data.List.Induction

namespace NearRtRic.CString

/-- The offset of a pointer into a buffer, and the stores made so far, in order. -/
structure Cursor where
  pos : Nat := 0
  writes : List (Nat × UInt8) := []
  deriving DecidableEq, Repr

namespace Cursor

variable {c : Cursor} {bytes dst : Bytes} {b : UInt8} {n : Nat}

/-- `*pos = b`. -/
def poke (c : Cursor) (b : UInt8) : Cursor := { c with writes := c.writes ++ [(c.pos, b)] }

/-- `*pos++ = b`. -/
def put (c : Cursor) (b : UInt8) : Cursor := { c.poke b with pos := c.pos + 1 }

/-- `pos -= n`. -/
def back (c : Cursor) (n : Nat) : Cursor := { c with pos := c.pos - n }

/-- Every store was at one of the first `len` places. -/
def Within (c : Cursor) (len : Int) : Prop := ∀ w ∈ c.writes, (w.1 : Int) < len

/-- The buffer after the stores. -/
def apply (c : Cursor) (dst : Bytes) : Bytes := c.writes.foldl (fun m w => m.set w.1 w.2) dst

/-- The pointer after it moved forward over these bytes. -/
def passed (bytes : Bytes) : Cursor where
  pos := bytes.length
  writes := bytes.zipIdx.map fun x => (x.2, x.1)

/-- Nothing was passed. -/
theorem passed_nil : passed [] = {} := rfl

/-- The position is behind what was passed. -/
@[simp]
theorem pos_passed (bytes : Bytes) : (passed bytes).pos = bytes.length := rfl

/-- One more byte is passed. -/
@[simp]
theorem put_passed (bytes : Bytes) (b : UInt8) : (passed bytes).put b = passed (bytes ++ [b]) := by
  unfold put poke passed
  rw [List.zipIdx_append, List.map_append, List.length_append]
  simp

/-- A byte that is written in place is the next in the buffer. -/
theorem writes_poke_passed (bytes : Bytes) (b : UInt8) :
    ((passed bytes).poke b).writes = (passed (bytes ++ [b])).writes := by
  show ((passed bytes).put b).writes = _
  rw [put_passed]

/-- All the places that were passed have to be there. -/
theorem within_passed : (passed bytes).Within (n : Int) ↔ bytes.length ≤ n := by
  unfold Within passed
  constructor
  · intro h
    by_contra hlt
    have hn : n < bytes.length := by omega
    have hmem : (bytes[n], n) ∈ bytes.zipIdx := by
      rw [List.mem_zipIdx_iff_getElem?]
      exact List.getElem?_eq_getElem hn
    have := h _ (List.mem_map_of_mem hmem)
    dsimp only at this
    omega
  · intro h w hw
    obtain ⟨x, hx, rfl⟩ := List.mem_map.1 hw
    have hlt := List.snd_lt_of_mem_zipIdx hx
    dsimp only
    omega

/-- The bytes are at the start of the buffer afterwards, and behind them is what was there. -/
theorem apply_passed (h : bytes.length ≤ dst.length) :
    (passed bytes).apply dst = memcpy bytes dst := by
  induction bytes using List.reverseRecOn generalizing dst with
  | nil => rfl
  | append_singleton bytes b ih =>
      rw [List.length_append, List.length_singleton] at h
      have hlast : (passed (bytes ++ [b])).apply dst =
          ((passed bytes).apply dst).set bytes.length b := by
        rw [← put_passed]
        unfold apply put poke
        rw [List.foldl_append]
        rfl
      rw [hlast, ih (by omega)]
      unfold memcpy
      rw [List.set_append_right _ _ (Nat.le_refl _), Nat.sub_self, List.length_append,
        List.length_singleton, List.append_assoc, List.drop_eq_getElem_cons (by omega)]
      rfl

end Cursor

end NearRtRic.CString
