import Mathlib

/-!
# Cells of a file at an offset

A file as the list of its cells, read and written at an offset.  A read ends at the
end of the file; a write behind the end fills the gap.
-/

namespace PistormAtari
namespace Foundation

variable {α : Type _}

def readCells (file : List α) (off n : Nat) : List α :=
  (file.drop off).take n

/-- `pwrite`: a gap behind the end of the file is filled. -/
def writeCells (fill : α) (file : List α) (off : Nat) (cells : List α) : List α :=
  (file ++ List.replicate (off - file.length) fill).take off ++ cells ++
    file.drop (off + cells.length)

theorem length_readCells (file : List α) (off n : Nat) :
    (readCells file off n).length = min n (file.length - off) := by
  unfold readCells
  rw [List.length_take, List.length_drop]

theorem length_writeCells (fill : α) (file : List α) (off : Nat) (cells : List α) :
    (writeCells fill file off cells).length = max file.length (off + cells.length) := by
  unfold writeCells
  simp only [List.length_append, List.length_take, List.length_drop, List.length_replicate]
  lia

theorem readCells_append (file : List α) (off n k : Nat) :
    readCells file off (n + k) = readCells file off n ++ readCells file (off + n) k := by
  unfold readCells
  rw [List.take_add, List.drop_drop]

theorem length_writeCells_head (fill : α) (file : List α) (off : Nat) :
    ((file ++ List.replicate (off - file.length) fill).take off).length = off := by
  rw [List.length_take, List.length_append, List.length_replicate]
  lia

theorem readCells_writeCells_self (fill : α) (file : List α) (off : Nat) (cells : List α) :
    readCells (writeCells fill file off cells) off cells.length = cells := by
  have hhead := length_writeCells_head fill file off
  unfold readCells writeCells
  rw [List.append_assoc, List.drop_append_of_le_length (by lia), List.drop_of_length_le (by lia),
    List.nil_append, List.take_left]

theorem readCells_writeCells_of_disjoint (fill : α) {file : List α} {off b n : Nat}
    {cells : List α} (hfile : b + n ≤ file.length)
    (h : b + n ≤ off ∨ off + cells.length ≤ b) :
    readCells (writeCells fill file off cells) b n = readCells file b n := by
  have hhead := length_writeCells_head fill file off
  unfold readCells writeCells
  rcases h with hbefore | hbehind
  · rw [List.append_assoc, List.drop_append_of_le_length (by lia), List.take_append_of_le_length
      (by rw [List.length_drop]; lia), List.drop_take, List.take_take,
      List.drop_append_of_le_length (by lia), List.take_append_of_le_length
      (by rw [List.length_drop]; lia)]
    congr 1
    lia
  · have hsplit : b = ((file ++ List.replicate (off - file.length) fill).take off ++
        cells).length + (b - (off + cells.length)) := by
      rw [List.length_append, hhead]
      lia
    have hback : off + cells.length + (b - (off + cells.length)) = b := by lia
    conv_lhs => rw [hsplit]
    rw [List.drop_append, List.drop_of_length_le (Nat.le_add_right _ _), List.nil_append,
      Nat.add_sub_cancel_left, List.drop_drop, hback]

end Foundation
end PistormAtari
