import PistormAtari.Foundation.BlockMemory

/-!
# An open regular file

A file is a size and its bytes, zero from the size on; an open file adds the
position `read` and `write` start at.
-/

namespace PistormAtari
namespace Foundation

@[ext]
structure OpenFile (α : Type _) [Zero α] where
  size : Nat
  byte : Nat -> α
  pos : Nat
  zero_beyond : forall i, size ≤ i -> byte i = 0

namespace OpenFile

variable {α : Type _} [Zero α]

def zeros (size : Nat) : OpenFile α where
  size := size
  byte := fun _ => 0
  pos := 0
  zero_beyond := fun _ _ => rfl

def seek (f : OpenFile α) (off : Nat) : OpenFile α :=
  { f with pos := off }

/-- The cells `read` returns for a count: fewer at the end of the file. -/
def readable (f : OpenFile α) (n : Nat) : List α :=
  readBlock f.byte f.pos (min n (f.size - f.pos))

/-- The file after `read` has moved past the cells it returned. -/
def advance (f : OpenFile α) (n : Nat) : OpenFile α :=
  { f with pos := f.pos + min n (f.size - f.pos) }

def write (f : OpenFile α) (cells : List α) : OpenFile α where
  size := if cells = [] then f.size else max f.size (f.pos + cells.length)
  byte := writeBlock f.byte f.pos cells
  pos := f.pos + cells.length
  zero_beyond := by
    intro i hi
    have hbound : f.size ≤ i ∧ (cells = [] ∨ f.pos + cells.length ≤ i) := by
      split at hi
      · exact ⟨hi, Or.inl ‹_›⟩
      · exact ⟨Nat.le_trans (Nat.le_max_left _ _) hi,
          Or.inr (Nat.le_trans (Nat.le_max_right _ _) hi)⟩
    rcases hbound with ⟨hsize, hnil | hend⟩
    · rw [hnil, writeBlock_nil]
      exact f.zero_beyond i hsize
    · rw [writeBlock_of_outside (Or.inr hend)]
      exact f.zero_beyond i hsize

variable (f : OpenFile α)

@[simp] theorem seek_size (off : Nat) : (f.seek off).size = f.size := rfl
@[simp] theorem seek_byte (off : Nat) : (f.seek off).byte = f.byte := rfl
@[simp] theorem seek_pos (off : Nat) : (f.seek off).pos = off := rfl
@[simp] theorem advance_size (n : Nat) : (f.advance n).size = f.size := rfl
@[simp] theorem advance_byte (n : Nat) : (f.advance n).byte = f.byte := rfl

theorem length_readable (n : Nat) :
    (f.readable n).length = min n (f.size - f.pos) :=
  length_readBlock _ _ _

theorem readable_of_inside {f : OpenFile α} {n : Nat} (h : f.pos + n ≤ f.size) :
    f.readable n = readBlock f.byte f.pos n := by
  unfold readable
  rw [Nat.min_eq_left (Nat.le_sub_of_add_le' h)]

theorem advance_pos_of_inside {f : OpenFile α} {n : Nat} (h : f.pos + n ≤ f.size) :
    (f.advance n).pos = f.pos + n := by
  unfold advance
  rw [Nat.min_eq_left (Nat.le_sub_of_add_le' h)]

theorem write_size_of_inside {f : OpenFile α} {cells : List α}
    (h : f.pos + cells.length ≤ f.size) : (f.write cells).size = f.size := by
  unfold write
  dsimp only
  split
  · rfl
  · exact Nat.max_eq_left h

theorem size_le_write (cells : List α) : f.size ≤ (f.write cells).size := by
  unfold write
  dsimp only
  split
  · exact le_refl _
  · exact Nat.le_max_left _ _

theorem end_le_write_size {cells : List α} (h : cells ≠ []) :
    f.pos + cells.length ≤ (f.write cells).size := by
  unfold write
  dsimp only
  rw [if_neg h]
  exact Nat.le_max_right _ _

theorem write_write (xs ys : List α) :
    (f.write xs).write ys = f.write (xs ++ ys) := by
  have hbyte : (f.write xs).byte = writeBlock f.byte f.pos xs := rfl
  have hpos : (f.write xs).pos = f.pos + xs.length := rfl
  have hsize : ((f.write xs).write ys).size = (f.write (xs ++ ys)).size := by
    unfold write
    dsimp only
    rw [List.length_append, ← Nat.add_assoc]
    cases xs with
    | nil => simp
    | cons x xs =>
        cases ys with
        | nil => simp
        | cons y ys =>
            simp only [reduceCtorEq, if_false, List.cons_append, List.length_cons]
            lia
  have hcells : ((f.write xs).write ys).byte = (f.write (xs ++ ys)).byte := by
    change writeBlock (f.write xs).byte (f.write xs).pos ys = writeBlock f.byte f.pos (xs ++ ys)
    rw [hbyte, hpos, writeBlock_writeBlock_append]
  have hend : ((f.write xs).write ys).pos = (f.write (xs ++ ys)).pos := by
    change f.pos + xs.length + ys.length = f.pos + (xs ++ ys).length
    rw [List.length_append, Nat.add_assoc]
  exact OpenFile.ext hsize hcells hend

@[simp] theorem write_nil : f.write [] = f := by
  apply OpenFile.ext
  · rfl
  · exact writeBlock_nil f.byte f.pos
  · rfl

end OpenFile

end Foundation
end PistormAtari
