import Mathlib

/-!
# Blocks of a flat memory

A memory is a function on natural addresses.  A block is a list of cells laid
out from a base address; the lemmas say how reads and writes of blocks compose.
-/

namespace PistormAtari
namespace Foundation

variable {α : Type _}

def readBlock (m : Nat -> α) (a n : Nat) : List α :=
  (List.range n).map fun i => m (a + i)

/-- The memory with a block laid down from address `a` on. -/
def writeBlock (m : Nat -> α) (a : Nat) (bs : List α) : Nat -> α :=
  fun x => if a ≤ x then bs.getD (x - a) (m x) else m x

variable (m : Nat -> α)

@[simp] theorem length_readBlock (a n : Nat) :
    (readBlock m a n).length = n := by
  simp [readBlock]

theorem readBlock_append (a n k : Nat) :
    readBlock m a (n + k) = readBlock m a n ++ readBlock m (a + n) k := by
  unfold readBlock
  rw [List.range_add, List.map_append, List.map_map]
  congr 1
  apply List.map_congr_left
  intro i _
  simp [Nat.add_assoc]

theorem readBlock_congr {m m' : Nat -> α} {a n : Nat}
    (h : forall x, a ≤ x -> x < a + n -> m x = m' x) :
    readBlock m a n = readBlock m' a n := by
  apply List.map_congr_left
  intro i hi
  have hlt : i < n := List.mem_range.mp hi
  exact h (a + i) (by lia) (by lia)

theorem readBlock_part (a : Nat) {k n total : Nat} (h : k + n ≤ total) :
    readBlock m (a + k) n = ((readBlock m a total).drop k).take n := by
  have hsplit : total = k + (n + (total - (k + n))) := by lia
  rw [hsplit, readBlock_append, readBlock_append]
  rw [List.drop_left' (length_readBlock m a k), List.take_left' (length_readBlock m (a + k) n)]

@[simp] theorem writeBlock_nil (a : Nat) : writeBlock m a [] = m := by
  funext x
  simp [writeBlock]

theorem writeBlock_of_outside {m : Nat -> α} {a x : Nat} {bs : List α}
    (h : x < a ∨ a + bs.length ≤ x) : writeBlock m a bs x = m x := by
  unfold writeBlock
  split
  · rw [List.getD_eq_default]
    lia
  · rfl

theorem writeBlock_of_inside {m : Nat -> α} {a i : Nat} {bs : List α}
    (h : i < bs.length) : writeBlock m a bs (a + i) = bs[i] := by
  unfold writeBlock
  rw [if_pos (by lia), Nat.add_sub_cancel_left, List.getD_eq_getElem _ _ h]

theorem readBlock_writeBlock_self (a : Nat) (bs : List α) :
    readBlock (writeBlock m a bs) a bs.length = bs := by
  apply List.ext_getElem
  · simp
  · intro i _ hi
    simpa [readBlock] using writeBlock_of_inside (m := m) (a := a) hi

theorem readBlock_writeBlock_of_disjoint {m : Nat -> α} {a b n : Nat} {bs : List α}
    (h : b + n ≤ a ∨ a + bs.length ≤ b) :
    readBlock (writeBlock m a bs) b n = readBlock m b n := by
  apply readBlock_congr
  intro x hlo hhi
  apply writeBlock_of_outside
  rcases h with h | h
  · left
    lia
  · right
    lia

theorem writeBlock_writeBlock_append (a : Nat) (xs ys : List α) :
    writeBlock (writeBlock m a xs) (a + xs.length) ys = writeBlock m a (xs ++ ys) := by
  funext x
  rcases Nat.lt_or_ge x (a + xs.length) with h | h
  · rw [writeBlock_of_outside (Or.inl h)]
    unfold writeBlock
    split
    · rw [List.getD_append _ _ _ _ (by lia)]
    · rfl
  · unfold writeBlock
    rw [if_pos h, if_pos (by lia), if_pos (by lia),
      List.getD_append_right _ _ _ _ (by lia), List.getD_eq_default xs _ (by lia)]
    congr 1
    lia

end Foundation
end PistormAtari
