import Mathlib
import PistormAtari.Foundation.BlockMemory

/-!
# A window of memory shown elsewhere

A second memory shows a window of the first one at an address of its own.  Writes
keep the copy exact when they are made in both, or in neither window; a copy of
another window only has to write the cells that differ.
-/

namespace PistormAtari
namespace Foundation

variable {α : Type _}

/-- The second memory shows the window of `n` cells from `src` on at `base`. -/
def Mirrors (m shown : Nat -> α) (src base n : Nat) : Prop :=
  forall o, o < n -> shown (base + o) = m (src + o)

theorem Mirrors.write_both {m shown : Nat -> α} {src base n : Nat} (h : Mirrors m shown src base n)
    (o : Nat) (bs : List α) :
    Mirrors (writeBlock m (src + o) bs) (writeBlock shown (base + o) bs) src base n := by
  intro i hi
  rcases Nat.lt_or_ge i o with hlt | hge
  · rw [writeBlock_of_outside (Or.inl (by lia)), writeBlock_of_outside (Or.inl (by lia))]
    exact h i hi
  · rcases Nat.lt_or_ge (i - o) bs.length with hin | hout
    · have hshown := writeBlock_of_inside (m := shown) (a := base + o) hin
      have hm := writeBlock_of_inside (m := m) (a := src + o) hin
      rw [show base + o + (i - o) = base + i by lia] at hshown
      rw [show src + o + (i - o) = src + i by lia] at hm
      rw [hshown, hm]
    · rw [writeBlock_of_outside (Or.inr (by lia)), writeBlock_of_outside (Or.inr (by lia))]
      exact h i hi

theorem Mirrors.write_source {m shown : Nat -> α} {src base n a : Nat} {bs : List α}
    (h : Mirrors m shown src base n) (hout : a + bs.length ≤ src ∨ src + n ≤ a) :
    Mirrors (writeBlock m a bs) shown src base n := by
  intro i hi
  rw [writeBlock_of_outside (by lia)]
  exact h i hi

theorem Mirrors.write_shown {m shown : Nat -> α} {src base n a : Nat} {bs : List α}
    (h : Mirrors m shown src base n) (hout : a + bs.length ≤ base ∨ base + n ≤ a) :
    Mirrors m (writeBlock shown a bs) src base n := by
  intro i hi
  rw [writeBlock_of_outside (by lia)]
  exact h i hi

/-- Copy a window in pieces of `size` cells, leaving out those to be kept. -/
def copyPieces (m : Nat -> α) (src base size : Nat) (keep : Nat -> Bool) :
    Nat -> (Nat -> α) -> Nat -> α
  | 0, shown => shown
  | k + 1, shown =>
      let shown := copyPieces m src base size keep k shown
      if keep k then shown
      else writeBlock shown (base + size * k) (readBlock m (src + size * k) size)

theorem copyPieces_outside (m : Nat -> α) (src base size : Nat) (keep : Nat -> Bool) (k : Nat)
    (shown : Nat -> α) {a : Nat} (h : a < base ∨ base + size * k ≤ a) :
    copyPieces m src base size keep k shown a = shown a := by
  induction k with
  | zero => rfl
  | succ k ih =>
      rw [Nat.mul_succ] at h
      have hbefore := ih (by lia)
      unfold copyPieces
      dsimp only
      split
      · exact hbefore
      · rw [writeBlock_of_outside (by rw [length_readBlock]; lia)]
        exact hbefore

/-- Where the pieces left out hold the right cells already, the copy is exact. -/
theorem copyPieces_mirrors (m : Nat -> α) (src base size : Nat) (keep : Nat -> Bool) (k : Nat)
    (shown : Nat -> α)
    (hkeep : forall j, j < k -> keep j = true -> forall i, i < size ->
      shown (base + (size * j + i)) = m (src + (size * j + i))) :
    Mirrors m (copyPieces m src base size keep k shown) src base (size * k) := by
  induction k with
  | zero =>
      intro o ho
      rw [Nat.mul_zero] at ho
      cases ho
  | succ k ih =>
      have hbefore := ih fun j hj => hkeep j (Nat.lt_succ_of_lt hj)
      intro o ho
      rw [Nat.mul_succ] at ho
      unfold copyPieces
      dsimp only
      rcases Nat.lt_or_ge o (size * k) with hlt | hge
      · split
        · exact hbefore o hlt
        · rw [writeBlock_of_outside (Or.inl (by lia))]
          exact hbefore o hlt
      · have hpiece : size * k + (o - size * k) = o := by lia
        split
        · next hk =>
          rw [copyPieces_outside _ _ _ _ _ _ _ (Or.inr (by lia))]
          have hsame := hkeep k (Nat.lt_succ_self k) hk (o - size * k) (by lia)
          rwa [hpiece] at hsame
        · have hin : o - size * k < (readBlock m (src + size * k) size).length := by
            rw [length_readBlock]
            lia
          have hwrite := writeBlock_of_inside
            (m := copyPieces m src base size keep k shown) (a := base + size * k) hin
          rw [show base + size * k + (o - size * k) = base + o by lia] at hwrite
          rw [hwrite]
          simp only [readBlock, List.getElem_map, List.getElem_range]
          congr 1
          lia

/-- The pieces in which two windows of the first memory agree need no copying when
the other one is shown. -/
theorem Mirrors.copy_differing [BEq α] [LawfulBEq α] {m shown : Nat -> α}
    {src prev base size n : Nat} (h : Mirrors m shown prev base (size * n)) :
    Mirrors m
      (copyPieces m src base size
        (fun k => readBlock m (src + size * k) size == readBlock m (prev + size * k) size) n shown)
      src base (size * n) := by
  apply copyPieces_mirrors
  intro j hj hsame i hi
  have hfits : size * j + i < size * n := by
    have hmul := Nat.mul_le_mul_left size (Nat.succ_le_of_lt hj)
    rw [Nat.mul_succ] at hmul
    lia
  rw [h _ hfits]
  have heq := congrArg (fun l => l[i]?) (beq_iff_eq.mp hsame)
  simp only [readBlock, List.getElem?_map, List.getElem?_range hi, Option.map_some,
    Option.some.injEq] at heq
  rw [← Nat.add_assoc, ← Nat.add_assoc]
  exact heq.symm

end Foundation
end PistormAtari
