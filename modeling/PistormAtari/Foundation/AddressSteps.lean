import Mathlib

/-!
# Steps of an address

An address is stepped inside a buffer, where it wraps from one end to the other, or with
the carry of the addition running from the high bits down.
-/

namespace PistormAtari
namespace Foundation

/-!
## Wrapping in a buffer
-/

def wrapIn (base size x : Int) : Int := base + (x - base) % size

section
variable {base size x : Int}

theorem wrapIn_mem (hsize : 0 < size) : base ≤ wrapIn base size x ∧ wrapIn base size x < base + size := by
  have hlow := Int.emod_nonneg (x - base) (ne_of_gt hsize)
  have hhigh := Int.emod_lt_of_pos (x - base) hsize
  unfold wrapIn
  constructor <;> lia

theorem wrapIn_congr : wrapIn base size x ≡ x [ZMOD size] := by
  have hmod : (x - base) % size ≡ x - base [ZMOD size] := Int.mod_modEq _ _
  have hsum := hmod.add_left base
  rwa [add_sub_cancel] at hsum

theorem eq_of_congr {y : Int} (hx : base ≤ x ∧ x < base + size) (hy : base ≤ y ∧ y < base + size)
    (h : x ≡ y [ZMOD size]) : x = y := by
  have hshift : (x - base) % size = (y - base) % size := h.sub_right base
  rw [Int.emod_eq_of_lt (by lia) (by lia), Int.emod_eq_of_lt (by lia) (by lia)] at hshift
  lia

theorem wrapIn_of_mem (hx : base ≤ x ∧ x < base + size) : wrapIn base size x = x := by
  have hsize : 0 < size := by lia
  exact eq_of_congr (wrapIn_mem hsize) hx wrapIn_congr

theorem wrapIn_add (hsize : 0 < size) (δ : Int) :
    wrapIn base size (wrapIn base size x + δ) = wrapIn base size (x + δ) := by
  apply eq_of_congr (wrapIn_mem hsize) (wrapIn_mem hsize)
  calc
    wrapIn base size (wrapIn base size x + δ) ≡ wrapIn base size x + δ [ZMOD size] := wrapIn_congr
    _ ≡ x + δ [ZMOD size] := wrapIn_congr.add_right δ
    _ ≡ wrapIn base size (x + δ) [ZMOD size] := wrapIn_congr.symm

theorem wrapIn_back (hx : base ≤ x ∧ x < base + size) (δ : Int) :
    wrapIn base size (wrapIn base size (x + δ) + -δ) = x := by
  have hsize : 0 < size := by lia
  rw [wrapIn_add hsize, Int.add_neg_cancel_right, wrapIn_of_mem hx]

theorem wrapIn_iterate (hx : base ≤ x ∧ x < base + size) (i : Nat) :
    (fun y => wrapIn base size (y + 1))^[i] x = wrapIn base size (x + i) := by
  have hsize : 0 < size := by lia
  induction i with
  | zero =>
      rw [Function.iterate_zero, Int.natCast_zero, Int.add_zero, wrapIn_of_mem hx]
      rfl
  | succ i ih =>
      rw [Function.iterate_succ_apply', ih, wrapIn_add hsize, Int.natCast_succ, Int.add_assoc]

theorem wrapIn_visits {n : Nat} (hx : base ≤ x ∧ x < base + n) {y : Int}
    (hy : base ≤ y ∧ y < base + n) : ∃! i, i < n ∧ wrapIn base n (x + i) = y := by
  have hsize : (0 : Int) < n := by lia
  have hlow := Int.emod_nonneg (y - x) (ne_of_gt hsize)
  have hhigh := Int.emod_lt_of_pos (y - x) hsize
  refine ⟨((y - x) % n).toNat, ⟨by lia, ?_⟩, ?_⟩
  · apply eq_of_congr (wrapIn_mem hsize) hy
    apply wrapIn_congr.trans
    rw [Int.toNat_of_nonneg hlow]
    have hmod : (y - x) % n ≡ y - x [ZMOD n] := Int.mod_modEq _ _
    have hsum := hmod.add_left x
    rwa [add_sub_cancel] at hsum
  · rintro i ⟨hi, hiy⟩
    have hcongr : x + i ≡ y [ZMOD n] := hiy ▸ wrapIn_congr.symm
    have hdiff : (i : Int) % n = (y - x) % n := by
      have hsub := hcongr.sub_right x
      rwa [add_sub_cancel_left] at hsub
    rw [← hdiff, Int.emod_eq_of_lt (by lia) (by lia)]
    rfl

theorem wrapIn_return {n : Nat} (hx : base ≤ x ∧ x < base + n) : wrapIn base n (x + n) = x := by
  have hsize : (0 : Int) < n := by lia
  apply eq_of_congr (wrapIn_mem hsize) hx
  apply wrapIn_congr.trans
  exact Int.add_modEq_right

end

/-!
## Addition with the carry running down
-/

section
variable {w : Nat}

def reversedAdd (x y : BitVec w) : BitVec w := (x.reverse + y.reverse).reverse

theorem reversedAdd_iterate (x y : BitVec w) (i : Nat) :
    (fun z => reversedAdd z y)^[i] x = (x.reverse + BitVec.ofNat w i * y.reverse).reverse := by
  induction i with
  | zero =>
      rw [Function.iterate_zero, BitVec.zero_mul, BitVec.add_zero, BitVec.reverse_reverse_eq]
      rfl
  | succ i ih =>
      rw [Function.iterate_succ_apply', ih]
      unfold reversedAdd
      rw [BitVec.reverse_reverse_eq, BitVec.ofNat_add, BitVec.add_mul, BitVec.add_assoc]
      congr 2
      rw [BitVec.one_mul]

theorem reverse_twoPow {k : Nat} (hk : k < w) :
    (BitVec.twoPow w k).reverse = BitVec.twoPow w (w - 1 - k) := by
  apply BitVec.eq_of_getLsbD_eq
  intro j hj
  rw [BitVec.getLsbD_reverse, BitVec.getMsbD_eq_getLsbD, BitVec.getLsbD_twoPow,
    BitVec.getLsbD_twoPow]
  have hpos : decide (j < w) = true := by simpa using hj
  rw [hpos, Bool.true_and]
  have hiff : k = w - 1 - j <-> w - 1 - k = j := by lia
  simp only [hiff]
  grind

/-- With half of `2 ^ k` as the offset, an address whose low `k` bits are clear takes on
the numbers below `2 ^ k` in those bits, each with its bits in the opposite order. -/
theorem reversedAdd_walk {k : Nat} (hk : 0 < k) (hkw : k ≤ w) {x : BitVec w}
    (hx : forall j, j < k -> x.getLsbD j = false) (i : Nat) :
    (fun z => reversedAdd z (BitVec.twoPow w (k - 1)))^[i] x =
      x ||| (BitVec.ofNat k i).reverse.setWidth w := by
  have hdisjoint : x.reverse &&& BitVec.ofNat w i <<< (w - k) = 0#w := by
    apply BitVec.eq_of_getLsbD_eq
    intro j hj
    rw [BitVec.getLsbD_and, BitVec.getLsbD_reverse, BitVec.getMsbD_eq_getLsbD,
      BitVec.getLsbD_shiftLeft, BitVec.getLsbD_zero]
    by_cases hlow : j < w - k
    · simp [hlow]
    · rw [hx (w - 1 - j) (by lia)]
      simp
  rw [reversedAdd_iterate, reverse_twoPow (by lia), BitVec.mul_twoPow_eq_shiftLeft,
    show w - 1 - (k - 1) = w - k by lia, BitVec.add_eq_or_of_and_eq_zero _ _ hdisjoint]
  apply BitVec.eq_of_getLsbD_eq
  intro j hj
  rw [BitVec.getLsbD_reverse, BitVec.getMsbD_eq_getLsbD, BitVec.getLsbD_or, BitVec.getLsbD_or,
    BitVec.getLsbD_reverse, BitVec.getMsbD_eq_getLsbD, BitVec.getLsbD_shiftLeft,
    BitVec.getLsbD_setWidth, BitVec.getLsbD_reverse, BitVec.getMsbD_eq_getLsbD,
    BitVec.getLsbD_ofNat, BitVec.getLsbD_ofNat, show w - 1 - (w - 1 - j) = j by lia]
  by_cases hlow : j < k
  · have hplace : w - 1 - j - (w - k) = k - 1 - j := by lia
    rw [hplace]
    simp only [hj, hlow, decide_true, Bool.true_and]
    grind
  · grind

end
end Foundation
end PistormAtari
