import Mathlib

/-!
# Scanning a bit mask from the top

The C idiom `while (n >= 0 && !(mask & (1u << n))) n--` finds the highest set
bit of a mask.  The bits of a mask are read as a set of positions.
-/

namespace PistormAtari
namespace Foundation

variable {w : Nat}

def scanDown (m : BitVec w) : Nat -> Option Nat
  | 0 => none
  | n + 1 => if m.getLsbD n then some n else scanDown m n

variable {m : BitVec w}

theorem scanDown_eq_none_iff {n : Nat} :
    scanDown m n = none <-> forall i, i < n -> m.getLsbD i = false := by
  induction n with
  | zero => simp [scanDown]
  | succ n ih =>
      unfold scanDown
      cases hbit : m.getLsbD n with
      | true =>
          constructor
          · intro h
            cases h
          · intro h
            have hn := h n (Nat.lt_succ_self n)
            rw [hbit] at hn
            cases hn
      | false =>
          constructor
          · intro h i hi
            rcases Nat.lt_succ_iff_lt_or_eq.mp hi with hlt | rfl
            · exact ih.mp (by simpa using h) i hlt
            · exact hbit
          · intro h
            simpa using ih.mpr (fun i hi => h i (Nat.lt_succ_of_lt hi))

theorem scanDown_eq_some {n k : Nat} (h : scanDown m n = some k) :
    k < n ∧ m.getLsbD k = true ∧ forall i, k < i -> i < n -> m.getLsbD i = false := by
  induction n with
  | zero => cases h
  | succ n ih =>
      unfold scanDown at h
      cases hbit : m.getLsbD n with
      | true =>
          have hk : n = k := by simpa [hbit] using h
          subst hk
          exact ⟨Nat.lt_succ_self n, hbit, fun i h1 h2 => absurd h1 (by lia)⟩
      | false =>
          obtain ⟨hlt, hset, habove⟩ := ih (by simpa [hbit] using h)
          refine ⟨Nat.lt_succ_of_lt hlt, hset, ?_⟩
          intro i h1 h2
          rcases Nat.lt_succ_iff_lt_or_eq.mp h2 with hi | rfl
          · exact habove i h1 hi
          · exact hbit

def bitSet (m : BitVec w) : Set (Fin w) :=
  { i | m.getLsbD i = true }

theorem mem_bitSet {i : Fin w} :
    i ∈ bitSet m <-> m.getLsbD i = true := Iff.rfl

theorem scanDown_isGreatest {k : Nat} (h : scanDown m w = some k) :
    exists hk : k < w, IsGreatest (bitSet m) ⟨k, hk⟩ := by
  obtain ⟨hlt, hset, habove⟩ := scanDown_eq_some h
  refine ⟨hlt, hset, ?_⟩
  intro i hi
  rcases Nat.lt_or_ge k i.val with hgt | hle
  · have hclear := habove i.val hgt i.isLt
    rw [mem_bitSet, hclear] at hi
    cases hi
  · exact hle

theorem scanDown_ne_none (h : m ≠ 0) :
    exists k, scanDown m w = some k := by
  cases hscan : scanDown m w with
  | some k => exact ⟨k, rfl⟩
  | none =>
      exfalso
      apply h
      apply BitVec.eq_of_getLsbD_eq
      intro i hi
      simpa using scanDown_eq_none_iff.mp hscan i hi

/-!
## Masks of low bits
-/

theorem getLsbD_low_mask {k : Nat} (hk : k < w) (n : Nat) :
    ((1#w <<< k) - 1#w).getLsbD n = decide (n < k) := by
  have hpow : 2 ^ k < 2 ^ w := Nat.pow_lt_pow_right (by decide) hk
  have hone : 1 % 2 ^ w = 1 := Nat.mod_eq_of_lt (by
    have := Nat.one_le_two_pow (n := k)
    lia)
  have hpos : 1 ≤ 2 ^ k := Nat.one_le_two_pow
  have hnat : ((1#w <<< k) - 1#w).toNat = 2 ^ k - 1 := by
    rw [BitVec.toNat_sub, BitVec.toNat_shiftLeft, BitVec.toNat_ofNat, hone,
      Nat.one_shiftLeft, Nat.mod_eq_of_lt hpow]
    have hsum : 2 ^ w - 1 + 2 ^ k = (2 ^ k - 1) + 2 ^ w := by lia
    rw [hsum, Nat.add_mod_right, Nat.mod_eq_of_lt (by lia)]
  rw [BitVec.getLsbD, hnat, Nat.testBit_two_pow_sub_one]

end Foundation
end PistormAtari
