import Mathlib

/-!
# Cyclic counting

A counter is loaded with a period, counts down by one at a time and is loaded again when
it would reach zero.  After `k` counts it is where `k` modulo the period puts it, and it
is loaded at the multiples of the period.
-/

namespace PistormAtari
namespace Foundation

def countDown (period left : Nat) : Nat := if left ≤ 1 then period else left - 1

/-- What is left of a counter after `k` counts since it was loaded. -/
def leftAfter (period k : Nat) : Nat := period - k % period

section
variable {period : Nat}

theorem leftAfter_zero : leftAfter period 0 = period := by
  unfold leftAfter
  rw [Nat.zero_mod, Nat.sub_zero]

theorem leftAfter_pos (hpos : 0 < period) (k : Nat) : 0 < leftAfter period k :=
  Nat.sub_pos_of_lt (Nat.mod_lt k hpos)

theorem leftAfter_eq_one_iff (hpos : 0 < period) (k : Nat) :
    leftAfter period k = 1 <-> period ∣ k + 1 := by
  have hlt := Nat.mod_lt k hpos
  unfold leftAfter
  rw [Nat.dvd_iff_mod_eq_zero, Nat.add_mod]
  by_cases hlast : k % period = period - 1
  · have hone : period = 1 ∨ 1 % period = 1 := by
      rcases Nat.lt_or_ge 1 period with hbig | hsmall
      · exact Or.inr (Nat.mod_eq_of_lt hbig)
      · exact Or.inl (by lia)
    constructor
    · intro _
      rcases hone with hone | hone
      · rw [hone, Nat.mod_one]
      · rw [hlast, hone, Nat.sub_add_cancel hpos, Nat.mod_self]
    · intro _
      lia
  · constructor
    · intro h
      lia
    · intro h
      have hsmall : 1 < period := by lia
      rw [Nat.mod_eq_of_lt hsmall, Nat.mod_eq_of_lt (by lia)] at h
      lia

theorem countDown_leftAfter (hpos : 0 < period) (k : Nat) :
    countDown period (leftAfter period k) = leftAfter period (k + 1) := by
  have hlt := Nat.mod_lt k hpos
  have hiff := leftAfter_eq_one_iff hpos k
  have hleft := leftAfter_pos hpos k
  unfold countDown
  split
  · have hone : leftAfter period k = 1 := by lia
    have hdvd := hiff.mp hone
    unfold leftAfter
    rw [Nat.mod_eq_zero_of_dvd hdvd, Nat.sub_zero]
  · have hnext : (k + 1) % period = k % period + 1 := by
      have hnot : ¬ period ∣ k + 1 := fun hdvd => by
        have hone := hiff.mpr hdvd
        lia
      have hin : k % period + 1 < period := by
        unfold leftAfter at *
        lia
      have hsmall : 1 < period := by lia
      rw [Nat.add_mod, Nat.mod_eq_of_lt hsmall, Nat.mod_eq_of_lt hin]
    unfold leftAfter
    rw [hnext]
    lia

end

end Foundation
end PistormAtari
