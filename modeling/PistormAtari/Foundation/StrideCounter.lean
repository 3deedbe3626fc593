import Mathlib

/-!
# Two address counters

Each of two counters starts at an address of its own and moves by a stride of its own in a
window of its own, the second window being the smaller.  They show the same address at every
step exactly if they start together, move alike, and stay below the end of the smaller window.
-/

namespace PistormAtari
namespace Foundation

section
variable {M R b d s t : Nat}

theorem counter_below (hwide : R + s ≤ M) {n : Nat} (hbelow : b % M + n * s < R) :
    (b + n * s) % M = b % M + n * s ∧ (b + (n + 1) * s) % M = b % M + (n + 1) * s := by
  have hone : (n + 1) * s = n * s + s := Nat.succ_mul n s
  constructor
  · rw [Nat.add_mod, Nat.add_mod_mod, Nat.mod_eq_of_lt (by lia)]
  · rw [Nat.add_mod, Nat.add_mod_mod, Nat.mod_eq_of_lt (by lia)]

/-- A step that keeps two counters together keeps them below the end of the window, and moves
them alike. -/
theorem stride_step {x : Nat} (hx : x < R) (ht : t < R) (h : x + s = (x + t) % R) :
    s = t ∧ x + s < R := by
  rcases Nat.lt_or_ge (x + t) R with hin | hout
  · rw [Nat.mod_eq_of_lt hin] at h
    exact ⟨Nat.add_left_cancel h, by lia⟩
  · rw [Nat.mod_eq_sub_mod hout, Nat.mod_eq_of_lt (by lia)] at h
    lia

theorem strides_agree_iff (ht : t < R) (hwide : R + s ≤ M) (n : Nat) :
    (forall r, r ≤ n + 1 -> (b + r * s) % M = (d + r * t) % R) <->
      b % M = d % R ∧ s = t ∧ b % M + (n + 1) * s < R := by
  have hpos : 0 < R := Nat.lt_of_le_of_lt (Nat.zero_le t) ht
  constructor
  · intro h
    have hstart : b % M = d % R := by
      have hzero := h 0 (Nat.zero_le _)
      rw [Nat.zero_mul, Nat.zero_mul, Nat.add_zero, Nat.add_zero] at hzero
      exact hzero
    have hlow : b % M < R := by
      rw [hstart]
      exact Nat.mod_lt _ hpos
    have hsame : s = t := by
      have hone := h 1 (Nat.succ_le_succ (Nat.zero_le n))
      have hnext := (@counter_below M R b s hwide 0 (by lia)).2
      rw [Nat.zero_add] at hnext
      rw [hnext, Nat.one_mul, Nat.one_mul, Nat.add_mod d, ← hstart, Nat.mod_eq_of_lt ht] at hone
      exact (stride_step hlow ht hone).1
    have hbelow : forall r, r ≤ n + 1 -> b % M + r * s < R := by
      intro r hr
      induction r with
      | zero => lia
      | succ r ih =>
          have hr' := ih (Nat.le_of_succ_le hr)
          have heq := h (r + 1) hr
          have hsplit : d + (r + 1) * t = d + r * t + t := by
            rw [Nat.succ_mul, Nat.add_assoc]
          have hbefore := h r (Nat.le_of_succ_le hr)
          rw [(counter_below hwide hr').1] at hbefore
          rw [(counter_below hwide hr').2, hsplit, Nat.add_mod, ← hbefore, Nat.mod_eq_of_lt ht,
            Nat.succ_mul, ← Nat.add_assoc] at heq
          have hstep := (stride_step hr' ht heq).2
          rw [Nat.succ_mul, ← Nat.add_assoc]
          exact hstep
    exact ⟨hstart, hsame, hbelow (n + 1) (le_refl _)⟩
  · rintro ⟨hstart, rfl, hbelow⟩ r hr
    have hle : r * s ≤ (n + 1) * s := Nat.mul_le_mul_right s hr
    have hin : b % M + r * s < R := Nat.lt_of_le_of_lt (Nat.add_le_add_left hle _) hbelow
    rw [(counter_below hwide hin).1, Nat.add_mod d, ← hstart, Nat.add_mod_mod,
      Nat.mod_eq_of_lt hin]

end

end Foundation
end PistormAtari
