import Mathlib

/-!
# The first free candidate

Labels are handed out one at a time: each taker runs through its own sequence
of candidates and keeps the first that is not taken yet.
-/

namespace PistormAtari
namespace Foundation

variable {α : Type _} [DecidableEq α]

/-- The first of `fuel` candidates from number `n` on that is not taken. -/
def firstFree (cand : Nat -> α) (taken : List α) : Nat -> Nat -> Option α
  | 0, _ => none
  | fuel + 1, n =>
      if cand n ∈ taken then firstFree cand taken fuel (n + 1) else some (cand n)

theorem firstFree_spec {cand : Nat -> α} {taken : List α} {fuel n : Nat} {x : α}
    (h : firstFree cand taken fuel n = some x) :
    x ∉ taken ∧ exists k, n ≤ k ∧ k < n + fuel ∧ x = cand k := by
  induction fuel generalizing n with
  | zero => cases h
  | succ fuel ih =>
      rw [firstFree] at h
      split at h
      · rcases ih h with ⟨hfree, k, hlo, hhi, hx⟩
        exact ⟨hfree, k, by lia, by lia, hx⟩
      · rename_i hfree
        injection h with h
        subst h
        exact ⟨hfree, n, by lia, by lia, rfl⟩

theorem mem_of_firstFree_none {cand : Nat -> α} {taken : List α} {fuel n : Nat}
    (h : firstFree cand taken fuel n = none) {k : Nat} (hlo : n ≤ k)
    (hhi : k < n + fuel) : cand k ∈ taken := by
  induction fuel generalizing n with
  | zero => lia
  | succ fuel ih =>
      rw [firstFree] at h
      split at h
      · rename_i htaken
        rcases Nat.eq_or_lt_of_le hlo with heq | hlt
        · rwa [← heq]
        · exact ih h hlt (by lia)
      · cases h

/-- Distinct candidates outnumber what is taken, so one of them is free. -/
theorem exists_firstFree {cand : Nat -> α} {taken : List α} {fuel n : Nat}
    (hinj : forall i j, n ≤ i -> i < n + fuel -> n ≤ j -> j < n + fuel ->
      cand i = cand j -> i = j)
    (hlen : taken.length < fuel) : exists x, firstFree cand taken fuel n = some x := by
  cases h : firstFree cand taken fuel n with
  | some x => exact ⟨x, rfl⟩
  | none =>
      have hsub : (Finset.Ico n (n + fuel)).image cand ⊆ taken.toFinset := by
        intro x hx
        rcases Finset.mem_image.mp hx with ⟨k, hk, rfl⟩
        rcases Finset.mem_Ico.mp hk with ⟨hlo, hhi⟩
        exact List.mem_toFinset.mpr (mem_of_firstFree_none h hlo hhi)
      have hcard : ((Finset.Ico n (n + fuel)).image cand).card = fuel := by
        rw [Finset.card_image_of_injOn]
        · simp
        · intro i hi j hj hij
          rcases Finset.mem_Ico.mp hi with ⟨hilo, hihi⟩
          rcases Finset.mem_Ico.mp hj with ⟨hjlo, hjhi⟩
          exact hinj i j hilo hihi hjlo hjhi hij
      have hle := Finset.card_le_card hsub
      have htaken := taken.toFinset_card_le
      lia

end Foundation
end PistormAtari
