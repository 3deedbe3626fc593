import Mathlib

/-!
# Lists cut at separators

A list is cut into pieces at the elements a predicate marks as separators.
Separated lists split in one way only.
-/

namespace PistormAtari
namespace Foundation

variable {α : Type _}

/-- The pieces of a list between its separators, empty ones included. -/
def pieces (sep : α -> Bool) : List α -> List (List α)
  | [] => [[]]
  | x :: xs =>
      if sep x then [] :: pieces sep xs
      else
        match pieces sep xs with
        | [] => [[x]]
        | p :: ps => (x :: p) :: ps

theorem pieces_ne_nil (sep : α -> Bool) (xs : List α) : pieces sep xs ≠ [] := by
  cases xs with
  | nil => simp [pieces]
  | cons x xs =>
      unfold pieces
      split
      · simp
      · split <;> simp

theorem pieces_append_sep {sep : α -> Bool} {s : α} (hs : sep s = true)
    (xs ys : List α) : pieces sep (xs ++ s :: ys) = pieces sep xs ++ pieces sep ys := by
  induction xs with
  | nil => simp [pieces, hs]
  | cons x xs ih =>
      rw [List.cons_append, pieces, pieces, ih]
      split
      · rfl
      · rcases List.exists_cons_of_ne_nil (pieces_ne_nil sep xs) with ⟨p, ps, hps⟩
        rw [hps]
        rfl

theorem pieces_of_forall_not {sep : α -> Bool} {xs : List α}
    (h : forall x, x ∈ xs -> sep x = false) : pieces sep xs = [xs] := by
  induction xs with
  | nil => rfl
  | cons x xs ih =>
      have hx : sep x = false := h x (by simp)
      have htail := ih (fun y hy => h y (by simp [hy]))
      simp [pieces, hx, htail]

theorem sep_notMem_pieces {sep : α -> Bool} {xs p : List α}
    (hp : p ∈ pieces sep xs) : forall x, x ∈ p -> sep x = false := by
  induction xs generalizing p with
  | nil =>
      rw [pieces, List.mem_singleton] at hp
      rw [hp]
      exact fun x hx => absurd hx List.not_mem_nil
  | cons y ys ih =>
      unfold pieces at hp
      split at hp
      · rcases List.mem_cons.mp hp with rfl | hp
        · exact fun x hx => absurd hx List.not_mem_nil
        · exact ih hp
      · rename_i hy
        have hy : sep y = false := by simpa using hy
        split at hp
        · rw [List.mem_singleton] at hp
          subst hp
          intro x hx
          rw [List.mem_singleton.mp hx]
          exact hy
        · rename_i q qs hqs
          rcases List.mem_cons.mp hp with rfl | hp
          · intro x hx
            rcases List.mem_cons.mp hx with rfl | hx
            · exact hy
            · exact ih (by rw [hqs]; simp) x hx
          · exact ih (by rw [hqs]; simp [hp])

/-- Two lists that agree up to a separator neither of them holds before it. -/
theorem append_cons_inj_of_notMem {s : α} {xs ys us vs : List α} (hxs : s ∉ xs)
    (hys : s ∉ ys) (h : xs ++ s :: us = ys ++ s :: vs) : xs = ys ∧ us = vs := by
  induction xs generalizing ys with
  | nil =>
      cases ys with
      | nil =>
          injection h with _ htail
          exact ⟨rfl, htail⟩
      | cons y ys =>
          injection h with hhead _
          exact absurd (by simp [hhead]) hys
  | cons x xs ih =>
      cases ys with
      | nil =>
          injection h with hhead _
          exact absurd (by simp [hhead]) hxs
      | cons y ys =>
          injection h with hhead htail
          have hxs' : s ∉ xs := fun hmem => hxs (by simp [hmem])
          have hys' : s ∉ ys := fun hmem => hys (by simp [hmem])
          rcases ih hxs' hys' htail with ⟨heq, hrest⟩
          exact ⟨by rw [hhead, heq], hrest⟩

theorem append_cons_inj_of_notMem_right {s : α} {xs ys us vs : List α} (hus : s ∉ us)
    (hvs : s ∉ vs) (h : xs ++ s :: us = ys ++ s :: vs) : xs = ys ∧ us = vs := by
  have hrev : us.reverse ++ s :: xs.reverse = vs.reverse ++ s :: ys.reverse := by
    have hmap := congrArg List.reverse h
    simpa using hmap
  rcases append_cons_inj_of_notMem (by simpa using hus) (by simpa using hvs) hrev with
    ⟨hleft, hright⟩
  exact ⟨List.reverse_injective hright, List.reverse_injective hleft⟩

end Foundation
end PistormAtari
