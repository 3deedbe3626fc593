import Mathlib

/-!
# Runs that should stay in a window

Values are put one by one at consecutive counts, each into the cell that its count stands
for, or nowhere.  A run is meant to stay in the cells of its first counts.  It does so, for
all memories, exactly if the values beyond have no cell or one of the window.
-/

namespace PistormAtari
namespace Foundation

variable {ι β : Type _}

def InWindow (cell : Nat -> Option ι) (n k : Nat) (a : ι) : Prop :=
  exists j, j < k ∧ cell (n + j) = some a

theorem inWindow_succ {cell : Nat -> Option ι} {n k : Nat} {a : ι} :
    InWindow cell n (k + 1) a <-> cell n = some a ∨ InWindow cell (n + 1) k a := by
  constructor
  · rintro ⟨j, hj, hcell⟩
    cases j with
    | zero => exact Or.inl hcell
    | succ j =>
        refine Or.inr ⟨j, Nat.lt_of_succ_lt_succ hj, ?_⟩
        rw [Nat.add_assoc, Nat.add_comm 1]
        exact hcell
  · rintro (hcell | ⟨j, hj, hcell⟩)
    · exact ⟨0, Nat.succ_pos k, hcell⟩
    · refine ⟨j + 1, Nat.succ_lt_succ hj, ?_⟩
      rw [Nat.add_comm j, ← Nat.add_assoc]
      exact hcell

variable [DecidableEq ι]

def putAt (cell : Nat -> Option ι) (mem : ι -> β) (n : Nat) (v : β) : ι -> β :=
  match cell n with
  | some a => Function.update mem a v
  | none => mem

def putRun (cell : Nat -> Option ι) : (ι -> β) -> Nat -> List β -> ι -> β
  | mem, _, [] => mem
  | mem, n, v :: vs => putRun cell (putAt cell mem n v) (n + 1) vs

section
variable {cell : Nat -> Option ι} {mem mem' : ι -> β} {n k : Nat} {a : ι} {vs : List β}

theorem putRun_append (mem : ι -> β) (n : Nat) (xs ys : List β) :
    putRun cell mem n (xs ++ ys) = putRun cell (putRun cell mem n xs) (n + xs.length) ys := by
  induction xs generalizing mem n with
  | nil => rfl
  | cons v rest ih =>
      have hlen : n + (v :: rest).length = n + 1 + rest.length := by
        rw [List.length_cons, Nat.add_assoc, Nat.add_comm 1]
      rw [List.cons_append, putRun, ih, hlen]
      rfl

theorem putAt_of_ne (h : cell n ≠ some a) (v : β) : putAt cell mem n v a = mem a := by
  unfold putAt
  cases hcell : cell n with
  | none => rfl
  | some b =>
      rw [hcell] at h
      exact Function.update_of_ne (fun heq => h (congrArg some heq.symm)) ..

theorem putAt_of_eq (h : cell n = some a) (v : β) : putAt cell mem n v a = v := by
  unfold putAt
  rw [h]
  exact Function.update_self ..

theorem putRun_of_outside (h : ¬ InWindow cell n vs.length a) : putRun cell mem n vs a = mem a := by
  induction vs generalizing mem n with
  | nil => rfl
  | cons v rest ih =>
      rw [List.length_cons, inWindow_succ, not_or] at h
      rw [putRun, ih h.2, putAt_of_ne h.1]

theorem putRun_of_inside (h : InWindow cell n vs.length a) :
    putRun cell mem n vs a = putRun cell mem' n vs a := by
  induction vs generalizing mem mem' n with
  | nil =>
      rcases h with ⟨j, hj, _⟩
      exact absurd hj (Nat.not_lt_zero j)
  | cons v rest ih =>
      rw [putRun, putRun]
      by_cases hrest : InWindow cell (n + 1) rest.length a
      · exact ih hrest
      · rw [putRun_of_outside hrest, putRun_of_outside hrest]
        rw [List.length_cons, inWindow_succ] at h
        have hcell := h.resolve_right hrest
        rw [putAt_of_eq hcell, putAt_of_eq hcell]

/-- A run stays in the window of its first `k` counts, whatever the memory holds, exactly if
each count beyond stands for no cell or for one of the window. -/
theorem putRun_stays_iff [Nontrivial β] (cell : Nat -> Option ι) (n k : Nat) (vs : List β) :
    (forall (mem : ι -> β) (a : ι), putRun cell mem n vs a ≠ mem a -> InWindow cell n k a) <->
      forall i, i < vs.length - k -> forall a, cell (n + k + i) = some a -> InWindow cell n k a := by
  constructor
  · intro h i hi a hcell
    have hinside : InWindow cell n vs.length a :=
      ⟨k + i, by lia, by rw [← Nat.add_assoc]; exact hcell⟩
    have hsome : Nonempty β := ⟨(exists_pair_ne β).choose⟩
    rcases exists_ne (putRun cell (fun _ => Classical.choice hsome) n vs a) with ⟨other, hother⟩
    have hsame : putRun cell (fun _ => other) n vs a =
        putRun cell (fun _ => Classical.choice hsome) n vs a := putRun_of_inside hinside
    apply h (fun _ => other)
    rw [hsame]
    exact hother.symm
  · intro h mem a hchanged
    by_contra hout
    apply hchanged
    apply putRun_of_outside
    rintro ⟨j, hj, hcell⟩
    rcases Nat.lt_or_ge j k with hin | hbeyond
    · exact hout ⟨j, hin, hcell⟩
    · have hcount : n + k + (j - k) = n + j := by lia
      exact hout (h (j - k) (by lia) a (by rw [hcount]; exact hcell))

end

end Foundation
end PistormAtari
