import Mathlib
import PistormAtari.Foundation.WhileLoop

/-!
# Prescalers

A divider collects ticks and passes one on for every `pre` of them.  What it has passed on
and what it has left over after two advances is what it has after one advance by their sum,
and so it is for a group of dividers that do not disturb each other.
-/

namespace PistormAtari
namespace Foundation

variable {σ ι : Type _}

theorem div_drained (pre x y : Nat) : (x + y) / pre = x / pre + (x % pre + y) / pre := by
  rcases Nat.eq_zero_or_pos pre with hzero | hpos
  · rw [hzero, Nat.div_zero, Nat.div_zero, Nat.div_zero]
  · have hsplit : x + y = x % pre + y + pre * (x / pre) := by
      rw [Nat.add_right_comm, Nat.mod_add_div]
    rw [hsplit, Nat.add_mul_div_left _ _ hpos, Nat.add_comm]

theorem mod_drained (pre x y : Nat) : (x + y) % pre = (x % pre + y) % pre :=
  (Nat.mod_add_mod x pre y).symm

/-- A divider that is drained by a loop, with what each tick it passes on does. -/
structure Draining (σ : Type _) where
  acc : Nat
  state : σ

theorem whileFuel_drain {pre : Nat} (hpos : 0 < pre) (f : σ -> σ) {n acc : Nat} (hn : acc ≤ n)
    (s : σ) :
    whileFuel (fun l : Draining σ => decide (pre ≤ l.acc))
        (fun l => { acc := l.acc - pre, state := f l.state }) n { acc := acc, state := s } =
      { acc := acc % pre, state := f^[acc / pre] s } := by
  induction n generalizing acc s with
  | zero =>
      rw [Nat.le_zero.mp hn, Nat.zero_mod, Nat.zero_div]
      rfl
  | succ n ih =>
      unfold whileFuel
      split
      · next hmore =>
        have hle : pre ≤ acc := of_decide_eq_true hmore
        rw [ih (by dsimp only; lia), Nat.mod_eq_sub_mod hle, Nat.div_eq_sub_div hpos hle,
          Function.iterate_succ_apply]
      · next hdone =>
        have hlt : acc < pre := by
          rw [decide_eq_true_iff] at hdone
          exact Nat.not_le.mp hdone
        rw [Nat.mod_eq_of_lt hlt, Nat.div_eq_of_lt hlt]
        rfl

/-!
## Groups of actions
-/

section
variable {act : ι -> Nat -> σ -> σ}

theorem foldl_act_comm (hcomm : forall t t', t ≠ t' -> forall x y s,
      act t x (act t' y s) = act t' y (act t x s))
    {t : ι} {ts : List ι} (hnot : t ∉ ts) (x y : Nat) (s : σ) :
    ts.foldl (fun s t' => act t' y s) (act t x s) =
      act t x (ts.foldl (fun s t' => act t' y s) s) := by
  induction ts generalizing s with
  | nil => rfl
  | cons t' rest ih =>
      rcases List.ne_and_not_mem_of_not_mem_cons hnot with ⟨hne, hrest⟩
      rw [List.foldl_cons, List.foldl_cons, ← hcomm t t' hne, ih hrest]

/-- Actions that are additive and do not disturb each other are additive as a group. -/
theorem foldl_act_add (hadd : forall t x y s, act t y (act t x s) = act t (x + y) s)
    (hcomm : forall t t', t ≠ t' -> forall x y s, act t x (act t' y s) = act t' y (act t x s))
    {ts : List ι} (hnodup : ts.Nodup) (x y : Nat) (s : σ) :
    ts.foldl (fun s t => act t y s) (ts.foldl (fun s t => act t x s) s) =
      ts.foldl (fun s t => act t (x + y) s) s := by
  induction ts generalizing s with
  | nil => rfl
  | cons t rest ih =>
      rcases List.nodup_cons.mp hnodup with ⟨hnot, hrest⟩
      rw [List.foldl_cons, List.foldl_cons, List.foldl_cons,
        ← foldl_act_comm hcomm hnot y x (act t x s), hadd, ih hrest]

end

end Foundation
end PistormAtari
