import Mathlib.Logic.Function.Basic
import Mathlib.Data.List.Basic

/-!
# Writing places one after another

A loop writes `n` places in turn.  What it writes is computed from the memory it finds at
that moment.  Writing all of them at once computes everything from the memory at the start.
-/

namespace PistormAtari
namespace Foundation

variable {α β : Type _} [DecidableEq α]

def setAt (m : α -> β) (a : α) (v : Option β) : α -> β := Function.update m a (v.getD (m a))

/-- What a loop writes at its step `x`, when it finds a memory. -/
abbrev Writes (α β : Type _) : Type _ := (α -> β) -> Nat -> Option β

def upward (dst : Nat -> α) (val : Writes α β) (n : Nat) (m : α -> β) : α -> β :=
  (List.range n).foldl (fun m x => setAt m (dst x) (val m x)) m

def atOnce (dst : Nat -> α) (val : Writes α β) (n : Nat) (m : α -> β) : α -> β :=
  upward dst (fun _ => val m) n m

theorem setAt_self (m : α -> β) (a : α) (v : Option β) : setAt m a v a = v.getD (m a) :=
  Function.update_self a _ m

theorem setAt_of_ne (m : α -> β) {a b : α} (v : Option β) (h : b ≠ a) : setAt m a v b = m b :=
  Function.update_of_ne h _ m

section

variable (dst : Nat -> α) (val : Writes α β)

theorem upward_succ (n : Nat) (m : α -> β) :
    upward dst val (n + 1) m =
      setAt (upward dst val n m) (dst n) (val (upward dst val n m) n) := by
  unfold upward
  rw [List.range_succ, List.foldl_append]
  rfl

theorem upward_of_ne {n : Nat} (m : α -> β) {a : α} (hne : forall x, x < n -> a ≠ dst x) :
    upward dst val n m a = m a := by
  induction n with
  | zero => rfl
  | succ n ih =>
      rw [upward_succ, setAt_of_ne _ _ (hne n (Nat.lt_succ_self n))]
      exact ih fun x hx => hne x (Nat.lt_succ_of_lt hx)

variable {dst} {n : Nat} (hinj : forall x y, x < n -> y < n -> dst x = dst y -> x = y)

include hinj

theorem upward_at (m : α -> β) {x : Nat} (hx : x < n) :
    upward dst val n m (dst x) = (val (upward dst val x m) x).getD (m (dst x)) := by
  have hkeep : upward dst val x m (dst x) = m (dst x) := by
    apply upward_of_ne
    intro y hy heq
    have hsame := hinj x y hx (Nat.lt_trans hy hx) heq
    exact Nat.lt_irrefl x (hsame ▸ hy)
  induction n with
  | zero => exact absurd hx (Nat.not_lt_zero x)
  | succ n ih =>
      rw [upward_succ]
      rcases Nat.lt_succ_iff_lt_or_eq.mp hx with hlt | rfl
      · have hne : dst x ≠ dst n := fun heq =>
          Nat.ne_of_lt hlt (hinj x n hx (Nat.lt_succ_self n) heq)
        rw [setAt_of_ne _ _ hne]
        exact ih (fun y z hy hz => hinj y z (Nat.lt_succ_of_lt hy) (Nat.lt_succ_of_lt hz)) hlt
      · rw [setAt_self, hkeep]

theorem atOnce_at (m : α -> β) {x : Nat} (hx : x < n) :
    atOnce dst val n m (dst x) = (val m x).getD (m (dst x)) :=
  upward_at (fun _ => val m) hinj m hx

theorem atOnce_cases (m : α -> β) (a : α) :
    atOnce dst val n m a = m a ∨
      exists x, x < n ∧ a = dst x ∧ val m x = some (atOnce dst val n m a) := by
  by_cases ha : exists x, x < n ∧ a = dst x
  · obtain ⟨x, hx, rfl⟩ := ha
    rw [atOnce_at val hinj m hx]
    cases hval : val m x with
    | none => exact Or.inl rfl
    | some v => exact Or.inr ⟨x, hx, rfl, hval⟩
  · exact Or.inl (upward_of_ne dst _ m fun x hx h => ha ⟨x, hx, h⟩)

/-- The loop writes what is computed at the start just if no step computes, from the places
written before it, what changes its own place. -/
theorem upward_eq_atOnce_iff (m : α -> β) :
    upward dst val n m = atOnce dst val n m <->
      forall x, x < n ->
        (val (atOnce dst val x m) x).getD (m (dst x)) = (val m x).getD (m (dst x)) := by
  induction n with
  | zero => exact ⟨fun _ x hx => absurd hx (Nat.not_lt_zero x), fun _ => rfl⟩
  | succ n ih =>
      have hinj' : forall x y, x < n -> y < n -> dst x = dst y -> x = y := fun x y hx hy =>
        hinj x y (Nat.lt_succ_of_lt hx) (Nat.lt_succ_of_lt hy)
      have hprev := ih hinj'
      constructor
      · intro heq
        have hsame : upward dst val n m = atOnce dst val n m := by
          funext a
          by_cases ha : exists x, x < n ∧ a = dst x
          · obtain ⟨x, hx, rfl⟩ := ha
            have hstep := congrFun heq (dst x)
            rw [upward_at val hinj m (Nat.lt_succ_of_lt hx),
              atOnce_at val hinj m (Nat.lt_succ_of_lt hx)] at hstep
            rw [upward_at val hinj' m hx, atOnce_at val hinj' m hx]
            exact hstep
          · have hne : forall x, x < n -> a ≠ dst x := fun x hx h => ha ⟨x, hx, h⟩
            unfold atOnce
            rw [upward_of_ne dst val m hne, upward_of_ne dst _ m hne]
        intro x hx
        rcases Nat.lt_succ_iff_lt_or_eq.mp hx with hlt | rfl
        · exact hprev.mp hsame x hlt
        · have hlast := congrFun heq (dst x)
          rw [upward_at val hinj m hx, atOnce_at val hinj m hx, hsame] at hlast
          exact hlast
      · intro hsteps
        have hsame := hprev.mpr fun x hx => hsteps x (Nat.lt_succ_of_lt hx)
        have hkeep : atOnce dst val n m (dst n) = m (dst n) := by
          apply upward_of_ne
          intro x hx heq
          have h := hinj n x (Nat.lt_succ_self n) (Nat.lt_succ_of_lt hx) heq
          exact Nat.ne_of_lt hx h.symm
        have hlast := hsteps n (Nat.lt_succ_self n)
        rw [upward_succ, hsame]
        unfold atOnce
        rw [upward_succ]
        unfold setAt
        change Function.update (atOnce dst val n m) (dst n)
            ((val (atOnce dst val n m) n).getD (atOnce dst val n m (dst n))) =
          Function.update (atOnce dst val n m) (dst n)
            ((val m n).getD (atOnce dst val n m (dst n)))
        rw [hkeep, hlast]

end

end Foundation
end PistormAtari
