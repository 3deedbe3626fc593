import Mathlib
import PistormAtari.Foundation.Run

/-!
# Bounded loops and sliced execution

A C loop is modelled by a fuelled unrolling.  The fuel of a loop is given by a
rank that every iteration lowers, so the unrolling always leaves by its own
condition.  The same rank argument covers work that is cut into slices: each
slice performs some number of steps of one step function, and a state on which
that function has nothing left to do is reached once, whatever the cutting.
-/

namespace PistormAtari
namespace Foundation

variable {σ τ ι : Type _}

/-- Unroll `while (cond) body` at most as often as the fuel allows. -/
def whileFuel (cond : σ -> Bool) (body : σ -> σ) : Nat -> σ -> σ
  | 0, s => s
  | n + 1, s => if cond s then whileFuel cond body n (body s) else s

/-- One guarded iteration: the body while the condition holds, else nothing. -/
def guarded (cond : σ -> Bool) (body : σ -> σ) (s : σ) : σ :=
  if cond s then body s else s

variable {cond : σ -> Bool} {body : σ -> σ}

theorem guarded_of_cond {s : σ} (h : cond s = true) : guarded cond body s = body s := by
  simp [guarded, h]

theorem guarded_of_not_cond {s : σ} (h : cond s = false) : guarded cond body s = s := by
  simp [guarded, h]

theorem whileFuel_of_not_cond {s : σ}
    (n : Nat) (h : cond s = false) : whileFuel cond body n s = s := by
  cases n with
  | zero => rfl
  | succ n => simp [whileFuel, h]

theorem whileFuel_eq_iterate (cond : σ -> Bool) (body : σ -> σ) (n : Nat) (s : σ) :
    whileFuel cond body n s = (guarded cond body)^[n] s := by
  induction n generalizing s with
  | zero => rfl
  | succ n ih =>
      rw [Function.iterate_succ_apply]
      cases h : cond s with
      | true =>
          rw [guarded_of_cond h, ← ih]
          simp [whileFuel, h]
      | false =>
          rw [guarded_of_not_cond h, ← ih, whileFuel_of_not_cond n h,
            whileFuel_of_not_cond (n + 1) h]

/-!
## Traces

What the iterations of a loop do to a part of the state can be listed beside the
loop.
-/

def whileTrace (cond : σ -> Bool) (body : σ -> σ) (emit : σ -> List τ) : Nat -> σ -> List τ
  | 0, _ => []
  | n + 1, s => if cond s then emit s ++ whileTrace cond body emit n (body s) else []

/-- Where each iteration does to the part what it emits, so does the loop. -/
theorem whileFuel_eq_run_trace {emit : σ -> List τ} {v : σ -> ι} {step : ι -> τ -> ι}
    (hbody : forall s, cond s = true -> v (body s) = run step (v s) (emit s))
    (n : Nat) (s : σ) :
    v (whileFuel cond body n s) = run step (v s) (whileTrace cond body emit n s) := by
  induction n generalizing s with
  | zero => rfl
  | succ n ih =>
      unfold whileFuel whileTrace
      split
      · next hcond => rw [ih, hbody s hcond, run_append]
      · rfl

theorem whileTrace_all {emit : σ -> List τ}
    {P : List τ -> Prop} (hnil : P []) (happend : forall xs ys, P xs -> P ys -> P (xs ++ ys))
    (hemit : forall s, P (emit s)) (n : Nat) (s : σ) : P (whileTrace cond body emit n s) := by
  induction n generalizing s with
  | zero => exact hnil
  | succ n ih =>
      unfold whileTrace
      split
      · exact happend _ _ (hemit s) (ih (body s))
      · exact hnil

/-!
## Termination by rank
-/

/-- Within the invariant every iteration of the loop lowers the rank. -/
def Lowers (cond : σ -> Bool) (body : σ -> σ) (Inv : σ -> Prop) (rank : σ -> Nat) :
    Prop :=
  forall s, Inv s -> cond s = true -> Inv (body s) ∧ rank (body s) < rank s

theorem whileFuel_exits {Inv : σ -> Prop}
    {rank : σ -> Nat} (hrank : Lowers cond body Inv rank) {n : Nat} {s : σ}
    (hs : Inv s) (hn : rank s ≤ n) :
    cond (whileFuel cond body n s) = false := by
  induction n generalizing s with
  | zero =>
      cases h : cond s with
      | true => exact absurd (hrank s hs h).2 (by omega)
      | false => exact h
  | succ n ih =>
      cases h : cond s with
      | true =>
          obtain ⟨hinv, hlt⟩ := hrank s hs h
          simpa [whileFuel, h] using ih hinv (by omega)
      | false =>
          rw [whileFuel_of_not_cond (n + 1) h]
          exact h

theorem whileFuel_invariant {Inv : σ -> Prop}
    (hbody : forall s, Inv s -> cond s = true -> Inv (body s))
    (n : Nat) {s : σ} (hs : Inv s) : Inv (whileFuel cond body n s) := by
  induction n generalizing s with
  | zero => exact hs
  | succ n ih =>
      cases h : cond s with
      | true => simpa [whileFuel, h] using ih (hbody s hs h)
      | false => simpa [whileFuel, h] using hs

/-!
## Slices of one step function

The states on which a step function stands still are its finished states.
-/

theorem iterate_eq_of_fixed {f : σ -> σ} {s : σ} {m n : Nat}
    (hm : f (f^[m] s) = f^[m] s) (hn : f (f^[n] s) = f^[n] s) :
    f^[m] s = f^[n] s := by
  rcases Nat.le_total m n with h | h
  · obtain ⟨k, rfl⟩ := Nat.exists_eq_add_of_le' h
    rw [Function.iterate_add_apply, Function.iterate_fixed hm]
  · obtain ⟨k, rfl⟩ := Nat.exists_eq_add_of_le' h
    rw [Function.iterate_add_apply, Function.iterate_fixed hn]

theorem foldl_slices_eq_iterate {f : σ -> σ} {slice : σ -> ι -> σ} {ok : ι -> Prop}
    (hslice : forall s i, ok i -> exists k, slice s i = f^[k] s)
    {is : List ι} (hok : forall i, i ∈ is -> ok i) (s : σ) :
    exists k, is.foldl slice s = f^[k] s := by
  induction is generalizing s with
  | nil => exact ⟨0, rfl⟩
  | cons i rest ih =>
      obtain ⟨j, hj⟩ := hslice s i (hok i (by simp))
      obtain ⟨k, hk⟩ := ih (fun i' hi' => hok i' (by simp [hi'])) (slice s i)
      refine ⟨k + j, ?_⟩
      rw [List.foldl_cons, hk, hj, Function.iterate_add_apply]

/-- Slices that each lower the rank of an unfinished state finish it. -/
theorem foldl_slices_finish {slice : σ -> ι -> σ} {ok : ι -> Prop} {Inv : σ -> Prop}
    {rank : σ -> Nat}
    (hslice : forall s i, Inv s -> ok i ->
      Inv (slice s i) ∧ rank (slice s i) ≤ rank s - 1)
    {is : List ι} (hok : forall i, i ∈ is -> ok i) {s : σ} (hs : Inv s)
    (hlen : rank s ≤ is.length) :
    rank (is.foldl slice s) = 0 := by
  induction is generalizing s with
  | nil => simpa using hlen
  | cons i rest ih =>
      obtain ⟨hinv, hlow⟩ := hslice s i hs (hok i (by simp))
      have hlen' : rank s ≤ rest.length + 1 := by simpa using hlen
      rw [List.foldl_cons]
      exact ih (fun i' hi' => hok i' (by simp [hi'])) hinv (by omega)

/-!
## Lock-step simulation
-/

theorem iterate_simulates {R : σ -> τ -> Prop} {f : σ -> σ} {g : τ -> τ}
    (hstep : forall a b, R a b -> R (f a) (g b)) (n : Nat) {a : σ} {b : τ}
    (hab : R a b) : R (f^[n] a) (g^[n] b) := by
  induction n generalizing a b with
  | zero => exact hab
  | succ n ih =>
      rw [Function.iterate_succ_apply, Function.iterate_succ_apply]
      exact ih (hstep a b hab)

end Foundation
end PistormAtari
