import Mathlib

/-!
# Partial specifications of state functions

A program of steps on a state, which may also give no result.  Its specification says
what holds of the value and the state where it does give one, for each state that meets a
condition before.
-/

namespace PistormAtari
namespace Foundation

section
variable {σ α β : Type}

def act (f : σ -> σ) : StateT σ Option Unit := fun s => some ((), f s)

def ask (f : σ -> α × σ) : StateT σ Option α := fun s => some (f s)

def look (f : σ -> α) : StateT σ Option α := fun s => some (f s, s)

def Spec (P : σ -> Prop) (m : StateT σ Option α) (Q : α -> σ -> Prop) : Prop :=
  forall s, P s -> forall r, m s = some r -> Q r.1 r.2

variable {P : σ -> Prop} {m : StateT σ Option α} {Q : α -> σ -> Prop}

theorem Spec.act {f : σ -> σ} {Q : Unit -> σ -> Prop} (h : forall s, P s -> Q () (f s)) :
    Spec P (act f) Q := by
  intro s hs r hr
  cases hr
  exact h s hs

theorem Spec.ask {f : σ -> α × σ} (h : forall s, P s -> Q (f s).1 (f s).2) :
    Spec P (ask f) Q := by
  intro s hs r hr
  cases hr
  exact h s hs

theorem Spec.look {f : σ -> α} (h : forall s, P s -> Q (f s) s) : Spec P (look f) Q := by
  intro s hs r hr
  cases hr
  exact h s hs

theorem Spec.pure {v : α} (h : forall s, P s -> Q v s) :
    Spec P (Pure.pure v : StateT σ Option α) Q := by
  intro s hs r hr
  cases hr
  exact h s hs

theorem Spec.bind {f : α -> StateT σ Option β} {R : β -> σ -> Prop} (hm : Spec P m Q)
    (hf : forall v, Spec (Q v) (f v) R) : Spec P (m >>= f) R := by
  intro s hs r hr
  have hbind : (m >>= f) s = (m s).bind fun x => f x.1 x.2 := rfl
  rw [hbind, Option.bind_eq_some_iff] at hr
  rcases hr with ⟨x, hx, hr⟩
  exact hf x.1 x.2 (hm s hs x hx) r hr

theorem Spec.map {f : α -> β} {R : β -> σ -> Prop}
    (hm : Spec P m fun v s => R (f v) s) : Spec P (f <$> m) R := by
  have heq : f <$> m = m >>= fun v => Pure.pure (f v) := (bind_pure_comp f m).symm
  rw [heq]
  exact Spec.bind hm fun v => Spec.pure fun s hs => hs

theorem Spec.ite {c : Prop} [Decidable c] {m' : StateT σ Option α} (ht : c -> Spec P m Q)
    (he : ¬ c -> Spec P m' Q) : Spec P (if c then m else m') Q := by
  by_cases hc : c
  · rw [if_pos hc]
    exact ht hc
  · rw [if_neg hc]
    exact he hc

theorem Spec.mono {P' : σ -> Prop} {Q' : α -> σ -> Prop} (h : Spec P m Q)
    (hP : forall s, P' s -> P s) (hQ : forall v s, Q v s -> Q' v s) : Spec P' m Q' :=
  fun s hs r hr => hQ r.1 r.2 (h s (hP s hs) r hr)

theorem Spec.of_and {φ : Prop} (h : φ -> Spec P m Q) : Spec (fun s => φ ∧ P s) m Q :=
  fun s hs r hr => h hs.1 s hs.2 r hr

def Keeps (P : σ -> Prop) (m : StateT σ Option α) : Prop := Spec P m fun _ => P

theorem Keeps.bind {f : α -> StateT σ Option β} (hm : Keeps P m) (hf : forall v, Keeps P (f v)) :
    Keeps P (m >>= f) := Spec.bind hm hf

theorem Keeps.pure {v : α} : Keeps P (Pure.pure v : StateT σ Option α) := Spec.pure fun _ hs => hs

theorem Keeps.look {f : σ -> α} : Keeps P (look f) := Spec.look fun _ hs => hs

theorem Keeps.act {f : σ -> σ} (h : forall s, P s -> P (f s)) : Keeps P (act f) := Spec.act h

theorem Keeps.ask {f : σ -> α × σ} (h : forall s, P s -> P (f s).2) : Keeps P (ask f) := Spec.ask h

def times (n : Nat) (m : StateT σ Option Unit) : StateT σ Option Unit :=
  match n with
  | 0 => Pure.pure ()
  | n + 1 => m >>= fun _ => times n m

theorem Keeps.ite {c : Prop} [Decidable c] {m' : StateT σ Option α} (ht : Keeps P m)
    (he : Keeps P m') : Keeps P (if c then m else m') := Spec.ite (fun _ => ht) fun _ => he

theorem Keeps.times {m : StateT σ Option Unit} (h : Keeps P m) (n : Nat) : Keeps P (times n m) := by
  induction n with
  | zero => exact Keeps.pure
  | succ n ih => exact Keeps.bind h fun _ => ih

end
end Foundation
end PistormAtari
