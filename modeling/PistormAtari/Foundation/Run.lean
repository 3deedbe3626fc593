import Mathlib

/-!
# Runs of a step function

A component is driven by a list of operations.  A run is the fold of its step
function; what every step preserves holds after every run.
-/

namespace PistormAtari
namespace Foundation

variable {σ ο : Type _}

def run (step : σ -> ο -> σ) (s : σ) (ops : List ο) : σ :=
  ops.foldl step s

@[simp] theorem run_nil (step : σ -> ο -> σ) (s : σ) : run step s [] = s := rfl

@[simp] theorem run_cons (step : σ -> ο -> σ) (s : σ) (op : ο) (ops : List ο) :
    run step s (op :: ops) = run step (step s op) ops := rfl

theorem run_append (step : σ -> ο -> σ) (s : σ) (ops ops' : List ο) :
    run step s (ops ++ ops') = run step (run step s ops) ops' := by
  unfold run
  rw [List.foldl_append]

variable {step : σ -> ο -> σ}

theorem run_invariant {Inv : σ -> Prop}
    (hstep : forall s op, Inv s -> Inv (step s op)) {s : σ} (hs : Inv s)
    (ops : List ο) : Inv (run step s ops) := by
  induction ops generalizing s with
  | nil => exact hs
  | cons op rest ih => exact ih (hstep s op hs)

/-- The run of a step function whose operations are restricted to those that
meet a condition in the state they are taken in. -/
def Steps (step : σ -> ο -> σ) (ok : σ -> ο -> Prop) : σ -> List ο -> Prop
  | _, [] => True
  | s, op :: rest => ok s op ∧ Steps step ok (step s op) rest

instance Steps.decidable {step : σ -> ο -> σ} {ok : σ -> ο -> Prop}
    [hok : forall s op, Decidable (ok s op)] :
    (s : σ) -> (ops : List ο) -> Decidable (Steps step ok s ops)
  | _, [] => isTrue trivial
  | s, op :: rest =>
      have : Decidable (Steps step ok (step s op) rest) := Steps.decidable (step s op) rest
      inferInstanceAs (Decidable (ok s op ∧ Steps step ok (step s op) rest))

variable {ok : σ -> ο -> Prop}

/-- Each operation of such a run meets the condition in the state it is taken in. -/
theorem Steps.at {s : σ} {pre post : List ο}
    {op : ο} (h : Steps step ok s (pre ++ op :: post)) : ok (run step s pre) op := by
  induction pre generalizing s with
  | nil => exact h.1
  | cons first rest ih => exact ih h.2

theorem Steps.append_iff {s : σ} {ops ops' : List ο} :
    Steps step ok s (ops ++ ops') <-> Steps step ok s ops ∧ Steps step ok (run step s ops) ops' := by
  induction ops generalizing s with
  | nil => exact ⟨fun h => ⟨trivial, h⟩, fun h => h.2⟩
  | cons op rest ih =>
      constructor
      · rintro ⟨hop, hrest⟩
        rcases ih.mp hrest with ⟨hleft, hright⟩
        exact ⟨⟨hop, hleft⟩, hright⟩
      · rintro ⟨⟨hop, hleft⟩, hright⟩
        exact ⟨hop, ih.mpr ⟨hleft, hright⟩⟩

theorem Steps.and_iff {ok ok' : σ -> ο -> Prop} {s : σ} {ops : List ο} :
    Steps step (fun s op => ok s op ∧ ok' s op) s ops <->
      Steps step ok s ops ∧ Steps step ok' s ops := by
  induction ops generalizing s with
  | nil => exact ⟨fun _ => ⟨trivial, trivial⟩, fun _ => trivial⟩
  | cons op rest ih =>
      unfold Steps
      rw [ih]
      exact and_and_and_comm

theorem Steps.invariant {Inv : σ -> Prop}
    (hstep : forall s op, Inv s -> ok s op -> Inv (step s op)) {s : σ} (hs : Inv s)
    {ops : List ο} (h : Steps step ok s ops) : Inv (run step s ops) := by
  induction ops generalizing s with
  | nil => exact hs
  | cons op rest ih => exact ih (hstep s op hs h.1) h.2

/-- A condition that keeps an invariant, and gives another one wherever it holds,
gives it along every run. -/
theorem Steps.imp_of_invariant {ok ok' : σ -> ο -> Prop} {Inv : σ -> Prop}
    (hstep : forall s op, Inv s -> ok s op -> ok' s op ∧ Inv (step s op)) {s : σ} (hs : Inv s)
    {ops : List ο} (h : Steps step ok s ops) : Steps step ok' s ops := by
  induction ops generalizing s with
  | nil => trivial
  | cons op rest ih =>
      have hnext := hstep s op hs h.1
      exact ⟨hnext.1, ih hnext.2 h.2⟩

/-- Two conditions that agree wherever an invariant holds restrict runs alike. -/
theorem Steps.iff_of_invariant {ok ok' : σ -> ο -> Prop} {Inv : σ -> Prop}
    (hstep : forall s op, Inv s -> ok' s op -> Inv (step s op))
    (hiff : forall s op, Inv s -> (ok s op <-> ok' s op)) {s : σ} (hs : Inv s)
    {ops : List ο} : Steps step ok s ops <-> Steps step ok' s ops := by
  induction ops generalizing s with
  | nil => exact Iff.rfl
  | cons op rest ih =>
      unfold Steps
      rw [hiff s op hs]
      apply and_congr_right
      intro hok
      exact ih (hstep s op hs hok)

/-- Where a step against the condition shows after one more operation, a run that never shows
anything is a run of steps that meet it. -/
theorem Steps.of_continued {Inv : σ -> Prop}
    (good : σ -> Prop) (last : ο) (hstep : forall s op, Inv s -> Inv (step s op))
    (hshows : forall s op, Inv s -> ¬ ok s op -> ¬ good (step (step s op) last)) {s : σ}
    (hs : Inv s) {ops : List ο}
    (h : forall pre, pre <+: ops -> good (run step s (pre ++ [last]))) : Steps step ok s ops := by
  induction ops generalizing s with
  | nil => trivial
  | cons op rest ih =>
      constructor
      · by_contra hbad
        exact hshows s op hs hbad (h [op] (List.cons_prefix_cons.mpr ⟨rfl, List.nil_prefix⟩))
      · apply ih (hstep s op hs)
        intro pre hpre
        exact h (op :: pre) (List.cons_prefix_cons.mpr ⟨rfl, hpre⟩)

/-- A run whose idle operations change nothing is the run of the other operations. -/
theorem Steps.run_filter {Inv : σ -> Prop}
    (busy : ο -> Bool) (hstep : forall s op, Inv s -> ok s op -> Inv (step s op))
    (hidle : forall s op, Inv s -> ok s op -> busy op = false -> step s op = s) {s : σ}
    (hs : Inv s) {ops : List ο} (h : Steps step ok s ops) :
    run step s ops = run step s (ops.filter busy) := by
  induction ops generalizing s with
  | nil => rfl
  | cons op rest ih =>
      have hrest := ih (hstep s op hs h.1) h.2
      cases hbusy : busy op with
      | true =>
          rw [List.filter_cons_of_pos hbusy, run_cons, run_cons, hrest]
      | false =>
          rw [List.filter_cons_of_neg (by rw [hbusy]; exact Bool.false_ne_true), run_cons, hrest,
            hidle s op hs h.1 hbusy]

/-!
## Hidden state

A computation may carry a state, such as a cache, that its result does not
depend on.
-/

/-- From any state that meets the invariant, `x` returns `v` and keeps the
invariant. -/
def Computes {α : Type _} (Inv : σ -> Prop) (x : StateM σ α) (v : α) : Prop :=
  forall s, Inv s -> (x s).1 = v ∧ Inv (x s).2

theorem Computes.pure {α : Type _} (Inv : σ -> Prop) (v : α) :
    Computes Inv (Pure.pure v : StateM σ α) v :=
  fun _ hs => ⟨rfl, hs⟩

theorem Computes.bind {α β : Type _} {Inv : σ -> Prop} {x : StateM σ α} {v : α}
    {f : α -> StateM σ β} {w : β} (hx : Computes Inv x v) (hf : Computes Inv (f v) w) :
    Computes Inv (x >>= f) w := by
  intro s hs
  rcases hx s hs with ⟨hv, hs'⟩
  have h := hf (x s).2 hs'
  rw [← hv] at h
  exact h

end Foundation
end PistormAtari
