import Mathlib
import PistormAtari.Foundation.Run

/-!
# A slot for one value

A component has a slot that holds at most one value.  An operation may offer a
value: the slot takes it when it is empty.  Other operations keep the slot or
clear it.  The values it shows along a run are then the offers it took, one
after the other.
-/

namespace PistormAtari
namespace Foundation

variable {σ ο α : Type _}

inductive SlotMove (offer : Option α) : Option α -> Option α -> Prop
  | kept (held : Option α) : SlotMove offer held held
  | cleared (held : Option α) : SlotMove offer held none
  | filled {v : α} (h : offer = some v) : SlotMove offer none (some v)

theorem SlotMove.filled_of {offer held held' : Option α} (h : SlotMove offer held held') {v : α}
    (hv : held' = some v) : held = some v ∨ (held = none ∧ offer = some v) := by
  cases h with
  | kept held => exact Or.inl hv
  | cleared held => cases hv
  | filled hoffer =>
      right
      constructor
      · rfl
      · rw [hoffer, hv]

structure Slot (step : σ -> ο -> σ) (Inv : σ -> Prop) (offer : ο -> Option α) where
  held : σ -> Option α
  keeps : forall s op, Inv s -> Inv (step s op)
  move : forall s op, Inv s -> SlotMove (offer op) (held s) (held (step s op))

namespace Slot

variable {step : σ -> ο -> σ} {Inv : σ -> Prop} {offer : ο -> Option α}

def heldAt (w : Slot step Inv offer) (s : σ) (ops : List ο) (t : Nat) : Option α :=
  w.held (run step s (ops.take t))

/-- The value that the slot holds after `t` operations is the offer of the operation
`k`, which found it empty, and it has been there since. -/
structure Shows (w : Slot step Inv offer) (s : σ) (ops : List ο) (k t : Nat) (v : α) :
    Prop where
  before : k < t
  offered : exists op, ops[k]? = some op ∧ offer op = some v
  empty : w.heldAt s ops k = none
  since : forall u, k < u -> u ≤ t -> w.heldAt s ops u = some v

theorem run_take_succ (s : σ) {ops : List ο} {t : Nat} {op : ο} (h : ops[t]? = some op) :
    run step s (ops.take (t + 1)) = step (run step s (ops.take t)) op := by
  rw [List.take_add_one, h, run_append]
  rfl

/-- Whatever the slot holds was offered, taken whole and kept since. -/
theorem exists_shows (w : Slot step Inv offer) {s : σ} (hs : Inv s) (hempty : w.held s = none)
    (ops : List ο) {t : Nat} (ht : t ≤ ops.length) {v : α} (hv : w.heldAt s ops t = some v) :
    exists k, w.Shows s ops k t v := by
  induction t with
  | zero =>
      unfold heldAt at hv
      rw [List.take_zero, run_nil, hempty] at hv
      cases hv
  | succ t ih =>
      have hlt : t < ops.length := ht
      have hop : ops[t]? = some ops[t] := List.getElem?_eq_getElem hlt
      have hnext : w.heldAt s ops (t + 1) = w.held (step (run step s (ops.take t)) ops[t]) :=
        congrArg w.held (run_take_succ s hop)
      have hmove := w.move _ ops[t] (run_invariant w.keeps hs (ops.take t))
      rcases hmove.filled_of (hnext.symm.trans hv) with hheld | ⟨hnone, hoffer⟩
      · rcases ih (Nat.le_of_lt hlt) hheld with ⟨k, hshows⟩
        refine ⟨k, Nat.lt_succ_of_lt hshows.before, hshows.offered, hshows.empty, ?_⟩
        intro u hku hut
        rcases Nat.le_succ_iff.mp hut with hle | heq
        · exact hshows.since u hku hle
        · rw [heq]
          exact hv
      · refine ⟨t, Nat.lt_succ_self t, ⟨ops[t], hop, hoffer⟩, hnone, ?_⟩
        intro u htu hut
        rw [Nat.le_antisymm hut htu]
        exact hv

theorem Shows.ordered {w : Slot step Inv offer} {s : σ} {ops : List ο} {k k' t t' : Nat}
    {v v' : α} (h : w.Shows s ops k t v) (h' : w.Shows s ops k' t' v') (ht : t ≤ t') :
    k ≤ k' := by
  apply Nat.le_of_not_lt
  intro hlt
  have hheld := h'.since k hlt (Nat.le_trans (Nat.le_of_lt h.before) ht)
  rw [h.empty] at hheld
  cases hheld

/-- One offer is shown at two moments exactly when the slot was never empty between
them. -/
theorem Shows.same_iff {w : Slot step Inv offer} {s : σ} {ops : List ο} {k k' t t' : Nat}
    {v v' : α} (h : w.Shows s ops k t v) (h' : w.Shows s ops k' t' v') (ht : t ≤ t') :
    k = k' <-> forall u, t ≤ u -> u ≤ t' -> w.heldAt s ops u ≠ none := by
  constructor
  · intro hk u htu hut hnone
    have hku : k' < u := by
      rw [← hk]
      exact Nat.lt_of_lt_of_le h.before htu
    rw [h'.since u hku hut] at hnone
    cases hnone
  · intro hfull
    apply Nat.le_antisymm (h.ordered h' ht)
    apply Nat.le_of_not_lt
    intro hlt
    rcases Nat.lt_or_ge k' t with hbefore | hafter
    · have hheld := h.since k' hlt (Nat.le_of_lt hbefore)
      rw [h'.empty] at hheld
      cases hheld
    · exact hfull k' hafter (Nat.le_of_lt h'.before) h'.empty

end Slot

end Foundation
end PistormAtari
