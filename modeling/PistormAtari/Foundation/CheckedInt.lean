import Mathlib

/-!
# Signed arithmetic that must not overflow

Sums and differences of 32 bits that have no value when they leave their range, and the
clipping of a rectangle written with them.
-/

namespace PistormAtari
namespace Foundation

inductive Fault where
  | overflow
  | divideByZero
deriving DecidableEq

def IntRange (v : Int) : Prop := -(2 ^ 31) ≤ v ∧ v < 2 ^ 31

instance (v : Int) : Decidable (IntRange v) := inferInstanceAs (Decidable (_ ∧ _))

theorem intRange_toInt (v : BitVec 32) : IntRange v.toInt := by
  have hlow := v.le_toInt
  have hhigh := v.toInt_lt
  exact ⟨hlow, hhigh⟩

def intAdd (a b : Int) : Except Fault Int :=
  if IntRange (a + b) then .ok (a + b) else .error .overflow

def intSub (a b : Int) : Except Fault Int :=
  if IntRange (a - b) then .ok (a - b) else .error .overflow

def natDiv (a b : Nat) : Except Fault Nat :=
  if b = 0 then .error .divideByZero else .ok (a / b)

/-!
## Clipping
-/

def clipLow (x w : Int) : Except Fault (Int × Int) :=
  if x < 0 then do
    let w <- intAdd w x
    return (0, w)
  else return (x, w)

def clipHigh (x w limit : Int) : Except Fault Int := do
  let last <- intAdd x w
  if limit < last then intSub limit x else return w

def Clippable (x w limit : Int) : Prop :=
  (x < 0 -> IntRange (w + x)) ∧
    (0 ≤ x -> IntRange (x + w) ∧ (limit < x + w -> IntRange (limit - x)))

instance (x w limit : Int) : Decidable (Clippable x w limit) :=
  inferInstanceAs (Decidable (_ ∧ _))

structure Rect where
  x : Int
  y : Int
  w : Int
  h : Int
deriving DecidableEq

/-- The part of a rectangle inside a view of `vw` by `vh`. -/
def Rect.clip (r : Rect) (vw vh : Int) : Except Fault Rect := do
  let (x, w) <- clipLow r.x r.w
  let (y, h) <- clipLow r.y r.h
  let w <- clipHigh x w vw
  let h <- clipHigh y h vh
  return { x := x, y := y, w := w, h := h }

/-- The rectangle of the same name in integers without bounds. -/
def Rect.inside (r : Rect) (vw vh : Int) : Rect :=
  { x := max r.x 0
    y := max r.y 0
    w := min (r.x + r.w) vw - max r.x 0
    h := min (r.y + r.h) vh - max r.y 0 }

def Rect.Clippable (r : Rect) (vw vh : Int) : Prop :=
  Foundation.Clippable r.x r.w vw ∧ Foundation.Clippable r.y r.h vh

instance (r : Rect) (vw vh : Int) : Decidable (r.Clippable vw vh) :=
  inferInstanceAs (Decidable (_ ∧ _))

theorem clipLow_of_clippable {x w limit : Int} (h : Clippable x w limit) :
    clipLow x w = .ok (max x 0, if x < 0 then w + x else w) := by
  unfold clipLow intAdd
  split
  · next hneg =>
    rw [if_pos (h.1 hneg), max_eq_right (le_of_lt hneg)]
    rfl
  · next hneg =>
    rw [max_eq_left (not_lt.mp hneg)]
    rfl

theorem clipHigh_of_clippable {x w limit : Int} (hlimit : IntRange limit)
    (h : Clippable x w limit) :
    clipHigh (max x 0) (if x < 0 then w + x else w) limit =
      .ok (min (x + w) limit - max x 0) := by
  unfold clipHigh intAdd intSub
  split
  · next hneg =>
    have hsum := h.1 hneg
    rw [max_eq_right (le_of_lt hneg), zero_add, sub_zero, sub_zero, if_pos hsum]
    rw [if_pos hlimit]
    change (if limit < w + x then _ else _) = _
    split
    · next hover =>
      rw [min_eq_right (by lia)]
    · next hover =>
      rw [min_eq_left (by lia), add_comm]
      rfl
  · next hneg =>
    have hsum := h.2 (not_lt.mp hneg)
    rw [max_eq_left (not_lt.mp hneg), if_pos hsum.1]
    change (if limit < x + w then _ else _) = _
    split
    · next hover => rw [if_pos (hsum.2 hover), min_eq_right (le_of_lt hover)]
    · next hover =>
      rw [min_eq_left (not_lt.mp hover), add_sub_cancel_left]
      rfl

/-- A span that cannot be clipped faults at one of the two steps. -/
theorem clip_fault_of_not_clippable {x w limit : Int} (h : ¬ Clippable x w limit) :
    clipLow x w = .error .overflow ∨
      exists start length, clipLow x w = .ok (start, length) ∧
        clipHigh start length limit = .error .overflow := by
  unfold clipLow clipHigh intAdd intSub
  rcases lt_or_ge x 0 with hneg | hpos
  · left
    have hsum : ¬ IntRange (w + x) := fun hsum => h ⟨fun _ => hsum, fun hx => absurd hneg (not_lt.mpr hx)⟩
    rw [if_pos hneg, if_neg hsum]
    rfl
  · right
    refine ⟨x, w, if_neg (not_lt.mpr hpos), ?_⟩
    rcases Classical.em (IntRange (x + w)) with hsum | hsum
    · rw [if_pos hsum]
      change (if limit < x + w then _ else _) = _
      have hover : limit < x + w ∧ ¬ IntRange (limit - x) := by
        by_contra hnot
        apply h
        constructor
        · intro hx
          exact absurd hx (not_lt.mpr hpos)
        · intro _
          refine ⟨hsum, fun hlt => ?_⟩
          by_contra hdiff
          exact hnot ⟨hlt, hdiff⟩
      rw [if_pos hover.1, if_neg hover.2]
    · rw [if_neg hsum]
      rfl

theorem Rect.clip_of_clippable {r : Rect} {vw vh : Int} (hvw : IntRange vw) (hvh : IntRange vh)
    (h : r.Clippable vw vh) : r.clip vw vh = .ok (r.inside vw vh) := by
  unfold Rect.clip
  rw [clipLow_of_clippable h.1, clipLow_of_clippable h.2]
  dsimp only [bind, Except.bind]
  rw [clipHigh_of_clippable hvw h.1]
  dsimp only
  rw [clipHigh_of_clippable hvh h.2]
  rfl

theorem clipLow_fault {x w : Int} {fault : Fault} (h : clipLow x w = .error fault) :
    fault = .overflow := by
  unfold clipLow intAdd at h
  split at h
  · split at h
    · cases h
    · cases h
      rfl
  · cases h

theorem Rect.clip_of_not_clippable {r : Rect} {vw vh : Int} (hvw : IntRange vw)
    (h : ¬ r.Clippable vw vh) : r.clip vw vh = .error .overflow := by
  unfold Rect.clip
  rcases Classical.em (Foundation.Clippable r.x r.w vw) with hx | hx
  · have hy : ¬ Foundation.Clippable r.y r.h vh := fun hy => h ⟨hx, hy⟩
    rw [clipLow_of_clippable hx]
    rcases clip_fault_of_not_clippable hy with hlow | ⟨start, length, hlow, hhigh⟩
    · rw [hlow]
      rfl
    · rw [hlow]
      dsimp only [bind, Except.bind]
      rw [clipHigh_of_clippable hvw hx]
      dsimp only
      rw [hhigh]
  · rcases clip_fault_of_not_clippable hx with hlow | ⟨start, length, hlow, hhigh⟩
    · rw [hlow]
      rfl
    · rw [hlow]
      dsimp only [bind, Except.bind]
      rcases hy : clipLow r.y r.h with fault | ⟨y, h'⟩
      · rw [clipLow_fault hy]
      · dsimp only
        rw [hhigh]

end Foundation
end PistormAtari
