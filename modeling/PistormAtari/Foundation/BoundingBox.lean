import Mathlib

/-!
# Bounding boxes

A box has first and last rows, and columns from a first one to one past the last.
Boxes are merged by the lower of the first and the higher of the last coordinates.
-/

namespace PistormAtari
namespace Foundation

@[ext] structure Box where
  rmin : Nat
  rmax : Nat
  xmin : Nat
  xmax : Nat
deriving DecidableEq, Repr

namespace Box

structure Within (b c : Box) : Prop where
  rmin : c.rmin ≤ b.rmin
  rmax : b.rmax ≤ c.rmax
  xmin : c.xmin ≤ b.xmin
  xmax : b.xmax ≤ c.xmax

def join (b c : Box) : Box where
  rmin := min b.rmin c.rmin
  rmax := max b.rmax c.rmax
  xmin := min b.xmin c.xmin
  xmax := max b.xmax c.xmax

theorem within_join_left (b c : Box) : b.Within (b.join c) :=
  ⟨min_le_left _ _, le_max_left _ _, min_le_left _ _, le_max_left _ _⟩

theorem within_join_right (b c : Box) : c.Within (b.join c) :=
  ⟨min_le_right _ _, le_max_right _ _, min_le_right _ _, le_max_right _ _⟩

theorem join_eq_left_iff {b c : Box} : b.join c = b <-> c.Within b := by
  constructor
  · intro h
    rw [← h]
    exact within_join_right b c
  · intro h
    apply Box.ext
    · exact min_eq_left h.rmin
    · exact max_eq_left h.rmax
    · exact min_eq_left h.xmin
    · exact max_eq_left h.xmax

def bounding (first : Box) (bs : List Box) : Box := bs.foldr (fun b c => c.join b) first

@[simp] theorem bounding_cons (first b : Box) (bs : List Box) :
    bounding first (b :: bs) = (bounding first bs).join b := rfl

end Box

end Foundation
end PistormAtari
