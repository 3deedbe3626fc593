import PistormAtari.Foundation.CheckedInt

/-!
# Copies of a rectangle, row by row

Two pictures lie in two memories, each with its own distance between rows.  A copy takes
the same columns of some rows from one to the other.
-/

namespace PistormAtari
namespace Foundation

variable {α : Type _}

/-- Where the first row of a picture starts, and how far apart its rows are. -/
structure Plane where
  base : Nat
  stride : Nat

def Plane.place (p : Plane) (bytes x y : Nat) : Nat := p.base + y * p.stride + x * bytes

/-- The picture's rows up to the end of a rectangle are in a memory of `size` bytes. -/
def Plane.Holds (p : Plane) (size bytes : Nat) (r : Rect) : Prop :=
  p.place bytes (r.x + r.w).toNat ((r.y + r.h).toNat - 1) ≤ size

instance (p : Plane) (size bytes : Nat) (r : Rect) : Decidable (p.Holds size bytes r) :=
  inferInstanceAs (Decidable (_ ≤ _))

/-- `len` bytes of the shared memory, or of the memory that is written. -/
inductive Access where
  | shared (off len : Nat)
  | store (off len : Nat)

def Access.Inside (size room : Nat) : Access -> Prop
  | .shared off len => len = 0 ∨ off + len ≤ size
  | .store off len => len = 0 ∨ off + len ≤ room

instance (size room : Nat) : (a : Access) -> Decidable (a.Inside size room)
  | .shared _ _ => inferInstanceAs (Decidable (_ ∨ _))
  | .store _ _ => inferInstanceAs (Decidable (_ ∨ _))

def memcpy (dst : Nat -> α) (first : Nat) (src : Nat -> α) (start len : Nat) : Nat -> α :=
  fun i => if first ≤ i ∧ i < first + len then src (start + (i - first)) else dst i

def copyRows (src : Plane) (shm : Nat -> α) (dst : Plane) (bytes x y w : Nat) :
    Nat -> (Nat -> α) -> Nat -> α
  | 0, m => m
  | h + 1, m =>
      memcpy (copyRows src shm dst bytes x y w h m) (dst.place bytes x (y + h)) shm
        (src.place bytes x (y + h)) (w * bytes)

def rowAccesses (src dst : Plane) (bytes x y w h : Nat) : List Access :=
  (List.range h).flatMap fun row =>
    [.shared (src.place bytes x (y + row)) (w * bytes),
      .store (dst.place bytes x (y + row)) (w * bytes)]

/-!
## What a copy touches
-/

theorem Plane.place_add (p : Plane) (bytes x y w : Nat) :
    p.place bytes x y + w * bytes = p.place bytes (x + w) y := by
  unfold place
  rw [Nat.add_mul, Nat.add_assoc]

theorem Plane.place_le_place (p : Plane) (bytes x : Nat) {y y' : Nat} (h : y ≤ y') :
    p.place bytes x y ≤ p.place bytes x y' := by
  have hmul := Nat.mul_le_mul_right p.stride h
  unfold place
  lia

theorem rowAccesses_inside_iff (src dst : Plane) {bytes x y w h size room : Nat} (hw : 0 < w)
    (hh : 0 < h) :
    (forall a, a ∈ rowAccesses src dst bytes x y w h -> a.Inside size room) <->
      bytes = 0 ∨ (src.place bytes (x + w) (y + h - 1) ≤ size ∧
        dst.place bytes (x + w) (y + h - 1) ≤ room) := by
  have hlast : y + (h - 1) = y + h - 1 := by lia
  constructor
  · intro hall
    rcases Nat.eq_zero_or_pos bytes with hzero | hpos
    · exact Or.inl hzero
    · right
      have hlen : w * bytes ≠ 0 := Nat.mul_ne_zero (Nat.ne_of_gt hw) (Nat.ne_of_gt hpos)
      have hmem : h - 1 ∈ List.range h := List.mem_range.mpr (Nat.sub_lt hh Nat.one_pos)
      have hsrc := hall _ (List.mem_flatMap.mpr ⟨h - 1, hmem, List.mem_cons_self⟩)
      have hdst := hall _ (List.mem_flatMap.mpr
        ⟨h - 1, hmem, List.mem_cons_of_mem _ List.mem_cons_self⟩)
      constructor
      · rcases hsrc with hzero | hin
        · exact absurd hzero hlen
        · rw [Plane.place_add, hlast] at hin
          exact hin
      · rcases hdst with hzero | hin
        · exact absurd hzero hlen
        · rw [Plane.place_add, hlast] at hin
          exact hin
  · intro hfits a ha
    rcases List.mem_flatMap.mp ha with ⟨row, hrow, hpair⟩
    have hle : y + row ≤ y + h - 1 := by
      have hlt := List.mem_range.mp hrow
      lia
    rcases hfits with hzero | ⟨hsrc, hdst⟩
    · have hlen : w * bytes = 0 := by rw [hzero, Nat.mul_zero]
      rcases List.mem_pair.mp hpair with rfl | rfl
      · exact Or.inl hlen
      · exact Or.inl hlen
    · rcases List.mem_pair.mp hpair with rfl | rfl
      · right
        rw [Plane.place_add]
        exact le_trans (src.place_le_place bytes _ hle) hsrc
      · right
        rw [Plane.place_add]
        exact le_trans (dst.place_le_place bytes _ hle) hdst

/-!
## What a copy leaves
-/

theorem row_span_iff {stride n y y' c : Nat} (hn : n ≤ stride) (hc : c < stride) :
    (y * stride ≤ y' * stride + c ∧ y' * stride + c < y * stride + n) <-> y = y' ∧ c < n := by
  constructor
  · rintro ⟨hlow, hhigh⟩
    rcases Nat.lt_trichotomy y y' with hlt | rfl | hgt
    · have hmul := Nat.mul_le_mul_right stride hlt
      rw [Nat.succ_mul] at hmul
      lia
    · exact ⟨rfl, by lia⟩
    · have hmul := Nat.mul_le_mul_right stride hgt
      rw [Nat.succ_mul] at hmul
      lia
  · rintro ⟨rfl, hlt⟩
    lia

/-- Whole rows: a place of the destination is the source's in the rows that were copied. -/
theorem copyRows_row (src dst : Plane) (shm : Nat -> α) {bytes y w h vy c : Nat} (m : Nat -> α)
    (hw : w * bytes ≤ dst.stride) (hc : c < dst.stride) :
    copyRows src shm dst bytes 0 y w h m (dst.base + vy * dst.stride + c) =
      if y ≤ vy ∧ vy < y + h ∧ c < w * bytes then shm (src.base + vy * src.stride + c)
      else m (dst.base + vy * dst.stride + c) := by
  induction h with
  | zero =>
      have hnone : ¬ (y ≤ vy ∧ vy < y + 0 ∧ c < w * bytes) := by lia
      rw [if_neg hnone]
      rfl
  | succ h ih =>
      have hspan := @row_span_iff dst.stride (w * bytes) (y + h) vy c hw hc
      unfold copyRows memcpy Plane.place
      rw [Nat.zero_mul, Nat.add_zero]
      rcases Classical.em (y + h = vy ∧ c < w * bytes) with hrow | hrow
      · have hin := hspan.mpr hrow
        have hwhole : y ≤ vy ∧ vy < y + (h + 1) ∧ c < w * bytes := by lia
        rw [if_pos (by lia), if_pos hwhole, hrow.1]
        congr 1
        lia
      · have hout : ¬ (dst.base + (y + h) * dst.stride ≤ dst.base + vy * dst.stride + c ∧
            dst.base + vy * dst.stride + c < dst.base + (y + h) * dst.stride + w * bytes) := by
          intro hin
          exact hrow (hspan.mp (by lia))
        rw [if_neg hout, ih]
        have hiff : (y ≤ vy ∧ vy < y + h ∧ c < w * bytes) <->
            y ≤ vy ∧ vy < y + (h + 1) ∧ c < w * bytes := by lia
        rw [if_congr hiff rfl rfl]

end Foundation
end PistormAtari
