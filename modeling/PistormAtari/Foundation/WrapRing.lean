import Mathlib

/-!
# Rings with free-running indices

The producer counts the values it has put in and the consumer those it has taken out, in
32 bits that wrap.  The slot of a value is its number modulo the size of the ring.
-/

namespace PistormAtari
namespace Foundation

variable {α : Type _}

structure WrapRing (α : Type _) where
  w : Nat -> α
  head : BitVec 32
  tail : BitVec 32

namespace WrapRing

def count (f : WrapRing α) : Nat := (f.head - f.tail).toNat

def push (size : Nat) (f : WrapRing α) (v : α) : Option (WrapRing α) :=
  if size ≤ f.count then none
  else some { f with w := Function.update f.w (f.head.toNat % size) v, head := f.head + 1 }

def peek (size : Nat) (f : WrapRing α) : Option α :=
  if f.tail = f.head then none else some (f.w (f.tail.toNat % size))

def pop (f : WrapRing α) : WrapRing α :=
  if f.tail = f.head then f else { f with tail := f.tail + 1 }

def contents (size : Nat) (f : WrapRing α) : List α :=
  (List.range f.count).map fun i => f.w ((f.tail.toNat + i) % size)

structure Holds (size : Nat) (f : WrapRing α) (q : List α) : Prop where
  fits : q.length ≤ size
  head : f.head = f.tail + BitVec.ofNat 32 q.length
  slots : forall i, i < q.length -> q[i]? = some (f.w ((f.tail.toNat + i) % size))

section
variable {size : Nat} {f : WrapRing α} {q : List α}

theorem toNat_add_mod (hdvd : size ∣ 2 ^ 32) (t : BitVec 32) (i : Nat) :
    (t + BitVec.ofNat 32 i).toNat % size = (t.toNat + i) % size := by
  rw [BitVec.toNat_add, BitVec.toNat_ofNat, Nat.add_mod_mod, Nat.mod_mod_of_dvd _ hdvd]

theorem Holds.count (h : Holds size f q) (hsize : size < 2 ^ 32) : f.count = q.length := by
  have hfits := h.fits
  unfold WrapRing.count
  rw [h.head, add_sub_cancel_left, BitVec.toNat_ofNat, Nat.mod_eq_of_lt (by lia)]

theorem Holds.contents (h : Holds size f q) (hsize : size < 2 ^ 32) : f.contents size = q := by
  apply List.ext_getElem?
  intro i
  unfold WrapRing.contents
  rw [h.count hsize, List.getElem?_map]
  rcases Nat.lt_or_ge i q.length with hin | hout
  · rw [List.getElem?_range hin, h.slots i hin]
    rfl
  · rw [List.getElem?_eq_none (by rw [List.length_range]; exact hout), List.getElem?_eq_none hout]
    rfl

theorem holds_nil (size : Nat) (w : Nat -> α) (t : BitVec 32) :
    Holds size { w := w, head := t, tail := t } [] := by
  constructor
  · exact Nat.zero_le _
  · exact (BitVec.add_zero t).symm
  · intro i hi
    exact absurd hi (Nat.not_lt_zero i)

section

variable (h : Holds size f q)

include h

theorem Holds.push_eq_none (hsize : size < 2 ^ 32) (v : α) :
    f.push size v = none <-> q.length = size := by
  have hfits := h.fits
  unfold push
  rw [h.count hsize]
  constructor
  · intro hnone
    split at hnone
    · lia
    · cases hnone
  · intro hfull
    rw [if_pos (le_of_eq hfull.symm)]

theorem Holds.push (hsize : size < 2 ^ 32) (hdvd : size ∣ 2 ^ 32) {v : α}
    {g : WrapRing α} (hg : f.push size v = some g) : Holds size g (q ++ [v]) := by
  unfold WrapRing.push at hg
  rw [h.count hsize] at hg
  split at hg
  · cases hg
  · next hroom =>
    cases hg
    have hlast : f.head.toNat % size = (f.tail.toNat + q.length) % size := by
      rw [h.head, toNat_add_mod hdvd]
    constructor
    · rw [List.length_append, List.length_singleton]
      lia
    · dsimp only
      rw [h.head, List.length_append, List.length_singleton, BitVec.ofNat_add, BitVec.add_assoc]
      rfl
    · intro i hi
      rw [List.length_append, List.length_singleton] at hi
      dsimp only
      rw [hlast]
      rcases Nat.lt_or_eq_of_le (Nat.lt_succ_iff.mp hi) with hold | hnew
      · have hne : (f.tail.toNat + i) % size ≠ (f.tail.toNat + q.length) % size := by
          intro heq
          have hmod : i % size = q.length % size := Nat.ModEq.add_left_cancel' f.tail.toNat heq
          rw [Nat.mod_eq_of_lt (by lia), Nat.mod_eq_of_lt (by lia)] at hmod
          lia
        rw [Function.update_of_ne hne, List.getElem?_append_left hold]
        exact h.slots i hold
      · rw [hnew, Function.update_self, List.getElem?_concat_length]

theorem Holds.empty_iff (hsize : size < 2 ^ 32) :
    f.tail = f.head <-> q = [] := by
  have hcount := h.count hsize
  unfold WrapRing.count at hcount
  constructor
  · intro heq
    rw [heq, BitVec.sub_self] at hcount
    exact List.eq_nil_of_length_eq_zero hcount.symm
  · rintro rfl
    rw [h.head]
    exact (BitVec.add_zero f.tail).symm

theorem Holds.peek (hsize : size < 2 ^ 32) : f.peek size = q.head? := by
  unfold WrapRing.peek
  cases q with
  | nil => rw [if_pos ((h.empty_iff hsize).mpr rfl), List.head?_nil]
  | cons v rest =>
      rw [if_neg (fun heq => List.cons_ne_nil v rest ((h.empty_iff hsize).mp heq))]
      have hfirst := h.slots 0 (Nat.zero_lt_succ _)
      rw [Nat.add_zero] at hfirst
      rw [List.head?_cons, ← hfirst]
      rfl

theorem Holds.drop (hdvd : size ∣ 2 ^ 32) {k : Nat} (hk : k ≤ q.length) :
    Holds size { f with tail := f.tail + BitVec.ofNat 32 k } (q.drop k) := by
  have hfits := h.fits
  constructor
  · rw [List.length_drop]
    lia
  · dsimp only
    rw [h.head, List.length_drop, BitVec.add_assoc, ← BitVec.ofNat_add, Nat.add_sub_cancel' hk]
  · intro i hi
    rw [List.length_drop] at hi
    have hslot := h.slots (k + i) (by lia)
    have hindex : ((f.tail + BitVec.ofNat 32 k).toNat + i) % size =
        (f.tail.toNat + (k + i)) % size := by
      rw [Nat.add_mod, toNat_add_mod hdvd, ← Nat.add_mod, Nat.add_assoc]
    dsimp only
    rw [hindex, List.getElem?_drop]
    exact hslot

theorem Holds.pop (hsize : size < 2 ^ 32) (hdvd : size ∣ 2 ^ 32) :
    Holds size f.pop q.tail := by
  unfold WrapRing.pop
  cases q with
  | nil =>
      rw [if_pos ((h.empty_iff hsize).mpr rfl)]
      exact h
  | cons v rest =>
      rw [if_neg (fun heq => List.cons_ne_nil v rest ((h.empty_iff hsize).mp heq))]
      exact h.drop hdvd (Nat.succ_le_succ (Nat.zero_le _))

/-- Whatever the consumer's index becomes, the ring holds the values from `k` on only if it
is the number of the value `k`. -/
theorem Holds.tail_eq {t : BitVec 32} {k : Nat} (hk : k ≤ q.length)
    (ht : Holds size { f with tail := t } (q.drop k)) : t = f.tail + BitVec.ofNat 32 k := by
  have hhead := ht.head
  dsimp only at hhead
  rw [h.head, List.length_drop] at hhead
  have hsum : BitVec.ofNat 32 q.length = BitVec.ofNat 32 k + BitVec.ofNat 32 (q.length - k) := by
    rw [← BitVec.ofNat_add, Nat.add_sub_cancel' hk]
  rw [hsum, ← BitVec.add_assoc] at hhead
  exact (add_right_cancel hhead).symm

end

end
end WrapRing
end Foundation
end PistormAtari
