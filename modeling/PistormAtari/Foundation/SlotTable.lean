import Mathlib

/-!
# Tables of recycled slots

A table has a fixed number of slots.  Each holds an entry with a key; entries
that come later have larger keys, and the key `0` marks a slot that is free.  A
new entry takes a free slot, or that of the smallest key.  An entry then stays as
long as fewer entries have come after it than there are other slots.
-/

namespace PistormAtari
namespace Foundation

variable {α : Type _} {key : α -> Nat} {slots : List α} {k i j : Nat} {s x : α}

/-- Slot `i` holds `s`, and no other slot holds an entry with the key `k`. -/
structure Sole (key : α -> Nat) (slots : List α) (k i : Nat) (s : α) : Prop where
  slot : slots[i]? = some s
  key_eq : key s = k
  only : forall j x, slots[j]? = some x -> key x = k -> j = i

def Absent (key : α -> Nat) (slots : List α) (k : Nat) : Prop :=
  forall x, x ∈ slots -> key x ≠ k

def Oldest (key : α -> Nat) (slots : List α) (i : Nat) : Prop :=
  forall s, slots[i]? = some s -> key s = 0 ∨ forall x, x ∈ slots -> key s ≤ key x

def newer (key : α -> Nat) (slots : List α) (k : Nat) : Nat :=
  slots.countP (fun x => k < key x)

theorem getElem?_set_cases {y : α} (h : (slots.set j x)[i]? = some y) :
    (i = j ∧ y = x) ∨ (i ≠ j ∧ slots[i]? = some y) := by
  rcases Decidable.em (j = i) with rfl | hne
  · rw [List.getElem?_set_self'] at h
    rcases Option.map_eq_some_iff.mp h with ⟨_, _, heq⟩
    exact Or.inl ⟨rfl, heq.symm⟩
  · rw [List.getElem?_set_ne hne] at h
    exact Or.inr ⟨fun heq => hne heq.symm, h⟩

theorem Sole.set_other (h : Sole key slots k i s) (hne : j ≠ i) (hx : key x ≠ k) :
    Sole key (slots.set j x) k i s where
  slot := by
    rw [List.getElem?_set_ne hne]
    exact h.slot
  key_eq := h.key_eq
  only := by
    intro i' y hy hkey
    rcases getElem?_set_cases hy with ⟨_, rfl⟩ | ⟨_, hy⟩
    · exact absurd hkey hx
    · exact h.only i' y hy hkey

theorem Sole.set_self (h : Sole key slots k i s) (hx : key x = k) :
    Sole key (slots.set i x) k i x where
  slot := by
    rw [List.getElem?_set_self', h.slot]
    rfl
  key_eq := hx
  only := by
    intro i' y hy hkey
    rcases getElem?_set_cases hy with ⟨rfl, _⟩ | ⟨_, hy⟩
    · rfl
    · exact h.only i' y hy hkey

theorem Sole.remove (h : Sole key slots k i s) (hx : key x ≠ k) :
    Absent key (slots.set i x) k := by
  intro y hy hkey
  rcases List.mem_iff_getElem?.mp hy with ⟨i', hi'⟩
  rcases getElem?_set_cases hi' with ⟨_, rfl⟩ | ⟨hne, hi'⟩
  · exact hx hkey
  · exact hne (h.only i' y hi' hkey)

theorem Absent.set (h : Absent key slots k) (hx : key x ≠ k) :
    Absent key (slots.set j x) k := by
  intro y hy
  rcases List.mem_or_eq_of_mem_set hy with hy | rfl
  · exact h y hy
  · exact hx

/-- Where there is no entry yet, one that is put in is the only one. -/
theorem Absent.insert (h : Absent key slots k) (hj : j < slots.length) (hx : key x = k) :
    Sole key (slots.set j x) k j x where
  slot := List.getElem?_set_self hj
  key_eq := hx
  only := by
    intro i' y hy hkey
    rcases getElem?_set_cases hy with ⟨heq, _⟩ | ⟨_, hy⟩
    · exact heq
    · exact absurd hkey (h y (List.mem_of_getElem? hy))

theorem newer_set_le (j k : Nat) (x : α) :
    newer key (slots.set j x) k ≤ newer key slots k + 1 := by
  unfold newer
  rcases Nat.lt_or_ge j slots.length with hj | hj
  · rw [List.countP_set hj]
    split
    · split <;> lia
    · split <;> lia
  · rw [List.set_eq_of_length_le hj]
    lia

theorem newer_set_old (j : Nat) (hx : key x ≤ k) :
    newer key (slots.set j x) k ≤ newer key slots k := by
  unfold newer
  rcases Nat.lt_or_ge j slots.length with hj | hj
  · rw [List.countP_set hj, if_neg (show ¬ decide (k < key x) = true by simp; lia)]
    lia
  · rw [List.set_eq_of_length_le hj]

theorem newer_set_same (hslot : slots[j]? = some s) (hx : key x = key s) :
    newer key (slots.set j x) k = newer key slots k := by
  rcases List.getElem?_eq_some_iff.mp hslot with ⟨hj, hs⟩
  unfold newer
  rw [List.countP_set hj, hs, hx]
  split
  · rename_i hlt
    have hpos : 0 < slots.countP (fun x => decide (k < key x)) :=
      List.countP_pos_iff.mpr ⟨s, List.mem_of_getElem? hslot, hlt⟩
    lia
  · lia

theorem Sole.length_le (h : Sole key slots k i s)
    (hold : forall x, x ∈ slots -> k ≤ key x) : slots.length ≤ newer key slots k + 1 := by
  have hi : i < slots.length := (List.getElem?_eq_some_iff.mp h.slot).1
  have hall : forall x, x ∈ slots.eraseIdx i -> decide (k < key x) = true := by
    intro x hx
    rcases List.mem_eraseIdx_iff_getElem?.mp hx with ⟨j, hne, hj⟩
    have hle := hold x (List.mem_of_getElem? hj)
    have hkey : key x ≠ k := fun heq => hne (h.only j x hj heq)
    rw [decide_eq_true_eq]
    lia
  have hcount : (slots.eraseIdx i).countP (fun x => decide (k < key x)) ≤ newer key slots k :=
    (List.eraseIdx_sublist slots i).countP_le
  rw [List.countP_eq_length.mpr hall, List.length_eraseIdx_of_lt hi] at hcount
  lia

/-- The slot of an entry is not given away while fewer entries are newer than there
are other slots. -/
theorem Sole.ne_oldest (h : Sole key slots k i s) (hk : k ≠ 0) (hj : Oldest key slots j)
    (hfew : newer key slots k + 1 < slots.length) : j ≠ i := by
  rintro rfl
  rcases hj s h.slot with hzero | hold
  · exact hk (h.key_eq.symm.trans hzero)
  · rw [h.key_eq] at hold
    have hle := h.length_le hold
    lia

end Foundation
end PistormAtari
