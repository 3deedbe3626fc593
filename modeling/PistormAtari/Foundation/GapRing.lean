import Mathlib

/-!
# Rings with a free slot

The slots are numbered by all values of a machine word, and so are the ends, which wrap
round with it.  Equal ends stand for an empty ring, so one slot stays free.  A ring that is
full drops what is put in.
-/

namespace PistormAtari
namespace Foundation

structure GapRing (w : Nat) (α : Type _) where
  slot : BitVec w -> α
  head : BitVec w
  tail : BitVec w

namespace GapRing

variable {w : Nat} {α : Type _}

def push (f : GapRing w α) (v : α) : GapRing w α :=
  if f.tail + 1 ≠ f.head then
    { f with slot := Function.update f.slot f.tail v, tail := f.tail + 1 }
  else f

def front (f : GapRing w α) : α := f.slot f.head

def pop (f : GapRing w α) : GapRing w α := { f with head := f.head + 1 }

def clear (f : GapRing w α) : GapRing w α := { f with head := 0, tail := 0 }

def contents (f : GapRing w α) : List α :=
  (List.range (f.tail - f.head).toNat).map fun i => f.slot (f.head + BitVec.ofNat w i)

def free (f : GapRing w α) : Nat := 2 ^ w - 1 - f.contents.length

def pushAll (f : GapRing w α) (vs : List α) : GapRing w α := vs.foldl push f

section
variable (f : GapRing w α)

theorem length_contents : f.contents.length = (f.tail - f.head).toNat := by
  unfold contents
  rw [List.length_map, List.length_range]

theorem length_contents_le : f.contents.length ≤ 2 ^ w - 1 := by
  have hlt := (f.tail - f.head).isLt
  rw [length_contents]
  lia

theorem contents_eq_nil_iff : f.contents = [] <-> f.head = f.tail := by
  rw [← List.length_eq_zero_iff, length_contents]
  constructor
  · intro hzero
    have hdiff : f.tail - f.head = 0 := BitVec.eq_of_toNat_eq hzero
    exact (sub_eq_zero.mp hdiff).symm
  · intro heq
    rw [heq, BitVec.sub_self, BitVec.toNat_zero]

theorem contents_clear : f.clear.contents = [] :=
  (contents_eq_nil_iff _).mpr rfl

theorem tail_succ_eq_iff : f.tail + 1 = f.head <-> f.free = 0 := by
  have hlt := (f.tail - f.head).isLt
  have hle := f.length_contents_le
  have hmove : f.tail + 1 = f.head <-> f.tail - f.head = -1 := by
    constructor
    · intro h
      rw [← h, sub_add_eq_sub_sub, sub_self, zero_sub]
    · intro h
      rw [sub_eq_iff_eq_add.mp h]
      abel
  have hnat : f.tail - f.head = -1 <-> (f.tail - f.head).toNat = 2 ^ w - 1 := by
    rw [← BitVec.toNat_inj]
    constructor
    · intro h
      rw [h]
      exact BitVec.toNat_allOnes ▸ congrArg BitVec.toNat BitVec.neg_one_eq_allOnes
    · intro h
      rw [h]
      exact (BitVec.toNat_allOnes ▸ congrArg BitVec.toNat BitVec.neg_one_eq_allOnes).symm
  rw [hmove, hnat]
  unfold free
  rw [length_contents] at hle ⊢
  lia

theorem push_of_full (h : f.free = 0) (v : α) : f.push v = f :=
  if_neg (fun hne => hne (f.tail_succ_eq_iff.mpr h))

variable {f}

theorem contents_push (h : f.free ≠ 0) (v : α) : (f.push v).contents = f.contents ++ [v] := by
  have hroom : f.tail + 1 ≠ f.head := fun heq => h (f.tail_succ_eq_iff.mp heq)
  have hlen := f.length_contents
  have hcount : (f.tail + 1 - f.head).toNat = (f.tail - f.head).toNat + 1 := by
    have hone : 1 < 2 ^ w := by
      unfold free at h
      lia
    have hsum : f.tail + 1 - f.head = (f.tail - f.head) + 1 := by abel
    have hunit : (1 : BitVec w).toNat = 1 := BitVec.toNat_one (by lia)
    rw [hsum, BitVec.toNat_add, hunit, Nat.mod_eq_of_lt]
    unfold free at h
    lia
  have hold : forall i, i < (f.tail - f.head).toNat -> f.head + BitVec.ofNat w i ≠ f.tail := by
    intro i hi heq
    have hdiff : BitVec.ofNat w i = f.tail - f.head := eq_sub_of_add_eq' heq
    have hnat := congrArg BitVec.toNat hdiff
    rw [BitVec.toNat_ofNat, Nat.mod_eq_of_lt (Nat.lt_trans hi (BitVec.isLt _))] at hnat
    lia
  have hlast : f.head + BitVec.ofNat w (f.tail - f.head).toNat = f.tail := by
    rw [BitVec.ofNat_toNat, BitVec.setWidth_eq]
    abel
  unfold push contents
  rw [if_pos hroom]
  dsimp only
  rw [hcount, List.range_succ, List.map_append, List.map_singleton, hlast, Function.update_self]
  congr 1
  apply List.map_congr_left
  intro i hi
  exact Function.update_of_ne (hold i (List.mem_range.mp hi)) ..

theorem contents_pop (h : f.head ≠ f.tail) : f.contents = f.front :: f.pop.contents := by
  have hpos : (f.tail - f.head).toNat ≠ 0 := by
    rw [← length_contents]
    intro hzero
    exact h (f.contents_eq_nil_iff.mp (List.eq_nil_of_length_eq_zero hzero))
  have hcount : (f.tail - f.head).toNat = (f.tail - (f.head + 1)).toNat + 1 := by
    have hlt := (f.tail - f.head).isLt
    have hsum : f.tail - (f.head + 1) = (f.tail - f.head) - 1 := by abel
    have hwide : 0 < w := by
      apply Nat.pos_of_ne_zero
      rintro rfl
      exact hpos (Nat.lt_one_iff.mp hlt)
    have hunit : (1 : BitVec w).toNat = 1 := BitVec.toNat_one hwide
    have hle : (1 : BitVec w) ≤ f.tail - f.head := by
      rw [BitVec.le_def, hunit]
      exact Nat.one_le_iff_ne_zero.mpr hpos
    rw [hsum, BitVec.toNat_sub_of_le hle, hunit, Nat.sub_add_cancel (Nat.pos_of_ne_zero hpos)]
  unfold contents front pop
  dsimp only
  rw [hcount, List.range_succ_eq_map, List.map_cons, List.map_map]
  congr 1
  · exact congrArg f.slot (add_zero f.head)
  · apply List.map_congr_left
    intro i _
    dsimp only [Function.comp]
    rw [BitVec.add_assoc, Nat.succ_eq_add_one, BitVec.ofNat_add, add_comm (BitVec.ofNat w i)]
    rfl

theorem contents_pushAll (f : GapRing w α) (vs : List α) :
    (f.pushAll vs).contents = f.contents ++ vs.take f.free := by
  induction vs generalizing f with
  | nil => rw [List.take_nil, List.append_nil]; rfl
  | cons v rest ih =>
      have hstep : f.pushAll (v :: rest) = (f.push v).pushAll rest := rfl
      rw [hstep, ih]
      by_cases hfull : f.free = 0
      · rw [push_of_full f hfull, hfull, List.take_zero, List.take_zero]
      · have hfree : (f.push v).free + 1 = f.free := by
          have hcontents := contents_push hfull v
          unfold free at hfull ⊢
          rw [hcontents, List.length_append, List.length_singleton]
          lia
        rw [contents_push hfull, ← hfree, List.take_succ_cons, List.append_assoc,
          List.singleton_append]

theorem pushAll_whole_iff (f : GapRing w α) (vs : List α) :
    (f.pushAll vs).contents = f.contents ++ vs ∨ (f.pushAll vs).contents = f.contents <->
      vs.length ≤ f.free ∨ f.free = 0 := by
  rw [contents_pushAll, List.append_cancel_left_eq, List.append_right_eq_self]
  rw [List.take_eq_self_iff, List.take_eq_nil_iff]
  constructor
  · rintro (hall | hnone | hnil)
    · exact Or.inl hall
    · exact Or.inr hnone
    · rw [hnil]
      exact Or.inl (Nat.zero_le _)
  · rintro (hall | hnone)
    · exact Or.inl hall
    · exact Or.inr (Or.inl hnone)

theorem free_pushAll (f : GapRing w α) (vs : List α) : (f.pushAll vs).free = f.free - vs.length := by
  unfold free
  rw [contents_pushAll, List.length_append, List.length_take]
  unfold free
  lia

end

/-!
## Packets
-/

def pushPackets (f : GapRing w α) (packets : List (List α)) : GapRing w α :=
  packets.foldl pushAll f

def Whole (f : GapRing w α) : List (List α) -> Prop
  | [] => True
  | packet :: rest =>
      ((f.pushAll packet).contents = f.contents ++ packet ∨
        (f.pushAll packet).contents = f.contents) ∧ Whole (f.pushAll packet) rest

/-- Each packet finds room for all of it, or for none of it. -/
def Roomy : Nat -> List (List α) -> Prop
  | _, [] => True
  | free, packet :: rest => (packet.length ≤ free ∨ free = 0) ∧ Roomy (free - packet.length) rest

instance Roomy.decidable : (free : Nat) -> (packets : List (List α)) ->
    Decidable (Roomy free packets)
  | _, [] => isTrue trivial
  | free, packet :: rest =>
      have : Decidable (Roomy (free - packet.length) rest) :=
        Roomy.decidable (free - packet.length) rest
      inferInstanceAs (Decidable (_ ∧ _))

theorem whole_iff_roomy (f : GapRing w α) (packets : List (List α)) :
    f.Whole packets <-> Roomy f.free packets := by
  induction packets generalizing f with
  | nil => exact Iff.rfl
  | cons packet rest ih =>
      have hrest := ih (f.pushAll packet)
      rw [free_pushAll] at hrest
      exact and_congr (f.pushAll_whole_iff packet) hrest

theorem contents_pushPackets {f : GapRing w α} {packets : List (List α)} (h : f.Whole packets) :
    exists kept : List (List α), kept.Sublist packets ∧
      (f.pushPackets packets).contents = f.contents ++ kept.flatten := by
  induction packets generalizing f with
  | nil => exact ⟨[], List.Sublist.refl _, (List.append_nil _).symm⟩
  | cons packet rest ih =>
      rcases h with ⟨hpacket, hrest⟩
      rcases ih hrest with ⟨kept, hsublist, hcontents⟩
      have hstep : f.pushPackets (packet :: rest) = (f.pushAll packet).pushPackets rest := rfl
      rcases hpacket with hkept | hdropped
      · refine ⟨packet :: kept, hsublist.cons_cons packet, ?_⟩
        rw [hstep, hcontents, hkept, List.flatten_cons, List.append_assoc]
      · refine ⟨kept, hsublist.cons packet, ?_⟩
        rw [hstep, hcontents, hdropped]

end GapRing
end Foundation
end PistormAtari
