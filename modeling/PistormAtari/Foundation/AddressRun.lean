import Mathlib
import PistormAtari.Foundation.BlockMemory

/-!
# Runs of addresses

Values put one by one at the addresses that a counter of `w` bits runs through.  Below a
limit there is memory, at and above it there is none.  A run that does not wrap round is a
block; one that is no longer than the counter has addresses meets each of them at most once.
-/

namespace PistormAtari
namespace Foundation

variable {α : Type _} {w : Nat}

/-- The memory after the values are put at `addr`, `addr + 1` and so on. -/
def receive (limit : Nat) (mem : Nat -> α) (addr : BitVec w) : List α -> Nat -> α
  | [] => mem
  | v :: vs =>
      receive limit (if addr.toNat < limit then Function.update mem addr.toNat v else mem)
        (addr + 1#w) vs

section
variable {limit : Nat} {mem : Nat -> α}

theorem receive_append (addr : BitVec w) (xs ys : List α) :
    receive limit mem addr (xs ++ ys) =
      receive limit (receive limit mem addr xs) (addr + BitVec.ofNat w xs.length) ys := by
  induction xs generalizing mem addr with
  | nil =>
      show receive limit mem addr ys = receive limit mem (addr + 0#w) ys
      rw [BitVec.add_zero]
  | cons v vs ih =>
      have hnext : addr + BitVec.ofNat w (v :: vs).length =
          addr + 1#w + BitVec.ofNat w vs.length := by
        rw [List.length_cons, BitVec.ofNat_add, BitVec.add_assoc, BitVec.add_comm (1#w)]
      rw [List.cons_append, receive, ih, hnext]
      rfl

theorem writeBlock_singleton (mem : Nat -> α) (a : Nat) (v : α) :
    writeBlock mem a [v] = Function.update mem a v := by
  funext x
  by_cases hx : x = a
  · rw [hx, Function.update_self]
    exact @writeBlock_of_inside _ mem a 0 [v] Nat.one_pos
  · rw [Function.update_of_ne hx, writeBlock_of_outside]
    rw [List.length_singleton]
    lia

/-- A run that does not wrap round is the block of its values below the limit. -/
theorem receive_of_run {addr : BitVec w} {vs : List α} (h : addr.toNat + vs.length ≤ 2 ^ w) :
    receive limit mem addr vs = writeBlock mem addr.toNat (vs.take (limit - addr.toNat)) := by
  induction vs generalizing mem addr with
  | nil => rw [List.take_nil, writeBlock_nil, receive]
  | cons v vs ih =>
      rw [List.length_cons] at h
      rw [receive]
      cases vs with
      | nil =>
          rw [receive]
          split
          · rw [List.take_of_length_le (by rw [List.length_singleton]; lia), writeBlock_singleton]
          · rw [Nat.sub_eq_zero_of_le (by lia), List.take_zero, writeBlock_nil]
      | cons v' vs =>
          rw [List.length_cons] at h
          have hnext : (addr + 1#w).toNat = addr.toNat + 1 := by
            have hone : (1#w).toNat = 1 := by
              rw [BitVec.toNat_ofNat]
              exact Nat.mod_eq_of_lt (by lia)
            rw [BitVec.toNat_add, hone]
            exact Nat.mod_eq_of_lt (by lia)
          rw [ih (by rw [hnext, List.length_cons]; lia), hnext]
          split
          · have hroom : limit - addr.toNat = (limit - (addr.toNat + 1)) + 1 := by lia
            rw [hroom, List.take_succ_cons, ← writeBlock_singleton, ← List.singleton_append]
            exact writeBlock_writeBlock_append mem addr.toNat [v] _
          · rw [Nat.sub_eq_zero_of_le (by lia), Nat.sub_eq_zero_of_le (by lia), List.take_zero,
              List.take_zero, writeBlock_nil, writeBlock_nil]

theorem receive_of_missed {addr : BitVec w} {vs : List α} {x : Nat}
    (h : forall i, i < vs.length -> (addr.toNat + i) % 2 ^ w ≠ x) :
    receive limit mem addr vs x = mem x := by
  induction vs generalizing mem addr with
  | nil => rfl
  | cons v vs ih =>
      have hfirst : x ≠ addr.toNat := by
        have hne := h 0 (Nat.succ_pos _)
        rw [Nat.add_zero, Nat.mod_eq_of_lt addr.isLt] at hne
        exact hne.symm
      have hrest : forall i, i < vs.length -> ((addr + 1#w).toNat + i) % 2 ^ w ≠ x := by
        intro i hi
        have hne := h (i + 1) (Nat.succ_lt_succ hi)
        have hsame : ((addr + 1#w).toNat + i) % 2 ^ w = (addr.toNat + (i + 1)) % 2 ^ w := by
          rw [BitVec.toNat_add, BitVec.toNat_ofNat, Nat.add_mod_mod, Nat.mod_add_mod, Nat.add_assoc,
            Nat.add_comm 1 i]
        rw [hsame]
        exact hne
      rw [receive, ih hrest]
      split
      · exact Function.update_of_ne hfirst _ _
      · rfl

theorem receive_of_met {addr : BitVec w} {xs ys : List α} {v : α}
    (hlen : (xs ++ v :: ys).length ≤ 2 ^ w) (hx : (addr.toNat + xs.length) % 2 ^ w < limit) :
    receive limit mem addr (xs ++ v :: ys) ((addr.toNat + xs.length) % 2 ^ w) = v := by
  have haddr : (addr + BitVec.ofNat w xs.length).toNat = (addr.toNat + xs.length) % 2 ^ w := by
    rw [BitVec.toNat_add, BitVec.toNat_ofNat, Nat.add_mod_mod]
  rw [List.length_append, List.length_cons] at hlen
  rw [receive_append, receive, haddr, if_pos hx, receive_of_missed]
  · exact Function.update_self _ _ _
  · intro j hj
    have hnext : ((addr + BitVec.ofNat w xs.length + 1#w).toNat + j) % 2 ^ w =
        (addr.toNat + xs.length + (j + 1)) % 2 ^ w := by
      rw [BitVec.toNat_add, BitVec.toNat_ofNat, Nat.add_mod_mod, Nat.mod_add_mod, haddr,
        Nat.add_assoc, Nat.mod_add_mod, Nat.add_comm 1 j]
    rw [hnext]
    intro heq
    have hmod : addr.toNat + xs.length + (j + 1) ≡ addr.toNat + xs.length + 0 [MOD 2 ^ w] := heq
    have hdvd : 2 ^ w ∣ j + 1 := (Nat.modEq_zero_iff_dvd).mp (Nat.ModEq.add_left_cancel' _ hmod)
    have hle := Nat.le_of_dvd (Nat.succ_pos j) hdvd
    lia

end

end Foundation
end PistormAtari
