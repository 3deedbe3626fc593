import PistormAtari.Hostdos.Engine

/-!
# Reading back guest memory

Addresses have 32 bits and wrap around.  What was written is read back from
where it was written, and everywhere else the memory is as it was.
-/

namespace PistormAtari
namespace Hostdos

theorem word32_be32 (v : BitVec 32) :
    word32 ((v >>> 24).setWidth 8) ((v >>> 16).setWidth 8) ((v >>> 8).setWidth 8)
      (v.setWidth 8) = v := by
  unfold word32
  apply BitVec.eq_of_getLsbD_eq
  intro i hi
  simp only [BitVec.getLsbD_or, BitVec.getLsbD_shiftLeft, BitVec.getLsbD_setWidth,
    BitVec.getLsbD_ushiftRight]
  interval_cases i <;> simp

@[simp] theorem length_be32 (v : BitVec 32) : (be32 v).length = 4 := rfl

theorem offset_toNat (a : Addr) {i : Nat} (h : i < 2 ^ 32) :
    (a + BitVec.ofNat 32 i - a).toNat = i := by
  rw [BitVec.add_comm, BitVec.add_sub_cancel, BitVec.toNat_ofNat, Nat.mod_eq_of_lt h]

variable (m : Mem)

theorem writeMem_inside (a : Addr) {bs : List Byte} {i : Nat} (hi : i < bs.length)
    (h : i < 2 ^ 32) : writeMem m a bs (a + BitVec.ofNat 32 i) = bs[i] := by
  unfold writeMem
  rw [offset_toNat a h, List.getD_eq_getElem _ _ hi]

theorem writeMem_outside {a x : Addr} {bs : List Byte}
    (h : bs.length ≤ (x - a).toNat) : writeMem m a bs x = m x := by
  unfold writeMem
  rw [List.getD_eq_default _ _ h]

theorem rd32_congr {m m' : Mem} {a : Addr}
    (h : forall i : Nat, i < 4 -> m (a + BitVec.ofNat 32 i) = m' (a + BitVec.ofNat 32 i)) :
    rd32 m a = rd32 m' a := by
  have h0 := h 0 (by decide)
  have h1 := h 1 (by decide)
  have h2 := h 2 (by decide)
  have h3 := h 3 (by decide)
  rw [BitVec.add_zero] at h0
  unfold rd32
  rw [h0, show (1 : Addr) = BitVec.ofNat 32 1 from rfl, h1,
    show (2 : Addr) = BitVec.ofNat 32 2 from rfl, h2,
    show (3 : Addr) = BitVec.ofNat 32 3 from rfl, h3]

theorem rd32_writeMem {m : Mem} {a : Addr} {pre post : List Byte} {v : BitVec 32}
    (h : pre.length + 4 ≤ 2 ^ 32) :
    rd32 (writeMem m a (pre ++ be32 v ++ post)) (a + BitVec.ofNat 32 pre.length) = v := by
  have hbyte : forall i : Nat, (hi : i < 4) ->
      writeMem m a (pre ++ be32 v ++ post)
        (a + BitVec.ofNat 32 pre.length + BitVec.ofNat 32 i) = (be32 v)[i] := by
    intro i hi
    rw [BitVec.add_assoc, ← BitVec.ofNat_add,
      writeMem_inside m a (by simp; lia) (by lia), List.getElem_append_left (by simp; lia),
      List.getElem_append_right (by lia)]
    simp only [Nat.add_sub_cancel_left]
    rfl
  have h0 := hbyte 0 (by decide)
  rw [BitVec.add_zero] at h0
  unfold rd32
  rw [h0, show (1 : Addr) = BitVec.ofNat 32 1 from rfl, hbyte 1 (by decide),
    show (2 : Addr) = BitVec.ofNat 32 2 from rfl, hbyte 2 (by decide),
    show (3 : Addr) = BitVec.ofNat 32 3 from rfl, hbyte 3 (by decide)]
  exact word32_be32 v

theorem rd32_wr32 (a : Addr) (v : BitVec 32) : rd32 (wr32 m a v) a = v := by
  have h : rd32 (writeMem m a ([] ++ be32 v ++ [])) (a + BitVec.ofNat 32 0) = v :=
    rd32_writeMem (by decide)
  rwa [List.nil_append, List.append_nil, BitVec.add_zero] at h

theorem wr32_outside {a x : Addr} (v : BitVec 32) (h : 4 ≤ (x - a).toNat) :
    wr32 m a v x = m x :=
  writeMem_outside m h

theorem rd32_wr32_apart {a b : Addr} (v : BitVec 32) (h : 4 ≤ (b - a).toNat)
    (h' : (b - a).toNat ≤ 2 ^ 32 - 4) : rd32 (wr32 m a v) b = rd32 m b := by
  apply rd32_congr
  intro i hi
  apply wr32_outside
  have hsub : (b + BitVec.ofNat 32 i - a).toNat = (b - a).toNat + i := by
    have hadd : b + BitVec.ofNat 32 i - a = (b - a) + BitVec.ofNat 32 i := by
      rw [BitVec.sub_eq_add_neg, BitVec.sub_eq_add_neg, BitVec.add_assoc, BitVec.add_assoc,
        BitVec.add_comm (BitVec.ofNat 32 i)]
    rw [hadd, BitVec.toNat_add, BitVec.toNat_ofNat]
    lia
  lia

/-!
## Blocks that do not wrap around
-/

theorem toNat_sub_of_le {x a : Addr} (h : a.toNat ≤ x.toNat) :
    (x - a).toNat = x.toNat - a.toNat :=
  BitVec.toNat_sub_of_le (BitVec.le_def.mpr h)

theorem writeMem_block_outside {a x : Addr} {bs : List Byte}
    (hwrap : a.toNat + bs.length ≤ 2 ^ 32)
    (h : x.toNat < a.toNat ∨ a.toNat + bs.length ≤ x.toNat) : writeMem m a bs x = m x := by
  apply writeMem_outside
  rcases h with h | h
  · rw [BitVec.toNat_sub]
    lia
  · rw [toNat_sub_of_le (by lia)]
    lia

theorem writeMem_block_inside {a x : Addr} {bs : List Byte}
    (hlo : a.toNat ≤ x.toNat) (hhi : x.toNat - a.toNat < bs.length) :
    writeMem m a bs x = bs[x.toNat - a.toNat] := by
  unfold writeMem
  rw [toNat_sub_of_le hlo, List.getD_eq_getElem _ _ hhi]

end Hostdos
end PistormAtari
