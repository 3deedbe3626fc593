import Mathlib
import PistormAtari.Network.ReceiveSlot

/-!
# Reads of the network window

A read of two or four bytes may be compared with the reads of its halves.  The registers are 32
bits wide and the frame has an end, and a read looks only at the register its first byte is in,
or only at a frame that holds all of its bytes.
-/

namespace PistormAtari
namespace Network

open Foundation

def windowSize : Word32 := 0x1000

def pistormNetOwnsAddress (n : NetState) (address : Word32) : Bool :=
  n.enabled && decide (n.base &&& 0x00FFFFFF ≤ address &&& 0x00FFFFFF) &&
    decide (address &&& 0x00FFFFFF < (n.base &&& 0x00FFFFFF) + windowSize)

def joined (bits : Nat) (high low : Word32) : Word32 := high <<< bits ||| low

def LongJoins (n : NetState) (address : Word32) : Prop :=
  pistormNetRead n address 4 =
    joined 16 (pistormNetRead n address 2) (pistormNetRead n (address + 2) 2)

def WordJoins (n : NetState) (address : Word32) : Prop :=
  pistormNetRead n address 2 =
    joined 8 (pistormNetRead n address 1) (pistormNetRead n (address + 1) 1)

instance (n : NetState) (address : Word32) : Decidable (LongJoins n address) :=
  inferInstanceAs (Decidable (_ = _))

instance (n : NetState) (address : Word32) : Decidable (WordJoins n address) :=
  inferInstanceAs (Decidable (_ = _))

def placeOf (n : NetState) (address : Word32) : Nat := (windowOffset n address).toNat

def InFrame (n : NetState) (place size : Nat) : Prop :=
  n.rxReady = true ∧ rxData.toNat ≤ place ∧ place + size ≤ rxData.toNat + n.rxLen.toNat

instance (n : NetState) (place size : Nat) : Decidable (InFrame n place size) :=
  inferInstanceAs (Decidable (_ ∧ _))

/-- So many bytes do not run past the end of the address space. -/
def Unwrapped (address : Word32) (size : Nat) : Prop :=
  (address &&& 0x00FFFFFF).toNat + size ≤ 2 ^ 24

/-- Four bytes whose halves are in one register, or both in the frame or both outside. -/
def LongWhole (n : NetState) (place : Nat) : Prop :=
  (place < txData.toNat -> place % 4 ≤ 1) ∧ (InFrame n place 2 <-> InFrame n (place + 2) 2)

/-- Two bytes that are a half of a register, or both in the frame or both outside. -/
def WordWhole (n : NetState) (place : Nat) : Prop :=
  (place < txData.toNat -> place % 2 = 0) ∧ (InFrame n place 1 <-> InFrame n (place + 1) 1)

instance (address : Word32) (size : Nat) : Decidable (Unwrapped address size) :=
  inferInstanceAs (Decidable (_ ≤ _))

instance (n : NetState) (place : Nat) : Decidable (LongWhole n place) :=
  inferInstanceAs (Decidable (_ ∧ _))

/-!
## Joined bytes
-/

def lowMask (bits : Nat) : Word32 := (BitVec.allOnes bits).setWidth 32

theorem joined_fields (reg : Word32) (bits shift : Nat) :
    joined bits ((reg >>> (shift + bits)) &&& lowMask bits) ((reg >>> shift) &&& lowMask bits) =
      (reg >>> shift) &&& lowMask (2 * bits) := by
  apply BitVec.eq_of_getLsbD_eq
  intro i hi
  unfold joined lowMask
  simp only [BitVec.getLsbD_or, BitVec.getLsbD_shiftLeft, BitVec.getLsbD_and,
    BitVec.getLsbD_ushiftRight, BitVec.getLsbD_setWidth, BitVec.getLsbD_allOnes, hi,
    decide_true, Bool.true_and]
  by_cases hlow : i < bits
  · have hall : i < 2 * bits := by lia
    simp only [hlow, hall, decide_true, Bool.not_true, Bool.false_and, Bool.false_or,
      Bool.and_true]
  · have hsum : shift + bits + (i - bits) = shift + i := by lia
    have hback : i - bits < 32 := by lia
    have hfield : i - bits < bits <-> i < 2 * bits := by lia
    simp only [hlow, hsum, hback, hfield, decide_true, decide_false, Bool.not_false,
      Bool.true_and, Bool.and_false, Bool.or_false]

theorem pnetLoadBe_append (xs ys : List UInt8) :
    pnetLoadBe (xs ++ ys) = joined (8 * ys.length) (pnetLoadBe xs) (pnetLoadBe ys) := by
  have hfrom : forall (zs : List UInt8) (start : Word32),
      zs.foldl (fun (value : Word32) b => value <<< 8 ||| b.toBitVec.setWidth 32) start =
        start <<< (8 * zs.length) ||| pnetLoadBe zs := by
    intro zs
    induction zs using List.reverseRecOn with
    | nil =>
        intro start
        show start = start <<< 0 ||| 0
        simp
    | append_singleton rest b ih =>
        intro start
        unfold pnetLoadBe
        rw [List.foldl_append, List.foldl_append, ih, ih 0]
        simp only [List.foldl_cons, List.foldl_nil, List.length_append, List.length_singleton]
        have hzero : (0 : Word32) <<< (8 * rest.length) <<< 8 = 0 := by simp
        rw [BitVec.shiftLeft_or_distrib, BitVec.shiftLeft_or_distrib, hzero, Nat.mul_add,
          BitVec.shiftLeft_add, BitVec.or_assoc]
        exact congrArg (_ ||| ·) (congrArg (· ||| _) BitVec.zero_or.symm)
  unfold joined
  rw [← hfrom ys (pnetLoadBe xs)]
  unfold pnetLoadBe
  rw [List.foldl_append]

/-!
## What a read finds
-/

def regAt (n : NetState) (place : Nat) : Word32 :=
  pnetReadRegLocked n (BitVec.ofNat 32 (place / 4 * 4))

def fieldAt (reg : Word32) (place : Nat) (size : Word32) : Word32 :=
  if size = 4 then reg
  else if size = 2 then (reg >>> (if place % 4 < 2 then 16 else 0)) &&& lowMask 16
  else (reg >>> ((3 - place % 4) * 8)) &&& lowMask 8

theorem aligned_eq (offset : Word32) :
    offset &&& ~~~(3 : Word32) = BitVec.ofNat 32 (offset.toNat / 4 * 4) := by
  have hmask : (~~~3 : Word32) = BitVec.allOnes 32 <<< 2 := by decide
  have hshift : offset &&& ~~~(3 : Word32) = (offset >>> 2) <<< 2 := by
    rw [hmask]
    apply BitVec.eq_of_getLsbD_eq
    intro i hi
    simp only [BitVec.getLsbD_and, BitVec.getLsbD_shiftLeft, BitVec.getLsbD_ushiftRight,
      BitVec.getLsbD_allOnes, hi, decide_true, Bool.true_and]
    by_cases hlow : i < 2
    · simp only [hlow, decide_true, Bool.not_true, Bool.false_and, Bool.and_false]
    · have hback : 2 + (i - 2) = i := by lia
      have hlt : i - 2 < 32 := by lia
      simp only [hlow, hlt, hback, decide_true, decide_false, Bool.not_false, Bool.true_and,
        Bool.and_true]
  rw [hshift]
  apply BitVec.eq_of_toNat_eq
  rw [BitVec.toNat_shiftLeft, BitVec.toNat_ushiftRight, BitVec.toNat_ofNat,
    Nat.shiftRight_eq_div_pow, Nat.shiftLeft_eq]

theorem low_eq (offset : Word32) : (offset &&& 3).toNat = offset.toNat % 4 := by
  rw [BitVec.toNat_and]
  exact Nat.and_two_pow_sub_one_eq_mod offset.toNat 2

theorem shift_eq (offset : Word32) :
    ((3 - (offset &&& 3)) * 8).toNat = (3 - offset.toNat % 4) * 8 ∧
      (((3 - (offset &&& 3)) * 8) &&& 16).toNat = if offset.toNat % 4 < 2 then 16 else 0 := by
  have hcases : offset &&& 3 = 0 ∨ offset &&& 3 = 1 ∨ offset &&& 3 = 2 ∨ offset &&& 3 = 3 := by
    have hlow := low_eq offset
    bv_omega
  rw [← low_eq]
  rcases hcases with h | h | h | h
  · rw [h]; decide
  · rw [h]; decide
  · rw [h]; decide
  · rw [h]; decide

variable {n : NetState}

theorem inBuffer_iff {address size : Word32} (hsize : legalSize size)
    (hplace : placeOf n address < 65536) :
    inBuffer rxData (windowOffset n address) size <->
      2048 ≤ placeOf n address ∧ placeOf n address + size.toNat ≤ 3562 := by
  have hbound := hsize.toNat
  have hsum : (windowOffset n address + size).toNat = placeOf n address + size.toNat := by
    rw [BitVec.toNat_add]
    apply Nat.mod_eq_of_lt
    show placeOf n address + size.toNat < 2 ^ 32
    lia
  unfold inBuffer
  rw [BitVec.le_def, BitVec.le_def, hsum]
  exact Iff.rfl

theorem toNat_frameOff {address : Word32} (h : 2048 ≤ placeOf n address) :
    (windowOffset n address - rxData).toNat = placeOf n address - 2048 := by
  have hle : rxData ≤ windowOffset n address := h
  rw [BitVec.toNat_sub_of_le hle]
  rfl

theorem pistormNetRead_eq (hinv : NetInv n) {address size : Word32}
    (hsize : legalSize size) (hplace : placeOf n address < 65536) :
    pistormNetRead n address size =
      if InFrame n (placeOf n address) size.toNat then
        pnetLoadBe ((n.rxFrame.drop (placeOf n address - 2048)).take size.toNat)
      else if placeOf n address < 256 then
        fieldAt (regAt n (placeOf n address)) (placeOf n address) size
      else 0 := by
  have hbound := hsize.toNat
  have hbuffer := inBuffer_iff hsize hplace
  unfold pistormNetRead
  dsimp only
  rw [if_neg (not_not.mpr hsize)]
  by_cases hin : inBuffer rxData (windowOffset n address) size
  · have hinside := hbuffer.mp hin
    have hsum := toNat_add_of_inBuffer hsize hin
    rw [toNat_frameOff hinside.1] at hsum
    have hiff : (n.rxReady = true ∧ windowOffset n address - rxData + size ≤ n.rxLen) <->
        InFrame n (placeOf n address) size.toNat := by
      unfold InFrame
      rw [BitVec.le_def, hsum]
      have hdata : rxData.toNat = 2048 := rfl
      lia
    have hfar : ¬ placeOf n address < 256 := by lia
    rw [if_pos hin, if_neg hfar, toNat_frameOff hinside.1]
    by_cases hframe : InFrame n (placeOf n address) size.toNat
    · rw [if_pos hframe, if_pos (hiff.mpr hframe)]
    · rw [if_neg hframe, if_neg (mt hiff.mp hframe)]
  · have hframe : ¬ InFrame n (placeOf n address) size.toNat := by
      rintro ⟨hready, hlow, hhigh⟩
      have hlegal := (hinv.legal hready).2
      have hdata : rxData.toNat = 2048 := rfl
      have hmax : frameMax = 1514 := rfl
      exact hin (hbuffer.mpr ⟨by lia, by lia⟩)
    have haligned : windowOffset n address &&& ~~~(3 : Word32) < txData <-> placeOf n address < 256 := by
      rw [aligned_eq, BitVec.lt_def, BitVec.toNat_ofNat]
      show placeOf n address / 4 * 4 % 2 ^ 32 < 256 <-> _
      lia
    have hshift := shift_eq (windowOffset n address)
    rw [if_neg hin, if_neg hframe]
    by_cases hreg : placeOf n address < 256
    · rw [if_pos (haligned.mpr hreg), if_pos hreg, hshift.1, hshift.2, aligned_eq]
      rfl
    · rw [if_neg (mt haligned.mp hreg), if_neg hreg]

/-!
## Whole and in halves
-/

theorem toNat_masked (address : Word32) :
    (address &&& 0x00FFFFFF).toNat = address.toNat % 2 ^ 24 := by
  rw [BitVec.toNat_and]
  exact Nat.and_two_pow_sub_one_eq_mod address.toNat 24

theorem placeOf_lt {address : Word32} (h : pistormNetOwnsAddress n address = true) :
    placeOf n address < 4096 := by
  unfold pistormNetOwnsAddress at h
  rw [Bool.and_eq_true, Bool.and_eq_true, decide_eq_true_iff, decide_eq_true_iff] at h
  have hbase := toNat_masked n.base
  have hsize : windowSize.toNat = 4096 := rfl
  have hlt := h.2
  rw [BitVec.lt_def, BitVec.toNat_add] at hlt
  unfold placeOf windowOffset
  rw [BitVec.toNat_sub_of_le h.1.2]
  lia

theorem placeOf_add {address : Word32} (h : pistormNetOwnsAddress n address = true)
    {k : Word32} {size : Nat} (hk : k.toNat < size) (hwrap : Unwrapped address size) :
    placeOf n (address + k) = placeOf n address + k.toNat := by
  have howned := h
  unfold pistormNetOwnsAddress at h
  rw [Bool.and_eq_true, Bool.and_eq_true, decide_eq_true_iff, decide_eq_true_iff] at h
  have hfold : (address + k) &&& 0x00FFFFFF = (address &&& 0x00FFFFFF) + k := by
    apply BitVec.eq_of_toNat_eq
    unfold Unwrapped at hwrap
    rw [toNat_masked] at hwrap
    rw [BitVec.toNat_add, toNat_masked, toNat_masked, BitVec.toNat_add]
    lia
  have hplace := placeOf_lt howned
  unfold placeOf windowOffset at hplace ⊢
  rw [hfold, add_sub_right_comm, BitVec.toNat_add]
  have hbound : k.toNat < 2 ^ 24 := by
    unfold Unwrapped at hwrap
    lia
  apply Nat.mod_eq_of_lt
  lia

theorem joined_zero (bits : Nat) : joined bits 0 0 = 0 := by
  simp [joined]

theorem pnetLoadBe_halves {bytes : List UInt8} {start half : Nat}
    (h : start + 2 * half ≤ bytes.length) :
    pnetLoadBe ((bytes.drop start).take (2 * half)) =
      joined (8 * half) (pnetLoadBe ((bytes.drop start).take half))
        (pnetLoadBe ((bytes.drop (start + half)).take half)) := by
  have hcut : (bytes.drop start).take (2 * half) =
      (bytes.drop start).take half ++ (bytes.drop (start + half)).take half := by
    rw [Nat.two_mul, List.take_add, List.drop_drop]
  have hlength : ((bytes.drop (start + half)).take half).length = half := by
    rw [List.length_take, List.length_drop]
    lia
  rw [hcut, pnetLoadBe_append, hlength]

theorem longJoins_of_whole (hinv : NetInv n) {address : Word32}
    (howned : pistormNetOwnsAddress n address = true) (hwrap : Unwrapped address 4)
    (hwhole : LongWhole n (placeOf n address)) : LongJoins n address := by
  have hplace := placeOf_lt howned
  have hnext : placeOf n (address + 2) = placeOf n address + 2 :=
    placeOf_add howned (show (2 : Word32).toNat < 4 by decide) hwrap
  unfold LongJoins
  rw [pistormNetRead_eq hinv (show legalSize 4 by decide) (by lia),
    pistormNetRead_eq hinv (show legalSize 2 by decide) (by lia),
    pistormNetRead_eq hinv (show legalSize 2 by decide) (show placeOf n (address + 2) < _ by lia),
    hnext]
  have hfour : (4 : Word32).toNat = 2 * 2 := rfl
  have htwo : (2 : Word32).toNat = 2 := rfl
  have hdata : rxData.toNat = 2048 := rfl
  rw [hfour, htwo]
  generalize placeOf n address = place at *
  by_cases hframe : InFrame n place 2
  · have hsecond := hwhole.2.mp hframe
    have hall : InFrame n place (2 * 2) := ⟨hframe.1, hframe.2.1, hsecond.2.2⟩
    have hlength := hinv.length hframe.1
    have hlow := hframe.2.1
    have hhigh := hall.2.2
    have hskip : place + 2 - 2048 = place - 2048 + 2 := by lia
    rw [if_pos hall, if_pos hframe, if_pos hsecond, hskip]
    exact pnetLoadBe_halves (by lia)
  · have hsecond := mt hwhole.2.mpr hframe
    have hall : ¬ InFrame n place (2 * 2) := fun h => hframe ⟨h.1, h.2.1, by have := h.2.2; lia⟩
    rw [if_neg hall, if_neg hframe, if_neg hsecond]
    by_cases hreg : place < 256
    · have hstep := hwhole.1 hreg
      have hsame : (place + 2) / 4 = place / 4 := by lia
      have hfirst : place % 4 < 2 := by lia
      have hlast : ¬ (place + 2) % 4 < 2 := by lia
      have hregs : regAt n (place + 2) = regAt n place := by
        unfold regAt
        rw [hsame]
      have hjoin := joined_fields (regAt n place) 16 0
      have hwide : (regAt n place >>> 0) &&& lowMask (2 * 16) = regAt n place := by
        rw [BitVec.ushiftRight_zero]
        exact BitVec.and_allOnes
      rw [hwide] at hjoin
      rw [if_pos hreg, if_pos hreg, if_pos (show place + 2 < 256 by lia), hregs]
      unfold fieldAt
      rw [if_pos rfl, if_neg (show (2 : Word32) ≠ 4 by decide), if_pos rfl, if_pos hfirst,
        if_neg (show (2 : Word32) ≠ 4 by decide), if_pos rfl, if_neg hlast]
      exact hjoin.symm
    · rw [if_neg hreg, if_neg hreg, if_neg (show ¬ place + 2 < 256 by lia), joined_zero]

theorem wordJoins_of_whole (hinv : NetInv n) {address : Word32}
    (howned : pistormNetOwnsAddress n address = true) (hwrap : Unwrapped address 2)
    (hwhole : WordWhole n (placeOf n address)) : WordJoins n address := by
  have hplace := placeOf_lt howned
  have hnext : placeOf n (address + 1) = placeOf n address + 1 :=
    placeOf_add howned (show (1 : Word32).toNat < 2 by decide) hwrap
  unfold WordJoins
  rw [pistormNetRead_eq hinv (show legalSize 2 by decide) (by lia),
    pistormNetRead_eq hinv (show legalSize 1 by decide) (by lia),
    pistormNetRead_eq hinv (show legalSize 1 by decide) (show placeOf n (address + 1) < _ by lia),
    hnext]
  have htwo : (2 : Word32).toNat = 2 * 1 := rfl
  have hone : (1 : Word32).toNat = 1 := rfl
  have hdata : rxData.toNat = 2048 := rfl
  rw [htwo, hone]
  generalize placeOf n address = place at *
  by_cases hframe : InFrame n place 1
  · have hsecond := hwhole.2.mp hframe
    have hall : InFrame n place (2 * 1) := ⟨hframe.1, hframe.2.1, hsecond.2.2⟩
    have hlength := hinv.length hframe.1
    have hlow := hframe.2.1
    have hhigh := hall.2.2
    have hskip : place + 1 - 2048 = place - 2048 + 1 := by lia
    rw [if_pos hall, if_pos hframe, if_pos hsecond, hskip]
    exact pnetLoadBe_halves (by lia)
  · have hsecond := mt hwhole.2.mpr hframe
    have hall : ¬ InFrame n place (2 * 1) := fun h => hframe ⟨h.1, h.2.1, by have := h.2.2; lia⟩
    rw [if_neg hall, if_neg hframe, if_neg hsecond]
    by_cases hreg : place < 256
    · have hstep := hwhole.1 hreg
      have hsame : (place + 1) / 4 = place / 4 := by lia
      have hregs : regAt n (place + 1) = regAt n place := by
        unfold regAt
        rw [hsame]
      have hshift : (3 - place % 4) * 8 = (3 - (place + 1) % 4) * 8 + 8 := by lia
      have hhalf : (if place % 4 < 2 then 16 else 0) = (3 - (place + 1) % 4) * 8 := by
        split
        · lia
        · lia
      rw [if_pos hreg, if_pos hreg, if_pos (show place + 1 < 256 by lia), hregs]
      unfold fieldAt
      rw [if_neg (show (2 : Word32) ≠ 4 by decide), if_pos rfl,
        if_neg (show (1 : Word32) ≠ 4 by decide), if_neg (show (1 : Word32) ≠ 2 by decide),
        if_neg (show (1 : Word32) ≠ 4 by decide), if_neg (show (1 : Word32) ≠ 2 by decide),
        hshift, hhalf]
      exact (joined_fields (regAt n place) 8 _).symm
    · rw [if_neg hreg, if_neg hreg, if_neg (show ¬ place + 1 < 256 by lia), joined_zero]

/-- In every state a read finds the bytes of the frame if it holds all of them, the register its
first byte is in, or nothing, and so a read that has the same behind it as its halves is made up
of them. -/
theorem window_reads_join (ops : List NetOp) (address : Word32)
    (howned : pistormNetOwnsAddress (run netStep gNet ops) address = true) :
    let n := run netStep gNet ops
    let place := placeOf n address
    (forall size, legalSize size -> pistormNetRead n address size =
      if InFrame n place size.toNat then
        pnetLoadBe ((n.rxFrame.drop (place - 2048)).take size.toNat)
      else if place < 256 then fieldAt (regAt n place) place size
      else 0) ∧
    (Unwrapped address 4 -> LongWhole n place -> LongJoins n address) ∧
      (Unwrapped address 2 -> WordWhole n place -> WordJoins n address) := by
  intro n place
  have hinv : NetInv n := run_invariant netStep_inv gNet_inv ops
  have hplace := placeOf_lt howned
  refine ⟨?_, longJoins_of_whole hinv howned, wordJoins_of_whole hinv howned⟩
  intro size hsize
  exact pistormNetRead_eq hinv hsize (by lia)

def switchedOn : List NetOp := [.configure ⟨true, 0, ⟨0, 0, 0, 0, 0, 0⟩⟩]

def frameCame : List NetOp :=
  switchedOn ++ [.linked, .rx ((List.range 64).map UInt8.ofNat)]

/-- Four bytes across two longs of the frame. -/
theorem window_reads_join_frame :
    LongJoins (run netStep gNet frameCame) 0x00F10806 ∧
      pistormNetRead (run netStep gNet frameCame) 0x00F10806 4 = 0x06070809 :=
  ⟨(window_reads_join frameCame 0x00F10806 (by decide +kernel)).2.1 (by decide +kernel)
    (by decide +kernel), by decide +kernel⟩

/-- Four bytes from the middle of the identifier read as the whole identifier. -/
theorem middle_long_reads_register :
    ¬ forall (ops : List NetOp) (address : Word32),
      pistormNetOwnsAddress (run netStep gNet ops) address = true ->
        LongJoins (run netStep gNet ops) address ∧ WordJoins (run netStep gNet ops) address := by
  intro hall
  have hlong := (hall switchedOn 0x00F10002 (by decide)).1
  revert hlong
  decide

end Network
end PistormAtari
