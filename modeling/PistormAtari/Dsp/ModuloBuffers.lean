import Mathlib
import PistormAtari.Foundation.AddressSteps
import PistormAtari.Dsp.AddressGeneration

/-!
# The interpreter of the DSP: modulo buffers and reversed carry

A modifier from 1 to `$7FFF` keeps an address in the buffer it is in.  A modifier of zero
adds with the carry running down.
-/

namespace PistormAtari
namespace Dsp56k

open Foundation (wrapIn wrapIn_mem wrapIn_congr wrapIn_of_mem wrapIn_back wrapIn_iterate
  wrapIn_visits wrapIn_return reversedAdd reversedAdd_walk)

section
variable {π : Type}

/-!
## Buffers
-/

/-- The block of a buffer: the least power of two that is not below its size. -/
def block (m : BitVec 16) : Nat := 2 ^ Nat.clog 2 (m.toNat + 1)

def blockBase (m r : BitVec 16) : Nat := r.toNat / block m * block m

def InBuffer (m r : BitVec 16) : Prop := r.toNat ≤ blockBase m r + m.toNat

theorem blockSize_eq {size : Nat} (hsize : 0 < size) : blockSize size = 2 ^ Nat.clog 2 size := by
  unfold blockSize
  by_cases hone : size = 1
  · rw [if_pos hone, hone, Nat.clog_one_right, Nat.pow_zero]
  · rw [if_neg hone, Nat.one_shiftLeft]
    congr 1
    have hpos : size - 1 ≠ 0 := by lia
    have hlow : 2 ^ Nat.log2 (size - 1) ≤ size - 1 := Nat.log2_self_le hpos
    have hhigh : size - 1 < 2 ^ (Nat.log2 (size - 1) + 1) := Nat.lt_log2_self
    apply Nat.le_antisymm
    · have hnot : ¬ Nat.clog 2 size ≤ Nat.log2 (size - 1) := by
        rw [Nat.clog_le_iff_le_pow Nat.one_lt_two]
        lia
      lia
    · rw [Nat.clog_le_iff_le_pow Nat.one_lt_two]
      lia

theorem size_le_block (m : BitVec 16) : m.toNat + 1 ≤ block m :=
  Nat.le_pow_clog Nat.one_lt_two _

theorem block_dvd (m : BitVec 16) : block m ∣ 2 ^ 16 := by
  apply Nat.pow_dvd_pow
  rw [Nat.clog_le_iff_le_pow Nat.one_lt_two]
  have hlt := m.isLt
  lia

theorem blockBase_le (m r : BitVec 16) : blockBase m r ≤ r.toNat := Nat.div_mul_le_self _ _

theorem blockBase_add_le (m r : BitVec 16) : blockBase m r + block m ≤ 2 ^ 16 := by
  obtain ⟨c, hc⟩ := block_dvd m
  have hlt := r.isLt
  have hdiv : r.toNat / block m < c := by
    have hpos : 0 < block m := Nat.two_pow_pos _
    rw [Nat.div_lt_iff_lt_mul hpos, Nat.mul_comm, ← hc]
    exact hlt
  unfold blockBase
  calc
    r.toNat / block m * block m + block m = (r.toNat / block m + 1) * block m := by ring
    _ ≤ c * block m := Nat.mul_le_mul_right _ hdiv
    _ = 2 ^ 16 := by rw [Nat.mul_comm, ← hc]

theorem mask_toNat (m r : BitVec 16) :
    (r &&& ~~~(BitVec.ofNat 16 (block m - 1))).toNat = blockBase m r := by
  apply Nat.eq_of_testBit_eq
  intro i
  unfold blockBase block
  rw [BitVec.testBit_toNat, BitVec.getLsbD_and, BitVec.getLsbD_not, BitVec.getLsbD_ofNat,
    Nat.testBit_two_pow_sub_one, Nat.mul_comm, Nat.testBit_two_pow_mul, Nat.testBit_div_two_pow,
    BitVec.testBit_toNat]
  by_cases hi : i < 16
  · by_cases hlow : i < Nat.clog 2 (m.toNat + 1)
    · simp [hi, hlow]
    · have hback : i - Nat.clog 2 (m.toNat + 1) + Nat.clog 2 (m.toNat + 1) = i := by lia
      have hle : Nat.clog 2 (m.toNat + 1) ≤ i := by lia
      simp [hi, hlow, hle, hback]
  · simp [hi]
    intro hle
    apply BitVec.getLsbD_of_ge
    lia

/-!
## A step in a buffer
-/

variable {d : Dsp π} {rn : Fin 8}

def JumpsBlocks (m : BitVec 16) (δ : Int) : Prop := δ ≠ 0 ∧ (block m : Int) ∣ δ

theorem jumpsBlocks_iff {m : BitVec 16} {δ : Int} :
    (m.toNat + 1 ≤ δ.natAbs ∧ δ.natAbs &&& (blockSize (m.toNat + 1) - 1) = 0) <->
      JumpsBlocks m δ := by
  have hle := size_le_block m
  have hblock : blockSize (m.toNat + 1) = block m := blockSize_eq (Nat.succ_pos _)
  have hmod : δ.natAbs &&& (blockSize (m.toNat + 1) - 1) = δ.natAbs % block m := by
    rw [hblock]
    exact Nat.and_two_pow_sub_one_eq_mod _ _
  have hdvd : (block m : Int) ∣ δ <-> block m ∣ δ.natAbs := Int.natCast_dvd
  unfold JumpsBlocks
  rw [hmod, hdvd, ← Nat.dvd_iff_mod_eq_zero]
  constructor
  · rintro ⟨hsize, hmul⟩
    exact ⟨by lia, hmul⟩
  · rintro ⟨hne, hmul⟩
    have hpos : 0 < δ.natAbs := Int.natAbs_pos.mpr hne
    exact ⟨hle.trans (Nat.le_of_dvd hpos hmul), hmul⟩

theorem wrap_off {size : Int} (hsize : 0 < size) (off : Int) :
    (if size ≤ off then
      let off := off - size
      if size ≤ off then off.tmod size else off
    else if off < 0 then
      let off := off + size
      if off < 0 then
        let off := off.tmod size
        if off < 0 then off + size else off
      else off
    else off) = off % size := by
  dsimp only
  have hsub : (off - size) % size = off % size := Int.sub_emod_right off size
  have hadd : (off + size) % size = off % size := Int.add_emod_right off size
  by_cases hhigh : size ≤ off
  · rw [if_pos hhigh]
    by_cases htwo : size ≤ off - size
    · rw [if_pos htwo, Int.tmod_eq_emod_of_nonneg (by lia), hsub]
    · rw [if_neg htwo, ← hsub, Int.emod_eq_of_lt (by lia) (by lia)]
  · rw [if_neg hhigh]
    by_cases hneg : off < 0
    · rw [if_pos hneg]
      by_cases htwo : off + size < 0
      · rw [if_pos htwo, ← hadd, Int.tmod_eq_emod]
        have hlow := Int.emod_nonneg (off + size) (ne_of_gt hsize)
        have hlt := Int.emod_lt_of_pos (off + size) hsize
        by_cases hdvd : size ∣ off + size
        · rw [if_pos (Or.inr hdvd), Int.emod_eq_zero_of_dvd hdvd]
          simp
        · have hne : (off + size) % size ≠ 0 := fun h => hdvd (Int.dvd_of_emod_eq_zero h)
          have hnot : ¬ (0 ≤ off + size ∨ size ∣ off + size) := by
            rintro (hle | h)
            · lia
            · exact hdvd h
          rw [if_neg hnot]
          have habs : (size.natAbs : Int) = size := Int.natAbs_of_nonneg hsize.le
          rw [if_pos (by lia)]
          lia
      · rw [if_neg htwo, ← hadd, Int.emod_eq_of_lt (by lia) (by lia)]
    · rw [if_neg hneg, Int.emod_eq_of_lt (by lia) (by lia)]

theorem aguAdd_toNat (hm : 1 ≤ (d.m rn).toNat ∧ (d.m rn).toNat ≤ 0x7FFF) {δ : Int}
    (hδ : ¬ JumpsBlocks (d.m rn) δ) :
    ((aguAdd d rn δ).toNat : Int) =
      wrapIn (blockBase (d.m rn) (d.r rn)) ((d.m rn).toNat + 1) ((d.r rn).toNat + δ) := by
  have hne : d.m rn ≠ 0xFFFF := by
    intro h
    rw [h] at hm
    exact absurd hm.2 (by decide)
  have hzero : d.m rn ≠ 0 := by
    intro h
    rw [h] at hm
    exact absurd hm.1 (by decide)
  have hsize : (0 : Int) < ((d.m rn).toNat + 1 : Nat) := by lia
  have hblock : blockSize ((d.m rn).toNat + 1) = block (d.m rn) := blockSize_eq (Nat.succ_pos _)
  unfold aguAdd
  rw [if_neg hne]
  unfold aguMod
  dsimp only
  rw [if_neg hzero, if_pos hm.2, if_neg (jumpsBlocks_iff.not.mpr hδ), wrap_off hsize,
    hblock, mask_toNat]
  have hbounds := @wrapIn_mem (blockBase (d.m rn) (d.r rn)) _ ((d.r rn).toNat + δ) hsize
  have hend := blockBase_add_le (d.m rn) (d.r rn)
  have hle := size_le_block (d.m rn)
  unfold wrapIn at hbounds ⊢
  rw [show (d.r rn).toNat - (blockBase (d.m rn) (d.r rn) : Int) + δ =
    (d.r rn).toNat + δ - blockBase (d.m rn) (d.r rn) by ring]
  push_cast at hbounds ⊢
  rw [BitVec.toNat_ofInt, Int.toNat_of_nonneg (by lia), Int.emod_eq_of_lt (by lia) (by lia)]

@[simp] theorem stepR_m (rn : Fin 8) (δ : Int) (d : Dsp π) : (stepR rn δ d).m = d.m := rfl

@[simp] theorem stepR_r (rn : Fin 8) (δ : Int) (d : Dsp π) :
    (stepR rn δ d).r rn = aguAdd d rn δ := Function.update_self _ _ _

@[simp] theorem stepR_setR (rn : Fin 8) (v : BitVec 16) (δ : Int) (d : Dsp π) :
    stepR rn δ (setR rn v d) = setR rn (aguAdd (setR rn v d) rn δ) d := by
  unfold stepR setR
  dsimp only
  rw [Function.update_idem]

theorem setR_self (rn : Fin 8) (d : Dsp π) : setR rn (d.r rn) d = d := by
  unfold setR
  rw [Function.update_eq_self]

theorem stepR_iterate (rn : Fin 8) (δ : Int) (d : Dsp π) (i : Nat) :
    (stepR rn δ)^[i] d = setR rn (((stepR rn δ)^[i] d).r rn) d := by
  induction i with
  | zero => exact (setR_self rn d).symm
  | succ i ih =>
      rw [Function.iterate_succ_apply', stepR_r, ih, stepR_setR]

theorem aguAdd_mem (hm : 1 ≤ (d.m rn).toNat ∧ (d.m rn).toNat ≤ 0x7FFF) {δ : Int}
    (hδ : ¬ JumpsBlocks (d.m rn) δ) :
    blockBase (d.m rn) (aguAdd d rn δ) = blockBase (d.m rn) (d.r rn) ∧
      InBuffer (d.m rn) (aguAdd d rn δ) := by
  have hsize : (0 : Int) < (d.m rn).toNat + 1 := by lia
  have heq := aguAdd_toNat hm hδ
  have hbounds := @wrapIn_mem (blockBase (d.m rn) (d.r rn)) _ ((d.r rn).toNat + δ) hsize
  have hle := size_le_block (d.m rn)
  rw [← heq] at hbounds
  have hsame : blockBase (d.m rn) (aguAdd d rn δ) = blockBase (d.m rn) (d.r rn) := by
    unfold blockBase at hbounds ⊢
    congr 1
    apply Nat.div_eq_of_lt_le
    · lia
    · rw [Nat.succ_mul]
      lia
  refine ⟨hsame, ?_⟩
  unfold InBuffer
  rw [hsame]
  lia

theorem inBuffer_bounds {m r : BitVec 16} (h : InBuffer m r) :
    (blockBase m r : Int) ≤ r.toNat ∧ (r.toNat : Int) < blockBase m r + ((m.toNat + 1 : Nat) : Int) := by
  have hle := blockBase_le m r
  unfold InBuffer at h
  constructor <;> lia

theorem one_not_jumpsBlocks {m : BitVec 16} (hm : 1 ≤ m.toNat) : ¬ JumpsBlocks m 1 := by
  rintro ⟨_, hdvd⟩
  have hle := size_le_block m
  have hone := Int.le_of_dvd Int.one_pos hdvd
  lia

theorem stepR_one_iterate (hm : 1 ≤ (d.m rn).toNat ∧ (d.m rn).toNat ≤ 0x7FFF)
    (hr : InBuffer (d.m rn) (d.r rn)) (i : Nat) :
    ((((stepR rn 1)^[i] d).r rn).toNat : Int) =
      wrapIn (blockBase (d.m rn) (d.r rn)) ((d.m rn).toNat + 1 : Nat) ((d.r rn).toNat + i) := by
  have hone := one_not_jumpsBlocks hm.1
  have hstep : forall j, blockBase (d.m rn) (((stepR rn 1)^[j] d).r rn) = blockBase (d.m rn) (d.r rn) ∧
      ((((stepR rn 1)^[j] d).r rn).toNat : Int) =
        (fun y => wrapIn (blockBase (d.m rn) (d.r rn)) ((d.m rn).toNat + 1 : Nat) (y + 1))^[j]
          ((d.r rn).toNat : Int) := by
    intro j
    induction j with
    | zero => exact ⟨rfl, rfl⟩
    | succ j ih =>
        have hmj : ((stepR rn 1)^[j] d).m = d.m := by
          rw [stepR_iterate]
          rfl
        have hmod : 1 ≤ (((stepR rn 1)^[j] d).m rn).toNat ∧
            (((stepR rn 1)^[j] d).m rn).toNat ≤ 0x7FFF := by rwa [hmj]
        have hmem := aguAdd_mem hmod (show ¬ JumpsBlocks (((stepR rn 1)^[j] d).m rn) 1 by rwa [hmj])
        have heq := aguAdd_toNat hmod (show ¬ JumpsBlocks (((stepR rn 1)^[j] d).m rn) 1 by rwa [hmj])
        rw [hmj] at hmem heq
        rw [Function.iterate_succ_apply', Function.iterate_succ_apply', stepR_r]
        refine ⟨hmem.1.trans ih.1, ?_⟩
        rw [heq, ih.1, ih.2]
        push_cast
        rfl
  rw [(hstep i).2, wrapIn_iterate (inBuffer_bounds hr)]

theorem stepR_back (hm : 1 ≤ (d.m rn).toNat ∧ (d.m rn).toNat ≤ 0x7FFF)
    (hr : InBuffer (d.m rn) (d.r rn)) {δ : Int} (hδ : ¬ JumpsBlocks (d.m rn) δ) :
    stepR rn (-δ) (stepR rn δ d) = d := by
  have hneg : ¬ JumpsBlocks (d.m rn) (-δ) := by
    unfold JumpsBlocks at hδ ⊢
    rwa [neg_ne_zero, dvd_neg]
  have hback : aguAdd (stepR rn δ d) rn (-δ) = d.r rn := by
    apply BitVec.eq_of_toNat_eq
    have hsecond := @aguAdd_toNat _ (stepR rn δ d) rn hm _ hneg
    have hmem := aguAdd_mem hm hδ
    rw [stepR_m, stepR_r, hmem.1, aguAdd_toNat hm hδ] at hsecond
    have hwrap := wrapIn_back (inBuffer_bounds hr) δ
    push_cast at hwrap
    rw [hwrap] at hsecond
    exact_mod_cast hsecond
  conv_lhs => rw [stepR]
  rw [hback]
  unfold stepR setR
  dsimp only
  rw [Function.update_idem, Function.update_eq_self]

/-!
## Reversed carry
-/

theorem getLsbD_reverseFold (x : BitVec 16) {n : Nat} (hn : n ≤ 16) {j : Nat} (hj : j < 16) :
    ((List.range n).foldl
      (fun (out : BitVec 16) i => out ||| ((x >>> i &&& (1 : BitVec 16)) <<< (15 - i))) 0).getLsbD j =
      (decide (15 - j < n) && x.getLsbD (15 - j)) := by
  induction n with
  | zero => simp
  | succ n ih =>
      rw [List.range_succ, List.foldl_append, List.foldl_cons, List.foldl_nil, BitVec.getLsbD_or,
        ih (by lia), BitVec.getLsbD_shiftLeft, BitVec.getLsbD_and, BitVec.getLsbD_ushiftRight]
      by_cases hlast : 15 - j = n
      · have hzero : j - (15 - n) = 0 := by lia
        have hplace : ¬ j < 15 - n := by lia
        simp [hj, hlast, hzero, hplace]
      · by_cases hbelow : 15 - j < n
        · have hplace : j - (15 - n) ≠ 0 := by lia
          have hone : (1 : BitVec 16).getLsbD (j - (15 - n)) = false := by
            show (1#16).getLsbD (j - (15 - n)) = false
            rw [BitVec.getLsbD_one]
            simp [hplace]
          have hsucc : 15 - j < n + 1 := by lia
          simp only [hbelow, hsucc, hone, Bool.and_false, Bool.or_false]
        · have hplace : j < 15 - n := by lia
          have hsucc : ¬ 15 - j < n + 1 := by lia
          simp [hbelow, hsucc, hplace]

theorem reverseBits_eq (x : BitVec 16) : reverseBits x = x.reverse := by
  apply BitVec.eq_of_getLsbD_eq
  intro j hj
  unfold reverseBits
  rw [getLsbD_reverseFold x (Nat.le_refl 16) hj, BitVec.getLsbD_reverse, BitVec.getMsbD_eq_getLsbD]
  have hlow : 15 - j < 16 := by lia
  simp [hlow, hj]

theorem aguAdd_reversed (hm : d.m rn = 0) (δ : BitVec 16) :
    aguAdd d rn δ.toInt = reversedAdd (d.r rn) δ := by
  have hne : d.m rn ≠ 0xFFFF := by
    rw [hm]
    decide
  unfold aguAdd
  rw [if_neg hne]
  unfold aguMod reversedAdd
  dsimp only
  rw [if_pos hm, BitVec.ofInt_toInt, reverseBits_eq, reverseBits_eq, reverseBits_eq]

theorem stepR_reversed_iterate (hm : d.m rn = 0) (δ : BitVec 16) (i : Nat) :
    ((stepR rn δ.toInt)^[i] d).r rn = (fun z => reversedAdd z δ)^[i] (d.r rn) := by
  induction i with
  | zero => rfl
  | succ i ih =>
      have hmi : ((stepR rn δ.toInt)^[i] d).m rn = 0 := by
        rw [stepR_iterate]
        exact hm
      rw [Function.iterate_succ_apply', Function.iterate_succ_apply', stepR_r,
        aguAdd_reversed hmi, ih]

/-- Each modifier from 1 to `$7FFF` is a buffer of one word more at the start of its block.
An address in it stays in it, and is congruent to the sum, for each offset that is not a
nonzero multiple of the block; steps of one visit each place once and come back; and a
step by the opposite offset undoes a step.  With a modifier of zero, the offset
`2 ^ (k - 1)` walks the block of `2 ^ k` addresses in the order of the reversed bits. -/
theorem buffers_wrap (d : Dsp π) (rn : Fin 8) :
    (1 ≤ (d.m rn).toNat -> (d.m rn).toNat ≤ 0x7FFF -> InBuffer (d.m rn) (d.r rn) ->
      (forall δ, ¬ JumpsBlocks (d.m rn) δ ->
        blockBase (d.m rn) (aguAdd d rn δ) = blockBase (d.m rn) (d.r rn) ∧
          InBuffer (d.m rn) (aguAdd d rn δ) ∧
          (aguAdd d rn δ).toNat ≡ (d.r rn).toNat + δ [ZMOD (d.m rn).toNat + 1] ∧
          stepR rn (-δ) (stepR rn δ d) = d) ∧
      (forall y, blockBase (d.m rn) (d.r rn) ≤ y ->
        y ≤ blockBase (d.m rn) (d.r rn) + (d.m rn).toNat ->
        ∃! i, i < (d.m rn).toNat + 1 ∧ (((stepR rn 1)^[i] d).r rn).toNat = y) ∧
      (stepR rn 1)^[(d.m rn).toNat + 1] d = d) ∧
    (d.m rn = 0 -> forall k, 1 ≤ k -> k ≤ 16 -> d.n rn = BitVec.twoPow 16 (k - 1) ->
      (forall j, j < k -> (d.r rn).getLsbD j = false) -> forall i,
      ((stepR rn (d.n rn).toInt)^[i] d).r rn =
        d.r rn ||| (BitVec.ofNat k i).reverse.setWidth 16) := by
  constructor
  · intro hlow hhigh hr
    refine ⟨?_, ?_, ?_⟩
    · intro δ hδ
      have hmem := aguAdd_mem ⟨hlow, hhigh⟩ hδ
      refine ⟨hmem.1, hmem.2, ?_, stepR_back ⟨hlow, hhigh⟩ hr hδ⟩
      rw [aguAdd_toNat ⟨hlow, hhigh⟩ hδ]
      exact wrapIn_congr
    · intro y hy hyend
      have hplace : (blockBase (d.m rn) (d.r rn) : Int) ≤ y ∧
          (y : Int) < blockBase (d.m rn) (d.r rn) + ((d.m rn).toNat + 1 : Nat) := by
        constructor <;> lia
      have hvisit := wrapIn_visits (inBuffer_bounds hr) hplace
      have hsame : forall i, (((stepR rn 1)^[i] d).r rn).toNat = y <->
          wrapIn (blockBase (d.m rn) (d.r rn)) ((d.m rn).toNat + 1 : Nat)
            ((d.r rn).toNat + i) = y := by
        intro i
        rw [← stepR_one_iterate ⟨hlow, hhigh⟩ hr, Int.natCast_inj]
      simpa only [hsame] using hvisit
    · rw [stepR_iterate]
      have hreturn : ((stepR rn 1)^[(d.m rn).toNat + 1] d).r rn = d.r rn := by
        apply BitVec.eq_of_toNat_eq
        have heq := stepR_one_iterate ⟨hlow, hhigh⟩ hr ((d.m rn).toNat + 1)
        rw [wrapIn_return (inBuffer_bounds hr)] at heq
        exact_mod_cast heq
      rw [hreturn, setR_self]
  · intro hm k hk hk16 hn hclear i
    rw [stepR_reversed_iterate hm, hn, reversedAdd_walk hk hk16 hclear]

/-- The buffer of three words at `$0400`, from its last word: one step comes to its first. -/
theorem buffers_wrap_three :
    (aguAdd (setR 2 0x402 (setM 2 2 (dsp56kInit (fun _ => 0) ()))) 2 1).toNat ≡
      0x402 + 1 [ZMOD 3] := by
  have hplace : InBuffer 2 0x402 := by
    show 0x402 ≤ 0x402 / 2 ^ Nat.clog 2 (2 + 1) * 2 ^ Nat.clog 2 (2 + 1) + 2
    norm_num
  exact (((buffers_wrap (setR 2 0x402 (setM 2 2 (dsp56kInit (fun _ => 0) ()))) 2).1
    (by decide) (by decide) hplace).1 1 (one_not_jumpsBlocks (by decide))).2.2.1

end
end Dsp56k
end PistormAtari
