import Mathlib
import PistormAtari.Dsp.Run

/-!
# The interpreter of the DSP: division

DIV is one step of a division without restoring: the divisor is added or subtracted by
the sign that the step before left, and the bits of the quotient enter the accumulator
from below while the remainder leaves it above.
-/

namespace PistormAtari
namespace Dsp56k

open Foundation (times)

section
variable {π : Type}

/-!
## Words of 56 bits
-/

theorem getLsbD_m56 {i : Nat} (hi : i < 56) : m56.getLsbD i = true := by
  unfold m56
  interval_cases i <;> rfl

theorem toInt_sx56_mask (v : BitVec 64) : (sx56 (v &&& m56)).toInt = v.toInt.bmod (2 ^ 56) := by
  have hsame : (v &&& m56).setWidth 56 = v.setWidth 56 := by
    apply BitVec.eq_of_getLsbD_eq
    intro i hi
    rw [BitVec.getLsbD_setWidth, BitVec.getLsbD_setWidth, BitVec.getLsbD_and, getLsbD_m56 hi,
      Bool.and_true]
  rw [← toInt_sx56, sx56_eq, sx56_eq, hsame]

theorem getLsbD_sign {v : BitVec 64} (hv : -2 ^ 54 ≤ v.toInt ∧ v.toInt < 2 ^ 54) {i : Nat}
    (hlow : 54 ≤ i) (hhigh : i < 56) : v.getLsbD i = decide (v.toInt < 0) := by
  have hnat : v.toNat < 2 ^ 64 := v.isLt
  rw [← BitVec.testBit_toNat, Nat.testBit_eq_decide_div_mod_eq]
  rw [BitVec.toInt_eq_toNat_cond] at hv ⊢
  have hi : i = 54 ∨ i = 55 := by lia
  by_cases hpos : 2 * v.toNat < 2 ^ 64
  · rw [if_pos hpos] at hv ⊢
    rw [decide_eq_decide]
    rcases hi with rfl | rfl <;> lia
  · rw [if_neg hpos] at hv ⊢
    rw [decide_eq_decide]
    rcases hi with rfl | rfl <;> lia

theorem getLsbD_sign_mask {v : BitVec 64} (hv : -2 ^ 54 ≤ v.toInt ∧ v.toInt < 2 ^ 54) {i : Nat}
    (hlow : 54 ≤ i) (hhigh : i < 56) : (v &&& m56).getLsbD i = decide (v.toInt < 0) := by
  rw [BitVec.getLsbD_and, getLsbD_m56 hhigh, Bool.and_true, getLsbD_sign hv hlow hhigh]

theorem toNat_mask (v : BitVec 64) : (v &&& m56).toNat = v.toNat % 2 ^ 56 := by
  rw [BitVec.toNat_and]
  exact Nat.and_two_pow_sub_one_eq_mod v.toNat 56

theorem toNat_double {u : BitVec 64} (hu : u.toNat < 2 ^ 56) (c : Bool) :
    (u <<< 1 ||| (if c then 1 else 0)).toNat = 2 * u.toNat + (if c then 1 else 0) := by
  have hdisjoint : u <<< 1 &&& (if c then 1 else 0) = 0#64 := by
    apply BitVec.eq_of_getLsbD_eq
    intro i hi
    have hzero : (1#64).getLsbD i = decide (i = 0) := by simp
    cases c <;> simp [hzero]
    lia
  rw [← BitVec.add_eq_or_of_and_eq_zero _ _ hdisjoint, BitVec.toNat_add, BitVec.toNat_shiftLeft,
    Nat.shiftLeft_eq]
  cases c with
  | false =>
      show (u.toNat * 2 ^ 1 % 2 ^ 64 + 0) % 2 ^ 64 = 2 * u.toNat + 0
      lia
  | true =>
      show (u.toNat * 2 ^ 1 % 2 ^ 64 + 1) % 2 ^ 64 = 2 * u.toNat + 1
      lia

theorem double_toInt {v : BitVec 64} (hv : -2 ^ 54 ≤ v.toInt ∧ v.toInt < 2 ^ 54) (c : Bool) :
    (sx56 (((v &&& m56) <<< 1 ||| (if c then 1 else 0)) &&& m56)).toInt =
      2 * v.toInt + (if c then 1 else 0) := by
  have hmask := toNat_mask v
  have hdouble := @toNat_double (v &&& m56) (by lia) c
  have hbit : (if c then 1 else 0 : Nat) ≤ 1 := by cases c <;> decide
  have hcast : ((if c then 1 else 0 : Nat) : Int) = if c then 1 else 0 := by cases c <;> rfl
  rw [toInt_sx56_mask, ← hcast]
  generalize ((v &&& m56) <<< 1 ||| (if c then 1 else 0)) = w at *
  generalize (if c then 1 else 0 : Nat) = b at *
  have hlt := v.isLt
  have hvint := BitVec.toInt_eq_toNat_cond v
  have hwint := BitVec.toInt_eq_toNat_cond w
  have hsmall : 2 * w.toNat < 2 ^ 64 := by lia
  rw [if_pos hsmall] at hwint
  unfold Int.bmod
  split at hvint <;> lia

theorem divisor_toInt {s : BitVec 32} (hs : s.toNat < 2 ^ 23) :
    ((sx24 s).signExtend 64 <<< 24).toInt = s.toNat * 2 ^ 24 := by
  have hsame : sx24 s = s := by
    rw [sx24_eq]
    apply BitVec.eq_of_toInt_eq
    rw [BitVec.toInt_signExtend_of_le (by decide), BitVec.toInt_setWidth,
      Int.bmod_eq_of_le (by lia) (by lia), BitVec.toInt_eq_toNat_of_lt (by lia)]
  have hext : (s.signExtend 64).toNat = s.toNat := by
    have hmsb : s.msb = false := BitVec.msb_eq_false_iff_two_mul_lt.mpr (by lia)
    rw [BitVec.signExtend_eq_setWidth_of_msb_false hmsb, BitVec.toNat_setWidth,
      Nat.mod_eq_of_lt (by lia)]
  have hshift : (s.signExtend 64 <<< 24).toNat = s.toNat * 2 ^ 24 := by
    rw [BitVec.toNat_shiftLeft, hext, Nat.shiftLeft_eq, Nat.mod_eq_of_lt (by lia)]
  rw [hsame, BitVec.toInt_eq_toNat_of_lt (by lia), hshift]
  push_cast
  rfl

/-!
## One step
-/

def markSigns (v : Bool) (d : Dsp π) : Dsp π :=
  if v then setSr (d.sr ||| (srV ||| srL)) d else setSr (d.sr &&& ~~~srV) d

def divResult (jj : Nat) (which : Bool) (d : Dsp π) : BitVec 64 :=
  let s := jjReg d jj
  let u := acc d which &&& m56
  let sh := sx56 ((u <<< 1 ||| (if flag d srC then 1 else 0)) &&& m56)
  let sv := (sx24 s).signExtend 64 <<< 24
  sx56 ((if u.getLsbD 55 != s.getLsbD 23 then sh + sv else sh - sv) &&& m56)

theorem div_eq (jj : Nat) (which : Bool) (d : Dsp π) :
    div jj which d =
      markSigns ((acc d which &&& m56).getLsbD 55 != (acc d which &&& m56).getLsbD 54)
        (setC (!((divResult jj which d).getLsbD 55 != (jjReg d jj).getLsbD 23))
          (setAcc which (divResult jj which d) d)) := rfl

@[simp] theorem acc_markSigns (v which : Bool) (d : Dsp π) :
    acc (markSigns v d) which = acc d which := by
  cases v <;> rfl

@[simp] theorem jjReg_markSigns (v : Bool) (d : Dsp π) (jj : Nat) :
    jjReg (markSigns v d) jj = jjReg d jj := by
  cases v <;> rfl

theorem flag_c_markSigns (v : Bool) (d : Dsp π) : flag (markSigns v d) srC = flag d srC := by
  rw [flag_c, flag_c]
  unfold markSigns
  cases v <;> simp [setSr, srV, srL]

theorem flag_v_markSigns (d : Dsp π) : flag (markSigns false d) srV = false := by
  rw [flag_v]
  unfold markSigns
  simp [setSr, srV]

@[simp] theorem acc_div (jj : Nat) (which : Bool) (d : Dsp π) :
    acc (div jj which d) which = divResult jj which d := by
  rw [div_eq, acc_markSigns, acc_setC, acc_setAcc]

@[simp] theorem jjReg_div (jj : Nat) (which : Bool) (d : Dsp π) :
    jjReg (div jj which d) jj = jjReg d jj := by
  rw [div_eq, jjReg_markSigns, jjReg_setC, jjReg_setAcc]

theorem div_step {d : Dsp π} {jj : Nat} {which : Bool} (hs : (jjReg d jj).toNat < 2 ^ 23)
    (ha : -2 ^ 52 ≤ (acc d which).toInt ∧ (acc d which).toInt < 2 ^ 52) :
    (acc (div jj which d) which).toInt =
        2 * (acc d which).toInt + (if flag d srC then 1 else 0) +
          (if (acc d which).toInt < 0 then ((jjReg d jj).toNat * 2 ^ 24 : Int)
            else -((jjReg d jj).toNat * 2 ^ 24 : Int)) ∧
      flag (div jj which d) srC = decide (0 ≤ (acc (div jj which d) which).toInt) ∧
      flag (div jj which d) srV = false := by
  have hwide : -2 ^ 54 ≤ (acc d which).toInt ∧ (acc d which).toInt < 2 ^ 54 := by lia
  have hsign := getLsbD_sign_mask hwide (show 54 ≤ 55 by decide) (show 55 < 56 by decide)
  have hnext := getLsbD_sign_mask hwide (show 54 ≤ 54 by decide) (show 54 < 56 by decide)
  have hdouble := double_toInt hwide (flag d srC)
  have hsv := divisor_toInt hs
  have hbit : (jjReg d jj).getLsbD 23 = false := by
    rw [← BitVec.testBit_toNat, Nat.testBit_lt_two_pow hs]
  have hcarry : (0 : Int) ≤ (if flag d srC then 1 else 0) ∧
      (if flag d srC then 1 else 0 : Int) ≤ 1 := by
    cases flag d srC <;> decide
  have hresult : (divResult jj which d).toInt =
      2 * (acc d which).toInt + (if flag d srC then 1 else 0) +
        (if (acc d which).toInt < 0 then ((jjReg d jj).toNat * 2 ^ 24 : Int)
          else -((jjReg d jj).toNat * 2 ^ 24 : Int)) := by
    unfold divResult
    dsimp only
    rw [toInt_sx56_mask, hsign, hbit, Bool.bne_false]
    by_cases hneg : (acc d which).toInt < 0
    · rw [if_pos hneg, if_pos (decide_eq_true hneg), BitVec.toInt_add, hdouble, hsv,
        Int.bmod_bmod_of_dvd (by decide), Int.bmod_eq_of_le (by lia) (by lia)]
    · rw [if_neg hneg, if_neg (by simpa using hneg), BitVec.toInt_sub, hdouble, hsv,
        Int.bmod_bmod_of_dvd (by decide), Int.bmod_eq_of_le (by lia) (by lia)]
      rfl
  have hbounds : -2 ^ 54 ≤ (divResult jj which d).toInt ∧ (divResult jj which d).toInt < 2 ^ 54 := by
    rw [hresult]
    split <;> lia
  refine ⟨?_, ?_, ?_⟩
  · rw [acc_div, hresult]
  · rw [div_eq, flag_c_markSigns, flag_c_setC, ← div_eq, acc_div, hbit, Bool.bne_false,
      getLsbD_sign hbounds (by decide) (by decide)]
    by_cases hneg : (divResult jj which d).toInt < 0
    · simp [hneg]
    · simp [hneg]
      lia
  · rw [div_eq, hsign, hnext, bne_self_eq_false, flag_v_markSigns]

/-!
## Twenty-four steps
-/

/-- The state after `k + 1` steps: the remainder of the first `k` bits, doubled and less
the divisor, lies over those bits of the quotient, and C says whether the next bit is set. -/
def Divided (jj : Nat) (which : Bool) (s dividend k : Nat) (d : Dsp π) : Prop :=
  (jjReg d jj).toNat = s ∧
    (acc d which).toInt =
      2 * ((dividend * 2 ^ k % (s * 2 ^ 24) : Nat) : Int) - ((s * 2 ^ 24 : Nat) : Int) +
        ((dividend * 2 ^ k / (s * 2 ^ 24) : Nat) : Int) ∧
    flag d srC = decide (s * 2 ^ 24 ≤ 2 * (dividend * 2 ^ k % (s * 2 ^ 24))) ∧
    flag d srV = false

theorem double_div_mod {n m : Nat} (hm : 0 < m) :
    (m ≤ 2 * (n % m) -> 2 * n % m = 2 * (n % m) - m ∧ 2 * n / m = 2 * (n / m) + 1) ∧
      (2 * (n % m) < m -> 2 * n % m = 2 * (n % m) ∧ 2 * n / m = 2 * (n / m)) := by
  have hlt := Nat.mod_lt n hm
  have heq := Nat.div_add_mod n m
  constructor
  · intro hle
    have hsum : 2 * n = (2 * (n % m) - m) + m * (2 * (n / m) + 1) := by
      rw [Nat.mul_add, Nat.mul_one, Nat.mul_left_comm]
      lia
    have hsmall : 2 * (n % m) - m < m := by lia
    constructor
    · rw [hsum, Nat.add_mul_mod_self_left, Nat.mod_eq_of_lt hsmall]
    · rw [hsum, Nat.add_mul_div_left _ _ hm, Nat.div_eq_of_lt hsmall, Nat.zero_add]
  · intro hsmall
    have hsum : 2 * n = 2 * (n % m) + m * (2 * (n / m)) := by
      rw [Nat.mul_left_comm]
      lia
    constructor
    · rw [hsum, Nat.add_mul_mod_self_left, Nat.mod_eq_of_lt hsmall]
    · rw [hsum, Nat.add_mul_div_left _ _ hm, Nat.div_eq_of_lt hsmall, Nat.zero_add]

variable {jj : Nat} {which : Bool} {s dividend : Nat}

theorem divided_first (hs : s < 2 ^ 23) (hdiv : dividend < s * 2 ^ 24) {d : Dsp π}
    (hreg : (jjReg d jj).toNat = s) (hacc : (acc d which).toInt = dividend)
    (hc : flag d srC = false) : Divided jj which s dividend 0 (div jj which d) := by
  have hstep := @div_step π d jj which (by lia) (by lia)
  have hnonneg : ¬ (acc d which).toInt < 0 := by lia
  rw [hc, if_neg hnonneg, hreg, hacc] at hstep
  refine ⟨by rw [jjReg_div, hreg], ?_, ?_, hstep.2.2⟩
  · rw [hstep.1, Nat.pow_zero, Nat.mul_one, Nat.mod_eq_of_lt hdiv, Nat.div_eq_of_lt hdiv]
    push_cast
    simp
    ring
  · rw [hstep.2.1, hstep.1, Nat.pow_zero, Nat.mul_one, Nat.mod_eq_of_lt hdiv]
    simp only [decide_eq_decide]
    simp
    lia

theorem divided_bounds (hdiv : dividend < s * 2 ^ 24) {k : Nat} (hk : k < 24) :
    dividend * 2 ^ k / (s * 2 ^ 24) < 2 ^ k ∧
      (2 * (dividend * 2 ^ k % (s * 2 ^ 24)) < s * 2 ^ 24 ->
        2 * (dividend * 2 ^ k % (s * 2 ^ 24)) + 2 ^ (k + 1) ≤ s * 2 ^ 24) := by
  have hpow : 2 ^ (k + 1) ∣ s * 2 ^ 24 :=
    (Nat.pow_dvd_pow 2 (by lia)).trans (Nat.dvd_mul_left _ _)
  constructor
  · rw [Nat.div_lt_iff_lt_mul (by lia), Nat.mul_comm (2 ^ k)]
    exact Nat.mul_lt_mul_of_pos_right hdiv (Nat.two_pow_pos k)
  · intro hlt
    have hrem : 2 ^ k ∣ dividend * 2 ^ k % (s * 2 ^ 24) := by
      rw [Nat.dvd_mod_iff ((Nat.pow_dvd_pow 2 (Nat.le_succ k)).trans hpow)]
      exact Nat.dvd_mul_left _ _
    have hdouble : 2 ^ (k + 1) ∣ 2 * (dividend * 2 ^ k % (s * 2 ^ 24)) := by
      rw [Nat.pow_succ, Nat.mul_comm]
      exact Nat.mul_dvd_mul_left 2 hrem
    have hgap := Nat.le_of_dvd (Nat.sub_pos_of_lt hlt) (Nat.dvd_sub hpow hdouble)
    lia

theorem divided_next (hs : s < 2 ^ 23) (hdiv : dividend < s * 2 ^ 24) {k : Nat} (hk : k < 23)
    {d : Dsp π} (h : Divided jj which s dividend k d) :
    Divided jj which s dividend (k + 1) (div jj which d) := by
  obtain ⟨hreg, hacc, hc, _⟩ := h
  have hbounds := divided_bounds hdiv (Nat.lt_succ_of_lt hk)
  have hafter := divided_bounds hdiv (Nat.succ_lt_succ hk)
  have hpow : dividend * 2 ^ (k + 1) = 2 * (dividend * 2 ^ k) := by rw [Nat.pow_succ]; ring
  have hsucc : 2 ^ (k + 1) = 2 * 2 ^ k := by rw [Nat.pow_succ, Nat.mul_comm]
  have htwice : 2 ^ (k + 1 + 1) = 2 * (2 * 2 ^ k) := by rw [Nat.pow_succ, Nat.mul_comm, hsucc]
  have hsmall : 2 ^ k ≤ 2 ^ 23 := Nat.pow_le_pow_right (by decide) (by lia)
  have hdm := @double_div_mod (dividend * 2 ^ k) (s * 2 ^ 24) (by lia)
  have hlt := Nat.mod_lt (dividend * 2 ^ k) (show 0 < s * 2 ^ 24 by lia)
  unfold Divided
  rw [hpow]
  rw [hsucc] at hbounds
  rw [Nat.succ_eq_add_one, hpow, htwice, hsucc] at hafter
  generalize dividend * 2 ^ k % (s * 2 ^ 24) = r at *
  generalize dividend * 2 ^ k / (s * 2 ^ 24) = q at *
  generalize 2 ^ k = p at *
  have hstep := @div_step π d jj which (by lia) (by lia)
  rw [hreg] at hstep
  by_cases hle : s * 2 ^ 24 ≤ 2 * r
  · have hsign : ¬ (acc d which).toInt < 0 := by lia
    have hcarry : flag d srC = true := by rw [hc, decide_eq_true hle]
    rw [if_neg hsign, if_pos hcarry, hacc] at hstep
    rw [(hdm.1 hle).1, (hdm.1 hle).2] at hafter ⊢
    refine ⟨by rw [jjReg_div, hreg], ?_, ?_, hstep.2.2⟩
    · rw [hstep.1]
      lia
    · rw [hstep.2.1, hstep.1, decide_eq_decide]
      lia
  · have hsign : (acc d which).toInt < 0 := by lia
    have hcarry : ¬ flag d srC = true := by rw [hc, decide_eq_false hle]; decide
    rw [if_pos hsign, if_neg hcarry, hacc] at hstep
    rw [(hdm.2 (by lia)).1, (hdm.2 (by lia)).2] at hafter ⊢
    refine ⟨by rw [jjReg_div, hreg], ?_, ?_, hstep.2.2⟩
    · rw [hstep.1]
      lia
    · rw [hstep.2.1, hstep.1, decide_eq_decide]
      lia

theorem divided_iterate (hs : s < 2 ^ 23) (hdiv : dividend < s * 2 ^ 24) {d : Dsp π}
    (hreg : (jjReg d jj).toNat = s) (hacc : (acc d which).toInt = dividend)
    (hc : flag d srC = false) {k : Nat} (hk : k < 24) :
    Divided jj which s dividend k ((div jj which)^[k + 1] d) := by
  induction k with
  | zero => exact divided_first hs hdiv hreg hacc hc
  | succ k ih =>
      rw [Function.iterate_succ_apply']
      exact divided_next hs hdiv (by lia) (ih (by lia))

theorem Divided.quotient (hdiv : dividend < s * 2 ^ 24) {d : Dsp π}
    (h : Divided jj which s dividend 23 d) :
    (acc d which).toNat % 2 ^ 24 = dividend / (2 * s) := by
  obtain ⟨_, hacc, _, _⟩ := h
  have hbounds := divided_bounds hdiv (show 23 < 24 by decide)
  have hquot : dividend * 2 ^ 23 / (s * 2 ^ 24) = dividend / (2 * s) := by
    rw [show s * 2 ^ 24 = 2 * s * 2 ^ 23 by ring, Nat.mul_div_mul_right _ _ (by decide)]
  have hrem : 2 ^ 23 ∣ dividend * 2 ^ 23 % (s * 2 ^ 24) := by
    rw [Nat.dvd_mod_iff (Nat.dvd_mul_left_of_dvd (by decide) s)]
    exact Nat.dvd_mul_left _ _
  obtain ⟨c, hc⟩ := hrem
  have hlow : (acc d which).toInt % 2 ^ 24 = (acc d which).toNat % 2 ^ 24 := by
    rw [BitVec.toInt_eq_toNat_cond]
    split <;> lia
  rw [hquot] at hacc hbounds
  lia

/-- The instruction that divides an accumulator by X0, Y0, X1 or Y1. -/
def divOp (jj : Fin 4) (which : Bool) : BitVec 32 :=
  0x018040 ||| BitVec.ofNat 32 jj.val <<< 4 ||| (if which then 8 else 0)

theorem execute_divOp (h : Periph π) (fuel : Nat) (jj : Fin 4) (which : Bool) (d : Dsp π) :
    execute h fuel (divOp jj which) d = some ((), div jj.val which d) := by
  fin_cases jj <;> cases which <;> cases fuel <;> rfl

theorem times_divOp (h : Periph π) (fuel : Nat) (jj : Fin 4) (which : Bool) (d : Dsp π) (k : Nat) :
    times k (execute h fuel (divOp jj which)) d = some ((), (div jj.val which)^[k] d) := by
  induction k generalizing d with
  | zero => rfl
  | succ k ih =>
      have hbind : times (k + 1) (execute h fuel (divOp jj which)) d =
          (execute h fuel (divOp jj which) d).bind
            fun r => times k (execute h fuel (divOp jj which)) r.2 := rfl
      rw [hbind, execute_divOp, Option.bind_some, ih, Function.iterate_succ_apply]

/-- A division of a dividend that is below the divisor's level, with C clear, leaves the
quotient by twice the divisor in the low word, and never sets V. -/
theorem division_quotient (h : Periph π) (fuel : Nat) (jj : Fin 4) (which : Bool) (d : Dsp π)
    (hs : (jjReg d jj.val).toNat < 2 ^ 23) (hnonneg : 0 ≤ (acc d which).toInt)
    (hdiv : (acc d which).toInt < (jjReg d jj.val).toNat * 2 ^ 24) (hc : flag d srC = false) :
    (exists d', times 24 (execute h fuel (divOp jj which)) d = some ((), d') ∧
      (acc d' which).toNat % 2 ^ 24 = (acc d which).toNat / (2 * (jjReg d jj.val).toNat)) ∧
      forall k, 1 ≤ k -> k ≤ 24 -> exists d',
        times k (execute h fuel (divOp jj which)) d = some ((), d') ∧ flag d' srV = false := by
  have hnat : (acc d which).toInt = (acc d which).toNat := by
    have hcond := BitVec.toInt_eq_toNat_cond (acc d which)
    have hlt := (acc d which).isLt
    split at hcond <;> lia
  have hbound : (acc d which).toNat < (jjReg d jj.val).toNat * 2 ^ 24 := by lia
  have hdivided : forall k, k < 24 ->
      Divided jj.val which (jjReg d jj.val).toNat (acc d which).toNat k
        ((div jj.val which)^[k + 1] d) :=
    fun k hk => divided_iterate hs hbound rfl hnat hc hk
  constructor
  · refine ⟨_, times_divOp h fuel jj which d 24, ?_⟩
    exact (hdivided 23 (by decide)).quotient hbound
  · intro k hk hk24
    refine ⟨_, times_divOp h fuel jj which d k, ?_⟩
    obtain ⟨j, rfl⟩ : exists j, k = j + 1 := ⟨k - 1, by lia⟩
    exact (hdivided j (by lia)).2.2.2

/-- 3 · 2^24 divided by twice 7. -/
theorem division_quotient_seven :
    exists d', times 24 (execute noHooks 0 (divOp 0 false))
      { dsp56kInit (fun _ => 0) () with x0 := 7, a := 0x3000000 } = some ((), d') ∧
      (acc d' false).toNat % 2 ^ 24 = 0x3000000 / (2 * 7) :=
  (division_quotient noHooks 0 0 false { dsp56kInit (fun _ => 0) () with x0 := 7, a := 0x3000000 }
    (by decide) (by decide) (by decide) (by decide)).1

end
end Dsp56k
end PistormAtari
