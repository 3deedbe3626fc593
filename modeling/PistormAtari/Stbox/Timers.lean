import Mathlib
import PistormAtari.Foundation.Prescaler
import PistormAtari.Mfp.StboxMfp

/-!
# The timers of the STBOX

`mfp_advance` turns guest cycles into ticks of the MFP clock and drives the four timers
with them, each through its prescaler.
-/

namespace PistormAtari
namespace Stbox

open Foundation
open Mfp

/-- The MFP has sixteen channels. -/
local instance mfpChannels : NeZero 16 := ⟨by decide⟩

inductive StTimer where
  | a
  | b
  | c
  | d
deriving DecidableEq, Repr

/-- The registers of `stbox.c` that guest time moves: the MFP, the prescaler accumulators of
its timers and the fraction of an MFP tick. -/
structure StTimers where
  mfp : StMfp
  acc : StTimer -> Nat
  mfpFp : Nat

def stCpuHz : Nat := 8021248
def mfpHz : Nat := 2457600

def mfpFpStep : Nat := mfpHz * 2 ^ 32 / stCpuHz

def mfpPresc (cr : Byte) : Nat := [0, 4, 10, 16, 50, 64, 100, 200].getD (cr &&& 7).toNat 0

/-!
## The four timers
-/

namespace StTimer

def control (m : StMfp) : StTimer -> Byte
  | a => m.tacr
  | b => m.tbcr
  | c => (m.tcdcr >>> 4) &&& 7
  | d => m.tcdcr &&& 7

def counter (m : StMfp) : StTimer -> Byte
  | a => m.tamain
  | b => m.tbmain
  | c => m.tcmain
  | d => m.tdmain

def setCounter (m : StMfp) (v : Byte) : StTimer -> StMfp
  | a => { m with tamain := v }
  | b => { m with tbmain := v }
  | c => { m with tcmain := v }
  | d => { m with tdmain := v }

def reload (m : StMfp) : StTimer -> Byte
  | a => m.tadr
  | b => m.tbdr
  | c => m.tcdr
  | d => m.tddr

def channel : StTimer -> Fin 16
  | a => 13
  | b => 8
  | c => 5
  | d => 4

end StTimer

/-- One count of a timer; at 0 it is loaded again and raises its channel. -/
def countStep (t : StTimer) (m : StMfp) : StMfp :=
  let m := t.setCounter m (t.counter m - 1)
  if t.counter m = 0 then mfpRaise (t.setCounter m (t.reload m)) t.channel else m

def mfpTimerTick (t : StTimer) (ticks : Nat) (s : StTimers) : StTimers :=
  let pre := mfpPresc (t.control s.mfp)
  if pre = 0 then s
  else
    let start := (s.acc t + ticks) % 2 ^ 32
    let l := whileFuel (fun l : Draining StMfp => decide (pre ≤ l.acc))
      (fun l => { acc := l.acc - pre, state := countStep t l.state }) start
      { acc := start, state := s.mfp }
    { s with mfp := l.state, acc := Function.update s.acc t l.acc }

def mfpAdvance (cycles : Nat) (s : StTimers) : StTimers :=
  let fp := (s.mfpFp + cycles * mfpFpStep) % 2 ^ 64
  let ticks := fp / 2 ^ 32 % 2 ^ 32
  if ticks = 0 then { s with mfpFp := fp }
  else
    let s := mfpTimerTick .a ticks { s with mfpFp := fp % 2 ^ 32 }
    let s := if s.mfp.tbcr &&& 0x08 = 0 then mfpTimerTick .b ticks s else s
    mfpTimerTick .d ticks (mfpTimerTick .c ticks s)

/-!
## Timers do not disturb each other
-/

section
variable (m : StMfp) (t t' : StTimer) (v w : Byte) (ch ch' : Fin 16)

@[simp] theorem control_setCounter : t.control (t'.setCounter m v) = t.control m := by
  cases t <;> cases t' <;> rfl

@[simp] theorem reload_setCounter : t.reload (t'.setCounter m v) = t.reload m := by
  cases t <;> cases t' <;> rfl

@[simp] theorem counter_setCounter : t.counter (t.setCounter m v) = v := by
  cases t <;> rfl

@[simp] theorem tbcr_setCounter : (t.setCounter m v).tbcr = m.tbcr := by
  cases t <;> rfl

theorem setCounter_setCounter : t.setCounter (t.setCounter m v) w = t.setCounter m w := by
  cases t <;> rfl

variable {t t'} in
theorem counter_setCounter_of_ne (hne : t ≠ t') :
    t.counter (t'.setCounter m v) = t.counter m := by
  cases t <;> cases t' <;> first | rfl | exact absurd rfl hne

variable {t t'} in
theorem setCounter_comm (hne : t ≠ t') :
    t.setCounter (t'.setCounter m w) v = t'.setCounter (t.setCounter m v) w := by
  cases t <;> cases t' <;> first | rfl | exact absurd rfl hne

def bitA (ch : Fin 16) : Byte := if 8 ≤ ch.val then 1#8 <<< (ch.val - 8) else 0

def bitB (ch : Fin 16) : Byte := if 8 ≤ ch.val then 0 else 1#8 <<< ch.val

theorem and_bit (x : Byte) (i : Fin 8) :
    x &&& (1#8 <<< i.val) ≠ 0 -> x &&& (1#8 <<< i.val) = 1#8 <<< i.val := by
  revert x i
  decide +kernel

theorem latch_eq : latch m ch =
    { m with ipra := m.ipra ||| m.iera &&& bitA ch, iprb := m.iprb ||| m.ierb &&& bitB ch } := by
  have hzero : forall x y : Byte, x ||| y &&& 0 = x := by
    intro x y
    rw [show y &&& (0 : Byte) = 0#8 from BitVec.and_zero, BitVec.or_zero]
  unfold latch bitA bitB
  dsimp only
  by_cases hset : 8 ≤ ch.val
  · rw [if_pos hset, if_pos hset, if_pos hset, hzero]
    split
    · next hon => rw [and_bit m.iera ⟨ch.val - 8, by lia⟩ hon]
    · next hoff => rw [not_not.mp hoff, show m.ipra ||| (0 : Byte) = m.ipra from BitVec.or_zero]
  · rw [if_neg hset, if_neg hset, if_neg hset, hzero]
    split
    · next hon => rw [and_bit m.ierb ⟨ch.val, by lia⟩ hon]
    · next hoff => rw [not_not.mp hoff, show m.iprb ||| (0 : Byte) = m.iprb from BitVec.or_zero]

@[simp] theorem control_mfpRaise : t.control (mfpRaise m ch) = t.control m := by
  unfold mfpRaise
  rw [latch_eq]
  cases t <;> rfl

@[simp] theorem counter_mfpRaise : t.counter (mfpRaise m ch) = t.counter m := by
  unfold mfpRaise
  rw [latch_eq]
  cases t <;> rfl

@[simp] theorem reload_mfpRaise : t.reload (mfpRaise m ch) = t.reload m := by
  unfold mfpRaise
  rw [latch_eq]
  cases t <;> rfl

@[simp] theorem tbcr_mfpRaise : (mfpRaise m ch).tbcr = m.tbcr := by
  unfold mfpRaise
  rw [latch_eq]
  rfl

theorem mfpRaise_setCounter :
    mfpRaise (t.setCounter m v) ch = t.setCounter (mfpRaise m ch) v := by
  unfold mfpRaise
  rw [latch_eq, latch_eq]
  cases t <;> rfl

theorem mfpRaise_comm : mfpRaise (mfpRaise m ch) ch' = mfpRaise (mfpRaise m ch') ch := by
  have hswap : forall x y z : Byte, x ||| y ||| z = x ||| z ||| y := by
    intro x y z
    rw [BitVec.or_assoc, BitVec.or_comm y, ← BitVec.or_assoc]
  unfold mfpRaise
  rw [latch_eq, latch_eq, latch_eq, latch_eq]
  unfold updateIrq StMfp.pend
  dsimp only
  rw [hswap, hswap m.iprb]

theorem countStep_eq : countStep t m =
    if t.counter m - 1 = 0 then t.setCounter (mfpRaise m t.channel) (t.reload m)
    else t.setCounter m (t.counter m - 1) := by
  unfold countStep
  dsimp only
  rw [counter_setCounter, reload_setCounter, setCounter_setCounter, mfpRaise_setCounter]

@[simp] theorem control_countStep : t.control (countStep t' m) = t.control m := by
  rw [countStep_eq]
  split
  · rw [control_setCounter, control_mfpRaise]
  · rw [control_setCounter]

@[simp] theorem tbcr_countStep : (countStep t m).tbcr = m.tbcr := by
  rw [countStep_eq]
  split
  · rw [tbcr_setCounter, tbcr_mfpRaise]
  · rw [tbcr_setCounter]

@[simp] theorem reload_countStep : t.reload (countStep t' m) = t.reload m := by
  rw [countStep_eq]
  split
  · rw [reload_setCounter, reload_mfpRaise]
  · rw [reload_setCounter]

variable {t t'} in
theorem counter_countStep_of_ne (hne : t ≠ t') : t.counter (countStep t' m) = t.counter m := by
  rw [countStep_eq]
  split
  · rw [counter_setCounter_of_ne _ _ hne, counter_mfpRaise]
  · rw [counter_setCounter_of_ne _ _ hne]

theorem countStep_mfpRaise : countStep t (mfpRaise m ch) = mfpRaise (countStep t m) ch := by
  rw [countStep_eq, countStep_eq, counter_mfpRaise, reload_mfpRaise]
  split
  · rw [mfpRaise_setCounter, mfpRaise_comm]
  · rw [mfpRaise_setCounter]

variable {t t'} in
theorem countStep_setCounter_of_ne (hne : t ≠ t') :
    countStep t (t'.setCounter m v) = t'.setCounter (countStep t m) v := by
  rw [countStep_eq, countStep_eq, counter_setCounter_of_ne _ _ hne, reload_setCounter]
  split
  · rw [mfpRaise_setCounter, setCounter_comm _ _ _ hne]
  · rw [setCounter_comm _ _ _ hne]

end

theorem countStep_commute {t t' : StTimer} (hne : t ≠ t') :
    Function.Commute (countStep t) (countStep t') := by
  intro m
  rw [countStep_eq m t', countStep_eq (countStep t m) t', counter_countStep_of_ne m hne.symm,
    reload_countStep]
  split
  · rw [countStep_setCounter_of_ne _ _ hne, countStep_mfpRaise]
  · rw [countStep_setCounter_of_ne _ _ hne]

theorem control_iterate (t t' : StTimer) (n : Nat) (m : StMfp) :
    t.control ((countStep t')^[n] m) = t.control m := by
  induction n with
  | zero => rfl
  | succ n ih => rw [Function.iterate_succ_apply', control_countStep, ih]

theorem tbcr_iterate (t : StTimer) (n : Nat) (m : StMfp) :
    ((countStep t)^[n] m).tbcr = m.tbcr := by
  induction n with
  | zero => rfl
  | succ n ih => rw [Function.iterate_succ_apply', tbcr_countStep, ih]

/-!
## A timer as a divider
-/

/-- The divisor of a timer that counts MFP ticks, 0 for one that does not. -/
def divisor (t : StTimer) (m : StMfp) : Nat :=
  if t = .b ∧ m.tbcr &&& 0x08 ≠ 0 then 0 else mfpPresc (t.control m)

def tick (t : StTimer) (ticks : Nat) (s : StTimers) : StTimers :=
  if divisor t s.mfp = 0 then s
  else
    { s with
      mfp := (countStep t)^[(s.acc t + ticks) / divisor t s.mfp] s.mfp
      acc := Function.update s.acc t ((s.acc t + ticks) % divisor t s.mfp) }

theorem mfpPresc_le (cr : Byte) : mfpPresc cr ≤ 200 := by
  revert cr
  decide

theorem divisor_le (t : StTimer) (m : StMfp) : divisor t m ≤ 200 := by
  unfold divisor
  split
  · exact Nat.zero_le _
  · exact mfpPresc_le _

theorem divisor_iterate (t t' : StTimer) (n : Nat) (m : StMfp) :
    divisor t ((countStep t')^[n] m) = divisor t m := by
  unfold divisor
  rw [tbcr_iterate, control_iterate]

theorem tick_of_stopped {t : StTimer} {s : StTimers} (h : divisor t s.mfp = 0) (n : Nat) :
    tick t n s = s :=
  if_pos h

theorem tick_of_running {t : StTimer} {s : StTimers} (h : divisor t s.mfp ≠ 0) (n : Nat) :
    tick t n s =
      { s with
        mfp := (countStep t)^[(s.acc t + n) / divisor t s.mfp] s.mfp
        acc := Function.update s.acc t ((s.acc t + n) % divisor t s.mfp) } :=
  if_neg h

theorem divisor_tick (t t' : StTimer) (n : Nat) (s : StTimers) :
    divisor t (tick t' n s).mfp = divisor t s.mfp := by
  unfold tick
  split
  · rfl
  · exact divisor_iterate ..

theorem acc_tick_of_ne {t t' : StTimer} (hne : t ≠ t') (n : Nat) (s : StTimers) :
    (tick t' n s).acc t = s.acc t := by
  unfold tick
  split
  · rfl
  · exact Function.update_of_ne hne ..

theorem tick_add (t : StTimer) (x y : Nat) (s : StTimers) :
    tick t y (tick t x s) = tick t (x + y) s := by
  by_cases hstop : divisor t s.mfp = 0
  · rw [tick_of_stopped hstop, tick_of_stopped hstop, tick_of_stopped hstop]
  · have hrun : divisor t (tick t x s).mfp ≠ 0 := by
      rw [divisor_tick]
      exact hstop
    rw [tick_of_running hrun, divisor_tick, tick_of_running hstop, tick_of_running hstop]
    dsimp only
    rw [Function.update_self, Function.update_idem, ← Function.iterate_add_apply,
      Nat.add_comm (_ / _), ← div_drained, ← mod_drained, Nat.add_assoc]

theorem tick_comm (t t' : StTimer) (hne : t ≠ t') (x y : Nat) (s : StTimers) :
    tick t x (tick t' y s) = tick t' y (tick t x s) := by
  by_cases hstop : divisor t s.mfp = 0
  · have hstop' : divisor t (tick t' y s).mfp = 0 := by rw [divisor_tick, hstop]
    rw [tick_of_stopped hstop, tick_of_stopped hstop']
  · have hrun : divisor t (tick t' y s).mfp ≠ 0 := by
      rw [divisor_tick]
      exact hstop
    by_cases hother : divisor t' s.mfp = 0
    · have hother' : divisor t' (tick t x s).mfp = 0 := by rw [divisor_tick, hother]
      rw [tick_of_stopped hother, tick_of_stopped hother']
    · have hrun' : divisor t' (tick t x s).mfp ≠ 0 := by
        rw [divisor_tick]
        exact hother
      rw [tick_of_running hrun, tick_of_running hrun', divisor_tick, divisor_tick,
        acc_tick_of_ne hne, acc_tick_of_ne hne.symm, tick_of_running hstop,
        tick_of_running hother]
      dsimp only
      rw [(countStep_commute hne).iterate_iterate, Function.update_comm hne]

/-!
## One advance
-/

/-- Between two advances less than a tick and less than a count is left over. -/
structure Settled (s : StTimers) : Prop where
  fraction : s.mfpFp < 2 ^ 32
  few : forall t, s.acc t < 200

def allTimers : List StTimer := [.a, .b, .c, .d]

def tickAll (ticks : Nat) (s : StTimers) : StTimers :=
  allTimers.foldl (fun s t => tick t ticks s) s

theorem tickAll_add (x y : Nat) (s : StTimers) :
    tickAll y (tickAll x s) = tickAll (x + y) s :=
  foldl_act_add tick_add tick_comm (by decide) x y s

theorem few_tick {t : StTimer} {s : StTimers} (h : forall t', s.acc t' < 200) (n : Nat) (t' : StTimer) :
    (tick t n s).acc t' < 200 := by
  by_cases hstop : divisor t s.mfp = 0
  · rw [tick_of_stopped hstop]
    exact h t'
  · rw [tick_of_running hstop]
    dsimp only
    by_cases hsame : t' = t
    · rw [hsame, Function.update_self]
      exact Nat.lt_of_lt_of_le (Nat.mod_lt _ (Nat.pos_of_ne_zero hstop)) (divisor_le ..)
    · rw [Function.update_of_ne hsame]
      exact h t'

theorem tick_fraction (t : StTimer) (n fp : Nat) (s : StTimers) :
    tick t n { s with mfpFp := fp } = { tick t n s with mfpFp := fp } := by
  unfold tick
  dsimp only
  split
  · rfl
  · rfl

theorem tickAll_fraction (n fp : Nat) (s : StTimers) :
    tickAll n { s with mfpFp := fp } = { tickAll n s with mfpFp := fp } := by
  unfold tickAll allTimers
  simp only [List.foldl_cons, List.foldl_nil, tick_fraction]

theorem mfpTimerTick_eq {t : StTimer} {n : Nat} {s : StTimers} (hcount : t = .b -> s.mfp.tbcr &&& 0x08 = 0)
    (hfits : s.acc t + n < 2 ^ 32) : mfpTimerTick t n s = tick t n s := by
  have hdivisor : divisor t s.mfp = mfpPresc (t.control s.mfp) :=
    if_neg (fun h => h.2 (hcount h.1))
  unfold mfpTimerTick tick
  dsimp only
  rw [hdivisor]
  split
  · rfl
  · next hrun =>
    rw [Nat.mod_eq_of_lt hfits,
      whileFuel_drain (Nat.pos_of_ne_zero hrun) (countStep t) (le_refl _) s.mfp]

theorem step_product {cycles : Nat} (h : cycles < 2 ^ 32) :
    cycles * mfpFpStep ≤ (2 ^ 32 - 1) * 2 ^ 31 := by
  have hstep : mfpFpStep ≤ 2 ^ 31 := by decide
  exact Nat.mul_le_mul (Nat.le_sub_one_of_lt h) hstep

variable {s : StTimers}

theorem few_tickAll (h : forall t, s.acc t < 200) (n : Nat) :
    forall t, (tickAll n s).acc t < 200 :=
  few_tick (few_tick (few_tick (few_tick h n) n) n) n

theorem timers_eq_tickAll {n : Nat} (hfew : forall t, s.acc t < 200) (hfits : n < 2 ^ 32 - 200) :
    mfpTimerTick .d n (mfpTimerTick .c n
      (if (mfpTimerTick .a n s).mfp.tbcr &&& 0x08 = 0 then
        mfpTimerTick .b n (mfpTimerTick .a n s) else mfpTimerTick .a n s)) = tickAll n s := by
  have hroom : forall {s : StTimers} (t : StTimer), (forall t, s.acc t < 200) ->
      s.acc t + n < 2 ^ 32 := by
    intro s t h
    have hacc := h t
    lia
  have hb : forall s : StTimers, (forall t, s.acc t < 200) ->
      (if s.mfp.tbcr &&& 0x08 = 0 then mfpTimerTick .b n s else s) = tick .b n s := by
    intro s h
    split
    · next hdelay => exact mfpTimerTick_eq (fun _ => hdelay) (hroom .b h)
    · next hevent => exact (tick_of_stopped (if_pos ⟨rfl, hevent⟩) n).symm
  have ha : mfpTimerTick .a n s = tick .a n s := mfpTimerTick_eq (fun h => nomatch h) (hroom .a hfew)
  have hfew1 := few_tick (t := .a) hfew n
  have hfew2 := few_tick (t := .b) hfew1 n
  have hfew3 := few_tick (t := .c) hfew2 n
  rw [ha, hb _ hfew1]
  have hc : mfpTimerTick .c n (tick .b n (tick .a n s)) = tick .c n (tick .b n (tick .a n s)) :=
    mfpTimerTick_eq (fun h => nomatch h) (hroom .c hfew2)
  rw [hc]
  exact mfpTimerTick_eq (fun h => nomatch h) (hroom .d hfew3)

/-- The timers after `fp` parts of an MFP tick, 2^32 to a tick. -/
def elapse (fp : Nat) (s : StTimers) : StTimers :=
  { (if fp / 2 ^ 32 = 0 then s else tickAll (fp / 2 ^ 32) s) with mfpFp := fp % 2 ^ 32 }

theorem mfpFp_elapse (fp : Nat) (s : StTimers) : (elapse fp s).mfpFp = fp % 2 ^ 32 := rfl

theorem elapse_elapse (x y : Nat) (s : StTimers) :
    elapse (x % 2 ^ 32 + y) (elapse x s) = elapse (x + y) s := by
  unfold elapse
  rw [← mod_drained, div_drained (2 ^ 32) x y]
  by_cases hfirst : x / 2 ^ 32 = 0
  · rw [if_pos hfirst, hfirst, Nat.zero_add]
    split
    · rfl
    · rw [tickAll_fraction]
  · rw [if_neg hfirst]
    by_cases hsecond : (x % 2 ^ 32 + y) / 2 ^ 32 = 0
    · rw [if_pos hsecond, hsecond, Nat.add_zero, if_neg hfirst]
    · rw [if_neg hsecond, if_neg (by lia), tickAll_fraction, tickAll_add]

theorem sums_fit (hs : Settled s) {cycles : Nat} (hcycles : cycles < 2 ^ 32) :
    s.mfpFp + cycles * mfpFpStep < 2 ^ 64 ∧
      (s.mfpFp + cycles * mfpFpStep) / 2 ^ 32 < 2 ^ 32 - 200 := by
  have hproduct := step_product hcycles
  have hfraction := hs.fraction
  generalize cycles * mfpFpStep = product at hproduct ⊢
  generalize s.mfpFp = fp at hfraction ⊢
  clear hs hcycles
  constructor
  · omega
  · omega

theorem mfpAdvance_eq (hs : Settled s) {cycles : Nat} (hcycles : cycles < 2 ^ 32) :
    mfpAdvance cycles s = elapse (s.mfpFp + cycles * mfpFpStep) s := by
  rcases sums_fit hs hcycles with ⟨hfits, hticks⟩
  have hshort : (s.mfpFp + cycles * mfpFpStep) / 2 ^ 32 < 2 ^ 32 :=
    Nat.lt_of_lt_of_le hticks (Nat.sub_le _ _)
  unfold mfpAdvance elapse
  generalize s.mfpFp + cycles * mfpFpStep = fp at hfits hticks hshort ⊢
  dsimp only
  rw [Nat.mod_eq_of_lt hfits, Nat.mod_eq_of_lt hshort]
  by_cases hnone : fp / 2 ^ 32 = 0
  · have hless : fp < 2 ^ 32 := Nat.lt_of_div_eq_zero (by decide) hnone
    rw [if_pos hnone, if_pos hnone, Nat.mod_eq_of_lt hless]
  · have hall := @timers_eq_tickAll { s with mfpFp := fp % 2 ^ 32 } _ hs.few hticks
    rw [if_neg hnone, if_neg hnone, hall, tickAll_fraction]

theorem settled_elapse (hs : Settled s) (fp : Nat) : Settled (elapse fp s) := by
  refine ⟨Nat.mod_lt _ (by decide), ?_⟩
  intro t
  unfold elapse
  dsimp only
  split
  · exact hs.few t
  · exact few_tickAll hs.few _ t

/-!
## Every run
-/

/-- What reaches the timers: guest time, and whatever else writes to the MFP's registers. -/
inductive TimerOp where
  | advance (cycles : BitVec 32)
  | registers (m : StMfp)
  | coldReset

def coldTimers : StTimers where
  mfp := coldReset
  acc := fun _ => 0
  mfpFp := 0

def timerStep (s : StTimers) : TimerOp -> StTimers
  | .advance cycles => mfpAdvance cycles.toNat s
  | .registers m => { s with mfp := m }
  | .coldReset => coldTimers

theorem settled_coldTimers : Settled coldTimers :=
  ⟨by decide, fun _ => (by decide : 0 < 200)⟩

theorem Settled.step (hs : Settled s) (op : TimerOp) : Settled (timerStep s op) := by
  cases op with
  | advance cycles =>
      show Settled (mfpAdvance cycles.toNat s)
      rw [mfpAdvance_eq hs cycles.isLt]
      exact settled_elapse hs _
  | registers m => exact ⟨hs.fraction, hs.few⟩
  | coldReset => exact settled_coldTimers

/-- In every state that is reached, what two advances do one advance by their sum does. -/
theorem mfpAdvance_additive (ops : List TimerOp) {x y : Nat} (h : x + y < 2 ^ 32) :
    mfpAdvance y (mfpAdvance x (run timerStep coldTimers ops)) =
      mfpAdvance (x + y) (run timerStep coldTimers ops) := by
  have hs : Settled (run timerStep coldTimers ops) :=
    @run_invariant _ _ timerStep Settled (fun _ op hs => hs.step op) _ settled_coldTimers ops
  have hx := @mfpAdvance_eq _ hs x (by lia)
  have hnext : Settled (mfpAdvance x (run timerStep coldTimers ops)) := by
    rw [hx]
    exact settled_elapse hs _
  rw [mfpAdvance_eq hnext (by lia), mfpAdvance_eq hs h, hx]
  rw [mfpFp_elapse, elapse_elapse, Nat.add_assoc, ← Nat.add_mul]

/-- Timer A counting every fourth tick, sliced into 7 and 20 cycles. -/
theorem mfpAdvance_additive_sliced :
    mfpAdvance 20 (mfpAdvance 7 (run timerStep coldTimers
        [.registers { coldReset with tacr := 1, tamain := 2, tadr := 9, iera := 0x20 },
          .advance 30#32])) =
      mfpAdvance 27 (run timerStep coldTimers
        [.registers { coldReset with tacr := 1, tamain := 2, tadr := 9, iera := 0x20 },
          .advance 30#32]) :=
  mfpAdvance_additive _ (by decide)

end Stbox
end PistormAtari
