import Mathlib
import PistormAtari.Dsp.LoopEnds

/-!
# The interpreter of the DSP: what a loop keeps on the stack

A loop that begins opens two levels and one that ends gives them back.  Two states are
compared by the registers of loops and by the levels in use, since nested loops and
interrupts leave their marks in the levels above.
-/

namespace PistormAtari
namespace Dsp56k

section
variable {π : Type}

/-!
## The stack pointer
-/

def level (d : Dsp π) : Nat := (stackTop d).toNat

def spBits (d : Dsp π) : BitVec 8 := d.sp &&& 0x3F

variable {d d' : Dsp π}

theorem stackTop_eq_spBits (d : Dsp π) : stackTop d = spBits d &&& 0x0F := by
  unfold stackTop spBits
  rw [BitVec.and_assoc]
  rfl

theorem high_eq_spBits (d : Dsp π) : d.sp &&& 0x30 = spBits d &&& 0x30 := by
  unfold spBits
  rw [BitVec.and_assoc]
  rfl

theorem spBits_eq (d : Dsp π) : spBits d = (d.sp &&& 0x30) ||| stackTop d := by
  unfold spBits stackTop
  rw [<- BitVec.and_or_distrib_left]
  rfl

theorem nibble_of_le {t : BitVec 8} (ht : t.toNat ≤ 15) : t &&& 0x0F = t := by
  apply BitVec.eq_of_toNat_eq
  rw [BitVec.toNat_and]
  have hmod : t.toNat &&& 15 = t.toNat % 2 ^ 4 := Nat.and_two_pow_sub_one_eq_mod t.toNat 4
  have hlt : t.toNat % 2 ^ 4 = t.toNat := Nat.mod_eq_of_lt (by lia)
  exact hmod.trans hlt

theorem high_of_le {t : BitVec 8} (ht : t.toNat ≤ 15) : t &&& 0x30 = 0#8 := by
  rw [<- nibble_of_le ht, BitVec.and_assoc]
  exact BitVec.and_zero

def atLevel (t : BitVec 8) (d : Dsp π) : Dsp π := { d with sp := (d.sp &&& 0x30) ||| t }

theorem stackTop_atLevel {t : BitVec 8} (ht : t.toNat ≤ 15) : stackTop (atLevel t d) = t := by
  show (d.sp &&& 0x30 ||| t) &&& 0x0F = t
  rw [BitVec.and_or_distrib_right, BitVec.and_assoc, nibble_of_le ht]
  show d.sp &&& 0#8 ||| t = t
  rw [BitVec.and_zero, BitVec.zero_or]

theorem high_atLevel {t : BitVec 8} (ht : t.toNat ≤ 15) :
    (atLevel t d).sp &&& 0x30 = d.sp &&& 0x30 := by
  show (d.sp &&& 0x30 ||| t) &&& 0x30 = d.sp &&& 0x30
  rw [BitVec.and_or_distrib_right, BitVec.and_assoc, high_of_le ht]
  exact BitVec.or_zero

theorem toNat_stackTop_succ (hroom : level d < 15) : (stackTop d + 1).toNat = level d + 1 := by
  unfold level at hroom ⊢
  rw [BitVec.toNat_add]
  exact Nat.mod_eq_of_lt (Nat.lt_of_lt_of_le (Nat.succ_lt_succ hroom) (by decide))

theorem pushIndex_eq (hroom : level d < 15) : pushIndex d = stackTop d + 1 := by
  have hnext := toNat_stackTop_succ hroom
  unfold pushIndex
  dsimp only
  rw [if_neg]
  · rfl
  · show ¬ 15 < (stackTop d + 1).toNat
    lia

theorem stackUp_eq (hroom : level d < 15) : stackUp d = atLevel (stackTop d + 1) d := by
  have hnext := toNat_stackTop_succ hroom
  unfold stackUp
  dsimp only
  rw [pushIndex_eq hroom, if_neg]
  · rfl
  · show ¬ 15 < (stackTop d + 1).toNat
    lia

theorem pop_eq (hused : 0 < level d) : pop d = atLevel (stackTop d - 1) d := by
  have hne : ¬ d.sp &&& 0x0F = 0 := by
    intro hzero
    have hlevel : level d = 0 := congrArg BitVec.toNat hzero
    lia
  unfold pop
  dsimp only
  rw [if_neg hne]
  rfl

/-!
## States that agree for a loop
-/

structure SameStack (d d' : Dsp π) : Prop where
  sp : spBits d' = spBits d
  levels : forall l : BitVec 8, l.toNat ≤ level d -> d'.ssh l = d.ssh l ∧ d'.ssl l = d.ssl l

structure LoopSame (d d' : Dsp π) : Prop extends SameStack d d' where
  la : d'.la = d.la
  lc : d'.lc = d.lc
  lf : flag d' srLF = flag d srLF

theorem SameStack.top (hsame : SameStack d d') : stackTop d' = stackTop d := by
  rw [stackTop_eq_spBits, hsame.sp, <- stackTop_eq_spBits]

theorem SameStack.high (hsame : SameStack d d') : d'.sp &&& 0x30 = d.sp &&& 0x30 := by
  rw [high_eq_spBits, hsame.sp, <- high_eq_spBits]

theorem SameStack.level (hsame : SameStack d d') : level d' = level d :=
  congrArg BitVec.toNat hsame.top

theorem SameStack.sshTop (hsame : SameStack d d') : sshTop d' = sshTop d := by
  unfold Dsp56k.sshTop
  rw [hsame.top]
  exact (hsame.levels (stackTop d) (Nat.le_refl _)).1

theorem SameStack.sslTop (hsame : SameStack d d') : sslTop d' = sslTop d := by
  unfold Dsp56k.sslTop
  rw [hsame.top]
  exact (hsame.levels (stackTop d) (Nat.le_refl _)).2

theorem SameStack.refl (d : Dsp π) : SameStack d d := ⟨rfl, fun _ _ => ⟨rfl, rfl⟩⟩

theorem SameStack.trans {d'' : Dsp π} (hfirst : SameStack d d') (hsecond : SameStack d' d'') :
    SameStack d d'' where
  sp := hsecond.sp.trans hfirst.sp
  levels := by
    intro l hl
    have hold := hfirst.levels l hl
    have hnew := hsecond.levels l (by rw [hfirst.level]; exact hl)
    exact ⟨hnew.1.trans hold.1, hnew.2.trans hold.2⟩

theorem LoopSame.refl (d : Dsp π) : LoopSame d d := ⟨SameStack.refl d, rfl, rfl, rfl⟩

theorem LoopSame.trans {d'' : Dsp π} (hfirst : LoopSame d d') (hsecond : LoopSame d' d'') :
    LoopSame d d'' where
  toSameStack := hfirst.toSameStack.trans hsecond.toSameStack
  la := hsecond.la.trans hfirst.la
  lc := hsecond.lc.trans hfirst.lc
  lf := hsecond.lf.trans hfirst.lf

theorem loopSame_of_eq (hregs : d'.toRegs = d.toRegs) (hssh : d'.ssh = d.ssh)
    (hssl : d'.ssl = d.ssl) : LoopSame d d' := by
  have hsp : d'.sp = d.sp := congrArg Regs.sp hregs
  have hsr : d'.sr = d.sr := congrArg Regs.sr hregs
  refine ⟨⟨?_, fun l _ => ⟨congrFun hssh l, congrFun hssl l⟩⟩, congrArg Regs.la hregs,
    congrArg Regs.lc hregs, ?_⟩
  · unfold spBits
    rw [hsp]
  · unfold flag
    rw [hsr]

/-!
## Opening and closing levels
-/

theorem push_eq (hi lo : BitVec 16) (hroom : level d < 15) :
    push hi lo d = { atLevel (stackTop d + 1) d with
      ssh := Function.update d.ssh (stackTop d + 1) hi
      ssl := Function.update d.ssl (stackTop d + 1) lo
      writes := d.writes + 1 } := by
  unfold push
  dsimp only
  rw [stackUp_eq hroom, pushIndex_eq hroom]
  rfl

theorem push_spec (hi lo : BitVec 16) (hroom : level d < 15) :
    stackTop (push hi lo d) = stackTop d + 1 ∧ (push hi lo d).sp &&& 0x30 = d.sp &&& 0x30 ∧
      sshTop (push hi lo d) = hi ∧ sslTop (push hi lo d) = lo ∧
      forall l : BitVec 8, l.toNat ≤ level d ->
        (push hi lo d).ssh l = d.ssh l ∧ (push hi lo d).ssl l = d.ssl l := by
  have hnext := toNat_stackTop_succ hroom
  have hle : (stackTop d + 1).toNat ≤ 15 := by lia
  have hpush := push_eq hi lo hroom
  have htop : stackTop (push hi lo d) = stackTop d + 1 := by
    rw [hpush]
    exact stackTop_atLevel (d := d) hle
  refine ⟨htop, ?_, ?_, ?_, ?_⟩
  · rw [hpush]
    exact high_atLevel (d := d) hle
  · unfold sshTop
    rw [htop, hpush]
    exact Function.update_self (stackTop d + 1) hi d.ssh
  · unfold sslTop
    rw [htop, hpush]
    exact Function.update_self (stackTop d + 1) lo d.ssl
  · intro l hl
    have hne : l ≠ stackTop d + 1 := by
      intro heq
      rw [heq] at hl
      lia
    rw [hpush]
    exact ⟨Function.update_of_ne hne hi d.ssh, Function.update_of_ne hne lo d.ssl⟩

theorem level_push (hi lo : BitVec 16) (hroom : level d < 15) :
    level (push hi lo d) = level d + 1 := by
  unfold level
  rw [(push_spec hi lo hroom).1]
  exact toNat_stackTop_succ hroom

theorem pop_after_push (hi lo : BitVec 16) (hroom : level d < 15)
    (hsame : SameStack (push hi lo d) d') : SameStack d (pop d') ∧ (pop d').sp = spBits d := by
  obtain ⟨htop, hhigh, -, -, hbelow⟩ := push_spec hi lo hroom
  have hlevel := level_push hi lo hroom
  have hused : 0 < level d' := by
    rw [hsame.level, hlevel]
    lia
  have hback : stackTop d' - 1 = stackTop d := by
    rw [hsame.top, htop]
    exact BitVec.add_sub_cancel (stackTop d) 1
  have hle : (stackTop d).toNat ≤ 15 := Nat.le_of_lt hroom
  rw [pop_eq hused, hback]
  have hsp : (atLevel (stackTop d) d').sp = spBits d := by
    show d'.sp &&& 0x30 ||| stackTop d = spBits d
    rw [hsame.high, hhigh, spBits_eq]
  refine ⟨⟨?_, ?_⟩, hsp⟩
  · rw [spBits_eq, stackTop_atLevel hle, high_atLevel hle, hsame.high, hhigh, spBits_eq]
  · intro l hl
    have hnew := hsame.levels l (by rw [hlevel]; exact Nat.le_succ_of_le hl)
    have hold := hbelow l hl
    exact ⟨hnew.1.trans hold.1, hnew.2.trans hold.2⟩

/-!
## Beginning and ending a loop
-/

theorem pop_regs (d : Dsp π) :
    (pop d).la = d.la ∧ (pop d).lc = d.lc ∧ (pop d).sr = d.sr ∧ (pop d).pc = d.pc := by
  unfold pop
  dsimp only
  split
  · exact ⟨rfl, rfl, rfl, rfl⟩
  · exact ⟨rfl, rfl, rfl, rfl⟩

theorem stackUp_regs (d : Dsp π) :
    (stackUp d).la = d.la ∧ (stackUp d).lc = d.lc ∧ (stackUp d).sr = d.sr ∧
      (stackUp d).pc = d.pc := by
  unfold stackUp
  dsimp only
  split
  · exact ⟨rfl, rfl, rfl, rfl⟩
  · exact ⟨rfl, rfl, rfl, rfl⟩

/-- The state with the first of the two levels of a loop open, and its LA and LC. -/
def halfDo (count : BitVec 32) (la : BitVec 16) (d : Dsp π) : Dsp π :=
  { push d.la d.lc d with la := la, lc := count.setWidth 16 }

theorem startDo_eq (count : BitVec 32) (la : BitVec 16) (d : Dsp π) :
    startDo count la d =
      setSr (d.sr ||| srLF) (push d.pc d.sr (halfDo count la d)) := by
  have hregs := stackUp_regs d
  have hpc : (halfDo count la d).pc = d.pc := hregs.2.2.2
  have hsr : (halfDo count la d).sr = d.sr := hregs.2.2.1
  have hpushed := (stackUp_regs (halfDo count la d)).2.2.1
  have hsr' : (push d.pc d.sr (halfDo count la d)).sr = d.sr := hpushed.trans hsr
  have hdef : startDo count la d =
      setSr ((push (halfDo count la d).pc (halfDo count la d).sr (halfDo count la d)).sr ||| srLF)
        (push (halfDo count la d).pc (halfDo count la d).sr (halfDo count la d)) := rfl
  rw [hdef, hpc, hsr, hsr']

theorem startDo_spec (count : BitVec 32) (la : BitVec 16) (hroom : level d + 2 ≤ 15) :
    (startDo count la d).pc = d.pc ∧ (startDo count la d).la = la ∧
      (startDo count la d).lc = count.setWidth 16 ∧ flag (startDo count la d) srLF = true ∧
      sshTop (startDo count la d) = d.pc ∧ level (startDo count la d) = level d + 2 := by
  have hhalf : level (halfDo count la d) = level d + 1 := level_push d.la d.lc (by lia)
  have hpushed := push_spec d.pc d.sr (d := halfDo count la d) (by lia)
  have hregs := stackUp_regs (halfDo count la d)
  have hpc : (halfDo count la d).pc = d.pc := (stackUp_regs d).2.2.2
  rw [startDo_eq]
  refine ⟨hregs.2.2.2.trans hpc, hregs.1, hregs.2.1, ?_, hpushed.2.2.1, ?_⟩
  · rw [flag_lf]
    show (d.sr ||| srLF).getLsbD 15 = true
    rw [BitVec.getLsbD_or]
    exact Bool.or_true _
  · exact (level_push d.pc d.sr (by lia)).trans (by lia)

theorem flag_closeLoop (d : Dsp π) : flag (closeLoop d) srLF = (sslTop d).getLsbD 15 := by
  have hsr : (closeLoop d).sr = d.sr &&& ~~~srLF ||| (sslTop d &&& srLF) := by
    unfold closeLoop
    rw [(pop_regs _).2.2.1]
    exact (pop_regs _).2.2.1
  rw [flag_lf, hsr, BitVec.getLsbD_or, BitVec.getLsbD_and, BitVec.getLsbD_and]
  show (d.sr.getLsbD 15 && false || (sslTop d).getLsbD 15 && true) = _
  rw [Bool.and_false, Bool.false_or, Bool.and_true]

theorem closeLoop_after_startDo (count : BitVec 32) (la : BitVec 16) (hroom : level d + 2 ≤ 15)
    (hsame : SameStack (startDo count la d) d') :
    LoopSame d (closeLoop d') ∧ (closeLoop d').sp = spBits d := by
  rw [startDo_eq] at hsame
  have hhalf : level (halfDo count la d) = level d + 1 := level_push d.la d.lc (by lia)
  have htop := push_spec d.pc d.sr (d := halfDo count la d) (by lia)
  have hlow := push_spec d.la d.lc (d := d) (by lia)
  have hssl : sslTop d' = d.sr := hsame.sslTop.trans htop.2.2.2.1
  -- One level down lie the LA and LC of before.
  have hflag : SameStack (push d.pc d.sr (halfDo count la d))
      (setSr (d'.sr &&& ~~~srLF ||| (sslTop d' &&& srLF)) d') := ⟨hsame.sp, hsame.levels⟩
  have hfirst := (pop_after_push d.pc d.sr (by lia) hflag).1
  have hhere : SameStack (push d.la d.lc d)
      (pop (setSr (d'.sr &&& ~~~srLF ||| (sslTop d' &&& srLF)) d')) :=
    ⟨hfirst.sp, hfirst.levels⟩
  have hla := hhere.sshTop.trans hlow.2.2.1
  have hlc := hhere.sslTop.trans hlow.2.2.2.1
  have hregs : SameStack (push d.la d.lc d)
      { pop (setSr (d'.sr &&& ~~~srLF ||| (sslTop d' &&& srLF)) d') with
        la := sshTop (pop (setSr (d'.sr &&& ~~~srLF ||| (sslTop d' &&& srLF)) d'))
        lc := sslTop (pop (setSr (d'.sr &&& ~~~srLF ||| (sslTop d' &&& srLF)) d')) } :=
    ⟨hhere.sp, hhere.levels⟩
  have hsecond := pop_after_push d.la d.lc (by lia) hregs
  refine ⟨⟨hsecond.1, ?_, ?_, ?_⟩, hsecond.2⟩
  · exact (pop_regs _).1.trans hla
  · exact (pop_regs _).2.1.trans hlc
  · rw [flag_closeLoop, hssl, flag_lf]

end
end Dsp56k
end PistormAtari
