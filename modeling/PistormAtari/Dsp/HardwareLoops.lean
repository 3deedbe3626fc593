import Mathlib
import PistormAtari.Dsp.LoopInterrupts

/-!
# The interpreter of the DSP: hardware loops

The body of a loop is a sequence of instructions of one word or two and of other loops,
each of which ends before the body does.  A run is a sequence of states, one for each
instruction of the loops, between which interrupts may come.
-/

namespace PistormAtari
namespace Dsp56k

open Falcon (Space irqSource)
open Foundation (act ask look Spec)

section
variable {π : Type} {d e : Dsp π}

/-!
## The instructions of a loop
-/

/-- An instruction goes on to the next word and leaves LA, LC, LF, SP and the levels in
use alone. -/
structure FallsThrough (w : Nat) (d d' : Dsp π) : Prop where
  flow : d'.flow = .through
  words : d'.words = w
  hint : d'.idleHint = false
  same : LoopSame d d'

def CountFromSsh (op : BitVec 32) : Prop :=
  op &&& 0xFF0080 ≠ 0x060080 ∧ op &&& 0xFFC000 = 0x06C000 ∧ field op 8 0x3F = 0x3C

structure DoWord (op : BitVec 32) : Prop where
  byte : op >>> 16 = 0x06
  notRep : op.getLsbD 5 = false
  operand : ¬ CountFromSsh op

/-- A DO of `w` words is executed, with the count and the LA it has. -/
def Starts (h : Periph π) (w : Nat) (la : BitVec 16) (count : BitVec 32) (d e : Dsp π) : Prop :=
  exists d', DoWord (progRead d d.pc) ∧ Executes h d d' e ∧
    (exists c, loopCount h (progRead d d.pc) (fetch (beginInstr d)).2 = some (count, c)) ∧
    d'.words = w ∧ d'.la = la

/-- A loop has been opened over `d`: what is on the stack closes it again. -/
structure Opened (d e : Dsp π) (start la lc : BitVec 16) : Prop where
  pc : e.pc = start
  la : e.la = la
  lc : e.lc = lc
  lf : flag e srLF = true
  back : sshTop e = start
  level : level e = level d + 2
  closes : forall m, SameStack e m -> LoopSame d (closeLoop m) ∧ (closeLoop m).sp = spBits d

theorem untouched_loopCount (h : Periph π) {op : BitVec 32} (hop : ¬ CountFromSsh op) :
    Spec (Untouched d) (loopCount h op) fun _ => Untouched d := by
  unfold loopCount
  refine Spec.ite (fun _ => Spec.pure fun _ hc => hc) fun himm => Spec.ite (fun hreg => ?_) fun _ => ?_
  · have hcode : field op 8 0x3F ≠ 0x3C := fun heq => hop ⟨himm, hreg, heq⟩
    exact Spec.ask fun _ hc => untouched_regRead hcode hc
  · have hea : Spec (Untouched d) (ask (eaCalc (field op 8 0x3F))) fun _ => Untouched d :=
      Spec.ask fun _ hc => untouched_eaCalc _ hc
    have hrd : forall a, Spec (Untouched d) (rd h (ySpace (op.getLsbD 6)) a) fun _ => Untouched d :=
      fun a => Spec.ask fun _ hc => untouched_memRd h _ a hc
    exact Spec.ite (fun _ => Spec.bind hea fun ea => hrd ea.addr) fun _ => hrd (aa op)

theorem execute_do (h : Periph π) (fuel : Nat) {op : BitVec 32} (hop : DoWord op) (d : Dsp π) :
    execute h fuel op d = (loopCount h op d).bind fun y =>
      some ((), startDo (y.1 &&& 0xFFFF) ((fetch y.2).1.setWidth 16) (fetch y.2).2) := by
  have hsix : op.toNat / 2 ^ 16 = 6 := by
    have hnat := congrArg BitVec.toNat hop.byte
    rw [BitVec.toNat_ushiftRight, Nat.shiftRight_eq_div_pow] at hnat
    exact hnat
  have hbyte : field op 16 0xFF = 0x06 := by
    rw [field_byte, hsix]
    rfl
  have hserial : op.getLsbD 23 = false ∧ isParallel op = false := not_parallel (by lia)
  obtain ⟨again, hexec⟩ := execute_eq h fuel op d hserial
  rw [hexec]
  unfold execNonpar
  rw [hbyte]
  show execLoop h again op d = _
  unfold execLoop
  show (loopCount h op d).bind _ = _
  congr 1
  funext y
  show (if op.getLsbD 5 = true then _ else _ : DspM π Unit) y.2 = _
  rw [hop.notRep]
  rfl

theorem starts_spec {h : Periph π} {w : Nat} {la : BitVec 16} {count : BitVec 32}
    (hstart : Starts h w la count d e) (hroom : level d + 2 ≤ 15)
    (hla : d.pc + BitVec.ofNat 16 w - 1 ≠ la) :
    Opened d e (d.pc + BitVec.ofNat 16 w) la (count.setWidth 16) := by
  obtain ⟨d', hop, ⟨fuel, stop, -, hinstr, rfl⟩, ⟨c, hcount⟩, hwords, hdla⟩ := hstart
  obtain ⟨x, hexec, haside, hxwords⟩ := instruction_execute h hinstr
  rw [execute_do h fuel hop, hcount] at hexec
  cases hexec
  -- The operand leaves the registers of loops alone, and control goes on past it.
  have hbegin : LoopSame d (fetch (beginInstr d)).2 :=
    ⟨⟨rfl, fun _ _ => ⟨rfl, rfl⟩⟩, rfl, rfl, rfl⟩
  have hopen : LoopSame d (fetch c).2 := by
    have hread := untouched_loopCount h hop.operand _ (untouched_refl _) _ hcount
    exact hbegin.trans (untouched_fetch hread).same
  have hgoes : GoesOn d.pc (fetch c).2 := by
    have hfetched : GoesOn d.pc (fetch (beginInstr d)).2 :=
      goesOn_fetch ⟨rfl, (BitVec.add_zero d.pc).symm⟩
    exact goesOn_fetch ((kept_goesOn h d.pc).loopCount _ _ hfetched _ hcount)
  have hbegun := goesOn_startDo (count &&& 0xFFFF) ((fetch c).1.setWidth 16) hgoes
  have hlevel := hopen.toSameStack.level
  have hspec := startDo_spec (d := (fetch c).2) (count &&& 0xFFFF) ((fetch c).1.setWidth 16)
    (by rw [hlevel]; exact hroom)
  obtain ⟨hpc, hxla, hlc, hlf, hback, hup⟩ := hspec
  have hstartPc : (fetch c).2.pc = d.pc + BitVec.ofNat 16 w := by
    rw [<- hpc, hbegun.2, <- hxwords, hwords]
  have hlow : (count &&& 0xFFFF).setWidth 16 = count.setWidth 16 := by
    rw [BitVec.setWidth_and]
    exact BitVec.and_allOnes
  have hregs := congrArg Regs.pc haside.regs
  have hend := afterInstr_aside (d := d') stop d.pc d'.pc (by
    rw [hregs, hdla, hpc, hstartPc]
    exact hla)
  have hsame := (aside_loopSame haside).trans (aside_loopSame hend)
  refine ⟨?_, ?_, ?_, ?_, ?_, ?_, ?_⟩
  · rw [congrArg Regs.pc hend.regs, hregs, hpc, hstartPc]
  · rw [congrArg Regs.la hend.regs, hdla]
  · rw [hsame.lc, hlc, hlow]
  · rw [hsame.lf, hlf]
  · rw [hsame.toSameStack.sshTop, hback, hstartPc]
  · rw [hsame.toSameStack.level, hup, hlevel]
  · intro m hm
    have hclosed := closeLoop_after_startDo (d := (fetch c).2) (count &&& 0xFFFF)
      ((fetch c).1.setWidth 16) (by rw [hlevel]; exact hroom) (hsame.toSameStack.trans hm)
    exact ⟨hopen.trans hclosed.1, hclosed.2.trans hopen.sp⟩

theorem fallsThrough_spec {h : Periph π} {w : Nat} {d' : Dsp π} (hw : w = 1 ∨ w = 2)
    (hlf : flag d srLF = true) (hrun : Executes h d d' e) (hfalls : FallsThrough w d d') :
    d'.pc = d.pc + BitVec.ofNat 16 w ∧
      e = if d.pc + BitVec.ofNat 16 w - 1 = d.la then endedLoop d' else d' := by
  obtain ⟨fuel, stop, -, hinstr, rfl⟩ := hrun
  have hwent := (instruction_spec h fuel d trivial _ hinstr).1
  have hpc : d'.pc = d.pc + BitVec.ofNat 16 w := by
    rw [<- hfalls.words]
    exact hwent hfalls.flow
  have hlf' : flag d' srLF = true := by
    rw [hfalls.same.lf]
    exact hlf
  have hnear : d'.pc = d.pc + 1 ∨ d'.pc = d.pc + 2 := by
    rcases hw with rfl | rfl
    · exact Or.inl hpc
    · exact Or.inr hpc
  refine ⟨hpc, ?_⟩
  have hends := endsLoop_iff d.pc d'.pc hlf'
  split
  · rename_i hat
    have hend : EndsLoop d.pc d'.pc d' := by
      rw [hends]
      refine ⟨hfalls.hint, ?_, hnear⟩
      rw [hpc, hfalls.same.la]
      exact BitVec.sub_eq_iff_eq_add.mp hat
    rw [afterInstr_endsLoop stop hend]
  · rename_i hnot
    have hend : ¬ EndsLoop d.pc d'.pc d' := by
      intro hacts
      refine hnot (BitVec.sub_eq_iff_eq_add.mpr ?_)
      rw [<- hpc, <- hfalls.same.la]
      exact (hends.mp hacts).2.1
    rw [afterInstr_goesOn stop hfalls.hint hend]

/-!
## The body of a loop
-/

abbrev Short : Type := { w : Nat // w = 1 ∨ w = 2 }

/-- The body of a loop, which ends with an instruction that is not a loop. -/
inductive Body where
  | last (w : Short)
  | plain (w : Short) (rest : Body)
  | loop (w : Nat) (inner rest : Body)

/-- What is executed at an address: an instruction of some words, or a DO of some words
with an LA. -/
inductive Item where
  | plain (w : Short)
  | loop (w : Nat) (la : BitVec 16)

def Body.words : Body -> Nat
  | .last w => w
  | .plain w rest => w + rest.words
  | .loop w inner rest => w + inner.words + rest.words

def Body.depth : Body -> Nat
  | .last _ => 0
  | .plain _ rest => rest.depth
  | .loop _ inner rest => max (inner.depth + 1) rest.depth

def Body.la (b : Body) (start : BitVec 16) : BitVec 16 := start + BitVec.ofNat 16 b.words - 1

def Body.Has : Body -> BitVec 16 -> BitVec 16 -> Item -> Prop
  | .last w, a, x, item => x = a ∧ item = .plain w
  | .plain w rest, a, x, item =>
      x = a ∧ item = .plain w ∨ rest.Has (a + BitVec.ofNat 16 w) x item
  | .loop w inner rest, a, x, item =>
      x = a ∧ item = .loop w (inner.la (a + BitVec.ofNat 16 w)) ∨
        inner.Has (a + BitVec.ofNat 16 w) x item ∨
        rest.Has (a + BitVec.ofNat 16 w + BitVec.ofNat 16 inner.words) x item

theorem Body.words_pos (b : Body) : 0 < b.words := by
  induction b with
  | last w =>
      have hw := w.2
      show 0 < w.1
      lia
  | plain w rest ih => exact Nat.add_pos_right _ ih
  | loop w inner rest hinner hrest => exact Nat.add_pos_right _ hrest

theorem Body.start_ne_la (b : Body) (start : BitVec 16) (hsize : b.words < 2 ^ 16) :
    start - 1 ≠ b.la start := by
  intro heq
  unfold Body.la at heq
  have hzero : BitVec.ofNat 16 b.words = 0#16 := by
    have hcancel := congrArg (fun v => v + 1 - start) heq
    rw [BitVec.sub_add_cancel, BitVec.sub_add_cancel, BitVec.add_comm, BitVec.add_sub_cancel,
      BitVec.sub_self] at hcancel
    exact hcancel.symm
  have hnat := congrArg BitVec.toNat hzero
  rw [BitVec.toNat_ofNat, Nat.mod_eq_of_lt hsize] at hnat
  exact absurd hnat (Nat.ne_of_gt b.words_pos)

theorem Body.la_rest (b : Body) (start : BitVec 16) (w : Nat) :
    b.la (start + BitVec.ofNat 16 w) = start + BitVec.ofNat 16 (w + b.words) - 1 := by
  unfold Body.la
  rw [BitVec.ofNat_add, BitVec.add_assoc]

/-!
## Runs
-/

def Repeated (R : Nat -> Nat -> Prop) : Nat -> Nat -> Nat -> Prop
  | 0, i, j => i = j
  | n + 1, i, j => exists k, R i k ∧ Repeated R n k j

def passes (lc : BitVec 16) : Nat := if lc = 0 then 0x10000 else lc.toNat

def Round (h : Periph π) : Item -> Dsp π -> Dsp π -> Prop
  | .plain w, d, e => exists c c', Between h d c ∧ Executes h c c' e ∧ FallsThrough w c c'
  | .loop w la, d, e => exists c count, Between h d c ∧ Starts h w la count c e

def Follows (h : Periph π) (s : Nat -> Dsp π) (b : Body) (a : BitVec 16) : Prop :=
  forall i item, b.Has a (s i).pc item -> Round h item (s i) (s (i + 1))

/-- A run goes through a body once from one time to another: through each of its
instructions in turn, and through each loop in it as often as the DO counts. -/
def Once (h : Periph π) (s : Nat -> Dsp π) : Body -> BitVec 16 -> Nat -> Nat -> Prop
  | .last _, a, i, j => (s i).pc = a ∧ j = i + 1
  | .plain w rest, a, i, j => (s i).pc = a ∧ Once h s rest (a + BitVec.ofNat 16 w) (i + 1) j
  | .loop w inner rest, a, i, j =>
      (s i).pc = a ∧ exists c count k, Between h (s i) c ∧
        Starts h w (inner.la (a + BitVec.ofNat 16 w)) count c (s (i + 1)) ∧
        Repeated (Once h s inner (a + BitVec.ofNat 16 w)) (passes (count.setWidth 16)) (i + 1) k ∧
        Once h s rest (a + BitVec.ofNat 16 w + BitVec.ofNat 16 inner.words) k j

variable {h : Periph π} {s : Nat -> Dsp π}

theorem passes_pred {lc : BitVec 16} {n : Nat} (hn : passes lc = n + 1) (hlc : lc ≠ 1) :
    passes (lc - 1) = n := by
  unfold passes at hn ⊢
  by_cases hzero : lc = 0
  · subst hzero
    rw [if_pos rfl] at hn
    have hle : n = 0xFFFF := by lia
    subst hle
    rfl
  · rw [if_neg hzero] at hn
    have hne : lc.toNat ≠ 1 := fun heq => hlc (BitVec.eq_of_toNat_eq heq)
    have hpos : lc.toNat ≠ 0 := fun heq => hzero (BitVec.eq_of_toNat_eq heq)
    have hsub : (lc - 1).toNat = lc.toNat - 1 :=
      BitVec.toNat_sub_of_le (by
        rw [BitVec.le_def]
        show 1 ≤ lc.toNat
        lia)
    have hnot : ¬ lc - 1 = 0 := by
      intro heq
      have hnat := congrArg BitVec.toNat heq
      rw [hsub] at hnat
      have hz : lc.toNat - 1 = 0 := hnat
      lia
    rw [if_neg hnot, hsub]
    lia

theorem passes_one {lc : BitVec 16} {n : Nat} (hn : passes lc = n + 1) (hlc : lc = 1) : n = 0 := by
  subst hlc
  have hone : passes 1 = 1 := rfl
  lia

theorem repeated_spec {R : Nat -> Nat -> Prop} {start la : BitVec 16} (depth : Nat)
    (hbody : forall i, (s i).pc = start -> flag (s i) srLF = true -> (s i).la = la ->
      level (s i) + 2 * depth ≤ 15 -> exists j m, R i j ∧ LoopSame (s i) m ∧ s j = endedLoop m)
    (n : Nat) (i : Nat) (hpc : (s i).pc = start) (hlf : flag (s i) srLF = true)
    (hla : (s i).la = la) (hroom : level (s i) + 2 * depth ≤ 15)
    (hback : sshTop (s i) = start) (hn : passes (s i).lc = n) :
    exists j m, Repeated R n i j ∧ SameStack (s i) m ∧
      s j = { closeLoop m with pc := la + 1 } := by
  induction n generalizing i with
  | zero =>
      unfold passes at hn
      split at hn
      · lia
      · rename_i hne
        exact absurd (BitVec.eq_of_toNat_eq hn) hne
  | succ n ih =>
      obtain ⟨k, m, hround, hsame, hend⟩ := hbody i hpc hlf hla hroom
      unfold endedLoop at hend
      by_cases hone : m.lc = 1
      · rw [if_pos hone, hsame.la, hla] at hend
        rw [hsame.lc] at hone
        have hzero := passes_one hn hone
        subst hzero
        exact ⟨k, m, ⟨k, hround, rfl⟩, hsame.toSameStack, hend⟩
      · rw [if_neg hone] at hend
        have hnext : SameStack (s i) (s k) := by
          rw [hend]
          exact ⟨hsame.sp, hsame.levels⟩
        have hklf : flag (s k) srLF = true := by
          rw [hend]
          exact hsame.lf.trans hlf
        have hkla : (s k).la = la := by
          rw [hend]
          exact hsame.la.trans hla
        have hkpc : (s k).pc = start := by
          rw [hend]
          exact hsame.toSameStack.sshTop.trans hback
        have hklc : passes (s k).lc = n := by
          rw [hsame.lc] at hone
          rw [hend]
          show passes (m.lc - 1) = n
          rw [hsame.lc]
          exact passes_pred hn hone
        obtain ⟨j, m', hrest, hm', hj⟩ := ih k hkpc hklf hkla
          (by rw [hnext.level]; exact hroom) (by rw [hnext.sshTop]; exact hback) hklc
        exact ⟨j, m', ⟨k, hround, hrest⟩, hnext.trans hm', hj⟩

theorem between_at {b : Body} {a : BitVec 16} {i : Nat} {c : Dsp π} (hc : Between h (s i) c)
    (hpc : (s i).pc = a) (hla : (s i).la = b.la a) (hsize : b.words < 2 ^ 16) :
    c.pc = a ∧ LoopSame (s i) c := by
  have hspec := between_spec hc (by
    rw [hpc, hla]
    exact b.start_ne_la a hsize)
  exact ⟨hspec.1.trans hpc, hspec.2⟩

theorem once_spec (b : Body) (a : BitVec 16) (i : Nat) (hrun : Follows h s b a)
    (hpc : (s i).pc = a) (hlf : flag (s i) srLF = true) (hla : (s i).la = b.la a)
    (hsize : b.words < 2 ^ 16) (hroom : level (s i) + 2 * b.depth ≤ 15) :
    exists j m, Once h s b a i j ∧ LoopSame (s i) m ∧ s j = endedLoop m := by
  induction b generalizing a i with
  | last w =>
      obtain ⟨c, c', hc, hexec, hfalls⟩ := hrun i (.plain w) ⟨hpc, rfl⟩
      obtain ⟨hcpc, hsame⟩ := between_at hc hpc hla hsize
      obtain ⟨-, hnext⟩ := fallsThrough_spec w.2 (hsame.lf.trans hlf) hexec hfalls
      have hat : a + BitVec.ofNat 16 w - 1 = (Body.last w).la a := rfl
      rw [hcpc, hsame.la, hla, if_pos hat] at hnext
      exact ⟨i + 1, c', ⟨hpc, rfl⟩, hsame.trans hfalls.same, hnext⟩
  | plain w rest ih =>
      have hrest : rest.words < 2 ^ 16 := Nat.lt_of_le_of_lt (Nat.le_add_left _ _) hsize
      have hrla : rest.la (a + BitVec.ofNat 16 w) = (Body.plain w rest).la a := rest.la_rest a w
      obtain ⟨c, c', hc, hexec, hfalls⟩ := hrun i (.plain w) (Or.inl ⟨hpc, rfl⟩)
      obtain ⟨hcpc, hsame⟩ := between_at hc hpc hla hsize
      obtain ⟨hpc', hnext⟩ := fallsThrough_spec w.2 (hsame.lf.trans hlf) hexec hfalls
      rw [hcpc, hsame.la, hla, <- hrla, if_neg (rest.start_ne_la _ hrest)] at hnext
      rw [hcpc] at hpc'
      -- The end of the loop is still to come.
      have hnow : LoopSame (s i) (s (i + 1)) := by
        rw [hnext]
        exact hsame.trans hfalls.same
      obtain ⟨j, m, honce, hm, hj⟩ := ih (a + BitVec.ofNat 16 w) (i + 1)
        (fun k item hitem => hrun k item (Or.inr hitem)) (by rw [hnext, hpc'])
        (hnow.lf.trans hlf) (hnow.la.trans (hla.trans hrla.symm)) hrest
        (by rw [hnow.toSameStack.level]; exact hroom)
      exact ⟨j, m, ⟨hpc, honce⟩, hnow.trans hm, hj⟩
  | loop w inner rest hinner hrest =>
      have hwords : w + inner.words + rest.words < 2 ^ 16 := hsize
      have hdepth : level (s i) + 2 * max (inner.depth + 1) rest.depth ≤ 15 := hroom
      have hrla : rest.la (a + BitVec.ofNat 16 w + BitVec.ofNat 16 inner.words) =
          (Body.loop w inner rest).la a := by
        rw [BitVec.add_assoc, <- BitVec.ofNat_add]
        exact rest.la_rest a (w + inner.words)
      obtain ⟨c, count, hc, hstart⟩ := hrun i (.loop w _) (Or.inl ⟨hpc, rfl⟩)
      obtain ⟨hcpc, hsame⟩ := between_at hc hpc hla hsize
      have hlevel := hsame.toSameStack.level
      have hopened := starts_spec hstart (by lia) (by
        rw [hcpc]
        exact inner.start_ne_la _ (by lia))
      rw [hcpc] at hopened
      -- The inner loop goes round as often as it counts, and gives back what it found.
      obtain ⟨k, m, hrounds, hm, hk⟩ := repeated_spec inner.depth
        (fun k hkpc hklf hkla hkroom => hinner (a + BitVec.ofNat 16 w) k
          (fun t item hitem => hrun t item (Or.inr (Or.inl hitem))) hkpc hklf hkla (by lia) hkroom)
        (passes (s (i + 1)).lc) (i + 1) hopened.pc hopened.lf hopened.la
        (by rw [hopened.level]; lia) hopened.back rfl
      rw [hopened.lc] at hrounds
      have hclosed := (hopened.closes m hm).1
      have hnow : LoopSame (s i) (s k) := by
        rw [hk]
        exact hsame.trans ⟨⟨hclosed.sp, hclosed.levels⟩, hclosed.la, hclosed.lc, hclosed.lf⟩
      have hkpc : (s k).pc = a + BitVec.ofNat 16 w + BitVec.ofNat 16 inner.words := by
        rw [hk]
        exact BitVec.sub_add_cancel _ _
      obtain ⟨j, m', honce, hm', hj⟩ := hrest _ k
        (fun t item hitem => hrun t item (Or.inr (Or.inr hitem))) hkpc (hnow.lf.trans hlf)
        (hnow.la.trans (hla.trans hrla.symm)) (by lia)
        (by rw [hnow.toSameStack.level]; lia)
      exact ⟨j, m', ⟨hpc, c, count, k, hc, hstart, hrounds, honce⟩, hnow.trans hm', hj⟩

/-- A DO that does not count from SSH goes through its body as often as it counts, 65536
times for 0, whatever loops are nested in it within the levels of the stack and whatever
interrupts are handled between its instructions with a level free for each.  The run goes
on after LA with SP, LA, LC, LF and the levels in use as they were before the DO. -/
theorem do_runs_body (h : Periph π) (b : Body) (w : Nat) (count : BitVec 32) (d : Dsp π)
    (s : Nat -> Dsp π) (hsize : b.words < 2 ^ 16) (hroom : level d + 2 * (b.depth + 1) ≤ 15)
    (hdo : Starts h w (b.la (d.pc + BitVec.ofNat 16 w)) count d (s 0))
    (hrun : Follows h s b (d.pc + BitVec.ofNat 16 w)) :
    exists j, Repeated (Once h s b (d.pc + BitVec.ofNat 16 w)) (passes (count.setWidth 16)) 0 j ∧
      (s j).pc = b.la (d.pc + BitVec.ofNat 16 w) + 1 ∧ (s j).sp = spBits d ∧ LoopSame d (s j) := by
  have hopened := starts_spec hdo (by lia) (b.start_ne_la _ hsize)
  obtain ⟨j, m, hrounds, hm, hj⟩ := repeated_spec b.depth
    (fun k hkpc hklf hkla hkroom => once_spec b _ k hrun hkpc hklf hkla hsize hkroom)
    (passes (s 0).lc) 0 hopened.pc hopened.lf hopened.la (by rw [hopened.level]; lia)
    hopened.back rfl
  rw [hopened.lc] at hrounds
  obtain ⟨hclosed, hsp⟩ := hopened.closes m hm
  refine ⟨j, hrounds, by rw [hj], by rw [hj]; exact hsp, ?_⟩
  rw [hj]
  exact ⟨⟨hclosed.sp, hclosed.levels⟩, hclosed.la, hclosed.lc, hclosed.lf⟩

/-!
## A loop over one NOP
-/

/-- A DO at `$40` over a NOP at `$42`.  The handler of the SSI interrupt is an RTI. -/
def overNop (word : BitVec 32) (sp : BitVec 8) : Dsp Unit :=
  { dsp56kInit (fun _ => 0) () with
    pc := 0x40, sr := 0, sp := sp
    ssh := fun _ => 2
    pint := fun a =>
      if a = 0x40 then word else if a = 0x41 then 0x42
      else if a = 0x0C then 0x0D0080 else if a = 0x80 then 0x000004 else 0 }

def nopped (d : Dsp Unit) : Dsp Unit := (fetch (beginInstr d)).2

def inHandler (d : Dsp Unit) : Dsp Unit :=
  { doJsr 0x80 (fetch (enterIrq (irqSource 0x0C) (irqRaise 0x0C 2 d))).2 with inFastIrq := false }

def handled (d : Dsp Unit) : Dsp Unit := rti (nopped (inHandler d))

def firstPass : Dsp Unit := startDo 2 0x42 (fetch (nopped (overNop 0x060280 0))).2

def secondPass : Dsp Unit := endedLoop (nopped (handled firstPass))

def nopRun : Nat -> Dsp Unit
  | 0 => firstPass
  | 1 => secondPass
  | _ + 2 => endedLoop (nopped secondPass)

theorem instruction_at {d d' : Dsp Unit} {a : BitVec 16} (hpc : d.pc = a)
    (hexec : execute noHooks 0 (progRead d a) (nopped d) = some ((), d'))
    (hfar : ¬ (d'.pc.toNat < a.toNat ∧ a.toNat - d'.pc.toNat ≤ 32)) :
    instruction noHooks 0 d = some ((d.pc, d'.pc), d') := by
  subst hpc
  unfold nopped at hexec
  rw [instruction_eq, hexec]
  show some ((d.pc, d'.pc), if d'.pc.toNat < _ ∧ _ then _ else d') = _
  rw [if_neg]
  rintro ⟨hless, hnear, -⟩
  exact hfar ⟨hless, hnear⟩

theorem round_nop {d c e : Dsp Unit} (hbetween : Between noHooks d c) (hpc : c.pc = 0x42)
    (hword : progRead c 0x42 = 0) (hhalt : c.halted = false) (hhint : c.idleHint = false)
    (hlf : flag c srLF = true) (hla : c.la = 0x42) (he : e = endedLoop (nopped c)) :
    Round noHooks (.plain ⟨1, Or.inl rfl⟩) d e := by
  have hnext : (nopped c).pc = 0x43 := by
    show c.pc + 1 = 0x43
    rw [hpc]
    rfl
  have hinstr : instruction noHooks 0 c = some ((c.pc, (nopped c).pc), nopped c) := by
    refine instruction_at hpc ?_ ?_
    · rw [hword]
      rfl
    · rw [hnext]
      decide
  have hfalls : FallsThrough 1 c (nopped c) :=
    ⟨rfl, rfl, hhint, ⟨⟨rfl, fun _ _ => ⟨rfl, rfl⟩⟩, rfl, rfl, rfl⟩⟩
  have hexec : Executes noHooks c (nopped c) (afterInstr 0 c.pc (nopped c).pc (nopped c)).2 :=
    ⟨0, 0, hhalt, hinstr, rfl⟩
  have hend := (fallsThrough_spec (Or.inl rfl) hlf hexec hfalls).2
  rw [he, <- hend.trans (if_pos (by rw [hpc, hla]; decide))]
  exact ⟨c, nopped c, hbetween, hexec, hfalls⟩

theorem handled_nop : Handled noHooks (irqRaise 0x0C 2 firstPass) (handled firstPass) := by
  refine ⟨inHandler firstPass, inHandler firstPass, handled firstPass, by decide +kernel, ?_,
    Relation.ReflTransGen.refl, ?_, ?_⟩
  · refine ⟨0, irqSource 0x0C, _, by decide +kernel, ⟨by decide +kernel, by decide +kernel, ?_⟩, rfl, rfl, rfl⟩
    rintro ⟨hbyte, -⟩
    revert hbyte
    decide +kernel
  · exact ⟨SameStack.refl _, rfl, rfl, by decide +kernel⟩
  · refine ⟨0, 0, rfl, ?_, ?_⟩
    · exact instruction_at rfl rfl (by decide +kernel)
    · rfl

theorem follows_nop : Follows noHooks nopRun (.last ⟨1, Or.inl rfl⟩) 0x42 := by
  rintro i item ⟨hpc, rfl⟩
  rcases i with _ | _ | i
  · refine round_nop (c := handled firstPass) ?_ rfl rfl rfl rfl rfl rfl rfl
    have hraise : Aside (nopRun 0) (irqRaise 0x0C 2 firstPass) := ⟨rfl, rfl, rfl⟩
    exact Relation.ReflTransGen.head (Or.inl hraise)
      (Relation.ReflTransGen.single (Or.inr handled_nop))
  · exact round_nop Relation.ReflTransGen.refl hpc rfl rfl rfl rfl rfl rfl
  · have hout : (nopRun (i + 2)).pc = 0x43 := rfl
    rw [hout] at hpc
    cases hpc

theorem starts_nop : Starts noHooks 2 0x42 2 (overNop 0x060280 0) (nopRun 0) := by
  refine ⟨firstPass, ⟨by decide, by decide, ?_⟩, ⟨0, 0, rfl, ?_, ?_⟩, ⟨_, rfl⟩, ?_, ?_⟩
  · rintro ⟨himm, -⟩
    exact himm (by decide)
  · exact instruction_at rfl rfl (by decide +kernel)
  · rfl
  · rfl
  · rfl

/-- Two passes, with an interrupt in the first. -/
theorem do_runs_body_nop :
    exists j, Repeated (Once noHooks nopRun (.last ⟨1, Or.inl rfl⟩) 0x42) 2 0 j ∧
      (nopRun j).pc = 0x43 ∧ (nopRun j).sp = 0 ∧ LoopSame (overNop 0x060280 0) (nopRun j) :=
  do_runs_body noHooks (.last ⟨1, Or.inl rfl⟩) 2 2 (overNop 0x060280 0) nopRun (by decide)
    (by decide +kernel) starts_nop follows_nop

def interruptedRun : DspM Unit Unit := do
  dsp56kRun noHooks 8 4
  act (irqRaise 0x0C 2)
  dsp56kRun noHooks 8 11

/-- After a DO that counts from SSH the loop ends with a level less than before.  Where the
loop has the last level, an interrupt overflows the stack, and the run comes past LA with
the stack empty and in error. -/
theorem not_do_restores_sp :
    ((overNop 0x06FC00 1).sp = 1 ∧
      Option.map (fun r => (r.2.pc, r.2.sp)) (dsp56kRun noHooks 0 8 (overNop 0x06FC00 1)) =
        some (0x43, 0)) ∧
    ((overNop 0x060280 13).sp = 13 ∧
      Option.map (fun r => (r.2.pc, r.2.sp)) (interruptedRun (overNop 0x060280 13)) =
        some (0x43, 0x30)) := by
  refine ⟨⟨rfl, ?_⟩, rfl, ?_⟩
  · decide +kernel
  · decide +kernel

end
end Dsp56k
end PistormAtari
