import Mathlib
import PistormAtari.Dsp.DecoderRules
import PistormAtari.Dsp.Loads

/-!
# The interpreter of the DSP: the representation invariant

A word has 24 bits in the 32 it is kept in, an accumulator 56 with its sign extended to
64, and nothing outside the stack is touched.
-/

namespace PistormAtari
namespace Dsp56k

open Falcon (Space DspIrq dspVecStackerr irqSource execSpace)
open Foundation (act ask look Spec Keeps)

section
variable {π : Type}

/-!
## Words and accumulators
-/

def Word24 (v : BitVec 32) : Prop := v.toNat < 2 ^ 24

def Signed56 (v : BitVec 64) : Prop := sx56 v = v

theorem word24_mask (v : BitVec 32) : Word24 (v &&& m24) := by
  unfold Word24
  rw [BitVec.toNat_and]
  exact Nat.lt_of_le_of_lt Nat.and_le_right (by decide)

theorem word24_zero : Word24 0 := by
  unfold Word24
  decide

theorem signed56_iff {v : BitVec 64} :
    Signed56 v <-> -2 ^ 55 ≤ v.toInt ∧ v.toInt < 2 ^ 55 := by
  unfold Signed56
  constructor
  · intro h
    have hint := toInt_sx56 v
    rw [h] at hint
    have hle := Int.le_bmod (x := v.toInt) (m := 2 ^ 56) (by decide)
    have hlt := Int.bmod_lt (x := v.toInt) (m := 2 ^ 56) (by decide)
    lia
  · intro h
    apply BitVec.eq_of_toInt_eq
    rw [toInt_sx56, Int.bmod_eq_of_le (by lia) (by lia)]

variable (v : BitVec 64)

theorem signed56_sx56 : Signed56 (sx56 v) := by
  apply BitVec.eq_of_toInt_eq
  rw [toInt_sx56, toInt_sx56, Int.bmod_bmod]

theorem signed56_zero : Signed56 0 := by
  unfold Signed56
  decide

theorem signed56_sx48 : Signed56 (sx48 v) := by
  have hle := Int.le_bmod (x := v.toInt) (m := 2 ^ 48) (by decide)
  have hlt := Int.bmod_lt (x := v.toInt) (m := 2 ^ 48) (by decide)
  rw [signed56_iff, toInt_sx48]
  lia

theorem signed56_accFrom24 (v : BitVec 32) : Signed56 (accFrom24 v) := by
  have hsign : ((sx24 v).signExtend 64).toInt = (v.toNat : Int).bmod (2 ^ 24) := by
    rw [BitVec.toInt_signExtend_of_le (by decide), sx24_eq,
      BitVec.toInt_signExtend_of_le (by decide), BitVec.toInt_setWidth]
  have hle := Int.le_bmod (x := (v.toNat : Int)) (m := 2 ^ 24) (by decide)
  have hlt := Int.bmod_lt (x := (v.toNat : Int)) (m := 2 ^ 24) (by decide)
  have hshift : (accFrom24 v).toInt = ((sx24 v).signExtend 64).toInt * 2 ^ 24 := by
    unfold accFrom24
    rw [BitVec.toInt_shiftLeft, Nat.shiftLeft_eq]
    push_cast
    rw [← Int.bmod_mul_bmod, ← BitVec.toInt_eq_toNat_bmod, hsign,
      Int.bmod_eq_of_le (by lia) (by lia)]
  rw [signed56_iff, hshift, hsign]
  lia

theorem signed56_half {v : BitVec 64} (h : Signed56 v) : Signed56 (v.sshiftRight 1) := by
  rw [signed56_iff] at h ⊢
  rw [BitVec.toInt_sshiftRight, Int.shiftRight_eq_div_pow]
  lia

/-!
## The invariant
-/

def MemoryRep (d : Dsp π) : Prop :=
  (forall i, Word24 (d.ext i)) ∧ (forall i, Word24 (d.pint i)) ∧ (forall i, Word24 (d.xint i)) ∧
    (forall i, Word24 (d.yint i)) ∧ (forall i, Word24 (d.xrom i)) ∧ forall i, Word24 (d.yrom i)

def StackRep (d : Dsp π) : Prop := forall i, 16 ≤ i.toNat -> d.ssh i = 0 ∧ d.ssl i = 0

def Rep (d : Dsp π) : Prop :=
  (Word24 d.x0 ∧ Word24 d.x1 ∧ Word24 d.y0 ∧ Word24 d.y1) ∧ (Signed56 d.a ∧ Signed56 d.b) ∧
    MemoryRep d ∧ StackRep d

variable {d : Dsp π}

theorem rep_setAcc (which : Bool) {v : BitVec 64} (hv : Signed56 v) (hd : Rep d) :
    Rep (setAcc which v d) := by
  obtain ⟨hregs, ⟨ha, hb⟩, hrest⟩ := hd
  cases which with
  | false => exact ⟨hregs, ⟨hv, hb⟩, hrest⟩
  | true => exact ⟨hregs, ⟨ha, hv⟩, hrest⟩

theorem Rep.acc (hd : Rep d) (which : Bool) : Signed56 (acc d which) := by
  cases which with
  | false => exact hd.2.1.1
  | true => exact hd.2.1.2

/-!
## Memory and stack
-/

theorem forall_update {α β : Type} [DecidableEq α] {p : β -> Prop} {f : α -> β}
    (hf : forall i, p (f i)) (i : α) {v : β} (hv : p v) : forall j, p (Function.update f i v j) := by
  intro j
  by_cases hj : j = i
  · rw [hj, Function.update_self]
    exact hv
  · rw [Function.update_of_ne hj]
    exact hf j

theorem rep_progRead (hd : Rep d) (a : BitVec 16) : Word24 (progRead d a) := by
  obtain ⟨_, _, ⟨hext, hpint, _⟩, _⟩ := hd
  unfold progRead
  split
  · exact hpint _
  · exact hext _

theorem rep_memRd (h : Periph π) (space : Space) (a : BitVec 16) (hd : Rep d) :
    Word24 (memRd h space a d).1 ∧ Rep (memRd h space a d).2 := by
  have hmem := hd
  obtain ⟨_, _, ⟨hext, _, hxint, hyint, hxrom, hyrom⟩, _⟩ := hmem
  unfold memRd
  cases space with
  | p => exact ⟨rep_progRead hd a, hd⟩
  | x =>
      dsimp only
      repeat' split
      · exact ⟨word24_mask _, hd⟩
      · exact ⟨hxint _, hd⟩
      · exact ⟨hxrom _, hd⟩
      · exact ⟨hext _, hd⟩
  | y =>
      dsimp only
      repeat' split
      · exact ⟨word24_mask _, hd⟩
      · exact ⟨hyint _, hd⟩
      · exact ⟨hyrom _, hd⟩
      · exact ⟨hext _, hd⟩

theorem rep_setExt (i : BitVec 15) {v : BitVec 32} (hv : Word24 v) (hd : Rep d) :
    Rep (setExt i v d) :=
  ⟨hd.1, hd.2.1, ⟨forall_update hd.2.2.1.1 i hv, hd.2.2.1.2⟩, hd.2.2.2⟩

theorem rep_setPint (i : BitVec 9) {v : BitVec 32} (hv : Word24 v) (hd : Rep d) :
    Rep (setPint i v d) :=
  ⟨hd.1, hd.2.1, ⟨hd.2.2.1.1, forall_update hd.2.2.1.2.1 i hv, hd.2.2.1.2.2⟩, hd.2.2.2⟩

theorem rep_setXint (i : BitVec 8) {v : BitVec 32} (hv : Word24 v) (hd : Rep d) :
    Rep (setXint i v d) :=
  ⟨hd.1, hd.2.1, ⟨hd.2.2.1.1, hd.2.2.1.2.1, forall_update hd.2.2.1.2.2.1 i hv, hd.2.2.1.2.2.2⟩,
    hd.2.2.2⟩

theorem rep_setYint (i : BitVec 8) {v : BitVec 32} (hv : Word24 v) (hd : Rep d) :
    Rep (setYint i v d) :=
  ⟨hd.1, hd.2.1, ⟨hd.2.2.1.1, hd.2.2.1.2.1, hd.2.2.1.2.2.1, forall_update hd.2.2.1.2.2.2.1 i hv,
    hd.2.2.1.2.2.2.2⟩, hd.2.2.2⟩

theorem rep_memWr (h : Periph π) (space : Space) (a : BitVec 16) (v : BitVec 32) (hd : Rep d) :
    Rep (memWr h space a v d) := by
  have hv := word24_mask v
  have hcount : Rep { d with writes := d.writes + 1 } := hd
  unfold memWr
  cases space with
  | p =>
      dsimp only
      split
      · exact rep_setPint _ hv hcount
      · exact rep_setExt _ hv hcount
  | x =>
      dsimp only
      repeat' split
      · exact hcount
      · exact rep_setXint _ hv hcount
      · exact hcount
      · exact rep_setExt _ hv hcount
  | y =>
      dsimp only
      repeat' split
      · exact hcount
      · exact rep_setYint _ hv hcount
      · exact hcount
      · exact rep_setExt _ hv hcount

theorem stackTop_lt (d : Dsp π) : (stackTop d).toNat < 16 := by
  unfold stackTop
  rw [BitVec.toNat_and]
  exact Nat.lt_of_le_of_lt Nat.and_le_right (by decide)

theorem pushIndex_lt (d : Dsp π) : (pushIndex d).toNat < 16 := by
  unfold pushIndex
  dsimp only
  split
  · rw [BitVec.toNat_and]
    exact Nat.lt_of_le_of_lt Nat.and_le_right (by decide)
  · lia

theorem ne_of_outside {i l : BitVec 8} (hout : 16 ≤ i.toNat) (hl : l.toNat < 16) : i ≠ l := by
  intro heq
  rw [heq] at hout
  lia

theorem rep_stackUp (hd : Rep d) : Rep (stackUp d) := by
  unfold stackUp
  dsimp only
  split
  · exact hd
  · exact hd

theorem rep_push (hi lo : BitVec 16) (hd : Rep d) : Rep (push hi lo d) := by
  have hup := rep_stackUp hd
  refine ⟨hup.1, hup.2.1, hup.2.2.1, ?_⟩
  intro i hi16
  have hne := ne_of_outside hi16 (pushIndex_lt d)
  have hcell := hup.2.2.2 i hi16
  unfold push
  dsimp only
  rw [Function.update_of_ne hne, Function.update_of_ne hne]
  exact hcell

theorem rep_pushHigh (hi : BitVec 16) (hd : Rep d) : Rep (pushHigh hi d) := by
  have hup := rep_stackUp hd
  refine ⟨hup.1, hup.2.1, hup.2.2.1, ?_⟩
  intro i hi16
  have hne := ne_of_outside hi16 (pushIndex_lt d)
  have hcell := hup.2.2.2 i hi16
  unfold pushHigh
  dsimp only
  rw [Function.update_of_ne hne]
  exact hcell

theorem rep_setLow (lo : BitVec 16) (hd : Rep d) : Rep (setLow lo d) := by
  refine ⟨hd.1, hd.2.1, hd.2.2.1, ?_⟩
  intro i hi16
  have hne := ne_of_outside hi16 (stackTop_lt d)
  unfold setLow
  dsimp only
  rw [Function.update_of_ne hne]
  exact hd.2.2.2 i hi16

theorem rep_pop (hd : Rep d) : Rep (pop d) := by
  unfold pop
  dsimp only
  split
  · exact hd
  · exact hd

/-!
## Registers
-/

theorem aluKept_rep : AluKept (π := π) Rep Signed56 where
  acc := fun which _ hd => hd.acc which
  sx56 := signed56_sx56
  sx48 := signed56_sx48
  accFrom24 := signed56_accFrom24
  half := fun _ hv => signed56_half hv
  zero := signed56_zero
  setSr := fun _ _ hd => hd
  setAcc := fun which _ _ hv hd => rep_setAcc which hv hd
  setR := fun _ _ _ hd => hd
  illegal := fun _ hd => hd

theorem rep_regRead (code : Nat) (hd : Rep d) : Rep (regRead code d).2 := by
  unfold regRead
  split
  · exact hd
  · exact hd
  · exact hd
  · exact hd
  · exact hd
  · exact hd
  · exact hd
  · exact hd
  · exact hd
  · exact hd
  · exact aluKept_rep.accBus24 _ hd
  · exact aluKept_rep.accBus24 _ hd
  · exact hd
  · exact hd
  · exact hd
  · exact rep_pop hd
  · exact hd
  · exact hd
  · exact hd
  · repeat' split
    all_goals exact hd

theorem signed56_withA0 (a0 : BitVec 32) : Signed56 (withA0 v a0) :=
  signed56_sx56 _

theorem signed56_withA1 (a1 : BitVec 32) : Signed56 (withA1 v a1) :=
  signed56_sx56 _

theorem signed56_withA2 (a2 : BitVec 32) : Signed56 (withA2 v a2) :=
  signed56_sx56 _

theorem rep_regWrite (code : Nat) (v : BitVec 32) (hd : Rep d) : Rep (regWrite code v d) := by
  have hv := word24_mask v
  have hwhole := hd
  obtain ⟨⟨hx0, hx1, hy0, hy1⟩, hrest⟩ := hwhole
  unfold regWrite
  dsimp only
  split
  · exact ⟨⟨hv, hx1, hy0, hy1⟩, hrest⟩
  · exact ⟨⟨hx0, hv, hy0, hy1⟩, hrest⟩
  · exact ⟨⟨hx0, hx1, hv, hy1⟩, hrest⟩
  · exact ⟨⟨hx0, hx1, hy0, hv⟩, hrest⟩
  · exact rep_setAcc false (signed56_withA0 _ _) hd
  · exact rep_setAcc true (signed56_withA0 _ _) hd
  · exact rep_setAcc false (signed56_withA2 _ _) hd
  · exact rep_setAcc true (signed56_withA2 _ _) hd
  · exact rep_setAcc false (signed56_withA1 _ _) hd
  · exact rep_setAcc true (signed56_withA1 _ _) hd
  · exact rep_setAcc false (signed56_accFrom24 _) hd
  · exact rep_setAcc true (signed56_accFrom24 _) hd
  · exact hd
  · exact hd
  · exact hd
  · exact rep_pushHigh _ hd
  · exact rep_setLow _ hd
  · exact hd
  · exact hd
  · repeat' split
    all_goals exact hd

theorem rep_setR (rn : Fin 8) (v : BitVec 16) (hd : Rep d) : Rep (setR rn v d) := hd

theorem rep_setN (rn : Fin 8) (v : BitVec 16) (hd : Rep d) : Rep (setN rn v d) := hd

theorem rep_regWriteShort (code : Nat) (v : BitVec 32) (hd : Rep d) :
    Rep (regWriteShort code v d) := by
  unfold regWriteShort
  split
  · exact rep_regWrite _ _ hd
  · exact rep_regWrite _ _ hd

theorem rep_eaCalc (mode : Nat) (hd : Rep d) : Rep (eaCalc mode d).2 := by
  unfold eaCalc
  dsimp only
  split
  any_goals exact hd
  split
  · exact hd
  · exact hd

theorem rep_eaXy (mm : Nat) (rn : Fin 8) (hd : Rep d) : Rep (eaXy mm rn d).2 := by
  unfold eaXy
  dsimp only
  split
  all_goals exact hd

/-!
## Moves and program control
-/

theorem rep_pendWrite (w : Pend) (hd : Rep d) : Rep (pendWrite d w) := by
  unfold pendWrite
  cases w with
  | reg24 c v => exact rep_regWrite _ _ hd
  | short c v => exact rep_regWriteShort _ _ hd
  | acc48 c v => exact rep_setAcc _ (signed56_sx48 _) hd
  | a10 c v => exact rep_setAcc _ (signed56_sx56 _) hd

theorem rep_xySet (code : Nat) {v : BitVec 32} (hv : Word24 v) (hd : Rep d) :
    Rep (xySet code v d) := by
  have hwhole := hd
  obtain ⟨⟨hx0, hx1, hy0, hy1⟩, hrest⟩ := hwhole
  unfold xySet
  split
  · exact ⟨⟨hv, hx1, hy0, hy1⟩, hrest⟩
  · exact ⟨⟨hx0, hv, hy0, hy1⟩, hrest⟩
  · exact ⟨⟨hx0, hx1, hv, hy1⟩, hrest⟩
  · exact ⟨⟨hx0, hx1, hy0, hv⟩, hrest⟩
  · exact rep_setAcc false (signed56_accFrom24 _) hd
  · exact rep_setAcc true (signed56_accFrom24 _) hd

theorem rep_closeLoop (hd : Rep d) : Rep (closeLoop d) := by
  have hfirst := rep_pop (aluKept_rep.setSr (d.sr &&& ~~~srLF ||| (sslTop d &&& srLF)) d hd)
  exact rep_pop hfirst

theorem rep_enterSub (ret target : BitVec 16) (hd : Rep d) : Rep (enterSub ret target d) := by
  have hpush := rep_push ret d.sr hd
  exact hpush

theorem rep_doJsr (target : BitVec 16) (hd : Rep d) : Rep (doJsr target d) := by
  unfold doJsr
  dsimp only
  split
  · exact aluKept_rep.setSr _ _ (rep_enterSub _ _ hd)
  · split
    · split
      · exact rep_enterSub _ _ (rep_closeLoop hd)
      · exact rep_enterSub _ _ hd
    · exact rep_enterSub _ _ hd

theorem rep_startDo (count : BitVec 32) (la : BitVec 16) (hd : Rep d) : Rep (startDo count la d) := by
  have hfirst := rep_push d.la d.lc hd
  have hregs : Rep { push d.la d.lc d with la := la, lc := count.setWidth 16 } := hfirst
  exact aluKept_rep.setSr _ _ (rep_push _ _ hregs)

theorem rep_loopEndCheck (lastWordAddr : BitVec 16) (hd : Rep d) :
    Rep (loopEndCheck lastWordAddr d) := by
  unfold loopEndCheck
  split
  · exact hd
  · split
    · exact rep_closeLoop hd
    · exact hd

theorem rep_execSystem (op : BitVec 32) (hd : Rep d) : Rep (execSystem op d) := by
  have handi : forall which imm, Rep (andi which imm d) := by
    intro which imm
    unfold andi
    split
    all_goals exact hd
  have hori : forall which imm, Rep (ori which imm d) := by
    intro which imm
    unfold ori
    split
    all_goals exact hd
  unfold execSystem
  refine prop_ite hd (prop_ite (rep_pop hd) (prop_ite hd (prop_ite hd (prop_ite (rep_pop hd) ?_))))
  refine prop_ite hd (prop_ite hd (prop_ite hd (prop_ite (rep_closeLoop hd) ?_)))
  exact prop_ite (handi _ _) (prop_ite (hori _ _) hd)

theorem rep_lua (op : BitVec 32) (hd : Rep d) : Rep (lua op d) := by
  have hea := rep_eaCalc ((field op 11 3 <<< 3) ||| field op 8 7) hd
  unfold lua
  dsimp only
  split
  · exact rep_setN _ _ (rep_setR _ _ hea)
  · exact rep_setR _ _ (rep_setR _ _ hea)

theorem rep_goTo (call : Bool) (target : BitVec 16) (hd : Rep d) : Rep (goTo call target d) := by
  cases call with
  | false => exact hd
  | true => exact rep_doJsr target hd

theorem rep_execShortJump (op : BitVec 32) (startPc : BitVec 16) (hd : Rep d) :
    Rep (execShortJump op startPc d) := by
  unfold execShortJump
  split
  · dsimp only
    repeat' split
    all_goals exact hd
  · split
    · exact rep_doJsr _ hd
    · exact hd
  · split
    · exact hd
    · exact hd
  · split
    · exact rep_doJsr _ hd
    · exact hd

theorem kept_rep (h : Periph π) : Kept h Rep Rep Signed56 Word24 where
  alu := aluKept_rep
  weaken := fun _ hd => hd
  memRd := fun space a _ hd => rep_memRd h space a hd
  memWr := fun space a v _ hd => rep_memWr h space a v hd
  fetch := fun _ hd => hd
  eaCalc := fun mode _ hd => rep_eaCalc mode hd
  eaXy := fun mm rn _ hd => rep_eaXy mm rn hd
  regRead := fun code _ hd => rep_regRead code hd
  regWrite := fun code v _ hd => rep_regWrite code v hd
  pendWrite := fun w _ hd => rep_pendWrite w hd
  xySet := fun code _ _ hv hd => rep_xySet code hv hd
  execSystem := fun op _ hd => rep_execSystem op hd
  lua := fun op _ hd => rep_lua op hd
  startDo := fun count la _ hd => rep_startDo count la hd
  goTo := fun call target _ hd => rep_goTo call target hd
  waits := fun _ hd => hd
  rewind := fun _ _ _ hd => hd
  setLc := fun _ _ hd => hd
  execShortJump := fun op startPc _ hd => rep_execShortJump op startPc hd

/-!
## Interrupts and runs
-/

theorem keeps_fetchExecute (h : Periph π) (fuel : Nat) {β : Type} {next : Unit -> DspM π β}
    (hnext : forall v, Keeps Rep (next v)) :
    Keeps Rep (do let op <- ask fetch; let v <- execute h fuel op; next v) :=
  Keeps.bind (kept_rep h).keepsFetch fun op =>
    Keeps.bind ((kept_rep h).execute fuel op) hnext

theorem keeps_fastIrq (h : Periph π) (fuel : Nat) (vec : BitVec 16) (n : Nat) :
    Keeps Rep (fastIrq h fuel vec n) := by
  induction n with
  | zero =>
      intro _ _ _ hr
      cases hr
  | succ n ih =>
      unfold fastIrq
      refine Keeps.bind Keeps.look fun inside => Keeps.ite ?_ Keeps.pure
      exact keeps_fetchExecute h fuel fun _ => ih

theorem rep_leaveFast (ret : BitVec 16) (hd : Rep d) : Rep (leaveFast ret d) := by
  unfold leaveFast
  exact prop_ite hd hd

theorem keeps_serviceIrq (h : Periph π) (fuel : Nat) : Keeps Rep (serviceIrq h fuel) := by
  unfold serviceIrq
  refine Keeps.bind Keeps.look fun best => ?_
  cases best with
  | none => exact Keeps.pure
  | some source =>
      refine Keeps.bind Keeps.look fun ret => Keeps.bind Keeps.look fun op0 => ?_
      have henter : Keeps Rep (act (enterIrq (π := π) source)) := Keeps.act fun _ hd => hd
      refine Keeps.bind henter fun _ => Keeps.ite ?_ ?_
      · exact keeps_fetchExecute h fuel fun _ => Keeps.act fun _ hd => hd
      · exact Keeps.bind (keeps_fastIrq h fuel _ fuel) fun _ =>
          Keeps.act fun _ hd => rep_leaveFast _ hd

theorem rep_waitLoop (tgt : BitVec 16) (hd : Rep d) : Rep (waitLoop tgt d) := by
  unfold waitLoop
  exact prop_ite hd hd

theorem keeps_instruction (h : Periph π) (fuel : Nat) : Keeps Rep (instruction h fuel) := by
  unfold instruction
  refine Keeps.bind (Keeps.act fun _ hd => hd) fun _ => Keeps.bind Keeps.look fun spc => ?_
  refine keeps_fetchExecute h fuel fun _ => Keeps.bind Keeps.look fun npc => ?_
  exact Keeps.bind (Keeps.act fun _ hd => prop_ite (rep_waitLoop _ hd) hd) fun _ => Keeps.pure

theorem rep_afterInstr (stop : Nat) (spc npc : BitVec 16) (hd : Rep d) :
    Rep (afterInstr stop spc npc d).2 := by
  unfold afterInstr
  split
  · exact hd
  · unfold endTest
    exact prop_ite (rep_loopEndCheck _ hd) hd

theorem keeps_runStep (h : Periph π) (fuel stop : Nat) : Keeps Rep (runStep h fuel stop) := by
  have hinterrupts : Keeps Rep (interrupts h fuel) := by
    unfold interrupts
    exact Keeps.bind Keeps.look fun _ => Keeps.ite (keeps_serviceIrq h fuel) Keeps.pure
  unfold runStep
  refine Keeps.bind hinterrupts fun _ => Keeps.bind Keeps.look fun halted => Keeps.ite ?_ ?_
  · exact Keeps.bind (Keeps.act fun _ hd => hd) fun _ => Keeps.pure
  · exact Keeps.bind (keeps_instruction h fuel) fun p =>
      Keeps.ask fun _ hd => rep_afterInstr _ _ _ hd

theorem keeps_dsp56kRun (h : Periph π) (fuel cycles : Nat) : Keeps Rep (dsp56kRun h fuel cycles) := by
  have hloop : forall n stop, Keeps Rep (runLoop h fuel stop n) := by
    intro n stop
    induction n with
    | zero => exact Keeps.pure
    | succ n ih =>
        unfold runLoop
        refine Keeps.bind Keeps.look fun more => Keeps.ite ?_ Keeps.pure
        exact Keeps.bind (keeps_runStep h fuel stop) fun goesOn => Keeps.ite ih Keeps.pure
  unfold dsp56kRun
  exact Keeps.bind Keeps.look fun stop => hloop _ _

/-!
## Loads
-/

theorem rep_execWords (h : Periph π) (space : Space) (a : BitVec 16) (ws : List (BitVec 32))
    (hd : Rep d) : Rep (execWords h space a ws d) := by
  induction ws generalizing a d with
  | nil => exact hd
  | cons v rest ih => exact ih _ (rep_memWr h space a v hd)

theorem rep_execBlocks (h : Periph π) (fuel : Nat) (ws : List (BitVec 32)) (hd : Rep d) :
    Rep (execBlocks h fuel ws d) := by
  induction fuel generalizing ws d with
  | zero => exact hd
  | succ fuel ih =>
      rcases ws with _ | ⟨t, _ | ⟨a, _ | ⟨c, rest⟩⟩⟩
      · exact hd
      · exact hd
      · exact hd
      · unfold execBlocks
        cases execSpace t with
        | none => exact hd
        | some space => exact prop_ite hd (ih _ (rep_execWords h _ _ _ hd))

theorem rep_setPintRun (ws : List (BitVec 32)) (i : Nat) (hd : Rep d) : Rep (loadPint i ws d) := by
  induction ws generalizing i d with
  | nil => exact hd
  | cons v rest ih => exact ih _ (rep_setPint _ (word24_mask v) hd)

theorem rep_dspExecLoad (h : Periph π) (boot : Bool) (ws : List (BitVec 32)) (hd : Rep d) :
    Rep (dspExecLoad h boot ws d) := by
  have homr : Rep { d with omr := 0x0002 } := hd
  unfold dspExecLoad
  cases boot with
  | false =>
      have hload := rep_execBlocks h ws.length ws homr
      exact hload
  | true =>
      have hload := rep_setPintRun (ws.take 512) 0 homr
      exact hload

theorem word24_hostWord (high mid low : BitVec 8) : Word24 (hostWord high mid low) := by
  unfold Word24 hostWord
  have hhigh := high.isLt
  have hmid := mid.isLt
  have hlow := low.isLt
  rw [BitVec.toNat_or, BitVec.toNat_or]
  refine Nat.or_lt_two_pow (Nat.or_lt_two_pow ?_ ?_) ?_
  · rw [BitVec.toNat_shiftLeft, BitVec.toNat_setWidth, Nat.shiftLeft_eq]
    lia
  · rw [BitVec.toNat_shiftLeft, BitVec.toNat_setWidth, Nat.shiftLeft_eq]
    lia
  · rw [BitVec.toNat_setWidth]
    lia

theorem rep_reset (hd : Rep d) : Rep (dsp56kReset d) := hd

theorem rep_dspReleased (hd : Rep d) : Rep (dspReleased d) := by
  obtain ⟨hregs, hacc, ⟨hext, _, hrest⟩, hstack⟩ := rep_reset hd
  exact ⟨hregs, hacc, ⟨hext, fun _ => word24_zero, hrest⟩, hstack⟩

theorem rep_dsp56kInit (sine : BitVec 8 -> BitVec 32) (ctx : π) : Rep (dsp56kInit sine ctx) := by
  have hzero := word24_zero
  have hxrom : forall i, Word24 ((Falcon.xRom i).setWidth 32) := by
    intro i
    unfold Word24
    rw [BitVec.toNat_setWidth]
    have hlt := (Falcon.xRom i).isLt
    lia
  refine ⟨⟨hzero, hzero, hzero, hzero⟩, ⟨signed56_zero, signed56_zero⟩, ⟨?_, ?_, ?_, ?_, ?_, ?_⟩, ?_⟩
  · exact fun _ => hzero
  · exact fun _ => hzero
  · exact fun _ => hzero
  · exact fun _ => hzero
  · exact hxrom
  · exact fun i => word24_mask (sine i)
  · exact fun _ _ => ⟨rfl, rfl⟩

theorem rep_dspStep (h : Periph π) (op : DspOp) {d' : Dsp π} (hd : Rep d)
    (hstep : dspStep h d op = some d') : Rep d' := by
  cases op with
  | run fuel cycles =>
      unfold dspStep at hstep
      rw [Option.map_eq_some_iff] at hstep
      rcases hstep with ⟨r, hr, rfl⟩
      exact keeps_dsp56kRun h fuel cycles d hd r hr
  | irqRaise vector level =>
      cases hstep
      exact hd
  | irqClear vector =>
      cases hstep
      exact hd
  | reset =>
      cases hstep
      exact rep_reset hd
  | release =>
      cases hstep
      exact rep_dspReleased hd
  | execLoad boot ws =>
      cases hstep
      exact rep_dspExecLoad h boot ws hd
  | bootWord i high mid low =>
      cases hstep
      exact rep_setPint i (word24_hostWord high mid low) hd
  | startAt0 =>
      cases hstep
      exact hd

theorem rep_dspSteps (h : Periph π) (ops : List DspOp) {d' : Dsp π} (hd : Rep d)
    (hrun : ops.foldlM (dspStep h) d = some d') : Rep d' := by
  induction ops generalizing d with
  | nil =>
      cases hrun
      exact hd
  | cons op rest ih =>
      rw [List.foldlM_cons, Option.bind_eq_bind, Option.bind_eq_some_iff] at hrun
      rcases hrun with ⟨e, he, hrest⟩
      exact ih (rep_dspStep h op hd he) hrest

/-!
## The stack error
-/

/-- The stack error is pending at the level that cannot be masked. -/
def StackError (d : Dsp π) : Prop :=
  d.irq.pending (irqSource dspVecStackerr) = true ∧ d.irq.level (irqSource dspVecStackerr) = 3

theorem stackError_raise (d : Dsp π) : StackError (irqRaise dspVecStackerr 3 d) := by
  constructor
  · exact Function.update_self (irqSource dspVecStackerr) true d.irq.pending
  · exact Function.update_self (irqSource dspVecStackerr) 3 d.irq.level

theorem stackUp_overflow (hfull : stackTop d = 15) : StackError (stackUp d) := by
  unfold stackTop at hfull
  unfold stackUp
  dsimp only
  rw [hfull, if_pos (by decide)]
  exact stackError_raise _

theorem pop_underflow (hempty : stackTop d = 0) :
    StackError (pop d) ∧ (pop d).ssh = d.ssh ∧ (pop d).ssl = d.ssl := by
  unfold stackTop at hempty
  unfold pop
  dsimp only
  rw [if_pos hempty]
  exact ⟨stackError_raise _, rfl, rfl⟩

/-- After power-on and any sequence of runs, interrupts, resets and loads, with any
peripherals, the accumulators are 56 bits with their sign extended, the data registers and
all memory are words of 24 bits, and every index into the stack is below 16: a push with
the last level in use and a pop with none raise the stack error instead of going outside,
where no cell is ever written. -/
theorem representation_kept (h : Periph π) (sine : BitVec 8 -> BitVec 32) (ctx : π)
    (ops : List DspOp) (d : Dsp π)
    (hrun : ops.foldlM (dspStep h) (dsp56kInit sine ctx) = some d) :
    (sx56 d.a = d.a ∧ sx56 d.b = d.b) ∧
      (d.x0.toNat < 2 ^ 24 ∧ d.x1.toNat < 2 ^ 24 ∧ d.y0.toNat < 2 ^ 24 ∧ d.y1.toNat < 2 ^ 24) ∧
      ((forall i, (d.ext i).toNat < 2 ^ 24) ∧ (forall i, (d.pint i).toNat < 2 ^ 24) ∧
        (forall i, (d.xint i).toNat < 2 ^ 24) ∧ (forall i, (d.yint i).toNat < 2 ^ 24) ∧
        (forall i, (d.xrom i).toNat < 2 ^ 24) ∧ forall i, (d.yrom i).toNat < 2 ^ 24) ∧
      ((stackTop d).toNat < 16 ∧ (pushIndex d).toNat < 16 ∧
        (stackTop d = 15 -> forall hi lo,
          StackError (push hi lo d) ∧ StackError (pushHigh hi d)) ∧
        (stackTop d = 0 -> StackError (pop d) ∧ (pop d).ssh = d.ssh ∧ (pop d).ssl = d.ssl) ∧
        forall i, 16 ≤ i.toNat -> d.ssh i = 0 ∧ d.ssl i = 0) := by
  obtain ⟨hregs, hacc, hmem, hstack⟩ := rep_dspSteps h ops (rep_dsp56kInit sine ctx) hrun
  refine ⟨hacc, hregs, hmem, stackTop_lt d, pushIndex_lt d, ?_, pop_underflow, hstack⟩
  intro hfull hi lo
  have herror := stackUp_overflow hfull
  exact ⟨herror, herror⟩

/-- A load of a program of one block, a run of it, an interrupt and a reset. -/
theorem representation_kept_load :
    exists d, [DspOp.execLoad false [0, 0, 1, 0xFF000000], .run 0 2, .irqRaise 0x20 1,
        .reset].foldlM (dspStep noHooks) (dsp56kInit (fun _ => 0) ()) = some d ∧ sx56 d.a = d.a :=
  ⟨_, rfl, (representation_kept noHooks (fun _ => 0) ()
    [.execLoad false [0, 0, 1, 0xFF000000], .run 0 2, .irqRaise 0x20 1, .reset] _ rfl).1.1⟩

end
end Dsp56k
end PistormAtari
