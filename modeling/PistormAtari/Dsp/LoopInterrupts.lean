import Mathlib
import PistormAtari.Dsp.LoopStack

/-!
# The interpreter of the DSP: interrupts between the instructions of a loop

An interrupt whose vector holds a call stacks the program counter and SR, and the RTI of
its handler gives them back.  In between the handler may do what it likes, other loops and
interrupts included, if it leaves the registers of loops and the levels under it alone.
-/

namespace PistormAtari
namespace Dsp56k

open Falcon (Space)
open Foundation (act ask look Spec)

section
variable {π : Type} {d c c' : Dsp π}

/-!
## Operands
-/

/-- The operand of an instruction has been read, and nothing that loops and interrupts
rest on has changed. -/
structure Untouched (d c : Dsp π) : Prop where
  same : LoopSame d c
  fast : c.inFastIrq = d.inFastIrq
  ret : c.irqRetPc = d.irqRetPc

theorem untouched_congr (hd : Untouched d c) (hsp : c'.sp = c.sp) (hssh : c'.ssh = c.ssh)
    (hssl : c'.ssl = c.ssl) (hla : c'.la = c.la) (hlc : c'.lc = c.lc)
    (hlf : flag c' srLF = flag c srLF) (hfast : c'.inFastIrq = c.inFastIrq)
    (hret : c'.irqRetPc = c.irqRetPc) : Untouched d c' := by
  have hstack : SameStack c c' := by
    refine ⟨?_, fun l _ => ⟨congrFun hssh l, congrFun hssl l⟩⟩
    unfold spBits
    rw [hsp]
  exact ⟨hd.same.trans ⟨hstack, hla, hlc, hlf⟩, hfast.trans hd.fast, hret.trans hd.ret⟩

theorem untouched_refl (d : Dsp π) : Untouched d d := ⟨LoopSame.refl d, rfl, rfl⟩

theorem untouched_fetch (hd : Untouched d c) : Untouched d (fetch c).2 :=
  untouched_congr hd rfl rfl rfl rfl rfl rfl rfl rfl

theorem untouched_stepR (rn : Fin 8) (delta : Int) (hd : Untouched d c) :
    Untouched d (stepR rn delta c) :=
  untouched_congr hd rfl rfl rfl rfl rfl rfl rfl rfl

theorem untouched_periphRead (h : Periph π) (space : Space) (a : BitVec 16)
    (hd : Untouched d c) : Untouched d (periphRead h space a c).2 :=
  untouched_congr hd rfl rfl rfl rfl rfl rfl rfl rfl

theorem untouched_setSr {sr : BitVec 16} (hsr : sr.getLsbD 15 = c.sr.getLsbD 15)
    (hd : Untouched d c) : Untouched d (setSr sr c) := by
  refine untouched_congr hd rfl rfl rfl rfl rfl ?_ rfl rfl
  rw [flag_lf, flag_lf]
  exact hsr

theorem untouched_memRd (h : Periph π) (space : Space) (a : BitVec 16) (hd : Untouched d c) :
    Untouched d (memRd h space a c).2 := by
  unfold memRd
  cases space with
  | p => exact hd
  | x =>
      dsimp only
      split
      · exact untouched_periphRead h .x a hd
      · split
        · exact hd
        · split
          · exact hd
          · exact hd
  | y =>
      dsimp only
      split
      · exact untouched_periphRead h .y a hd
      · split
        · exact hd
        · split
          · exact hd
          · exact hd

theorem untouched_eaCalc (mode : Nat) (hd : Untouched d c) : Untouched d (eaCalc mode c).2 := by
  unfold eaCalc
  dsimp only
  split
  · exact untouched_stepR _ _ hd
  · exact untouched_stepR _ _ hd
  · exact untouched_stepR _ _ hd
  · exact untouched_stepR _ _ hd
  · exact hd
  · exact hd
  · split
    · exact untouched_fetch hd
    · exact untouched_fetch hd
  · exact untouched_stepR _ _ hd

theorem getLsbD_raised (cond : Bool) (f sr : BitVec 16) (hf : f.getLsbD 15 = false) :
    (raised cond f sr).getLsbD 15 = sr.getLsbD 15 := by
  unfold raised
  split
  · rw [BitVec.getLsbD_or, hf, Bool.or_false]
  · rfl

theorem untouched_accBus24 (v : BitVec 64) (hd : Untouched d c) :
    Untouched d (accBus24 v c).2 := by
  have hmark : Untouched d (markScaled (scaled c v) c) :=
    untouched_setSr (getLsbD_raised _ srS c.sr rfl) hd
  unfold accBus24
  dsimp only
  split
  · refine untouched_setSr ?_ hmark
    rw [BitVec.getLsbD_or]
    exact Bool.or_false _
  · exact hmark

theorem untouched_regRead {code : Nat} (hcode : code ≠ 0x3C) (hd : Untouched d c) :
    Untouched d (regRead code c).2 := by
  unfold regRead
  split
  · exact hd
  · exact hd
  · exact hd
  · exact hd
  · exact hd
  · exact hd
  · exact hd
  · exact hd
  · exact hd
  · exact hd
  · exact untouched_accBus24 _ hd
  · exact untouched_accBus24 _ hd
  · exact hd
  · exact hd
  · exact hd
  · exact absurd rfl hcode
  · exact hd
  · exact hd
  · exact hd
  · repeat' split
    all_goals exact hd

/-!
## The decoder
-/

/-- The first byte of a word is of instructions without a parallel move. -/
theorem not_parallel {op : BitVec 32} (hbyte : op.toNat / 2 ^ 16 < 8 ∨
    10 ≤ op.toNat / 2 ^ 16 ∧ op.toNat / 2 ^ 16 < 16) :
    op.getLsbD 23 = false ∧ isParallel op = false := by
  have hsmall : op.toNat < 2 ^ 20 := by lia
  constructor
  · exact Nat.testBit_lt_two_pow (Nat.lt_of_lt_of_le hsmall (by decide))
  · have hge : ¬ 0x100000 ≤ op.toNat := Nat.not_le.mpr hsmall
    have hne : op >>> 17 ≠ 0x04 := by
      intro heq
      have hnat := congrArg BitVec.toNat heq
      rw [BitVec.toNat_ushiftRight, Nat.shiftRight_eq_div_pow] at hnat
      have hfour : op.toNat / 2 ^ 17 = 4 := hnat
      lia
    unfold isParallel
    rw [decide_eq_false hge, beq_false_of_ne hne]
    rfl

theorem field_byte (op : BitVec 32) : field op 16 0xFF = op.toNat / 2 ^ 16 % 2 ^ 8 := by
  unfold field
  rw [BitVec.toNat_and, BitVec.toNat_ushiftRight, Nat.shiftRight_eq_div_pow]
  exact Nat.and_two_pow_sub_one_eq_mod _ 8

theorem execute_eq (h : Periph π) (fuel : Nat) (op : BitVec 32) (d : Dsp π)
    (hop : op.getLsbD 23 = false ∧ isParallel op = false) :
    exists again, execute h fuel op d = execNonpar h again op (d.pc - 1) d := by
  cases fuel with
  | zero =>
      refine ⟨fun _ _ => none, ?_⟩
      unfold execute
      rw [hop.1, hop.2]
      rfl
  | succ fuel =>
      refine ⟨execute h fuel, ?_⟩
      rw [execute]
      rw [hop.1, hop.2]
      rfl

/-!
## Calls
-/

/-- A call has been made after its operand was read, or nothing has been touched. -/
def Called (d e : Dsp π) : Prop :=
  Untouched d e ∨ exists c target, Untouched d c ∧ e = doJsr target c

theorem called_goTo (call : Bool) (target : BitVec 16) (hd : Untouched d c) :
    Called d (goTo call target c) := by
  cases call with
  | false => exact Or.inl (untouched_congr hd rfl rfl rfl rfl rfl rfl rfl rfl)
  | true => exact Or.inr ⟨c, target, hd, rfl⟩

theorem called_goTo_waits (call : Bool) (target : BitVec 16) {φ : Prop} [Decidable φ]
    (hd : Untouched d c) :
    Called d (if call = false ∧ φ then waits (goTo call target c) else goTo call target c) := by
  cases call with
  | true =>
      rw [if_neg (fun hand => Bool.noConfusion hand.1)]
      exact called_goTo true target hd
  | false =>
      refine Or.inl (prop_ite (P := fun e => Untouched d e) ?_ ?_)
      · exact untouched_congr hd rfl rfl rfl rfl rfl rfl rfl rfl
      · exact untouched_congr hd rfl rfl rfl rfl rfl rfl rfl rfl

theorem called_jumpOnBit (d : Dsp π) (call : Bool) (v : BitVec 32) (b : Nat) (kind : Bool)
    (waitsAt : Option (BitVec 16)) :
    Spec (Untouched d) (jumpOnBit call v b kind waitsAt) fun _ => Called d := by
  unfold jumpOnBit
  have hfetch : Spec (Untouched d) (ask fetch) fun _ => Untouched d :=
    Spec.ask fun _ hc => untouched_fetch hc
  refine Spec.bind hfetch fun tgt => Spec.ite (fun _ => ?_) fun _ => ?_
  · exact Spec.act fun c hc => called_goTo_waits call _ hc
  · exact Spec.pure fun c hc => Or.inl hc

theorem untouched_illegal (hd : Untouched d c) : Untouched d (illegal c) :=
  untouched_congr hd rfl rfl rfl rfl rfl rfl rfl rfl

theorem called_execJump (d : Dsp π) (op : BitVec 32) (startPc : BitVec 16) :
    Spec (Untouched d) (execJump op startPc) fun _ => Called d := by
  unfold execJump
  have hea : Spec (Untouched d) (ask (eaCalc (field op 8 0x3F))) fun _ => Untouched d :=
    Spec.ask fun _ hc => untouched_eaCalc _ hc
  refine Spec.ite (fun _ => ?_) fun _ => Spec.act fun c hc => Or.inl (untouched_illegal hc)
  have hlook : Spec (Untouched d) (look fun e => op &&& 0xFF == 0x80 ||
      cond e (field (op &&& 0xFF) 0 0xF)) fun _ => Untouched d := Spec.look fun _ hc => hc
  refine Spec.bind hlook fun doit => Spec.bind hea fun ea => Spec.ite (fun _ => ?_) fun _ => ?_
  · exact Spec.act fun c hc => called_goTo_waits _ _ hc
  · exact Spec.pure fun c hc => Or.inl hc

theorem untouched_bitAddr (d : Dsp π) (op : BitVec 32) :
    Spec (Untouched d) (bitAddr op) fun _ => Untouched d := by
  unfold bitAddr
  refine Spec.ite (fun _ => ?_) fun _ => Spec.ite (fun _ => ?_) fun _ => ?_
  · exact Spec.bind (Spec.ask fun _ hc => untouched_eaCalc _ hc) fun ea => Spec.pure fun _ hc => hc
  · exact Spec.pure fun _ hc => hc
  · exact Spec.pure fun _ hc => hc

def BitOfSsh (op : BitVec 32) : Prop :=
  field op 16 0xFF = 0x0B ∧ field op 14 3 = 3 ∧ op.getLsbD 7 = false ∧ field op 8 0x3F = 0x3C

theorem isJsr_onBit {op : BitVec 32} (hbyte : field op 16 0xFF = 0x0B) :
    isJsr op =
      if field op 14 3 ≠ 3 then op.getLsbD 7
      else if op.getLsbD 7 then true else field op 6 3 == 0 := by
  unfold isJsr
  rw [hbyte]
  rfl

theorem called_execBits (h : Periph π) (d : Dsp π) {op : BitVec 32} (startPc : BitVec 16)
    (hbyte : field op 16 0xFF = 0x0B) (hjsr : isJsr op = true) (hssh : ¬ BitOfSsh op) :
    Spec (Untouched d) (execBits h op startPc) fun _ => Called d := by
  rw [isJsr_onBit hbyte] at hjsr
  unfold execBits
  refine Spec.ite (fun hreg => Spec.ite (fun _ => ?_) fun hbit => ?_) fun hmem => ?_
  · exact called_execJump d op startPc
  · -- A call on a bit of a register.
    rw [if_neg (not_not.mpr hreg), if_neg hbit] at hjsr
    have hkind : field op 6 3 = 0 := beq_iff_eq.mp hjsr
    have hcode : field op 8 0x3F ≠ 0x3C :=
      fun heq => hssh ⟨hbyte, hreg, Bool.eq_false_iff.mpr hbit, heq⟩
    have hle : field op 5 7 ≤ 1 := by
      unfold field at hkind ⊢
      rw [BitVec.toNat_and, BitVec.toNat_ushiftRight, Nat.shiftRight_eq_div_pow] at hkind ⊢
      have htwo : op.toNat / 2 ^ 6 &&& 3 = op.toNat / 2 ^ 6 % 2 ^ 2 :=
        Nat.and_two_pow_sub_one_eq_mod _ 2
      have hthree : op.toNat / 2 ^ 5 &&& 7 = op.toNat / 2 ^ 5 % 2 ^ 3 :=
        Nat.and_two_pow_sub_one_eq_mod _ 3
      have hzero : op.toNat / 2 ^ 6 % 2 ^ 2 = 0 := htwo.symm.trans hkind
      show op.toNat / 2 ^ 5 &&& 7 ≤ 1
      rw [hthree]
      lia
    have hread : Spec (Untouched d) (ask (regRead (field op 8 0x3F))) fun _ => Untouched d :=
      Spec.ask fun _ hc => untouched_regRead hcode hc
    unfold execBitReg
    refine Spec.bind hread fun v => ?_
    rw [if_pos hle]
    exact called_jumpOnBit d _ _ _ _ _
  · -- A call on a bit of memory or of a peripheral.
    rw [if_pos hmem] at hjsr
    have hrd : forall ea, Spec (Untouched d) (rd h (ySpace (op.getLsbD 6)) ea) fun _ => Untouched d :=
      fun ea => Spec.ask fun _ hc => untouched_memRd h _ ea hc
    unfold execBitMem
    refine Spec.bind (untouched_bitAddr d op) fun ea => Spec.bind (hrd ea) fun v => ?_
    rw [if_pos hjsr]
    exact called_jumpOnBit d _ _ _ _ _

theorem called_execShortJump (op : BitVec 32) (startPc : BitVec 16)
    (hbyte : field op 16 0xFF = 0x0D ∨ field op 16 0xFF = 0x0F) (hd : Untouched d c) :
    Called d (execShortJump op startPc c) := by
  have hcall : Called d (doJsr (shortTarget op) c) := called_goTo true (shortTarget op) hd
  unfold execShortJump
  rcases hbyte with hbyte | hbyte
  · rw [hbyte]
    exact prop_ite (P := Called d) hcall (Or.inl (untouched_illegal hd))
  · rw [hbyte]
    exact prop_ite (P := Called d) hcall (Or.inl hd)

/-- The word at a vector calls a subroutine, and its operand is not SSH. -/
structure VectorCall (op : BitVec 32) : Prop where
  word : op.toNat < 2 ^ 24
  jsr : isJsr op = true
  operand : ¬ BitOfSsh op

theorem called_execute (h : Periph π) (fuel : Nat) {op : BitVec 32} (hcall : VectorCall op)
    {r : Unit × Dsp π} (hc : Untouched d c) (hrun : execute h fuel op c = some r) :
    Called d r.2 := by
  have hbyte : op.toNat / 2 ^ 16 = field op 16 0xFF := by
    have hword := hcall.word
    rw [field_byte]
    lia
  have hcases : field op 16 0xFF = 0x0D ∨ field op 16 0xFF = 0x0F ∨ field op 16 0xFF = 0x0B := by
    have hjsr := hcall.jsr
    unfold isJsr at hjsr
    grind
  have hserial : op.getLsbD 23 = false ∧ isParallel op = false := not_parallel (by lia)
  obtain ⟨again, hexec⟩ := execute_eq h fuel op c hserial
  rw [hexec] at hrun
  unfold execNonpar at hrun
  rcases hcases with hd | hf | hb
  · rw [hd] at hrun
    cases hrun
    exact called_execShortJump op (c.pc - 1) (Or.inl hd) hc
  · rw [hf] at hrun
    cases hrun
    exact called_execShortJump op (c.pc - 1) (Or.inr hf) hc
  · rw [hb] at hrun
    exact called_execBits h d (c.pc - 1) hb hcall.jsr hcall.operand c hc r hrun

/-!
## Steps
-/

/-- What goes on beside the program: cycles, interrupts that are raised, the memory and
the peripherals.  The registers and the stack stay. -/
structure Aside (d e : Dsp π) : Prop where
  regs : e.toRegs = d.toRegs
  ssh : e.ssh = d.ssh
  ssl : e.ssl = d.ssl

/-- An instruction is executed from `d`, which it leaves in `d'`, and the end of a loop is
looked for. -/
def Executes (h : Periph π) (d d' e : Dsp π) : Prop :=
  exists fuel stop, d.halted = false ∧ instruction h fuel d = some ((d.pc, d'.pc), d') ∧
    (afterInstr stop d.pc d'.pc d').2 = e

/-- An interrupt is taken, an instruction is executed, or something goes on beside. -/
inductive Step (h : Periph π) (d e : Dsp π) : Prop where
  | service (fuel : Nat) (hrun : serviceIrq h fuel d = some ((), e))
  | instr (d' : Dsp π) (hrun : Executes h d d' e)
  | aside (hrun : Aside d e)

theorem instruction_eq (h : Periph π) (fuel : Nat) (d : Dsp π) :
    instruction h fuel d =
      (execute h fuel (progRead d d.pc) (fetch (beginInstr d)).2).bind fun x =>
        some ((d.pc, x.2.pc),
          if x.2.pc.toNat < d.pc.toNat ∧ d.pc.toNat - x.2.pc.toNat ≤ 32 ∧
              x.2.inFastIrq = false ∧ x.2.repActive = false then waitLoop x.2.pc x.2
          else x.2) := rfl

theorem waitLoop_aside (tgt : BitVec 16) (d : Dsp π) : Aside d (waitLoop tgt d) := by
  unfold waitLoop
  dsimp only
  split
  · exact ⟨rfl, rfl, rfl⟩
  · exact ⟨rfl, rfl, rfl⟩

theorem aside_refl (d : Dsp π) : Aside d d := ⟨rfl, rfl, rfl⟩

theorem instruction_execute (h : Periph π) {fuel : Nat} {p : BitVec 16 × BitVec 16}
    (hrun : instruction h fuel d = some (p, d')) :
    exists x, execute h fuel (progRead d d.pc) (fetch (beginInstr d)).2 = some ((), x) ∧
      Aside x d' ∧ d'.words = x.words := by
  rw [instruction_eq, Option.bind_eq_some_iff] at hrun
  obtain ⟨⟨_, x⟩, hexec, hrest⟩ := hrun
  refine ⟨x, hexec, ?_⟩
  cases hrest
  exact prop_ite (P := fun e => Aside x e ∧ e.words = x.words)
    ⟨waitLoop_aside x.pc x, (waitLoop_flow x.pc x).2.2⟩ ⟨aside_refl x, rfl⟩

/-!
## Handlers
-/

def vectorOf (source : Fin 32) : BitVec 16 := BitVec.ofNat 16 (source.val <<< 1)

/-- The pending interrupt of the highest level is taken, and the word at its vector calls
the handler. -/
def TakesCall (h : Periph π) (d e : Dsp π) : Prop :=
  exists fuel source e', d.irq.best (field d.sr 8 3) = some source ∧
    VectorCall (progRead d (vectorOf source)) ∧
    execute h fuel (progRead d (vectorOf source)) (fetch (enterIrq source d)).2 = some ((), e') ∧
    e'.inFastIrq = false ∧ e = { e' with inFastIrq := false }

theorem doJsr_fast (target : BitVec 16) (hfast : c.inFastIrq = true) (hroom : level c < 15) :
    SameStack (push c.irqRetPc c.sr c) (doJsr target c) ∧ (doJsr target c).la = c.la ∧
      (doJsr target c).lc = c.lc := by
  have hregs := stackUp_regs { c with inFastIrq := false, flow := .called false }
  have hpush := push_eq c.irqRetPc c.sr (d := { c with inFastIrq := false, flow := .called false })
    hroom
  have hstack : SameStack (push c.irqRetPc c.sr c)
      (push c.irqRetPc c.sr { c with inFastIrq := false, flow := .called false }) := by
    rw [hpush, push_eq c.irqRetPc c.sr hroom]
    exact ⟨rfl, fun _ _ => ⟨rfl, rfl⟩⟩
  have hcall : exists sr, doJsr target c = setSr sr
      { push c.irqRetPc c.sr { c with inFastIrq := false, flow := .called false } with
        pc := target } := by
    unfold doJsr
    rw [if_pos hfast]
    exact ⟨_, rfl⟩
  obtain ⟨sr, hcall⟩ := hcall
  rw [hcall]
  exact ⟨⟨hstack.sp, hstack.levels⟩, hregs.1, hregs.2.1⟩

theorem takesCall_spec {h : Periph π} {e : Dsp π} (hroom : level d < 15)
    (hcall : TakesCall h d e) :
    exists c, LoopSame d c ∧ SameStack (push d.pc c.sr c) e ∧ e.la = d.la ∧ e.lc = d.lc := by
  obtain ⟨fuel, source, e', -, hvec, hexec, hfast, rfl⟩ := hcall
  have hstart : LoopSame d (fetch (enterIrq source d)).2 :=
    ⟨⟨rfl, fun _ _ => ⟨rfl, rfl⟩⟩, rfl, rfl, rfl⟩
  have hcalled := called_execute h fuel hvec (untouched_refl _) hexec
  rcases hcalled with hnot | ⟨c, target, hc, hcall⟩
  · -- The call has not been made: the interrupt would still be a fast one.
    have hstill : e'.inFastIrq = true := hnot.fast
    rw [hfast] at hstill
    cases hstill
  · have hcfast : c.inFastIrq = true := hc.fast
    have hret : c.irqRetPc = d.pc := hc.ret
    have hsame := hstart.trans hc.same
    have hcroom : level c < 15 := by
      rw [hsame.toSameStack.level]
      exact hroom
    obtain ⟨hstack, hla, hlc⟩ := doJsr_fast target hcfast hcroom
    dsimp only at hcall
    rw [hcall]
    rw [hret] at hstack
    refine ⟨c, hsame, ⟨hstack.sp, hstack.levels⟩, hla.trans hsame.la, hlc.trans hsame.lc⟩

/-- A handler that is at its RTI, with LA, LC, SP and the levels in use as they were when
it was entered. -/
structure AtRti (e f : Dsp π) : Prop extends SameStack e f where
  la : f.la = e.la
  lc : f.lc = e.lc
  rti : progRead f f.pc = 0x000004

/-- An interrupt is taken with a level free for it, and its handler runs to the end. -/
def Handled (h : Periph π) (d g : Dsp π) : Prop :=
  exists e f f', level d < 15 ∧ TakesCall h d e ∧ Relation.ReflTransGen (Step h) e f ∧
    AtRti e f ∧ Executes h f f' g

/-- What may come before an instruction: interrupts that are handled, and what goes on
beside. -/
def Between (h : Periph π) : Dsp π -> Dsp π -> Prop :=
  Relation.ReflTransGen fun d e => Aside d e ∨ Handled h d e

theorem afterInstr_aside (stop : Nat) (spc npc : BitVec 16) (hla : npc - 1 ≠ d.la) :
    Aside d (afterInstr stop spc npc d).2 := by
  have hend : ¬ EndsLoop spc npc d := fun hends => hla hends.2.2.2
  cases hidle : d.idleHint with
  | false =>
      rw [afterInstr_goesOn stop hidle hend]
      exact aside_refl d
  | true =>
      unfold afterInstr
      rw [hidle]
      exact ⟨rfl, rfl, rfl⟩

theorem aside_loopSame {e : Dsp π} (haside : Aside d e) : LoopSame d e :=
  loopSame_of_eq haside.regs haside.ssh haside.ssl

theorem execute_rti (h : Periph π) (fuel : Nat) (d : Dsp π) :
    execute h fuel 0x000004 d = some ((), rti d) := by
  obtain ⟨again, hexec⟩ := execute_eq h fuel 0x000004 d ⟨rfl, rfl⟩
  rw [hexec]
  rfl

theorem handled_spec {h : Periph π} {g : Dsp π} (hrun : Handled h d g) (hla : d.pc - 1 ≠ d.la) :
    g.pc = d.pc ∧ LoopSame d g := by
  obtain ⟨e, f, f', hroom, htakes, -, hrti, fuel, stop, -, hinstr, rfl⟩ := hrun
  obtain ⟨c, hc, hpushed, hela, helc⟩ := takesCall_spec hroom htakes
  have hcroom : level c < 15 := by
    rw [hc.toSameStack.level]
    exact hroom
  obtain ⟨htop, -, hssh, hssl, -⟩ := push_spec d.pc c.sr hcroom
  obtain ⟨x, hexec, haside, -⟩ := instruction_execute h hinstr
  rw [hrti.rti, execute_rti] at hexec
  cases hexec
  have hback : SameStack (push d.pc c.sr c) (fetch (beginInstr f)).2 :=
    let hf := hpushed.trans hrti.toSameStack
    ⟨hf.sp, hf.levels⟩
  have hpc : (rti (fetch (beginInstr f)).2).pc = d.pc :=
    (pop_regs _).2.2.2.trans (hback.sshTop.trans hssh)
  have hsr : (rti (fetch (beginInstr f)).2).sr = c.sr &&& 0xAFFF := by
    refine (pop_regs _).2.2.1.trans ?_
    show sslTop (fetch (beginInstr f)).2 &&& 0xAFFF = _
    rw [hback.sslTop, hssl]
  have hpopped : SameStack (push d.pc c.sr c) (setSr (sslTop (fetch (beginInstr f)).2 &&& 0xAFFF)
      (jumpTo (sshTop (fetch (beginInstr f)).2) (fetch (beginInstr f)).2)) :=
    ⟨hback.sp, hback.levels⟩
  have hsame : LoopSame c (rti (fetch (beginInstr f)).2) := by
    refine ⟨(pop_after_push d.pc c.sr hcroom hpopped).1, ?_, ?_, ?_⟩
    · rw [hc.la]
      exact (pop_regs _).1.trans (hrti.la.trans hela)
    · rw [hc.lc]
      exact (pop_regs _).2.1.trans (hrti.lc.trans helc)
    · rw [flag_lf, flag_lf, hsr, BitVec.getLsbD_and]
      exact Bool.and_true _
  have hreturned := (hc.trans hsame).trans (aside_loopSame haside)
  have hpc' : f'.pc = d.pc := (congrArg Regs.pc haside.regs).trans hpc
  have hend := afterInstr_aside (d := f') stop f.pc f'.pc (by
    rw [hpc', hreturned.la]
    exact hla)
  exact ⟨(congrArg Regs.pc hend.regs).trans hpc', hreturned.trans (aside_loopSame hend)⟩

theorem between_spec {h : Periph π} {e : Dsp π} (hrun : Between h d e) (hla : d.pc - 1 ≠ d.la) :
    e.pc = d.pc ∧ LoopSame d e := by
  induction hrun with
  | refl => exact ⟨rfl, LoopSame.refl d⟩
  | tail _ hstep ih =>
      obtain ⟨hpc, hsame⟩ := ih
      rcases hstep with haside | hhandled
      · have hnext := aside_loopSame haside
        exact ⟨(congrArg Regs.pc haside.regs).trans hpc, hsame.trans hnext⟩
      · have hnext := handled_spec hhandled (by
          rw [hpc, hsame.la]
          exact hla)
        exact ⟨hnext.1.trans hpc, hsame.trans hnext.2⟩

end
end Dsp56k
end PistormAtari
