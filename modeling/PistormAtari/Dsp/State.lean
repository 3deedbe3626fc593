import Mathlib
import PistormAtari.Falcon.DspState

/-!
# The interpreter of the DSP: state, memory and stack

The state is the one the interpreter keeps, in the integer types it keeps it in: a
24-bit register is a 32-bit number and an accumulator a 64-bit one, so that what the
instructions leave above bit 23 and bit 55 can be seen.
-/

namespace PistormAtari
namespace Dsp56k

open Falcon (DspIrq Space dsp56kIrqRaise dsp56kIrqClear dspVecStackerr)

/-- There are eight address registers of each kind. -/
scoped instance eightRegisters : NeZero 8 := ⟨by decide⟩

def m24 : BitVec 32 := 0xFFFFFF
def m48 : BitVec 64 := 0xFFFFFFFFFFFF
def m56 : BitVec 64 := 0xFFFFFFFFFFFFFF

def sx56 (v : BitVec 64) : BitVec 64 := (v <<< 8).sshiftRight 8
def sx48 (v : BitVec 64) : BitVec 64 := (v <<< 16).sshiftRight 16
def sx24 (v : BitVec 32) : BitVec 32 := (v <<< 8).sshiftRight 8

theorem shiftLeft_sshiftRight {w k : Nat} (v : BitVec w) (hk : k < w) :
    (v <<< k).sshiftRight k = (v.setWidth (w - k)).signExtend w := by
  apply BitVec.eq_of_getLsbD_eq
  intro i hi
  rw [BitVec.getLsbD_sshiftRight, BitVec.getLsbD_signExtend]
  by_cases hlow : i < w - k
  · have hplace : k + i < w := by lia
    simp [hi, hlow, hplace]
  · have hplace : ¬ k + i < w := by lia
    have hback : w - 1 - k = w - k - 1 := by lia
    have hge : ¬ w ≤ i := by lia
    have hfirst : ¬ w - 1 < k := by lia
    have hpos : w - 1 < w := by lia
    have htop : w - k - 1 < w - k := by lia
    simp only [hi, hlow, hplace, hge, hfirst, hpos, htop, hback, BitVec.msb_eq_getLsbD_last,
      BitVec.getLsbD_shiftLeft, BitVec.getLsbD_setWidth, decide_true, decide_false, Bool.not_false,
      Bool.true_and, if_false]

theorem sx56_eq (v : BitVec 64) : sx56 v = (v.setWidth 56).signExtend 64 :=
  shiftLeft_sshiftRight v (by decide)

theorem sx48_eq (v : BitVec 64) : sx48 v = (v.setWidth 48).signExtend 64 :=
  shiftLeft_sshiftRight v (by decide)

theorem sx24_eq (v : BitVec 32) : sx24 v = (v.setWidth 24).signExtend 32 :=
  shiftLeft_sshiftRight v (by decide)

theorem toInt_sx56 (v : BitVec 64) : (sx56 v).toInt = v.toInt.bmod (2 ^ 56) := by
  rw [sx56_eq, BitVec.toInt_signExtend_of_le (by decide), BitVec.toInt_setWidth,
    BitVec.toInt_eq_toNat_bmod, Int.bmod_bmod_of_dvd (by decide)]

theorem toInt_sx48 (v : BitVec 64) : (sx48 v).toInt = v.toInt.bmod (2 ^ 48) := by
  rw [sx48_eq, BitVec.toInt_signExtend_of_le (by decide), BitVec.toInt_setWidth,
    BitVec.toInt_eq_toNat_bmod, Int.bmod_bmod_of_dvd (by decide)]

def field {w : Nat} (op : BitVec w) (shift : Nat) (mask : BitVec w) : Nat :=
  (op >>> shift &&& mask).toNat

/-!
## The state
-/

/-- The registers that lie before the stack in memory, which {lit}`wait_loop` compares. -/
structure Regs where
  x0 : BitVec 32
  x1 : BitVec 32
  y0 : BitVec 32
  y1 : BitVec 32
  a : BitVec 64
  b : BitVec 64
  r : Fin 8 -> BitVec 16
  n : Fin 8 -> BitVec 16
  m : Fin 8 -> BitVec 16
  pc : BitVec 16
  sr : BitVec 16
  omr : BitVec 16
  la : BitVec 16
  lc : BitVec 16
  sp : BitVec 8
deriving DecidableEq

/-- The first arrival of {lit}`wait_loop` at the target of a short jump back. -/
structure WaitMark where
  tgt : BitVec 16
  writes : BitVec 32
  snap : Regs
deriving DecidableEq

/-- How an instruction handed on control: to the word after it, by a jump or a return, or
by a call, whose last word was at LA with the loop flag set or not. -/
inductive Flow where
  | through
  | jumped
  | called (atLa : Bool)
deriving DecidableEq

/-- The stack arrays are indexed by any byte: cells from 16 on lie outside them.  `flow`
and `words` are not in the program.  They record how control left the instruction being
executed and how many words of it were fetched, and nothing in the program reads them. -/
structure Dsp (π : Type) extends Regs where
  ssh : BitVec 8 -> BitVec 16
  ssl : BitVec 8 -> BitVec 16
  ext : BitVec 15 -> BitVec 32
  pint : BitVec 9 -> BitVec 32
  xint : BitVec 8 -> BitVec 32
  yint : BitVec 8 -> BitVec 32
  xrom : BitVec 8 -> BitVec 32
  yrom : BitVec 8 -> BitVec 32
  ctx : π
  irq : DspIrq
  cycles : Nat
  halted : Bool
  repActive : Bool
  inFastIrq : Bool
  acceptLevel : Nat
  irqRetPc : BitVec 16
  irqEndPc : BitVec 16
  illegalCount : BitVec 32
  illegalPc : BitVec 16
  idleHint : Bool
  idleSkips : Nat
  writes : BitVec 32
  wl : Option WaitMark
  flow : Flow
  words : Nat

/-- The hooks behind X and Y addresses from `$FFC0` on.  They may raise and clear
interrupts.  A hook that is not set reads zero and drops what is written. -/
structure Periph (π : Type) where
  read : Space -> BitVec 16 -> DspIrq × π -> BitVec 32 × DspIrq × π
  write : Space -> BitVec 16 -> BitVec 32 -> DspIrq × π -> DspIrq × π

def noHooks {π : Type} : Periph π where
  read := fun _ _ s => (0, s)
  write := fun _ _ _ s => s

section
variable {π : Type}

def irqRaise (vector level : Nat) (d : Dsp π) : Dsp π :=
  { d with irq := dsp56kIrqRaise vector level d.irq }

def irqClear (vector : Nat) (d : Dsp π) : Dsp π :=
  { d with irq := dsp56kIrqClear vector d.irq }

/-!
## Memory
-/

def internalP (d : Dsp π) (a : BitVec 16) : Prop := a.toNat < 0x200 ∧ d.omr &&& 3 ≠ 3

def romOn (d : Dsp π) (a : BitVec 16) : Prop := a.toNat < 0x200 ∧ d.omr &&& 4 ≠ 0

instance (d : Dsp π) (a : BitVec 16) : Decidable (internalP d a) :=
  inferInstanceAs (Decidable (_ ∧ _))

instance (d : Dsp π) (a : BitVec 16) : Decidable (romOn d a) :=
  inferInstanceAs (Decidable (_ ∧ _))

def extX (a : BitVec 16) : BitVec 15 := (a &&& 0x3FFF ||| 0x4000).setWidth 15
def extY (a : BitVec 16) : BitVec 15 := (a &&& 0x3FFF).setWidth 15
def extP (a : BitVec 16) : BitVec 15 := (a &&& 0x7FFF).setWidth 15

def periphRead (h : Periph π) (space : Space) (a : BitVec 16) (d : Dsp π) :
    BitVec 32 × Dsp π :=
  let v := h.read space a (d.irq, d.ctx)
  (v.1, { d with irq := v.2.1, ctx := v.2.2 })

def periphWrite (h : Periph π) (space : Space) (a : BitVec 16) (v : BitVec 32) (d : Dsp π) :
    Dsp π :=
  let s := h.write space a v (d.irq, d.ctx)
  { d with irq := s.1, ctx := s.2 }

def progRead (d : Dsp π) (a : BitVec 16) : BitVec 32 :=
  if internalP d a then d.pint (a.setWidth 9) else d.ext (extP a)

def memRd (h : Periph π) (space : Space) (a : BitVec 16) (d : Dsp π) : BitVec 32 × Dsp π :=
  match space with
  | .p => (progRead d a, d)
  | .x =>
      if 0xFFC0 ≤ a.toNat then
        let v := periphRead h .x a d
        (v.1 &&& m24, v.2)
      else if a.toNat < 0x100 then (d.xint (a.setWidth 8), d)
      else if romOn d a then (d.xrom (a.setWidth 8), d)
      else (d.ext (extX a), d)
  | .y =>
      if 0xFFC0 ≤ a.toNat then
        let v := periphRead h .y a d
        (v.1 &&& m24, v.2)
      else if a.toNat < 0x100 then (d.yint (a.setWidth 8), d)
      else if romOn d a then (d.yrom (a.setWidth 8), d)
      else (d.ext (extY a), d)

def setPint (i : BitVec 9) (v : BitVec 32) (d : Dsp π) : Dsp π :=
  { d with pint := Function.update d.pint i v }

def setExt (i : BitVec 15) (v : BitVec 32) (d : Dsp π) : Dsp π :=
  { d with ext := Function.update d.ext i v }

def setXint (i : BitVec 8) (v : BitVec 32) (d : Dsp π) : Dsp π :=
  { d with xint := Function.update d.xint i v }

def setYint (i : BitVec 8) (v : BitVec 32) (d : Dsp π) : Dsp π :=
  { d with yint := Function.update d.yint i v }

def memWr (h : Periph π) (space : Space) (a : BitVec 16) (v : BitVec 32) (d : Dsp π) : Dsp π :=
  let v := v &&& m24
  let d := { d with writes := d.writes + 1 }
  match space with
  | .p => if internalP d a then setPint (a.setWidth 9) v d else setExt (extP a) v d
  | .x =>
      if 0xFFC0 ≤ a.toNat then periphWrite h .x a v d
      else if a.toNat < 0x100 then setXint (a.setWidth 8) v d
      else if romOn d a then d
      else setExt (extX a) v d
  | .y =>
      if 0xFFC0 ≤ a.toNat then periphWrite h .y a v d
      else if a.toNat < 0x100 then setYint (a.setWidth 8) v d
      else if romOn d a then d
      else setExt (extY a) v d

def fetch (d : Dsp π) : BitVec 32 × Dsp π :=
  (progRead d d.pc, { d with pc := d.pc + 1, cycles := d.cycles + 2, words := d.words + 1 })

/-!
## The stack
-/

def stackTop (d : Dsp π) : BitVec 8 := d.sp &&& 0x0F

def sshTop (d : Dsp π) : BitVec 16 := d.ssh (stackTop d)
def sslTop (d : Dsp π) : BitVec 16 := d.ssl (stackTop d)

/-- The level after the one in use.  The one after the last is the first, with an error. -/
def pushIndex (d : Dsp π) : BitVec 8 :=
  let p := (d.sp &&& 0x0F) + 1
  if 15 < p.toNat then p &&& 0x0F else p

def stackUp (d : Dsp π) : Dsp π :=
  let p := (d.sp &&& 0x0F) + 1
  let d' := if 15 < p.toNat then irqRaise dspVecStackerr 3 { d with sp := d.sp ||| 0x10 } else d
  { d' with sp := (d'.sp &&& 0x30) ||| pushIndex d }

def push (hi lo : BitVec 16) (d : Dsp π) : Dsp π :=
  let p := pushIndex d
  let d := stackUp d
  { d with
    ssh := Function.update d.ssh p hi
    ssl := Function.update d.ssl p lo
    writes := d.writes + 1 }

def pop (d : Dsp π) : Dsp π :=
  let p := d.sp &&& 0x0F
  if p = 0 then irqRaise dspVecStackerr 3 { d with sp := d.sp ||| 0x30 }
  else { d with sp := (d.sp &&& 0x30) ||| (p - 1) }

/-!
## Reset
-/

def dsp56kReset (d : Dsp π) : Dsp π :=
  { d with
    pc := 0
    sr := 0x0300
    omr := 0x0002
    sp := 0
    la := 0xFFFF
    lc := 0
    m := fun _ => 0xFFFF
    irq := { d.irq with pending := fun _ => false }
    halted := false
    inFastIrq := false
    repActive := false }

/-- The state at power-on.  The tables in X ROM are those of the coding laws, the one in
Y ROM is a sine, of which the program keeps 24 bits. -/
def dsp56kInit (sine : BitVec 8 -> BitVec 32) (ctx : π) : Dsp π :=
  dsp56kReset
    { x0 := 0, x1 := 0, y0 := 0, y1 := 0, a := 0, b := 0
      r := fun _ => 0, n := fun _ => 0, m := fun _ => 0
      pc := 0, sr := 0, omr := 0, la := 0, lc := 0, sp := 0
      ssh := fun _ => 0, ssl := fun _ => 0
      ext := fun _ => 0, pint := fun _ => 0, xint := fun _ => 0, yint := fun _ => 0
      xrom := fun i => (Falcon.xRom i).setWidth 32
      yrom := fun i => sine i &&& m24
      ctx := ctx
      irq := { pending := fun _ => false, level := fun _ => 0 }
      cycles := 0, halted := false, repActive := false, inFastIrq := false
      acceptLevel := 0, irqRetPc := 0, irqEndPc := 0
      illegalCount := 0, illegalPc := 0, idleHint := false, idleSkips := 0
      writes := 0, wl := none, flow := .through, words := 0 }

end
end Dsp56k
end PistormAtari
