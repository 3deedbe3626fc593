import Mathlib

/-!
# The state of the DSP

The registers, memories and interrupts of the DSP56001, and the hooks behind the
addresses of its peripherals.
-/

namespace PistormAtari
namespace Falcon

abbrev Word := BitVec 24

/-!
## Interrupts
-/

/-- One pending bit per vector, two addresses apart, with its priority. -/
structure DspIrq where
  pending : Fin 32 -> Bool
  level : Fin 32 -> Nat

def dspVecStackerr : Nat := 0x02
def dspVecSwi : Nat := 0x06
def dspVecSsiRx : Nat := 0x0C
def dspVecSsiRxe : Nat := 0x0E
def dspVecSsiTx : Nat := 0x10
def dspVecSsiTxe : Nat := 0x12
def dspVecHostRx : Nat := 0x20
def dspVecHostTx : Nat := 0x22
def dspVecIllegal : Nat := 0x3E

def irqSource (vector : Nat) : Fin 32 := Fin.ofNat 32 (vector >>> 1)

def dsp56kIrqRaise (vector level : Nat) (q : DspIrq) : DspIrq :=
  { pending := Function.update q.pending (irqSource vector) true
    level := Function.update q.level (irqSource vector) level }

def dsp56kIrqClear (vector : Nat) (q : DspIrq) : DspIrq :=
  { q with pending := Function.update q.pending (irqSource vector) false }

/-- The mask lets a pending source through.  Level 3 cannot be masked. -/
def DspIrq.acceptable (q : DspIrq) (mask : Nat) (i : Fin 32) : Bool :=
  decide (q.pending i = true ∧ 0 < q.level i ∧ (mask < q.level i ∨ q.level i = 3))

/-- The source of the highest level that the mask lets through, of equals the first. -/
def DspIrq.best (q : DspIrq) (mask : Nat) : Option (Fin 32) :=
  (List.finRange 32).foldl
    (fun best i =>
      if q.acceptable mask i then
        match best with
        | some b => if q.level b < q.level i then some i else some b
        | none => some i
      else best)
    none

def DspIrq.any (q : DspIrq) : Bool := decide (exists i, q.pending i = true)

/-!
## Registers and memory
-/

/-- What `wait_loop` compares: everything before the stack in memory. -/
structure DspRegs where
  x0 : Word
  x1 : Word
  y0 : Word
  y1 : Word
  a : BitVec 56
  b : BitVec 56
  r : Fin 8 -> BitVec 16
  n : Fin 8 -> BitVec 16
  m : Fin 8 -> BitVec 16
  pc : BitVec 16
  sr : BitVec 16
  omr : BitVec 16
  la : BitVec 16
  lc : BitVec 16
  sp : BitVec 8
deriving DecidableEq

/-- The first arrival of `wait_loop` at the target of a short jump back. -/
structure WaitMark where
  tgt : BitVec 16
  writes : BitVec 32
  snap : DspRegs
deriving DecidableEq

structure Dsp extends DspRegs where
  ssh : BitVec 4 -> BitVec 16
  ssl : BitVec 4 -> BitVec 16
  ext : BitVec 15 -> Word
  pint : BitVec 9 -> Word
  xint : BitVec 8 -> Word
  yint : BitVec 8 -> Word
  xrom : BitVec 8 -> Word
  yrom : BitVec 8 -> Word
  irq : DspIrq
  cycles : Nat
  halted : Bool
  repActive : Bool
  inFastIrq : Bool
  acceptLevel : Nat
  irqRetPc : BitVec 16
  irqEndPc : BitVec 16
  illegalCount : BitVec 32
  illegalPc : BitVec 16
  idleHint : Bool
  idleSkips : Nat
  writes : BitVec 32
  wl : Option WaitMark

inductive Space where
  | x
  | y
  | p
deriving DecidableEq

/-- The hooks behind X and Y addresses from `$FFC0` on.  They may raise and clear interrupts
of the DSP. -/
structure Periph (π : Type) where
  read : Space -> BitVec 16 -> StateM (DspIrq × π) Word
  write : Space -> BitVec 16 -> Word -> StateM (DspIrq × π) Unit

structure Core (π : Type) where
  dsp : Dsp
  io : π

abbrev DspM (π : Type) := StateM (Core π)

section
variable {π : Type}

def getDsp : DspM π Dsp := do return (<- get).dsp

def modifyDsp (f : Dsp -> Dsp) : DspM π Unit := modify fun s => { s with dsp := f s.dsp }

def onPeriph {α : Type} (m : StateM (DspIrq × π) α) : DspM π α := fun s =>
  let (v, q, io) := m (s.dsp.irq, s.io)
  (v, { dsp := { s.dsp with irq := q }, io := io })

def irqRaise (vector level : Nat) : DspM π Unit :=
  modifyDsp fun d => { d with irq := dsp56kIrqRaise vector level d.irq }

def Dsp.progRead (d : Dsp) (a : BitVec 16) : Word :=
  if a.toNat < 0x200 ∧ d.omr &&& 3 ≠ 3 then d.pint (a.setWidth 9) else d.ext (a.setWidth 15)

def Dsp.romOn (d : Dsp) (a : BitVec 16) : Bool := decide (a.toNat < 0x200 ∧ d.omr &&& 4 ≠ 0)

def xAddress (a : BitVec 16) : BitVec 15 := (a &&& 0x3FFF ||| 0x4000).setWidth 15
def yAddress (a : BitVec 16) : BitVec 15 := (a &&& 0x3FFF).setWidth 15

def Dsp.xRead (d : Dsp) (a : BitVec 16) : Word :=
  if a.toNat < 0x100 then d.xint (a.setWidth 8)
  else if d.romOn a then d.xrom (a.setWidth 8)
  else d.ext (xAddress a)

def Dsp.yRead (d : Dsp) (a : BitVec 16) : Word :=
  if a.toNat < 0x100 then d.yint (a.setWidth 8)
  else if d.romOn a then d.yrom (a.setWidth 8)
  else d.ext (yAddress a)

def isPeriph (a : BitVec 16) : Bool := decide (0xFFC0 ≤ a.toNat)

def memRd (h : Periph π) (space : Space) (a : BitVec 16) : DspM π Word := fun s =>
  match space with
  | .p => (s.dsp.progRead a, s)
  | .x => if isPeriph a then onPeriph (h.read .x a) s else (s.dsp.xRead a, s)
  | .y => if isPeriph a then onPeriph (h.read .y a) s else (s.dsp.yRead a, s)

def Dsp.progWrite (d : Dsp) (a : BitVec 16) (v : Word) : Dsp :=
  if a.toNat < 0x200 ∧ d.omr &&& 3 ≠ 3 then
    { d with pint := Function.update d.pint (a.setWidth 9) v }
  else { d with ext := Function.update d.ext (a.setWidth 15) v }

def Dsp.xWrite (d : Dsp) (a : BitVec 16) (v : Word) : Dsp :=
  if a.toNat < 0x100 then { d with xint := Function.update d.xint (a.setWidth 8) v }
  else if d.romOn a then d
  else { d with ext := Function.update d.ext (xAddress a) v }

def Dsp.yWrite (d : Dsp) (a : BitVec 16) (v : Word) : Dsp :=
  if a.toNat < 0x100 then { d with yint := Function.update d.yint (a.setWidth 8) v }
  else if d.romOn a then d
  else { d with ext := Function.update d.ext (yAddress a) v }

def countWrite : DspM π Unit := modifyDsp fun d => { d with writes := d.writes + 1 }

def memWr (h : Periph π) (space : Space) (a : BitVec 16) (v : Word) : DspM π Unit := do
  countWrite
  match space with
  | .p => modifyDsp fun d => d.progWrite a v
  | .x => if isPeriph a then onPeriph (h.write .x a v) else modifyDsp fun d => d.xWrite a v
  | .y => if isPeriph a then onPeriph (h.write .y a v) else modifyDsp fun d => d.yWrite a v

def fetch : DspM π Word := do
  let d <- getDsp
  modifyDsp fun d => { d with pc := d.pc + 1, cycles := d.cycles + 2 }
  return d.progRead d.pc

/-!
## The stack
-/

def Dsp.level (d : Dsp) : BitVec 4 := d.sp.setWidth 4

/-- One level more.  The level after the last is the first again, with an error. -/
def stackUp : DspM π Unit := do
  let p := (<- getDsp).sp &&& 0x0F
  if p = 0x0F then
    modifyDsp fun d => { d with sp := d.sp ||| 0x10 }
    irqRaise dspVecStackerr 3
  modifyDsp fun d => { d with sp := (d.sp &&& 0x30) ||| ((p + 1) &&& 0x0F) }

def push (hi lo : BitVec 16) : DspM π Unit := do
  stackUp
  modifyDsp fun d =>
    { d with
      ssh := Function.update d.ssh d.level hi
      ssl := Function.update d.ssl d.level lo
      writes := d.writes + 1 }

def pop : DspM π Unit := do
  let p := (<- getDsp).sp &&& 0x0F
  if p = 0 then
    modifyDsp fun d => { d with sp := d.sp ||| 0x30 }
    irqRaise dspVecStackerr 3
  else modifyDsp fun d => { d with sp := (d.sp &&& 0x30) ||| (p - 1) }

def dsp56kReset (d : Dsp) : Dsp :=
  { d with
    pc := 0
    sr := 0x0300
    omr := 0x0002
    sp := 0
    la := 0xFFFF
    lc := 0
    m := fun _ => 0xFFFF
    irq := { d.irq with pending := fun _ => false }
    halted := false
    inFastIrq := false
    repActive := false }

def muLaw (i : Nat) : Word :=
  let u := (0xFF - i) % 0x80
  BitVec.ofNat 24 (((((u % 16) * 8 + 0x84) <<< (u / 16)) - 0x84) <<< 10)

def aLaw (i : Nat) : Word :=
  let a := i ^^^ 0x55
  let seg := a / 16 % 8
  let val := a % 16 * 16
  BitVec.ofNat 24
    ((if seg = 0 then val + 8 else if seg = 1 then val + 0x108 else (val + 0x108) <<< (seg - 1))
      <<< 11)

def xRom (i : BitVec 8) : Word :=
  if i.toNat < 128 then muLaw i.toNat else aLaw (i.toNat - 128)

def dsp56kInit (yrom : BitVec 8 -> Word) : Dsp :=
  dsp56kReset
    { x0 := 0, x1 := 0, y0 := 0, y1 := 0, a := 0, b := 0
      r := fun _ => 0, n := fun _ => 0, m := fun _ => 0
      pc := 0, sr := 0, omr := 0, la := 0, lc := 0, sp := 0
      ssh := fun _ => 0, ssl := fun _ => 0
      ext := fun _ => 0, pint := fun _ => 0, xint := fun _ => 0, yint := fun _ => 0
      xrom := xRom, yrom := yrom
      irq := { pending := fun _ => false, level := fun _ => 0 }
      cycles := 0, halted := false, repActive := false, inFastIrq := false
      acceptLevel := 0, irqRetPc := 0, irqEndPc := 0
      illegalCount := 0, illegalPc := 0, idleHint := false, idleSkips := 0
      writes := 0, wl := none }

end
end Falcon
end PistormAtari
