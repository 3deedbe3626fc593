import Mathlib
import PistormAtari.Foundation.PartialSpec
import PistormAtari.Dsp.AddressGeneration
import PistormAtari.Dsp.Alu

/-!
# The interpreter of the DSP: parallel moves

The move of an instruction reads its sources before the ALU works and writes its
registers after it.
-/

namespace PistormAtari
namespace Dsp56k

open Falcon (Space dspVecIllegal)
open Foundation (act ask look)

/-- A step of the interpreter.  It gives no state where the source does not come back. -/
abbrev DspM (π : Type) := StateT (Dsp π) Option

section
variable {π : Type}

def rd (h : Periph π) (space : Space) (a : BitVec 16) : DspM π (BitVec 32) :=
  ask (memRd h space a)

def wr (h : Periph π) (space : Space) (a : BitVec 16) (v : BitVec 32) : DspM π Unit :=
  act (memWr h space a v)

def illegal (d : Dsp π) : Dsp π :=
  irqRaise dspVecIllegal 3 { d with illegalCount := d.illegalCount + 1, illegalPc := d.pc }

/-- The ALU half, after which the instruction goes on unless the encoding does not exist. -/
def aluThen (op : BitVec 8) (next : DspM π Unit) : DspM π Unit := fun d =>
  match aluOp op d with
  | some d' => next d'
  | none => some ((), illegal d)

/-!
## Deferred writes
-/

/-- A write to a register that waits for the ALU: of a word, of a short immediate, of a
whole accumulator, or of its parts 1 and 0. -/
inductive Pend where
  | reg24 (code : Nat) (v : BitVec 32)
  | short (code : Nat) (v : BitVec 32)
  | acc48 (which : Bool) (v : BitVec 64)
  | a10 (which : Bool) (v : BitVec 64)

def pendWrite (d : Dsp π) : Pend -> Dsp π
  | .reg24 c v => regWrite c v d
  | .short c v => regWriteShort c v d
  | .acc48 c v => setAcc c (accFrom48 v) d
  | .a10 c v => setAcc c (sx56 ((acc d c &&& 0xFF000000000000) ||| (v &&& m48))) d

def pendCommit (p : List Pend) (d : Dsp π) : Dsp π := p.foldl pendWrite d

/-!
## The move field
-/

def xyXReg (i : Nat) : Nat :=
  match i with
  | 0 => 0x04
  | 1 => 0x05
  | 2 => 0x0E
  | _ => 0x0F

def xyYReg (i : Nat) : Nat :=
  match i with
  | 0 => 0x06
  | 1 => 0x07
  | 2 => 0x0E
  | _ => 0x0F

def yRn (mv : BitVec 16) : Fin 8 :=
  Fin.ofNat 8 (field mv 5 3 ||| (if field mv 0 7 < 4 then 4 else 0))

def moveXy (h : Periph π) (mv : BitVec 16) : DspM π (List Pend) := do
  let xw := mv.getLsbD 7
  let yw := mv.getLsbD 14
  let xreg := xyXReg (field mv 10 3)
  let yreg := xyYReg (field mv 8 3)
  let xv <- (if xw then pure 0 else ask (regRead xreg))
  let yv <- (if yw then pure 0 else ask (regRead yreg))
  let xa <- ask (eaXy (field mv 3 3) (Fin.ofNat 8 (field mv 0 7)))
  let ya <- ask (eaXy (field mv 12 3) (yRn mv))
  let px <- (if xw then do let v <- rd h .x xa; pure [Pend.reg24 xreg v]
    else do wr h .x xa xv; pure [])
  let py <- (if yw then do let v <- rd h .y ya; pure [Pend.reg24 yreg v]
    else do wr h .y ya yv; pure [])
  pure (px ++ py)

def longLoad (lll : Nat) (xv yv : BitVec 32) : List Pend :=
  let lv : BitVec 64 := xv.setWidth 64 <<< 24 ||| yv.setWidth 64
  match lll with
  | 0 => [.a10 false lv]
  | 1 => [.a10 true lv]
  | 2 => [.reg24 0x05 xv, .reg24 0x04 yv]
  | 3 => [.reg24 0x07 xv, .reg24 0x06 yv]
  | 4 => [.acc48 false lv]
  | 5 => [.acc48 true lv]
  | 6 => [.reg24 0x0E xv, .reg24 0x0F yv]
  | _ => [.reg24 0x0F xv, .reg24 0x0E yv]

def busHalves (v : BitVec 64 × Dsp π) : (BitVec 32 × BitVec 32) × Dsp π :=
  (((v.1 >>> 24).setWidth 32, v.1.setWidth 32 &&& m24), v.2)

def busPair (first second : Bool) (d : Dsp π) : (BitVec 32 × BitVec 32) × Dsp π :=
  let x := accBus24 (acc d first) d
  let y := accBus24 (acc x.2 second) x.2
  ((x.1, y.1), y.2)

def longStore (lll : Nat) (d : Dsp π) : (BitVec 32 × BitVec 32) × Dsp π :=
  match lll with
  | 0 => ((a1Of d.a, d.a.setWidth 32 &&& m24), d)
  | 1 => ((a1Of d.b, d.b.setWidth 32 &&& m24), d)
  | 2 => ((d.x1, d.x0), d)
  | 3 => ((d.y1, d.y0), d)
  | 4 => busHalves (accBus48 d.a d)
  | 5 => busHalves (accBus48 d.b d)
  | 6 => busPair false true d
  | _ => busPair true false d

def moveL (h : Periph π) (mv : BitVec 16) : DspM π (List Pend) := do
  let lll := (if mv.getLsbD 11 then 4 else 0) ||| (field mv 8 7 &&& 3)
  let ea <- (if mv.getLsbD 6 then do let ea <- ask (eaCalc (field mv 0 0x3F)); pure ea.addr
    else pure (mv &&& 0x3F))
  if mv.getLsbD 7 then do
    let xv <- rd h .x ea
    let yv <- rd h .y ea
    pure (longLoad lll xv yv)
  else do
    let v <- ask (longStore lll)
    wr h .x ea v.1
    wr h .y ea v.2
    pure []

/-- The register and the memory space of a move to or from X or Y memory. -/
def memReg (mv : BitVec 16) : Nat := (field mv 12 3 <<< 3) ||| field mv 8 7
def memSpace (mv : BitVec 16) : Space := if mv.getLsbD 11 then .y else .x

def moveMem (h : Periph π) (mv : BitVec 16) : DspM π (Option (BitVec 32)) := do
  let w := mv.getLsbD 7
  if mv.getLsbD 6 then do
    let sv <- (if w then pure 0 else ask (regRead (memReg mv)))
    let ea <- ask (eaCalc (field mv 0 0x3F))
    match ea.imm with
    | some immv => pure (if w then some immv else none)
    | none =>
        if w then do let v <- rd h (memSpace mv) ea.addr; pure (some v)
        else do wr h (memSpace mv) ea.addr sv; pure none
  else if w then do
    let v <- rd h (memSpace mv) (mv &&& 0x3F)
    pure (some v)
  else do
    let sv <- ask (regRead (memReg mv))
    wr h (memSpace mv) (mv &&& 0x3F) sv
    pure none

def rdEa (h : Periph π) (space : Space) (ea : Ea) : DspM π (BitVec 32) :=
  match ea.imm with
  | some immv => pure immv
  | none => rd h space ea.addr

/-- A move between X memory and a register beside one from an accumulator to Y0 or Y1. -/
def moveXR (h : Periph π) (mv : BitVec 16) : DspM π (List Pend) := do
  let w := mv.getLsbD 7
  let r1 := xyXReg (field mv 10 3)
  let d2 := if mv.getLsbD 8 then 0x07 else 0x06
  let v1 <- (if w then pure 0 else ask (regRead r1))
  let v2 <- ask fun d => accBus24 (acc d (mv.getLsbD 9)) d
  let ea <- ask (eaCalc (field mv 0 0x3F))
  if w then do
    let v <- rdEa h .x ea
    pure [.reg24 r1 v, .reg24 d2 v2]
  else do
    wr h .x ea.addr v1
    pure [.reg24 d2 v2]

/-- A move from an accumulator to X0 or X1 beside one between Y memory and a register. -/
def moveRY (h : Periph π) (mv : BitVec 16) : DspM π (List Pend) := do
  let w := mv.getLsbD 7
  let d1 := if mv.getLsbD 10 then 0x05 else 0x04
  let r2 := xyYReg (field mv 8 3)
  let v1 <- ask fun d => accBus24 (acc d (mv.getLsbD 11)) d
  let v2 <- (if w then pure 0 else ask (regRead r2))
  let ea <- ask (eaCalc (field mv 0 0x3F))
  if w then do
    let v <- rdEa h .y ea
    pure [.reg24 d1 v1, .reg24 r2 v]
  else do
    wr h .y ea.addr v2
    pure [.reg24 d1 v1]

def moveAcc (h : Periph π) (mv : BitVec 16) : DspM π (List Pend) := do
  let a := mv.getLsbD 8
  let ysp := mv.getLsbD 7
  let v <- ask fun d => accBus24 (acc d a) d
  let ea <- ask (eaCalc (field mv 0 0x3F))
  wr h (if ysp then .y else .x) ea.addr v
  let x <- look fun d => if ysp then d.y0 else d.x0
  pure [.reg24 (if a then 0x0F else 0x0E) x]

/-- A short immediate, a register to a register, an address update, or no move. -/
def moveReg (mv : BitVec 16) : DspM π (Option (List Pend)) :=
  if mv &&& 0xFC00 = 0x2000 then
    if mv = 0x2000 then pure (some [])
    else if mv &&& 0xFFE0 = 0x2040 then do
      let _ <- ask (eaCalc ((field mv 3 3 <<< 3) ||| field mv 0 7))
      pure (some [])
    else
      let src := field mv 5 0x1F
      let dst := field mv 0 0x1F
      if src < 4 ∨ dst < 4 then pure none
      else do
        let v <- ask (regRead src)
        pure (some [.reg24 dst v])
  else
    let dst := field mv 8 0x1F
    if dst < 4 then pure none
    else pure (some [.short dst ((mv &&& 0xFF).setWidth 32)])

/-- The move half of an instruction.  Register writes are left to be done; there are none
for an encoding that is not a move. -/
def parMove (h : Periph π) (mv : BitVec 16) : DspM π (Option (List Pend)) :=
  if mv.getLsbD 15 then some <$> moveXy h mv
  else if mv &&& 0xC000 = 0x4000 then
    if field mv 12 3 = 0 ∧ field mv 8 7 &&& 4 = 0 then some <$> moveL h mv
    else (fun v => some ((v.map (Pend.reg24 (memReg mv))).toList)) <$> moveMem h mv
  else if mv &&& 0xE000 = 0x2000 then moveReg mv
  else if mv &&& 0xF000 = 0x1000 then
    if mv.getLsbD 6 then some <$> moveRY h mv else some <$> moveXR h mv
  else if mv &&& 0xFE00 = 0x0800 ∧ mv.getLsbD 6 = false then some <$> moveAcc h mv
  else pure none

/-!
## Instructions with a parallel move
-/

def parSlow (h : Periph π) (mv : BitVec 16) (op : BitVec 8) : DspM π Unit := do
  match <- parMove h mv with
  | none => act illegal
  | some p => aluThen op (act (pendCommit p))

/-- The forms with at most one register write are done without the list of writes. -/
def execPar (h : Periph π) (op : BitVec 32) : DspM π Unit :=
  let mv : BitVec 16 := (op >>> 8).setWidth 16
  let alu : BitVec 8 := op.setWidth 8
  if mv &&& 0xC000 = 0x4000 then
    if field mv 12 3 ≠ 0 ∨ field mv 8 7 &&& 4 ≠ 0 then do
      let v <- moveMem h mv
      aluThen alu (match v with
        | some val => act (regWrite (memReg mv) val)
        | none => pure ())
    else parSlow h mv alu
  else if mv = 0x2000 then aluThen alu (pure ())
  else if mv &&& 0xFFE0 = 0x2040 then do
    let _ <- ask (eaCalc ((field mv 3 3 <<< 3) ||| field mv 0 7))
    aluThen alu (pure ())
  else parSlow h mv alu

def xyGet (code : Nat) (d : Dsp π) : BitVec 32 × Dsp π :=
  match code with
  | 0x04 => (d.x0, d)
  | 0x05 => (d.x1, d)
  | 0x06 => (d.y0, d)
  | 0x07 => (d.y1, d)
  | 0x0E => accBus24 d.a d
  | _ => accBus24 d.b d

def xySet (code : Nat) (v : BitVec 32) (d : Dsp π) : Dsp π :=
  match code with
  | 0x04 => { d with x0 := v }
  | 0x05 => { d with x1 := v }
  | 0x06 => { d with y0 := v }
  | 0x07 => { d with y1 := v }
  | 0x0E => { d with a := accFrom24 v }
  | _ => { d with b := accFrom24 v }

def execXy (h : Periph π) (op : BitVec 32) : DspM π Unit := do
  let mv : BitVec 16 := (op >>> 8).setWidth 16
  let xw := mv.getLsbD 7
  let yw := mv.getLsbD 14
  let xreg := xyXReg (field mv 10 3)
  let yreg := xyYReg (field mv 8 3)
  let xv <- (if xw then pure 0 else ask (xyGet xreg))
  let yv <- (if yw then pure 0 else ask (xyGet yreg))
  let xa <- ask (eaXy (field mv 3 3) (Fin.ofNat 8 (field mv 0 7)))
  let ya <- ask (eaXy (field mv 12 3) (yRn mv))
  let xv <- (if xw then rd h .x xa else do wr h .x xa xv; pure xv)
  let yv <- (if yw then rd h .y ya else do wr h .y ya yv; pure yv)
  aluThen (op.setWidth 8) (do
    (if xw then act (xySet xreg xv) else pure ())
    (if yw then act (xySet yreg yv) else pure ()))

end
end Dsp56k
end PistormAtari
