import Mathlib
import PistormAtari.Dsp.Execute

/-!
# The interpreter of the DSP: interrupts and the run loop

An interrupt is taken between instructions.  The end of a hardware loop is looked for
after each instruction, by how far the program counter has moved.
-/

namespace PistormAtari
namespace Dsp56k

open Falcon (DspIrq)
open Foundation (act ask look)

section
variable {π : Type}

/-!
## Interrupts
-/

def isJsr (op : BitVec 32) : Bool :=
  let hi := field op 16 0xFF
  if hi = 0x0D ∨ hi = 0x0F then true
  else if hi ≠ 0x0B then false
  else if field op 14 3 ≠ 3 then op.getLsbD 7
  else if op.getLsbD 7 then true
  else field op 6 3 == 0

def enterIrq (source : Fin 32) (d : Dsp π) : Dsp π :=
  let vec : BitVec 16 := BitVec.ofNat 16 (source.val <<< 1)
  let d := irqClear (source.val <<< 1) d
  { d with
    halted := false
    acceptLevel := d.irq.level source
    irqRetPc := d.pc
    inFastIrq := true
    irqEndPc := vec + 2
    pc := vec }

def fastIrq (h : Periph π) (fuel : Nat) (vec : BitVec 16) : Nat -> DspM π Unit
  | 0 => fun _ => none
  | n + 1 => do
      let inside <- look fun d =>
        d.inFastIrq && decide (d.pc.toNat < d.irqEndPc.toNat) && decide (vec.toNat ≤ d.pc.toNat)
      if inside then do
        let op <- ask fetch
        execute h fuel op
        fastIrq h fuel vec n
      else pure ()

/-- A fast interrupt that has not become a long one goes back to where it was taken. -/
def leaveFast (ret : BitVec 16) (d : Dsp π) : Dsp π :=
  if d.inFastIrq then { d with inFastIrq := false, pc := ret } else d

/-- Take the pending interrupt of the highest level that the mask lets through. -/
def serviceIrq (h : Periph π) (fuel : Nat) : DspM π Unit := do
  match <- look fun d => d.irq.best (field d.sr 8 3) with
  | none => pure ()
  | some source =>
      let vec : BitVec 16 := BitVec.ofNat 16 (source.val <<< 1)
      let ret <- look fun d => d.pc
      let op0 <- look fun d => progRead d vec
      act (enterIrq source)
      if isJsr op0 then do
        let op <- ask fetch
        execute h fuel op
        act fun d => { d with inFastIrq := false }
      else do
        fastIrq h fuel vec fuel
        act (leaveFast ret)

/-!
## The run loop
-/

/-- A short jump back that comes to the same target twice with the same registers and
nothing written in between waits for an interrupt. -/
def waitLoop (tgt : BitVec 16) (d : Dsp π) : Dsp π :=
  let here : WaitMark := { tgt := tgt, writes := d.writes, snap := d.toRegs }
  if d.wl = some here then waits d else { d with wl := some here }

def interrupts (h : Periph π) (fuel : Nat) : DspM π Unit := do
  let any <- look fun d => d.irq.any
  if any then serviceIrq h fuel else pure ()

def stopAt (stop : Nat) (d : Dsp π) : Dsp π := { d with cycles := stop }

def beginInstr (d : Dsp π) : Dsp π := { d with flow := .through, words := 0 }

/-- One instruction, with the program counter before it and after it. -/
def instruction (h : Periph π) (fuel : Nat) : DspM π (BitVec 16 × BitVec 16) := do
  act beginInstr
  let spc <- look fun d => d.pc
  let op <- ask fetch
  execute h fuel op
  let npc <- look fun d => d.pc
  act fun d =>
    if npc.toNat < spc.toNat ∧ spc.toNat - npc.toNat ≤ 32 ∧ d.inFastIrq = false ∧
        d.repActive = false then waitLoop npc d
    else d
  pure (spc, npc)

/-- The end of a loop is looked for after an instruction whose program counter has moved
by one word or two. -/
def endTest (spc npc : BitVec 16) (d : Dsp π) : Dsp π :=
  if flag d srLF = true ∧ (npc - spc - 1).toNat ≤ 1 then loopEndCheck (npc - 1) d else d

def afterInstr (stop : Nat) (spc npc : BitVec 16) (d : Dsp π) : Bool × Dsp π :=
  if d.idleHint then
    (false, stopAt stop { d with idleHint := false, idleSkips := d.idleSkips + 1 })
  else (true, endTest spc npc d)

/-- One round of the run loop.  The value says whether the run goes on. -/
def runStep (h : Periph π) (fuel stop : Nat) : DspM π Bool := do
  interrupts h fuel
  let halted <- look fun d => d.halted
  if halted then do
    act (stopAt stop)
    pure false
  else do
    let p <- instruction h fuel
    ask (afterInstr stop p.1 p.2)

/-- The rounds of a run.  Each of them counts cycles, so a run of `n` cycles has at most
`n` rounds. -/
def runLoop (h : Periph π) (fuel stop : Nat) : Nat -> DspM π Unit
  | 0 => pure ()
  | n + 1 => do
      let more <- look fun d => decide (d.cycles < stop)
      if more then do
        let goesOn <- runStep h fuel stop
        if goesOn then runLoop h fuel stop n else pure ()
      else pure ()

def dsp56kRun (h : Periph π) (fuel cycles : Nat) : DspM π Unit := do
  let stop <- look fun d => d.cycles + cycles
  runLoop h fuel stop cycles

end
end Dsp56k
end PistormAtari
