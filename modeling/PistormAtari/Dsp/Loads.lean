import Mathlib
import PistormAtari.Falcon.HostPort
import PistormAtari.Dsp.Run

/-!
# The interpreter of the DSP: what the engine does with it

The engine resets the DSP, loads programs into its memory, hands it the words of a
bootstrap and lets it run.
-/

namespace PistormAtari
namespace Dsp56k

open Falcon (Space execSpace)

section
variable {π : Type}

def dspStartAt0 (d : Dsp π) : Dsp π := { d with pc := 0, omr := 0x0002, sr := 0x0300 }

def execWords (h : Periph π) (space : Space) : BitVec 16 -> List (BitVec 32) -> Dsp π -> Dsp π
  | _, [], d => d
  | a, v :: rest, d => execWords h space (a + 1) rest (memWr h space a v d)

/-- The blocks of a program, up to the first that is not well formed.  The fuel is the
number of words. -/
def execBlocks (h : Periph π) : Nat -> List (BitVec 32) -> Dsp π -> Dsp π
  | fuel + 1, t :: a :: c :: rest, d =>
      match execSpace t with
      | some space =>
          if rest.length < c.toNat then d
          else
            execBlocks h fuel (rest.drop c.toNat)
              (execWords h space (a.setWidth 16) (rest.take c.toNat) d)
      | none => d
  | _, _, d => d

def loadPint : Nat -> List (BitVec 32) -> Dsp π -> Dsp π
  | _, [], d => d
  | i, v :: rest, d => loadPint (i + 1) rest (setPint (BitVec.ofNat 9 i) (v &&& m24) d)

/-- A program is loaded, by blocks or as a bootstrap of up to 512 words. -/
def dspExecLoad (h : Periph π) (boot : Bool) (w : List (BitVec 32)) (d : Dsp π) : Dsp π :=
  let d := { d with omr := 0x0002 }
  dspStartAt0 (if boot then loadPint 0 (w.take 512) d else execBlocks h w.length w d)

/-- A reset is released: the bootstrap loader starts with empty program memory. -/
def dspReleased (d : Dsp π) : Dsp π := { dsp56kReset d with pint := fun _ => 0 }

def hostWord (high mid low : BitVec 8) : BitVec 32 :=
  high.setWidth 32 <<< 16 ||| mid.setWidth 32 <<< 8 ||| low.setWidth 32

/-- What is done to the DSP: a run, with the depth REP may nest to, an interrupt raised or
cleared by a peripheral, a reset, its release, a program, a word of the bootstrap, or the
start of a loaded program. -/
inductive DspOp where
  | run (fuel cycles : Nat)
  | irqRaise (vector level : Nat)
  | irqClear (vector : Nat)
  | reset
  | release
  | execLoad (boot : Bool) (w : List (BitVec 32))
  | bootWord (i : BitVec 9) (high mid low : BitVec 8)
  | startAt0

def dspStep (h : Periph π) (d : Dsp π) : DspOp -> Option (Dsp π)
  | .run fuel cycles => (dsp56kRun h fuel cycles d).map fun r => r.2
  | .irqRaise vector level => some (irqRaise vector level d)
  | .irqClear vector => some (irqClear vector d)
  | .reset => some (dsp56kReset d)
  | .release => some (dspReleased d)
  | .execLoad boot w => some (dspExecLoad h boot w d)
  | .bootWord i high mid low => some (setPint i (hostWord high mid low) d)
  | .startAt0 => some (dspStartAt0 d)

end
end Dsp56k
end PistormAtari
