import Mathlib
import PistormAtari.Dsp.Registers

/-!
# The interpreter of the DSP: the data ALU

The arithmetic and logic half of an instruction with a parallel move.
-/

namespace PistormAtari
namespace Dsp56k

variable {π : Type}

def aluAdd (dst src : BitVec 64) (carryIn setCarry : Bool) (d : Dsp π) : BitVec 64 × Dsp π :=
  let ud := dst &&& m56
  let us := src &&& m56
  let r := ud + us + (if carryIn then 1 else 0)
  let res := sx56 r
  let sd := ud.getLsbD 55
  let ss := us.getLsbD 55
  let d := setV (sd == ss && r.getLsbD 55 != sd) d
  let d := if setCarry then setC (r.getLsbD 56) d else d
  (res, flagsEuzn res d)

def aluSub (dst src : BitVec 64) (borrowIn setCarry : Bool) (d : Dsp π) : BitVec 64 × Dsp π :=
  let ud := dst &&& m56
  let us := src &&& m56
  let borrow : BitVec 64 := if borrowIn then 1 else 0
  let r := ud - us - borrow
  let c := decide (ud.toNat < (us + borrow).toNat)
  let res := sx56 (r &&& m56)
  let sd := ud.getLsbD 55
  let ss := us.getLsbD 55
  let d := setV (sd != ss && r.getLsbD 55 != sd) d
  let d := if setCarry then setC c d else d
  (res, flagsEuzn res d)

def aluRound (v : BitVec 64) (d : Dsp π) : BitVec 64 × Dsp π :=
  let s := scaling d
  let bit := if s = 1 then 24 else if s = 2 then 22 else 23
  let half : BitVec 64 := 1 <<< bit
  let mask := (half <<< 1) - 1
  let u := v &&& m56
  let r := u + half
  let r := if u &&& mask = half then r &&& ~~~(half <<< 1) else r
  let r := r &&& ~~~mask
  let res := sx56 (r &&& m56)
  let d := setV (!u.getLsbD 55 && r.getLsbD 55) d
  (res, flagsEuzn res d)

def mulProduct (s1 s2 : BitVec 32) (neg : Bool) : BitVec 64 :=
  let p := (sx24 s1).signExtend 64 * (sx24 s2).signExtend 64 * 2
  if neg then -p else p

def jjjSrc (d : Dsp π) (jjj : Nat) (dbit : Bool) : BitVec 64 :=
  match jjj with
  | 0 | 1 => if dbit then d.a else d.b
  | 2 => sx48 (d.x1.setWidth 64 <<< 24 ||| d.x0.setWidth 64)
  | 3 => sx48 (d.y1.setWidth 64 <<< 24 ||| d.y0.setWidth 64)
  | 4 => accFrom24 d.x0
  | 5 => accFrom24 d.y0
  | 6 => accFrom24 d.x1
  | _ => accFrom24 d.y1

def jjReg (d : Dsp π) (jj : Nat) : BitVec 32 :=
  match jj % 4 with
  | 0 => d.x0
  | 1 => d.y0
  | 2 => d.x1
  | _ => d.y1

@[simp] theorem jjReg_setC (c : Bool) (d : Dsp π) (jj : Nat) : jjReg (setC c d) jj = jjReg d jj := by
  cases c <;> rfl

@[simp] theorem jjReg_setAcc (which : Bool) (v : BitVec 64) (d : Dsp π) (jj : Nat) :
    jjReg (setAcc which v d) jj = jjReg d jj := by
  cases which <;> rfl

def qqqPair (d : Dsp π) (qqq : Nat) : BitVec 32 × BitVec 32 :=
  match qqq % 8 with
  | 0 => (d.x0, d.x0)
  | 1 => (d.y0, d.y0)
  | 2 => (d.x1, d.x0)
  | 3 => (d.y1, d.y0)
  | 4 => (d.x0, d.y1)
  | 5 => (d.y0, d.x0)
  | 6 => (d.x1, d.y0)
  | _ => (d.y1, d.x1)

/-- A result and the state its flags are in, with the result in an accumulator. -/
def keep (dbit : Bool) (r : BitVec 64 × Dsp π) : Dsp π := setAcc dbit r.1 r.2

def mulFast (op : BitVec 8) (dbit : Bool) (d : Dsp π) : Dsp π :=
  let s := qqqPair d (field op 4 7)
  let p := mulProduct s.1 s.2 (op.getLsbD 2)
  let ud := acc d dbit &&& m56
  let us := p &&& m56
  let rr := ud + us
  let r := if op.getLsbD 1 then sx56 rr else sx56 p
  let v := op.getLsbD 1 && (~~~(ud ^^^ us) &&& (ud ^^^ rr)).getLsbD 55
  let sr := raised v srL d.sr
  let u := r &&& m56
  let half : BitVec 64 := 1 <<< 23
  let rr := u + half
  let rr := if u &&& 0xFFFFFF = half then rr &&& ~~~(half <<< 1) else rr
  let rr := rr &&& (~~~(0xFFFFFF : BitVec 64) &&& m56)
  let v := if op.getLsbD 0 then !u.getLsbD 55 && rr.getLsbD 55 else v
  let r := if op.getLsbD 0 then sx56 rr else r
  let sr := sr &&& ~~~(srV ||| srE ||| srU ||| srN ||| srZ)
  let sr := raised v (srV ||| srL) sr
  let u := r &&& m56
  let sr := raised (sx48 u != r) srE sr
  let sr := raised (u.getLsbD 47 == u.getLsbD 46) srU sr
  let sr := raised (u.getLsbD 55) srN sr
  let sr := raised (u == 0) srZ sr
  setAcc dbit r (setSr sr d)

def mulSlow (op : BitVec 8) (dbit : Bool) (d : Dsp π) : Dsp π :=
  let s := qqqPair d (field op 4 7)
  let p := mulProduct s.1 s.2 (op.getLsbD 2)
  let r :=
    if op.getLsbD 1 then
      let c := d.sr &&& srC
      let r := aluAdd (acc d dbit) p false false d
      (r.1, setSr (r.2.sr &&& ~~~srC ||| c) r.2)
    else
      let r := sx56 p
      (r, flagsEuzn r (setSr (d.sr &&& ~~~srV) d))
  keep dbit (if op.getLsbD 0 then aluRound r.1 r.2 else r)

def logic (dbit : Bool) (a1 : BitVec 32) (d : Dsp π) : Dsp π :=
  flagsLogic a1 (setAcc dbit (withA1 (acc d dbit) a1) d)

def markDoubled (u : BitVec 64) (d : Dsp π) : Dsp π :=
  if u.getLsbD 55 != u.getLsbD 54 then setSr (d.sr ||| (srV ||| srL)) d else d

def aluLow (low jjj : Nat) (dbit : Bool) (d : Dsp π) : Option (Dsp π) :=
  let D := acc d dbit
  let other := if dbit then d.a else d.b
  match low with
  | 0 =>
      if jjj = 0 then none
      else some (keep dbit (aluAdd D (jjjSrc d jjj dbit) false true d))
  | 1 =>
      if jjj = 0 then some (setAcc dbit other d)
      else if jjj = 1 then some (keep dbit (aluRound D d))
      else if jjj = 2 ∨ jjj = 3 then
        some (keep dbit (aluAdd D (jjjSrc d jjj dbit) (flag d srC) true d))
      else some (setAcc dbit (jjjSrc d jjj dbit) d)
  | 2 =>
      if jjj = 0 then some (keep dbit (aluAdd (D.sshiftRight 1) other false true d))
      else if jjj = 1 then
        let u := D &&& m56
        some (markDoubled u (keep dbit (aluAdd (sx56 (u <<< 1)) other false true d)))
      else if jjj = 2 then
        let u := D &&& m56
        let d := setC (u.getLsbD 0) d
        let r := D.sshiftRight 1
        let d := setAcc dbit r d
        some (flagsEuzn r (setSr (d.sr &&& ~~~srV) d))
      else if jjj = 3 then
        let u := D &&& m56
        let d := setC (u.getLsbD 55) d
        let d := setV (u.getLsbD 55 != u.getLsbD 54) d
        let r := sx56 (u <<< 1 &&& m56)
        some (flagsEuzn r (setAcc dbit r d))
      else some (logic dbit (a1Of D ||| jjReg d jjj) d)
  | _ =>
      if jjj = 0 then some (flagsEuzn D (setSr (d.sr &&& ~~~srV) d))
      else if jjj = 1 then
        let d := setAcc dbit 0 d
        some (setSr (d.sr &&& ~~~(srE ||| srN ||| srV) ||| (srU ||| srZ)) d)
      else if jjj = 2 then
        let a1 := a1Of D
        some (logic dbit (a1 >>> 1) (setC (a1.getLsbD 0) d))
      else if jjj = 3 then
        let a1 := a1Of D
        some (logic dbit (a1 <<< 1 &&& m24) (setC (a1.getLsbD 23) d))
      else some (logic dbit (a1Of D ^^^ jjReg d jjj) d)

def aluHigh (low jjj : Nat) (dbit : Bool) (d : Dsp π) : Option (Dsp π) :=
  let D := acc d dbit
  let other := if dbit then d.a else d.b
  match low with
  | 4 =>
      if jjj = 0 then none
      else some (keep dbit (aluSub D (jjjSrc d jjj dbit) false true d))
  | 5 =>
      if jjj = 0 then some (aluSub D other false true d).2
      else if jjj = 1 then none
      else if jjj = 2 ∨ jjj = 3 then
        some (keep dbit (aluSub D (jjjSrc d jjj dbit) (flag d srC) true d))
      else some (aluSub D (jjjSrc d jjj dbit) false true d).2
  | 6 =>
      if jjj = 0 then some (keep dbit (aluSub (D.sshiftRight 1) other false true d))
      else if jjj = 1 then
        let u := D &&& m56
        some (markDoubled u (keep dbit (aluSub (sx56 (u <<< 1)) other false true d)))
      else if jjj = 2 then
        let c := d.sr &&& srC
        let d :=
          if D.toInt < 0 then keep dbit (aluSub 0 D false false d)
          else flagsEuzn D (setSr (d.sr &&& ~~~srV) d)
        some (setSr (d.sr &&& ~~~srC ||| c) d)
      else if jjj = 3 then
        let c := d.sr &&& srC
        let d := keep dbit (aluSub 0 D false false d)
        some (setSr (d.sr &&& ~~~srC ||| c) d)
      else some (logic dbit (a1Of D &&& jjReg d jjj) d)
  | _ =>
      if jjj = 1 then some (logic dbit (~~~(a1Of D) &&& m24) d)
      else if jjj = 2 then
        let a1 := a1Of D
        let cin := flag d srC
        some (logic dbit (a1 >>> 1 ||| (if cin then 0x800000 else 0)) (setC (a1.getLsbD 0) d))
      else if jjj = 3 then
        let a1 := a1Of D
        let cin := flag d srC
        some (logic dbit ((a1 <<< 1 ||| (if cin then 1 else 0)) &&& m24) (setC (a1.getLsbD 23) d))
      else
        let s := if jjj = 0 then other else jjjSrc d jjj dbit
        let x := if D.toInt < 0 then -D else D
        let y := if s.toInt < 0 then -s else s
        some (aluSub (sx56 x) (sx56 y) false true d).2

/-- The ALU half of an instruction.  No state is given for an encoding that does not
exist. -/
def aluOp (op : BitVec 8) (d : Dsp π) : Option (Dsp π) :=
  let dbit := op.getLsbD 3
  if op = 0 then some d
  else if op.getLsbD 7 then
    if d.sr &&& 0x0C00 = 0 then some (mulFast op dbit d) else some (mulSlow op dbit d)
  else if field op 0 7 < 4 then aluLow (field op 0 7) (field op 4 7) dbit d
  else aluHigh (field op 0 7) (field op 4 7) dbit d

end Dsp56k
end PistormAtari
