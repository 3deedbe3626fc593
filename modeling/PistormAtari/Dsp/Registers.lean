import Mathlib
import PistormAtari.Dsp.State

/-!
# The interpreter of the DSP: condition codes, buses and the register file

Registers are read and written by the number an instruction encodes them with.
-/

namespace PistormAtari
namespace Dsp56k

open Falcon (dspVecStackerr)

def srC : BitVec 16 := 0x0001
def srV : BitVec 16 := 0x0002
def srZ : BitVec 16 := 0x0004
def srN : BitVec 16 := 0x0008
def srU : BitVec 16 := 0x0010
def srE : BitVec 16 := 0x0020
def srL : BitVec 16 := 0x0040
def srS : BitVec 16 := 0x0080
def srI0 : BitVec 16 := 0x0100
def srI1 : BitVec 16 := 0x0200
def srS0 : BitVec 16 := 0x0400
def srS1 : BitVec 16 := 0x0800
def srT : BitVec 16 := 0x2000
def srLF : BitVec 16 := 0x8000

variable {π : Type}

def setSr (sr : BitVec 16) (d : Dsp π) : Dsp π := { d with sr := sr }

def raised (c : Bool) (flag sr : BitVec 16) : BitVec 16 := if c then sr ||| flag else sr

def flag (d : Dsp π) (f : BitVec 16) : Bool := d.sr &&& f != 0

theorem flag_twoPow (d : Dsp π) {i : Nat} (hi : i < 16) :
    flag d (BitVec.twoPow 16 i) = d.sr.getLsbD i := by
  unfold flag
  rw [BitVec.and_twoPow]
  cases d.sr.getLsbD i with
  | false => rfl
  | true =>
      rw [if_pos rfl, bne_iff_ne]
      intro hzero
      have hbit := congrArg (fun v => BitVec.getLsbD v i) hzero
      simp [hi] at hbit

theorem flag_c (d : Dsp π) : flag d srC = d.sr.getLsbD 0 := @flag_twoPow π d 0 (by decide)

theorem flag_v (d : Dsp π) : flag d srV = d.sr.getLsbD 1 := @flag_twoPow π d 1 (by decide)

theorem flag_lf (d : Dsp π) : flag d srLF = d.sr.getLsbD 15 := @flag_twoPow π d 15 (by decide)

/-!
## Condition codes
-/

def scaling (d : Dsp π) : Nat := field d.sr 10 3

def flagsEuzn (v : BitVec 64) (d : Dsp π) : Dsp π :=
  let sr := d.sr &&& ~~~(srE ||| srU ||| srN ||| srZ)
  let u := v &&& m56
  let s := scaling d
  if s = 0 then
    let sr := raised (sx48 u != sx56 u) srE sr
    let sr := raised (u.getLsbD 47 == u.getLsbD 46) srU sr
    let sr := raised (u.getLsbD 55) srN sr
    setSr (raised (u == 0) srZ sr) d
  else
    let top := if s = 1 then 48 else if s = 2 then 46 else 47
    let hi := u >>> top
    let allones : BitVec 64 := (1 <<< (56 - top)) - 1
    let sr := raised (hi != 0 && hi != allones) srE sr
    let sr := raised (u.getLsbD top == u.getLsbD (top - 1)) srU sr
    let sr := raised (u.getLsbD 55) srN sr
    setSr (raised (u == 0) srZ sr) d

def setV (v : Bool) (d : Dsp π) : Dsp π :=
  if v then setSr (d.sr ||| (srV ||| srL)) d else setSr (d.sr &&& ~~~srV) d

def setC (c : Bool) (d : Dsp π) : Dsp π :=
  if c then setSr (d.sr ||| srC) d else setSr (d.sr &&& ~~~srC) d

@[simp] theorem flag_c_setC (c : Bool) (d : Dsp π) : flag (setC c d) srC = c := by
  rw [flag_c]
  unfold setC
  cases c <;> simp [setSr, srC]

def flagsLogic (a1 : BitVec 32) (d : Dsp π) : Dsp π :=
  let sr := d.sr &&& ~~~(srN ||| srZ ||| srV)
  let sr := raised (a1 &&& 0x800000 != 0) srN sr
  setSr (raised (a1 &&& m24 == 0) srZ sr) d

def cond (d : Dsp π) (cc : Nat) : Bool :=
  let c := flag d srC
  let v := flag d srV
  let z := flag d srZ
  let n := flag d srN
  let u := flag d srU
  let e := flag d srE
  let l := flag d srL
  let r :=
    match cc % 8 with
    | 0 => !c
    | 1 => !(n ^^ v)
    | 2 => !z
    | 3 => !n
    | 4 => !(z || (!u && !e))
    | 5 => !e
    | 6 => !l
    | _ => !(z || (n ^^ v))
  if cc &&& 8 ≠ 0 then !r else r

/-!
## Accumulators on the buses
-/

def acc (d : Dsp π) (which : Bool) : BitVec 64 := if which then d.b else d.a

def setAcc (which : Bool) (v : BitVec 64) (d : Dsp π) : Dsp π :=
  if which then { d with b := v } else { d with a := v }

@[simp] theorem acc_setAcc (which : Bool) (v : BitVec 64) (d : Dsp π) :
    acc (setAcc which v d) which = v := by cases which <;> rfl

@[simp] theorem acc_setC (which c : Bool) (d : Dsp π) : acc (setC c d) which = acc d which := by
  cases c <;> rfl

def scaled (d : Dsp π) (v : BitVec 64) : BitVec 64 :=
  let s := scaling d
  if s = 1 then v.sshiftRight 1 else if s = 2 then sx56 (v <<< 1) else v

/-- The block floating point bit follows bits 46 and 45 of the scaled value. -/
def markScaled (sv : BitVec 64) (d : Dsp π) : Dsp π :=
  setSr (raised (sv.getLsbD 46 != sv.getLsbD 45) srS d.sr) d

def accBus24 (v : BitVec 64) (d : Dsp π) : BitVec 32 × Dsp π :=
  let sv := scaled d v
  let d := markScaled sv d
  if sx48 sv ≠ sv then
    (if sv.toInt < 0 then 0x800000 else 0x7FFFFF, setSr (d.sr ||| srL) d)
  else ((sv >>> 24).setWidth 32 &&& m24, d)

def accBus48 (v : BitVec 64) (d : Dsp π) : BitVec 64 × Dsp π :=
  let sv := scaled d v
  let d := markScaled sv d
  if sx48 sv ≠ sv then
    (if sv.toInt < 0 then 0x800000000000 else 0x7FFFFFFFFFFF, setSr (d.sr ||| srL) d)
  else (sv &&& m48, d)

def accFrom24 (v : BitVec 32) : BitVec 64 := (sx24 v).signExtend 64 <<< 24
def accFrom48 (v : BitVec 64) : BitVec 64 := sx48 v

def a1Of (v : BitVec 64) : BitVec 32 := (v >>> 24).setWidth 32 &&& m24

def withA1 (v : BitVec 64) (a1 : BitVec 32) : BitVec 64 :=
  sx56 ((v &&& 0xFF000000FFFFFF) ||| ((a1 &&& m24).setWidth 64 <<< 24))

def withA0 (v : BitVec 64) (a0 : BitVec 32) : BitVec 64 :=
  sx56 ((v &&& ~~~(m24.setWidth 64)) ||| a0.setWidth 64)

def withA2 (v : BitVec 64) (a2 : BitVec 32) : BitVec 64 :=
  sx56 ((v &&& 0xFFFFFFFFFFFF) ||| ((a2 &&& 0xFF).setWidth 64 <<< 48))

def a2Of (v : BitVec 64) : BitVec 32 := ((v >>> 48).setWidth 8).signExtend 32 &&& m24

/-!
## The register file
-/

def regRead (code : Nat) (d : Dsp π) : BitVec 32 × Dsp π :=
  match code with
  | 0x04 => (d.x0, d)
  | 0x05 => (d.x1, d)
  | 0x06 => (d.y0, d)
  | 0x07 => (d.y1, d)
  | 0x08 => (d.a.setWidth 32 &&& m24, d)
  | 0x09 => (d.b.setWidth 32 &&& m24, d)
  | 0x0A => (a2Of d.a, d)
  | 0x0B => (a2Of d.b, d)
  | 0x0C => (a1Of d.a, d)
  | 0x0D => (a1Of d.b, d)
  | 0x0E => accBus24 d.a d
  | 0x0F => accBus24 d.b d
  | 0x39 => (d.sr.setWidth 32, d)
  | 0x3A => (d.omr.setWidth 32, d)
  | 0x3B => (d.sp.setWidth 32, d)
  | 0x3C => ((sshTop d).setWidth 32, pop d)
  | 0x3D => ((sslTop d).setWidth 32, d)
  | 0x3E => (d.la.setWidth 32, d)
  | 0x3F => (d.lc.setWidth 32, d)
  | _ =>
      if 0x10 ≤ code ∧ code < 0x18 then ((d.r (Fin.ofNat 8 code)).setWidth 32, d)
      else if 0x18 ≤ code ∧ code < 0x20 then ((d.n (Fin.ofNat 8 code)).setWidth 32, d)
      else if 0x20 ≤ code ∧ code < 0x28 then ((d.m (Fin.ofNat 8 code)).setWidth 32, d)
      else (0, d)

def pushHigh (hi : BitVec 16) (d : Dsp π) : Dsp π :=
  let p := pushIndex d
  let d := stackUp d
  { d with ssh := Function.update d.ssh p hi, writes := d.writes + 1 }

def setLow (lo : BitVec 16) (d : Dsp π) : Dsp π :=
  { d with ssl := Function.update d.ssl (stackTop d) lo, writes := d.writes + 1 }

def setR (rn : Fin 8) (v : BitVec 16) (d : Dsp π) : Dsp π :=
  { d with r := Function.update d.r rn v }

def setN (rn : Fin 8) (v : BitVec 16) (d : Dsp π) : Dsp π :=
  { d with n := Function.update d.n rn v }

def setM (rn : Fin 8) (v : BitVec 16) (d : Dsp π) : Dsp π :=
  { d with m := Function.update d.m rn v }

def regWrite (code : Nat) (v : BitVec 32) (d : Dsp π) : Dsp π :=
  let v := v &&& m24
  match code with
  | 0x04 => { d with x0 := v }
  | 0x05 => { d with x1 := v }
  | 0x06 => { d with y0 := v }
  | 0x07 => { d with y1 := v }
  | 0x08 => { d with a := withA0 d.a v }
  | 0x09 => { d with b := withA0 d.b v }
  | 0x0A => { d with a := withA2 d.a v }
  | 0x0B => { d with b := withA2 d.b v }
  | 0x0C => { d with a := withA1 d.a v }
  | 0x0D => { d with b := withA1 d.b v }
  | 0x0E => { d with a := accFrom24 v }
  | 0x0F => { d with b := accFrom24 v }
  | 0x39 => { d with sr := (v &&& 0xAFFF).setWidth 16 }
  | 0x3A => { d with omr := (v &&& 0x00C7).setWidth 16 }
  | 0x3B => { d with sp := (v &&& 0x3F).setWidth 8 }
  | 0x3C => pushHigh (v.setWidth 16) d
  | 0x3D => setLow (v.setWidth 16) d
  | 0x3E => { d with la := v.setWidth 16 }
  | 0x3F => { d with lc := v.setWidth 16 }
  | _ =>
      if 0x10 ≤ code ∧ code < 0x18 then setR (Fin.ofNat 8 code) (v.setWidth 16) d
      else if 0x18 ≤ code ∧ code < 0x20 then setN (Fin.ofNat 8 code) (v.setWidth 16) d
      else if 0x20 ≤ code ∧ code < 0x28 then setM (Fin.ofNat 8 code) (v.setWidth 16) d
      else d

/-- A short immediate is a fraction for X, Y, A and B and an integer elsewhere. -/
def regWriteShort (code : Nat) (imm8 : BitVec 32) (d : Dsp π) : Dsp π :=
  if 0x04 ≤ code ∧ code ≤ 0x07 ∨ code = 0x0E ∨ code = 0x0F then
    regWrite code ((imm8 &&& 0xFF) <<< 16) d
  else regWrite code (imm8 &&& 0xFF) d

def pcrCode (ddddd : Nat) : Nat :=
  if ddddd &&& 0x18 = 0 then 0x20 ||| (ddddd &&& 7) else 0x38 ||| (ddddd &&& 7)

end Dsp56k
end PistormAtari
