import Mathlib
import PistormAtari.Dsp.Moves

/-!
# The interpreter of the DSP: program control and the decoder

Each group of instructions without a parallel move is a step of its own.
-/

namespace PistormAtari
namespace Dsp56k

open Falcon (Space dspVecSwi)
open Foundation (act ask look times)

section
variable {π : Type}

/-!
## Jumps, calls and hardware loops
-/

def jumpTo (target : BitVec 16) (d : Dsp π) : Dsp π := { d with pc := target, flow := .jumped }

/-- A loop that ends gives back the loop flag, LA and LC, and both its levels. -/
def closeLoop (d : Dsp π) : Dsp π :=
  let d := pop (setSr (d.sr &&& ~~~srLF ||| (sslTop d &&& srLF)) d)
  pop { d with la := sshTop d, lc := sslTop d }

def callAtLa (d : Dsp π) : Bool := flag d srLF && d.pc - 1 == d.la

def enterSub (ret target : BitVec 16) (d : Dsp π) : Dsp π := { push ret d.sr d with pc := target }

def doJsr (target : BitVec 16) (d : Dsp π) : Dsp π :=
  if d.inFastIrq then
    let d' := enterSub d.irqRetPc target { d with inFastIrq := false, flow := .called false }
    let lvl := if 0 < d.acceptLevel then d.acceptLevel else 3
    setSr (d'.sr &&& ~~~(srI0 ||| srI1 ||| srS0 ||| srS1 ||| srLF ||| srT) |||
      BitVec.ofNat 16 (lvl <<< 8)) d'
  else
    let d' := { d with flow := .called (callAtLa d) }
    if callAtLa d then
      if d.lc = 1 then enterSub d.pc target (closeLoop d')
      else enterSub (sshTop d) target { d' with lc := d.lc - 1 }
    else enterSub d.pc target d'

def loopEndCheck (lastWordAddr : BitVec 16) (d : Dsp π) : Dsp π :=
  if flag d srLF = false ∨ lastWordAddr ≠ d.la then d
  else if d.lc = 1 then { closeLoop d with pc := lastWordAddr + 1 }
  else { d with lc := d.lc - 1, pc := sshTop d }

def startDo (count : BitVec 32) (la : BitVec 16) (d : Dsp π) : Dsp π :=
  let d := push d.la d.lc d
  let d := { d with la := la, lc := count.setWidth 16 }
  let d := push d.pc d.sr d
  setSr (d.sr ||| srLF) d

def bitOf (v : BitVec 32) (b : Nat) : Bool := v.getLsbD (b % 32)

def bitop (v : BitVec 32) (b kind : Nat) (d : Dsp π) : BitVec 32 × Dsp π :=
  let bit : BitVec 32 := 1 <<< b
  let v' :=
    match kind with
    | 0 => v &&& ~~~bit
    | 1 => v ||| bit
    | 2 => v ^^^ bit
    | _ => v
  (v' &&& m24, setC (bitOf v b) d)

def waits (d : Dsp π) : Dsp π := { d with idleHint := true }

/-!
## Instructions without a parallel move
-/

def andi (which : Nat) (imm : BitVec 16) (d : Dsp π) : Dsp π :=
  match which with
  | 0 => setSr (d.sr &&& (imm <<< 8 ||| 0xFF)) d
  | 1 => setSr (d.sr &&& (imm ||| 0xFF00)) d
  | 2 => { d with omr := d.omr &&& imm }
  | _ => d

def ori (which : Nat) (imm : BitVec 16) (d : Dsp π) : Dsp π :=
  match which with
  | 0 => setSr (d.sr ||| imm <<< 8) d
  | 1 => setSr (d.sr ||| imm) d
  | 2 => { d with omr := d.omr ||| imm }
  | _ => d

def rti (d : Dsp π) : Dsp π :=
  pop (setSr (sslTop d &&& 0xAFFF) (jumpTo (sshTop d) d))

def rts (d : Dsp π) : Dsp π := pop (jumpTo (sshTop d) d)

/-- The instructions of `$00`. -/
def execSystem (op : BitVec 32) (d : Dsp π) : Dsp π :=
  if op = 0x000000 then d
  else if op = 0x000004 then rti d
  else if op = 0x000005 then illegal d
  else if op = 0x000006 then irqRaise dspVecSwi 3 d
  else if op = 0x00000C then rts d
  else if op = 0x000084 then d
  else if op = 0x000086 then { d with halted := true }
  else if op = 0x000087 then { d with halted := true }
  else if op = 0x00008C then closeLoop d
  else if op &&& 0xFF00FC = 0x0000B8 then andi (field op 0 3) ((op >>> 8 &&& 0xFF).setWidth 16) d
  else if op &&& 0xFF00FC = 0x0000F8 then ori (field op 0 3) ((op >>> 8 &&& 0xFF).setWidth 16) d
  else illegal d

def div (jj : Nat) (which : Bool) (d : Dsp π) : Dsp π :=
  let s := jjReg d jj
  let u := acc d which &&& m56
  let cin := flag d srC
  let v := u.getLsbD 55 != u.getLsbD 54
  let sh := sx56 ((u <<< 1 ||| (if cin then 1 else 0)) &&& m56)
  let sv := (sx24 s).signExtend 64 <<< 24
  let r := if u.getLsbD 55 != s.getLsbD 23 then sh + sv else sh - sv
  let r := sx56 (r &&& m56)
  let d := setAcc which r d
  let d := setC (!(r.getLsbD 55 != s.getLsbD 23)) d
  if v then setSr (d.sr ||| (srV ||| srL)) d else setSr (d.sr &&& ~~~srV) d

def norm (rn : Fin 8) (which : Bool) (d : Dsp π) : Dsp π :=
  if flag d srE = false ∧ flag d srU = true ∧ flag d srZ = false then
    let u := acc d which &&& m56
    let d := setV (u.getLsbD 55 != u.getLsbD 54) d
    let r := sx56 (u <<< 1 &&& m56)
    flagsEuzn r (setR rn (d.r rn - 1) (setAcc which r d))
  else if flag d srE then
    let r := (acc d which).sshiftRight 1
    let d := setR rn (d.r rn + 1) (setAcc which r d)
    flagsEuzn r (setSr (d.sr &&& ~~~srV) d)
  else d

def execDivNorm (op : BitVec 32) (d : Dsp π) : Dsp π :=
  if op &&& 0xFFFFC7 = 0x018040 then div (field op 4 3) (op.getLsbD 3) d
  else if op &&& 0xFFF8F7 = 0x01D815 then norm (Fin.ofNat 8 (field op 8 7)) (op.getLsbD 3) d
  else illegal d

def tcc (op : BitVec 32) (d : Dsp π) : Dsp π :=
  let jjj := field op 4 7
  let dbit := op.getLsbD 3
  if cond d (field op 12 0xF) = false then d
  else if jjj = 0 ∨ 4 ≤ jjj then
    let src := if jjj = 0 then (if dbit then d.a else d.b) else jjjSrc d jjj dbit
    let d :=
      if field op 16 0xFF = 0x03 then
        setR (Fin.ofNat 8 (field op 0 7)) (d.r (Fin.ofNat 8 (field op 8 7))) d
      else d
    setAcc dbit src d
  else illegal d

def lua (op : BitVec 32) (d : Dsp π) : Dsp π :=
  let rn : Fin 8 := Fin.ofNat 8 (field op 8 7)
  let save := d.r rn
  let d' := (eaCalc ((field op 11 3 <<< 3) ||| field op 8 7) d).2
  let v := d'.r rn
  let d' := setR rn save d'
  if op.getLsbD 3 then setN (Fin.ofNat 8 (field op 0 7)) v d'
  else setR (Fin.ofNat 8 (field op 0 7)) v d'

def execLuaMovec (op : BitVec 32) : DspM π Unit :=
  if op &&& 0xFFE0F0 = 0x044010 then act (lua op)
  else if op &&& 0xFF40E0 = 0x0440A0 then
    let e := field op 8 0x3F
    let pc5 := pcrCode (field op 0 0x1F)
    if op.getLsbD 15 then do let v <- ask (regRead e); act (regWrite pc5 v)
    else do let v <- ask (regRead pc5); act (regWrite e v)
  else act illegal

/-- A register from memory or an immediate, or to memory.  An immediate is not written. -/
def moveEa (h : Periph π) (space : Space) (w : Bool) (reg mode : Nat) : DspM π Unit := do
  let v <- (if w then pure 0 else ask (regRead reg))
  let ea <- ask (eaCalc mode)
  if w then do
    let v <- rdEa h space ea
    act (regWrite reg v)
  else match ea.imm with
    | some _ => pure ()
    | none => wr h space ea.addr v

def moveAa (h : Periph π) (space : Space) (w : Bool) (reg : Nat) (ea : BitVec 16) : DspM π Unit :=
  if w then do let v <- rd h space ea; act (regWrite reg v)
  else do let v <- ask (regRead reg); wr h space ea v

def aa (op : BitVec 32) : BitVec 16 := (op >>> 8 &&& 0x3F).setWidth 16

def ySpace (c : Bool) : Space := if c then .y else .x

def execMovec (h : Periph π) (op : BitVec 32) : DspM π Unit :=
  if op &&& 0xFF00E0 = 0x0500A0 then
    act (regWrite (pcrCode (field op 0 0x1F)) (op >>> 8 &&& 0xFF))
  else if op &&& 0xFF0020 = 0x050020 ∧ op.getLsbD 7 = false then
    let w := op.getLsbD 15
    let space := ySpace (op.getLsbD 6)
    let pc5 := pcrCode (field op 0 0x1F)
    if op.getLsbD 14 then moveEa h space w pc5 (field op 8 0x3F) else moveAa h space w pc5 (aa op)
  else act illegal

def loopCount (h : Periph π) (op : BitVec 32) : DspM π (BitVec 32) :=
  if op &&& 0xFF0080 = 0x060080 then
    pure ((op >>> 8 &&& 0xFF) ||| (op &&& 0xF) <<< 8)
  else if op &&& 0xFFC000 = 0x06C000 then ask (regRead (field op 8 0x3F))
  else
    let space := ySpace (op.getLsbD 6)
    if op.getLsbD 14 then do
      let ea <- ask (eaCalc (field op 8 0x3F))
      rd h space ea.addr
    else rd h space (aa op)

def rewind (ipc : BitVec 16) (words : Nat) (d : Dsp π) : Dsp π :=
  { d with pc := ipc, flow := .through, words := words }

def execLoop (h : Periph π) (again : BitVec 32 -> DspM π Unit) (op : BitVec 32) : DspM π Unit := do
  let count <- loopCount h op
  let count := count &&& 0xFFFF
  if op.getLsbD 5 then do
    let lcSave <- look fun d => d.lc
    let ipc <- look fun d => d.pc
    let words <- look fun d => d.words
    times (if count = 0 then 0x10000 else count.toNat) (do
      act (rewind ipc words)
      let iop <- ask fetch
      again iop)
    act fun d => { d with lc := lcSave }
  else do
    let la <- ask fetch
    act (startDo count (la.setWidth 16))

def execMovem (h : Periph π) (op : BitVec 32) : DspM π Unit :=
  let w := op.getLsbD 15
  let reg := field op 0 0x3F
  if op &&& 0xFF4080 = 0x074080 then moveEa h .p w reg (field op 8 0x3F)
  else if op &&& 0xFF40C0 = 0x070000 then moveAa h .p w reg (aa op)
  else act illegal

def movepEa (h : Periph π) (ppsp easp : Space) (w : Bool) (pp : BitVec 16) (mode : Nat) :
    DspM π Unit := do
  let ea <- ask (eaCalc mode)
  if w then do
    let v <- rdEa h easp ea
    wr h ppsp pp v
  else match ea.imm with
    | some _ => pure ()
    | none => do
        let v <- rd h ppsp pp
        wr h easp ea.addr v

def execMovep (h : Periph π) (op : BitVec 32) : DspM π Unit :=
  let ppsp := ySpace (op.getLsbD 16)
  let w := op.getLsbD 15
  let pp : BitVec 16 := 0xFFC0 ||| (op &&& 0x3F).setWidth 16
  if op.getLsbD 7 then movepEa h ppsp (ySpace (op.getLsbD 6)) w pp (field op 8 0x3F)
  else if op.getLsbD 6 then movepEa h ppsp .p w pp (field op 8 0x3F)
  else
    let reg := field op 8 0x3F
    if w then do let v <- ask (regRead reg); wr h ppsp pp v
    else do let v <- rd h ppsp pp; act (regWrite reg v)

def goTo (call : Bool) (target : BitVec 16) (d : Dsp π) : Dsp π :=
  if call then doJsr target d else jumpTo target d

/-- JMP, JSR and their conditional forms to an effective address.  A jump to itself waits
for an interrupt. -/
def execJump (op : BitVec 32) (startPc : BitVec 16) : DspM π Unit :=
  let call := op.getLsbD 16
  let sub := op &&& 0xFF
  if sub = 0x80 ∨ sub &&& 0xF0 = 0xA0 then do
    let doit <- look fun d => sub == 0x80 || cond d (field sub 0 0xF)
    let ea <- ask (eaCalc (field op 8 0x3F))
    if doit then act fun d =>
      let d := goTo call ea.addr d
      if call = false ∧ sub = 0x80 ∧ ea.addr = startPc then waits d else d
    else pure ()
  else act illegal

def jumpOnBit (call : Bool) (v : BitVec 32) (b : Nat) (kind : Bool) (waitsAt : Option (BitVec 16)) :
    DspM π Unit := do
  let tgt <- ask fetch
  if bitOf v b = kind then act fun d =>
    let d := goTo call (tgt.setWidth 16) d
    if call = false ∧ waitsAt = some (tgt.setWidth 16) then waits d else d
  else pure ()

def execBitReg (op : BitVec 32) : DspM π Unit := do
  let call := op.getLsbD 16
  let b := field op 0 0x1F
  let reg := field op 8 0x3F
  let kind := field op 5 7
  let v <- ask (regRead reg)
  if kind ≤ 1 then jumpOnBit call v b (kind == 1) none
  else do
    let k := if call then (if kind = 2 then 2 else 3) else (if kind = 2 then 0 else 1)
    let nv <- ask (bitop v b k)
    if k ≠ 3 then act (regWrite reg nv) else pure ()

def bitAddr (op : BitVec 32) : DspM π (BitVec 16) :=
  if field op 14 3 = 1 then do let ea <- ask (eaCalc (field op 8 0x3F)); pure ea.addr
  else if field op 14 3 = 0 then pure (aa op)
  else pure (0xFFC0 ||| aa op)

/-- The bit instructions on memory.  A jump on a bit to itself waits for an interrupt. -/
def execBitMem (h : Periph π) (op : BitVec 32) (startPc : BitVec 16) : DspM π Unit := do
  let call := op.getLsbD 16
  let b := field op 0 0x1F
  let bit5 := op.getLsbD 5
  let space := ySpace (op.getLsbD 6)
  let ea <- bitAddr op
  let v <- rd h space ea
  if op.getLsbD 7 then jumpOnBit call v b bit5 (some startPc)
  else do
    let k := if call then (if bit5 then 3 else 2) else (if bit5 then 1 else 0)
    let nv <- ask (bitop v b k)
    if k ≠ 3 then wr h space ea nv else pure ()

def execBits (h : Periph π) (op : BitVec 32) (startPc : BitVec 16) : DspM π Unit :=
  if field op 14 3 = 3 then
    if op.getLsbD 7 then execJump op startPc else execBitReg op
  else execBitMem h op startPc

def shortTarget (op : BitVec 32) : BitVec 16 := (op &&& 0xFFF).setWidth 16

def execShortJump (op : BitVec 32) (startPc : BitVec 16) (d : Dsp π) : Dsp π :=
  match field op 16 0xFF with
  | 0x0C =>
      if op &&& 0xFFF000 = 0x0C0000 then
        let d := jumpTo (shortTarget op) d
        if d.pc = startPc then waits d else d
      else illegal d
  | 0x0D => if op &&& 0xFFF000 = 0x0D0000 then doJsr (shortTarget op) d else illegal d
  | 0x0E => if cond d (field op 12 0xF) then jumpTo (shortTarget op) d else d
  | _ => if cond d (field op 12 0xF) then doJsr (shortTarget op) d else d

/-- The instructions without a parallel move, by their first byte. -/
def execNonpar (h : Periph π) (again : BitVec 32 -> DspM π Unit) (op : BitVec 32)
    (startPc : BitVec 16) : DspM π Unit :=
  match field op 16 0xFF with
  | 0x00 => act (execSystem op)
  | 0x01 => act (execDivNorm op)
  | 0x02 | 0x03 => act (tcc op)
  | 0x04 => execLuaMovec op
  | 0x05 => execMovec h op
  | 0x06 => execLoop h again op
  | 0x07 => execMovem h op
  | 0x08 | 0x09 => execMovep h op
  | 0x0A | 0x0B => execBits h op startPc
  | 0x0C | 0x0D | 0x0E | 0x0F => act (execShortJump op startPc)
  | _ => act illegal

def isParallel (op : BitVec 32) : Bool :=
  decide (0x100000 ≤ op.toNat) || (op >>> 17 == 0x04 && !op.getLsbD 14)

def execute (h : Periph π) (fuel : Nat) (op : BitVec 32) : DspM π Unit := do
  let startPc <- look fun d => d.pc - 1
  if op.getLsbD 23 then execXy h op
  else if isParallel op then execPar h op
  else
    match fuel with
    | 0 => execNonpar h (fun _ _ => none) op startPc
    | fuel + 1 => execNonpar h (execute h fuel) op startPc

end
end Dsp56k
end PistormAtari
