import PistormAtari.Falcon.DspState
import PistormAtari.Foundation.WrapRing

/-!
# The host port of the DSP

The 68k and the DSP exchange words through two rings.  The 68k thread, the engine thread
and the program on the DSP each move one side of them, and a reset of the DSP moves both.
-/

namespace PistormAtari
namespace Falcon

open Foundation

/-!
## State
-/

def hfSize : Nat := 32768
def hfTxdeRoom : Nat := 8192

inductive DspState where
  | held
  | boot
  | run
deriving DecidableEq

structure DspExec where
  boot : Bool
  w : List (BitVec 32)
deriving DecidableEq

/-- What the 68k and the DSP share: the rings, and the state of a reset. -/
structure HostLink where
  dspState : DspState
  resetEpoch : BitVec 32
  resetSeen : BitVec 32
  bootHead : BitVec 32
  resetHeld : Bool
  dspResetting : Bool
  bootCount : Nat
  exec : Option DspExec
  porta : BitVec 8
  tx : WrapRing Word
  rx : WrapRing Word
  icr : BitVec 8
  ivr : BitVec 8
  txb : Nat -> BitVec 8
  rxLast : Word
  hrxLast : Word
  answerArmed : Bool
  vblLocked : Bool
  txVisOn : Bool
  txVisHead : BitVec 32
  wroteSinceRx : Bool
  droppedTx : Nat

structure Host extends HostLink where
  cvr : BitVec 8
  hcr : BitVec 8
  ipr : Word
  bcr : Word
  pbc : Word
  pcc : Word
  pbddr : Word
  pcddr : Word
  pbd : Word
  pcd : Word
  sci : Fin 8 -> Word
  cra : Word
  crb : Word
  ssisr : Word
  ssiTx : Word
  ssiRx : Word
  ssisrRead : Bool
  htxDepth : Nat
  txdeChip : Bool

def hcrHrie : BitVec 8 := 0x01
def hcrHtie : BitVec 8 := 0x02
def hcrHcie : BitVec 8 := 0x04

def ssiTde : Word := 0x40
def ssiRdf : Word := 0x80
def ssiTue : Word := 0x10
def ssiRoe : Word := 0x20
def ssiTfs : Word := 0x04
def ssiRfs : Word := 0x08

def wordsUpTo (h tail : BitVec 32) : Nat := if 0 < (h - tail).toInt then (h - tail).toNat else 0

/-- The last word that the DSP may see, while a burst hides what the 68k writes after it. -/
def txLimit (f : HostLink) : BitVec 32 :=
  if f.txVisOn = true ∧ 0 < (f.tx.head - f.txVisHead).toInt then f.txVisHead else f.tx.head

def txVisible (f : HostLink) : Nat := wordsUpTo (txLimit f) f.tx.tail

def txEmpty (f : Host) (txn : Nat) : Bool :=
  if f.txdeChip then decide (txn < 2) else decide (txn ≤ hfSize - hfTxdeRoom)

/-!
## Interrupts of the peripherals
-/

def irqFollow (vector level : Nat) (on : Bool) (q : DspIrq) : DspIrq :=
  if on then dsp56kIrqRaise vector level q else dsp56kIrqClear vector q

def hostLevel (f : Host) : Nat := ((f.ipr >>> 10) &&& 3).toNat
def ssiLevel (f : Host) : Nat := ((f.ipr >>> 12) &&& 3).toNat

def hostRxOn (f : Host) : Bool :=
  decide (hostLevel f ≠ 0 ∧ f.hcr &&& hcrHrie ≠ 0 ∧ txVisible f.toHostLink ≠ 0)

def hostTxOn (f : Host) : Bool :=
  decide (hostLevel f ≠ 0 ∧ f.hcr &&& hcrHtie ≠ 0 ∧ f.rx.count < f.htxDepth)

def commandTaken (f : Host) : Bool :=
  decide (f.cvr &&& 0x80 ≠ 0 ∧ hostLevel f ≠ 0 ∧ f.hcr &&& hcrHcie ≠ 0)

def commandVector (f : Host) : Nat := (f.cvr &&& 0x1F).toNat * 2

def hostIrqs (s : DspIrq × Host) : DspIrq × Host :=
  let f := s.2
  let lvl := hostLevel f
  let q := irqFollow dspVecHostRx lvl (hostRxOn f) s.1
  let q := irqFollow dspVecHostTx lvl (hostTxOn f) q
  if commandTaken f then
    (dsp56kIrqRaise (commandVector f) lvl q, { f with cvr := f.cvr &&& 0x7F })
  else (q, f)

def ssiIrqs (s : DspIrq × Host) : DspIrq × Host :=
  let f := s.2
  let lvl := ssiLevel f
  let q := dsp56kIrqClear dspVecSsiRx s.1
  let q := dsp56kIrqClear dspVecSsiRxe q
  let q := dsp56kIrqClear dspVecSsiTx q
  let q := dsp56kIrqClear dspVecSsiTxe q
  if lvl = 0 then (q, f)
  else
    let q :=
      if f.crb &&& 0x8000 ≠ 0 ∧ f.ssisr &&& ssiRdf ≠ 0 then
        dsp56kIrqRaise (if f.ssisr &&& ssiRoe ≠ 0 then dspVecSsiRxe else dspVecSsiRx) lvl q
      else q
    let q :=
      if f.crb &&& 0x4000 ≠ 0 ∧ f.ssisr &&& ssiTde ≠ 0 then
        dsp56kIrqRaise (if f.ssisr &&& ssiTue ≠ 0 then dspVecSsiTxe else dspVecSsiTx) lvl q
      else q
    (q, f)

/-!
## What the DSP reads and writes
-/

def hostStatus (f : Host) : Word :=
  (if txVisible f.toHostLink ≠ 0 then 0x01 else 0) |||
    (if f.rx.count < f.htxDepth then 0x02 else 0) |||
    (if f.cvr &&& 0x80 ≠ 0 then 0x04 else 0) |||
    (((f.icr >>> 3) &&& 3) <<< 3).setWidth 24

/-- The word that the DSP takes from the 68k, if it can see one. -/
def hrxFind (f : HostLink) : Option Word := if txVisible f ≠ 0 then f.tx.peek hfSize else none

def hrxTake (f : HostLink) : HostLink :=
  match hrxFind f with
  | some v => { f with tx := f.tx.pop, hrxLast := v, answerArmed := true }
  | none => f

inductive PeriphReg where
  | pbc
  | pcc
  | pbddr
  | pcddr
  | pbd
  | pcd
  | hcr
  | hsr
  | host
  | cra
  | crb
  | ssisr
  | ssi
  | sci (i : Fin 8)
  | bcr
  | ipr
deriving DecidableEq

def periphReg (a : BitVec 16) : Option PeriphReg :=
  match a.toNat with
  | 0xFFE0 => some .pbc
  | 0xFFE1 => some .pcc
  | 0xFFE2 => some .pbddr
  | 0xFFE3 => some .pcddr
  | 0xFFE4 => some .pbd
  | 0xFFE5 => some .pcd
  | 0xFFE8 => some .hcr
  | 0xFFE9 => some .hsr
  | 0xFFEB => some .host
  | 0xFFEC => some .cra
  | 0xFFED => some .crb
  | 0xFFEE => some .ssisr
  | 0xFFEF => some .ssi
  | 0xFFFE => some .bcr
  | 0xFFFF => some .ipr
  | n => if 0xFFF0 ≤ n ∧ n ≤ 0xFFF7 then some (.sci (Fin.ofNat 8 n)) else none

def regRead (reg : PeriphReg) (s : DspIrq × Host) : Word × DspIrq × Host :=
  let f := s.2
  match reg with
  | .pbc => (f.pbc, s)
  | .pcc => (f.pcc, s)
  | .pbddr => (f.pbddr, s)
  | .pcddr => (f.pcddr, s)
  | .pbd => (f.pbd, s)
  | .pcd => (f.pcd, s)
  | .hcr => (f.hcr.setWidth 24, s)
  | .hsr => (hostStatus f, s)
  | .host =>
      let t := hostIrqs (s.1, { f with toHostLink := hrxTake f.toHostLink })
      (t.2.hrxLast, t)
  | .cra => (f.cra, s)
  | .crb => (f.crb, s)
  | .ssisr => (f.ssisr, (s.1, { f with ssisrRead := true }))
  | .ssi =>
      let ssisr := f.ssisr &&& ~~~ssiRdf
      let ssisr := if f.ssisrRead then ssisr &&& ~~~ssiRoe else ssisr
      (f.ssiRx, ssiIrqs (s.1, { f with ssisr := ssisr, ssisrRead := false }))
  | .sci i => (if i = 1 then 0x03 ||| f.sci 1 else f.sci i, s)
  | .bcr => (f.bcr, s)
  | .ipr => (f.ipr, s)

def periphRead (space : Space) (a : BitVec 16) : StateM (DspIrq × Host) Word := fun s =>
  if space = .y then (0, s)
  else
    match periphReg a with
    | some reg => regRead reg s
    | none => (0, s)

/-- The answer to what the DSP has read hides, in a burst, what the 68k sends next. -/
def answerSent (f : HostLink) : HostLink :=
  if f.answerArmed then
    let f := { f with answerArmed := false }
    if f.vblLocked = true ∧ f.txVisOn = false then
      { f with txVisHead := f.tx.head, txVisOn := true }
    else f
  else f

def htxSend (f : HostLink) (v : Word) : HostLink :=
  match (answerSent f).rx.push hfSize v with
  | some rx => { answerSent f with rx := rx }
  | none => answerSent f

def regWrite (reg : PeriphReg) (v : Word) (s : DspIrq × Host) : DspIrq × Host :=
  let f := s.2
  match reg with
  | .pbc => (s.1, { f with pbc := v })
  | .pcc => (s.1, { f with pcc := v })
  | .pbddr => (s.1, { f with pbddr := v })
  | .pcddr => (s.1, { f with pcddr := v })
  | .pbd => (s.1, { f with pbd := v })
  | .pcd => (s.1, { f with pcd := v })
  | .hcr => hostIrqs (s.1, { f with hcr := v.setWidth 8 &&& 0x1F })
  | .hsr => s
  | .host => hostIrqs (s.1, { f with toHostLink := htxSend f.toHostLink v })
  | .cra => (s.1, { f with cra := v })
  | .crb =>
      let on := v &&& 0x1000 ≠ 0 ∧ f.crb &&& 0x1000 = 0
      ssiIrqs (s.1, { f with ssisr := if on then f.ssisr ||| ssiTde else f.ssisr, crb := v })
  | .ssisr => s
  | .ssi =>
      let ssisr := f.ssisr &&& ~~~ssiTde
      let ssisr := if f.ssisrRead then ssisr &&& ~~~ssiTue else ssisr
      ssiIrqs (s.1, { f with ssiTx := v, ssisr := ssisr, ssisrRead := false })
  | .sci i => (s.1, { f with sci := Function.update f.sci i v })
  | .bcr => (s.1, { f with bcr := v })
  | .ipr => ssiIrqs (hostIrqs (s.1, { f with ipr := v }))

def periphWrite (space : Space) (a : BitVec 16) (v : Word) : StateM (DspIrq × Host) Unit := fun s =>
  if space = .y then ((), s)
  else
    match periphReg a with
    | some reg => ((), regWrite reg v s)
    | none => ((), s)

def hostPeriph : Periph Host := { read := periphRead, write := periphWrite }

def ssiReceive (slot : Nat) (word : Word) (f : Host) : Host :=
  if f.crb &&& 0x2000 ≠ 0 then
    let ssisr := if f.ssisr &&& ssiRdf ≠ 0 then f.ssisr ||| ssiRoe else f.ssisr
    let ssisr := ssisr ||| ssiRdf
    { f with
      ssiRx := word
      ssisr := if slot = 0 then ssisr ||| ssiRfs else ssisr &&& ~~~ssiRfs }
  else f

def ssiTransmit (slot : Nat) (f : Host) : Option Word × Host :=
  if f.crb &&& 0x1000 ≠ 0 then
    let ssisr := if f.ssisr &&& ssiTde ≠ 0 then f.ssisr ||| ssiTue else f.ssisr
    let ssisr := ssisr ||| ssiTde
    (some f.ssiTx, { f with ssisr := if slot = 0 then ssisr ||| ssiTfs else ssisr &&& ~~~ssiTfs })
  else (none, f)

def ssiSlot (slot : Nat) (word : Word) (s : DspIrq × Host) : Option Word × DspIrq × Host :=
  let t := ssiTransmit slot (ssiReceive slot word s.2)
  (t.1, ssiIrqs (s.1, t.2))

/-!
## Reset and bootstrap
-/

def dspStartAt0 (s : Core Host) : Core Host :=
  { dsp := { s.dsp with pc := 0, omr := 0x0002, sr := 0x0300 }
    io := { s.io with dspState := .run } }

def execWords (space : Space) : BitVec 16 -> List (BitVec 32) -> Core Host -> Core Host
  | _, [], s => s
  | a, v :: rest, s => execWords space (a + 1) rest (memWr hostPeriph space a (v.setWidth 24) s).2

def execSpace (t : BitVec 32) : Option Space :=
  match t.toNat with
  | 0 => some .p
  | 1 => some .x
  | 2 => some .y
  | _ => none

/-- The blocks of a program, up to the first that is not well formed.  The fuel is the number
of words. -/
def execBlocks : Nat -> List (BitVec 32) -> Core Host -> Core Host
  | fuel + 1, t :: a :: c :: rest, s =>
      match execSpace t with
      | some space =>
          if rest.length < c.toNat then s
          else
            execBlocks fuel (rest.drop c.toNat)
              (execWords space (a.setWidth 16) (rest.take c.toNat) s)
      | none => s
  | _, _, s => s

def loadPint (pint : BitVec 9 -> Word) (i : Nat) : List Word -> BitVec 9 -> Word
  | [] => pint
  | v :: rest => loadPint (Function.update pint (BitVec.ofNat 9 i) v) (i + 1) rest

def dspExecLoad (x : DspExec) (s : Core Host) : Core Host :=
  let s := { s with dsp := { s.dsp with omr := 0x0002 } }
  if x.boot then
    let w := (x.w.take 512).map (fun v => v.setWidth 24)
    dspStartAt0
      { dsp := { s.dsp with pint := loadPint s.dsp.pint 0 w }
        io := { s.io with bootCount := w.length } }
  else
    let s := execBlocks x.w.length x.w s
    dspStartAt0 { s with io := { s.io with bootCount := 512 } }

def resetHost (f : Host) : Host :=
  { f with
    resetSeen := f.resetEpoch
    tx := { f.tx with tail := f.bootHead }
    rx := { f.rx with tail := f.rx.head }
    rxLast := 0
    hrxLast := 0
    ipr := 0
    bcr := 0
    pcc := 0
    pbc := 0
    cra := 0
    crb := 0
    ssisr := ssiTde
    hcr := 0
    bootCount := 0
    txVisOn := false
    answerArmed := false
    dspState := .boot
    exec := none }

/-- The engine sees a release: the bootstrap loader starts listening. -/
def dspReleased (s : Core Host) : Core Host :=
  let t : Core Host :=
    { dsp := { dsp56kReset s.dsp with pint := fun _ => 0 }
      io := resetHost s.io }
  let t := s.io.exec.elim t (fun x => dspExecLoad x t)
  { t with io := { t.io with dspResetting := false } }

/-- A line that is held stops the DSP, and a flag that nothing is on its way for is stale. -/
def settlePower (f : Host) : Host :=
  let f := if f.resetHeld then { f with dspState := .held } else f
  if f.dspResetting = true ∧ f.resetHeld = false ∧ f.resetEpoch = f.resetSeen ∧
      f.dspState = .run then
    { f with dspResetting := false }
  else f

def dspPowerState (s : Core Host) : Core Host :=
  let s := if s.io.resetEpoch ≠ s.io.resetSeen then dspReleased s else s
  { s with io := settlePower s.io }

/-- One pass of the loop of `dsp_boot_drain`: a word of the 68k goes to the internal program
memory, up to 512 of them. -/
def bootWord (s : Core Host) : Core Host :=
  if s.io.bootCount < 512 then
    match s.io.tx.peek hfSize with
    | some v =>
        { dsp :=
            { s.dsp with
              pint := Function.update s.dsp.pint (BitVec.ofNat 9 s.io.bootCount) v }
          io := { s.io with tx := s.io.tx.pop, bootCount := s.io.bootCount + 1 } }
    | none => s
  else s

/-- After the loop, a whole bootstrap is run, and one that HF0 ends early. -/
def bootStart (s : Core Host) : Core Host :=
  if 512 ≤ s.io.bootCount ∨ (s.io.bootCount ≠ 0 ∧ s.io.icr &&& 0x08 ≠ 0) then dspStartAt0 s else s

/-!
## The 68k side
-/

/-- The 68k thread owns the DSP; `inlineOk` says that nothing else clocks it. -/
def cpuCoproc (inlineOk : Bool) (f : Host) : Bool :=
  inlineOk && decide (f.dspState = .run) && !f.dspResetting && !f.resetHeld && !f.vblLocked &&
    decide (f.crb &&& 0x3000 = 0)

def rxFind (f : HostLink) : Option Word :=
  if f.dspResetting then none else f.rx.peek hfSize

def hostIsr (f : Host) (found : Bool) : BitVec 8 :=
  let txn := f.tx.count
  let isr : BitVec 8 := if found then 0x01 else 0
  let isr := if txEmpty f txn then isr ||| 0x02 else isr
  let isr := if txn = 0 then isr ||| 0x04 else isr
  let isr := isr ||| (((f.hcr >>> 3) &&& 3) <<< 3)
  if (f.icr &&& 1 ≠ 0 ∧ found = true) ∨ (f.icr &&& 2 ≠ 0 ∧ txEmpty f txn = true) then isr ||| 0x80
  else isr

/-- The byte at offset `o` for a read that found `found`; the last byte takes the word. -/
def hostByte (o : Nat) (found : Option Word) (f : Host) : BitVec 8 × Host :=
  let v := found.getD f.rxLast
  match o with
  | 0 => (f.icr, f)
  | 1 => (f.cvr, f)
  | 2 => (hostIsr f found.isSome, f)
  | 3 => (f.ivr, f)
  | 5 => ((v >>> 16).setWidth 8, f)
  | 6 => ((v >>> 8).setWidth 8, f)
  | 7 =>
      match found with
      | some v => (v.setWidth 8, { f with rx := f.rx.pop, wroteSinceRx := false, rxLast := v })
      | none => (v.setWidth 8, f)
  | _ => (0, f)

def hostWord (f : HostLink) (v : BitVec 8) : Word := f.txb 0 ++ f.txb 1 ++ v

/-- The last byte sends the word, which is dropped if the ring is full. -/
def hostSend (f : HostLink) (v : BitVec 8) : HostLink :=
  let f := { f with txb := Function.update f.txb 2 v, wroteSinceRx := true }
  match f.tx.push hfSize (hostWord f v) with
  | some tx => { f with tx := tx }
  | none => { f with droppedTx := f.droppedTx + 1 }

def hostInit (f : HostLink) (v : BitVec 8) : HostLink :=
  let f := if v &&& 0x02 ≠ 0 then { f with tx := { f.tx with head := f.tx.tail } } else f
  if v &&& 0x01 ≠ 0 then { f with rx := { f.rx with tail := f.rx.head } } else f

def hostWrite8 (o : Nat) (v : BitVec 8) (f : Host) : Host :=
  match o with
  | 0 =>
      if v &&& 0x80 ≠ 0 then
        { f with toHostLink := { hostInit f.toHostLink v with icr := v &&& 0x7F } }
      else { f with icr := v }
  | 1 => { f with cvr := v &&& 0x9F }
  | 3 => { f with ivr := v }
  | 5 => { f with txb := Function.update f.txb 0 v }
  | 6 => { f with txb := Function.update f.txb 1 v }
  | 7 => { f with toHostLink := hostSend f.toHostLink v }
  | _ => f

/-- Whatever the host writes after a release is the bootstrap; older words are gone. -/
def releaseReset (f : HostLink) : HostLink :=
  { f with
    bootHead := f.tx.head
    rx := { f.rx with tail := f.rx.head }
    resetHeld := false
    resetEpoch := f.resetEpoch + 1 }

def portaWrite (v : BitVec 8) (f : HostLink) : HostLink :=
  let old := f.porta
  let f := { f with porta := v }
  if v &&& 0x10 ≠ 0 ∧ old &&& 0x10 = 0 then { f with resetHeld := true, dspResetting := true }
  else if v &&& 0x10 = 0 ∧ old &&& 0x10 ≠ 0 then releaseReset f
  else f

def falconDspExec (x : DspExec) (f : HostLink) : HostLink :=
  releaseReset { f with dspResetting := true, exec := some x, porta := f.porta &&& ~~~0x10 }

/-!
## The threads together
-/

/-- A read of the 68k under way, byte by byte.  `waited` says that it has waited for a word,
and `found` which of its bytes found one. -/
structure Access where
  next : Nat
  left : Nat
  coproc : Bool
  waited : Bool
  value : BitVec 32
  found : List (Nat × Bool)
deriving DecidableEq

structure HostPort where
  core : Core Host
  access : Access
  waiting : Bool

/-- One step of the 68k thread, of the engine thread, or of the program on the DSP.  What a
read waits for, and what the DSP does while the 68k thread runs it, are steps of their own. -/
inductive HostStep where
  | hwRead (o size : Nat) (inlineOk : Bool)
  | readByte (flowing : Bool)
  | rxPoll
  | rxGiveUp
  | hostWrite (o : Nat) (v : BitVec 8)
  | porta (v : BitVec 8)
  | dspExec (x : DspExec)
  | dspRead (space : Space) (a : BitVec 16)
  | dspWrite (space : Space) (a : BitVec 16) (v : Word)
  | hostIrqs
  | ssiSlot (slot : Nat) (word : Word)
  | powerState
  | bootWord
  | bootStart
  | lock (on : Bool)
  | burst (on : Bool)
deriving DecidableEq

def HostPort.onHost (s : HostPort) (g : Host -> Host) : HostPort :=
  { s with core := { s.core with io := g s.core.io } }

def HostPort.onLink (s : HostPort) (g : HostLink -> HostLink) : HostPort :=
  s.onHost fun f => { f with toHostLink := g f.toHostLink }

def HostPort.onDsp {α : Type} (s : HostPort) (m : DspM Host α) : HostPort := { s with core := (m s.core).2 }

def HostPort.onIrqs (s : HostPort) (g : DspIrq × Host -> DspIrq × Host) : HostPort :=
  let t := g (s.core.dsp.irq, s.core.io)
  { s with core := { dsp := { s.core.dsp with irq := t.1 }, io := t.2 } }

def takeByte (s : HostPort) (found : Option Word) : HostPort :=
  let a := s.access
  let t := hostByte a.next found s.core.io
  { core := { s.core with io := t.2 }
    access :=
      { a with
        next := a.next + 1
        left := a.left - 1
        value := (a.value <<< 8) ||| t.1.setWidth 32
        found := (a.next, found.isSome) :: a.found }
    waiting := false }

/-- An empty port is worth waiting for while a question is out or words are flowing. -/
def waitsForWord (f : HostLink) (flowing : Bool) : Bool :=
  (f.wroteSinceRx || flowing) && decide (f.dspState = .run) && !f.resetHeld

/-- The byte at `o` may have to wait for a word, once per access. -/
def mayWait (a : Access) (f : HostLink) : Bool :=
  !a.coproc && (rxFind f).isNone && decide (5 ≤ a.next ∧ a.next ≤ 7) && !a.waited

def readByte (s : HostPort) (flowing : Bool) : HostPort :=
  let f := s.core.io.toHostLink
  if mayWait s.access f then
    let s := { s with access := { s.access with waited := true } }
    if waitsForWord f flowing then { s with waiting := true } else takeByte s none
  else takeByte s (rxFind f)

def HostPort.cpuFree (s : HostPort) : Bool := decide (s.access.left = 0)

def HostPort.dspRuns (s : HostPort) : Bool := decide (s.core.io.dspState = .run)

def beginRead (s : HostPort) (o size : Nat) (inlineOk : Bool) : HostPort :=
  { s with
    access :=
      { next := o
        left := size
        coproc := cpuCoproc inlineOk s.core.io
        waited := false
        value := 0
        found := [] } }

def hostStep (s : HostPort) : HostStep -> HostPort
  | .hwRead o size inlineOk => if s.cpuFree then beginRead s o size inlineOk else s
  | .readByte flowing => if s.cpuFree ∨ s.waiting = true then s else readByte s flowing
  | .rxPoll =>
      if s.waiting then
        match s.core.io.rx.peek hfSize with
        | some v => takeByte s (some v)
        | none => s
      else s
  | .rxGiveUp => if s.waiting then takeByte s none else s
  | .hostWrite o v => if s.cpuFree then s.onHost (hostWrite8 o v) else s
  | .porta v => if s.cpuFree then s.onLink (portaWrite v) else s
  | .dspExec x => if s.cpuFree then s.onLink (falconDspExec x) else s
  | .dspRead space a => if s.dspRuns then s.onDsp (memRd hostPeriph space a) else s
  | .dspWrite space a v => if s.dspRuns then s.onDsp (memWr hostPeriph space a v) else s
  | .hostIrqs => s.onIrqs Falcon.hostIrqs
  | .ssiSlot slot word => s.onIrqs fun t => (Falcon.ssiSlot slot word t).2
  | .powerState => { s with core := dspPowerState s.core }
  | .bootWord =>
      if s.core.io.dspState = .boot then { s with core := Falcon.bootWord s.core } else s
  | .bootStart =>
      if s.core.io.dspState = .boot then { s with core := Falcon.bootStart s.core } else s
  | .lock on => s.onLink fun f => { f with vblLocked := on }
  | .burst on =>
      if on then s.onLink fun f => { f with txVisHead := f.tx.head, txVisOn := true }
      else s.onLink fun f => { f with txVisOn := false }

/-- The peripherals at power-on, with the depth of the DSP's transmit register and the
meaning of TXDE that are configured. -/
def falconInit (htxDepth : Nat) (txdeChip : Bool) : Host :=
  { dspState := .held, resetEpoch := 0, resetSeen := 0, bootHead := 0, resetHeld := false
    dspResetting := false, bootCount := 0, exec := none, porta := 0
    tx := { w := fun _ => 0, head := 0, tail := 0 }
    rx := { w := fun _ => 0, head := 0, tail := 0 }
    icr := 0, ivr := 0, txb := fun _ => 0, rxLast := 0, hrxLast := 0, answerArmed := false
    vblLocked := false, txVisOn := false, txVisHead := 0, wroteSinceRx := false, droppedTx := 0
    cvr := 0, hcr := 0, ipr := 0, bcr := 0, pbc := 0, pcc := 0, pbddr := 0, pcddr := 0, pbd := 0
    pcd := 0, sci := fun _ => 0, cra := 0, crb := 0, ssisr := ssiTde, ssiTx := 0, ssiRx := 0
    ssisrRead := false, htxDepth := htxDepth, txdeChip := txdeChip }

def powerOn (htxDepth : Nat) (txdeChip : Bool) (yrom : BitVec 8 -> Word) : HostPort :=
  { core := { dsp := dsp56kInit yrom, io := falconInit htxDepth txdeChip }
    access := { next := 0, left := 0, coproc := false, waited := false, value := 0, found := [] }
    waiting := false }

def runningPort : HostPort :=
  hostStep (hostStep (powerOn 4 true fun _ => 0) (.dspExec { boot := true, w := [] })) .powerState

/-!
## What reaches the link
-/

theorem hostIrqs_link (s : DspIrq × Host) : (hostIrqs s).2.toHostLink = s.2.toHostLink := by
  unfold hostIrqs
  dsimp only
  split
  · rfl
  · rfl

theorem ssiIrqs_host (s : DspIrq × Host) : (ssiIrqs s).2 = s.2 := by
  unfold ssiIrqs
  dsimp only
  split
  · rfl
  · rfl

theorem ssiSlot_link (slot : Nat) (word : Word) (s : DspIrq × Host) :
    (ssiSlot slot word s).2.2.toHostLink = s.2.toHostLink := by
  have hreceive : (ssiReceive slot word s.2).toHostLink = s.2.toHostLink := by
    unfold ssiReceive
    split
    · rfl
    · rfl
  unfold ssiSlot
  dsimp only
  rw [ssiIrqs_host, ← hreceive]
  unfold ssiTransmit
  dsimp only
  split
  · rfl
  · rfl

theorem regRead_link {reg : PeriphReg} (hreg : reg ≠ .host) (s : DspIrq × Host) :
    (regRead reg s).2.2.toHostLink = s.2.toHostLink := by
  unfold regRead
  cases reg with
  | host => exact absurd rfl hreg
  | ssi =>
      dsimp only
      rw [ssiIrqs_host]
  | _ => rfl

theorem regWrite_link {reg : PeriphReg} (hreg : reg ≠ .host) (v : Word) (s : DspIrq × Host) :
    (regWrite reg v s).2.toHostLink = s.2.toHostLink := by
  unfold regWrite
  cases reg with
  | host => exact absurd rfl hreg
  | hcr =>
      dsimp only
      rw [hostIrqs_link]
  | crb =>
      dsimp only
      rw [ssiIrqs_host]
  | ssi =>
      dsimp only
      rw [ssiIrqs_host]
  | ipr =>
      dsimp only
      rw [ssiIrqs_host, hostIrqs_link]
  | _ => rfl

theorem periphReg_host {a : BitVec 16} : periphReg a = some .host <-> a = 0xFFEB := by
  constructor
  · intro h
    unfold periphReg at h
    split at h
    case h_9 ha => exact BitVec.eq_of_toNat_eq ha
    case h_16 =>
      split at h
      · cases h
      · cases h
    all_goals cases h
  · rintro rfl
    rfl

def isHostPort (space : Space) (a : BitVec 16) : Bool := decide (space = .x ∧ a = 0xFFEB)

theorem periphRead_link {space : Space} {a : BitVec 16} (hport : space = .y ∨ a ≠ 0xFFEB)
    (s : DspIrq × Host) : (periphRead space a s).2.2.toHostLink = s.2.toHostLink := by
  unfold periphRead
  split
  · rfl
  · next hy =>
    split
    · next reg hreg =>
      apply regRead_link
      rintro rfl
      rcases hport with hspace | hne
      · exact hy hspace
      · exact hne (periphReg_host.mp hreg)
    · rfl

theorem periphWrite_link {space : Space} {a : BitVec 16} (hport : space = .y ∨ a ≠ 0xFFEB)
    (v : Word) (s : DspIrq × Host) :
    (periphWrite space a v s).2.2.toHostLink = s.2.toHostLink := by
  unfold periphWrite
  split
  · rfl
  · next hy =>
    split
    · next reg hreg =>
      apply regWrite_link
      rintro rfl
      rcases hport with hspace | hne
      · exact hy hspace
      · exact hne (periphReg_host.mp hreg)
    · rfl

theorem memRd_link (space : Space) (a : BitVec 16) (s : Core Host) :
    (memRd hostPeriph space a s).2.io.toHostLink =
      if isHostPort space a then hrxTake s.io.toHostLink else s.io.toHostLink := by
  cases hport : isHostPort space a with
  | true =>
      rcases of_decide_eq_true hport with ⟨rfl, rfl⟩
      rw [if_pos rfl]
      exact hostIrqs_link _
  | false =>
      rw [if_neg Bool.false_ne_true]
      unfold memRd
      cases space with
      | p => rfl
      | x =>
          have hne : a ≠ 0xFFEB := fun ha => of_decide_eq_false hport ⟨rfl, ha⟩
          have hspace : Space.x = .y ∨ a ≠ 0xFFEB := Or.inr hne
          dsimp only
          split
          · exact periphRead_link hspace (s.dsp.irq, s.io)
          · rfl
      | y =>
          dsimp only
          split
          · exact periphRead_link (Or.inl rfl : Space.y = .y ∨ a ≠ 0xFFEB) (s.dsp.irq, s.io)
          · rfl

theorem memWr_link (space : Space) (a : BitVec 16) (v : Word) (s : Core Host) :
    (memWr hostPeriph space a v s).2.io.toHostLink =
      if isHostPort space a then htxSend s.io.toHostLink v else s.io.toHostLink := by
  cases hport : isHostPort space a with
  | true =>
      rcases of_decide_eq_true hport with ⟨rfl, rfl⟩
      rw [if_pos rfl]
      exact hostIrqs_link _
  | false =>
      rw [if_neg Bool.false_ne_true]
      cases space with
      | p => rfl
      | x =>
          have hne : a ≠ 0xFFEB := fun ha => of_decide_eq_false hport ⟨rfl, ha⟩
          have hspace : Space.x = .y ∨ a ≠ 0xFFEB := Or.inr hne
          show ((if isPeriph a then onPeriph (hostPeriph.write .x a v)
            else modifyDsp fun d => d.xWrite a v) (countWrite s).2).2.io.toHostLink = _
          split
          · exact periphWrite_link hspace v (s.dsp.irq, s.io)
          · rfl
      | y =>
          show ((if isPeriph a then onPeriph (hostPeriph.write .y a v)
            else modifyDsp fun d => d.yWrite a v) (countWrite s).2).2.io.toHostLink = _
          split
          · exact periphWrite_link (Or.inl rfl : Space.y = .y ∨ a ≠ 0xFFEB) v (s.dsp.irq, s.io)
          · rfl

theorem execWords_keeps {Q : HostLink -> Prop} (hsend : forall f v, Q f -> Q (htxSend f v))
    (space : Space) (a : BitVec 16) (w : List (BitVec 32)) (s : Core Host)
    (h : Q s.io.toHostLink) : Q (execWords space a w s).io.toHostLink := by
  induction w generalizing a s with
  | nil => exact h
  | cons v rest ih =>
      apply ih
      rw [memWr_link]
      split
      · exact hsend _ _ h
      · exact h

theorem execBlocks_keeps {Q : HostLink -> Prop} (hsend : forall f v, Q f -> Q (htxSend f v))
    (fuel : Nat) (w : List (BitVec 32)) (s : Core Host) (h : Q s.io.toHostLink) :
    Q (execBlocks fuel w s).io.toHostLink := by
  induction fuel, w, s using execBlocks.induct with
  | case1 fuel t a c rest s space hspace hshort =>
      unfold execBlocks
      rw [hspace]
      dsimp only
      rw [if_pos hshort]
      exact h
  | case2 fuel t a c rest s space hspace hlong ih =>
      unfold execBlocks
      rw [hspace]
      dsimp only
      rw [if_neg hlong]
      exact ih (execWords_keeps hsend space _ _ s h)
  | case3 fuel t a c rest s hspace =>
      unfold execBlocks
      rw [hspace]
      exact h
  | case4 fuel w s hother =>
      unfold execBlocks
      split
      · exact absurd rfl (hother _ _ _ _ _ rfl)
      · exact h

theorem dspExecLoad_keeps {Q : HostLink -> Prop} (hsend : forall f v, Q f -> Q (htxSend f v))
    (hrun : forall f n, Q f -> Q { f with bootCount := n, dspState := .run }) (x : DspExec)
    (s : Core Host) (h : Q s.io.toHostLink) : Q (dspExecLoad x s).io.toHostLink := by
  unfold dspExecLoad
  dsimp only
  split
  · exact hrun s.io.toHostLink _ h
  · have hblocks := execBlocks_keeps hsend x.w.length x.w
      { s with dsp := { s.dsp with omr := 0x0002 } } h
    have hready := hrun _ 512 hblocks
    exact hready

end Falcon
end PistormAtari
