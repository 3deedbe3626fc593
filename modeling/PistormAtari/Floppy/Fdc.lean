import PistormAtari.Foundation.FileCells
import PistormAtari.Floppy.Drive
import PistormAtari.Acsi.Handshake

/-!
# The emulated floppy controller

The WD1772 and the DMA port of `atari_fdd.c`, with the PSG port that selects the
drive.  The port is shared with the ACSI targets, which move their data through
the same address counter.
-/

namespace PistormAtari
namespace Floppy

open Foundation
open Config
open Acsi (Byte Machine)

variable {φ : Type _}

/-- An entry of the drive table with its head, its motor and what `last_wp` keeps
for it.  `writable` says if the open image was opened for writing. -/
structure DriveUnit where
  drive : Drive
  currentTrack : Nat
  writable : Bool
  motorTicks : Nat
  lastWp : Bool

/-- `fdc_controller_t` without the counter and the status of the DMA.  `touched` is a
ghost: the indices with which the drive table was accessed. -/
structure Fdc where
  status : Byte
  command : Byte
  trackReg : Byte
  sectorReg : Byte
  dataReg : Byte
  dmaMode : BitVec 16
  dmaSectorCount : BitVec 16
  dmaBaseAddr : BitVec 32
  psgPorta : Byte
  psgRegSel : Byte
  selectedDrive : Int
  selectedSide : Nat
  irqPending : Bool
  irqReady : Bool
  driveA : DriveUnit
  driveB : DriveUnit
  touched : List Int

/-- Everything behind the port.  The machine is the one that the ACSI targets use. -/
structure Port (φ : Type _) where
  fdc : Fdc
  acsi : Acsi.State φ
  hdcActive : Bool

/-- The surroundings: those of the ACSI targets, if the floppy is emulated, what
stands in memory around the drive table, and what the real bus answers. -/
structure PortEnv (φ : Type _) where
  acsi : Acsi.Host φ
  fddEnabled : Bool
  outside : Int -> DriveUnit
  bus : Nat -> Nat -> BitVec 32

/-!
## Bits and constants
-/

def dmaModeA : BitVec 16 := 0x0006
def dmaModeFdcHdc : BitVec 16 := 0x0008
def dmaModeScreg : BitVec 16 := 0x0010
def dmaModeRw : BitVec 16 := 0x0100

def dmaStatusOk : BitVec 16 := 1
def dmaStatusSczero : BitVec 16 := 2

def psgSideSel : Byte := 0x01
def psgDriveASel : Byte := 0x02
def psgDriveBSel : Byte := 0x04

def fdcStatusBusy : Byte := 0x01
def fdcStatusIndex : Byte := 0x02
def fdcStatusTrack0 : Byte := 0x04
def fdcStatusLostdata : Byte := 0x04
def fdcStatusCrcerr : Byte := 0x08
def fdcStatusSeekerr : Byte := 0x10
def fdcStatusRecnf : Byte := 0x10
def fdcStatusWrtprot : Byte := 0x40
def fdcStatusMotoron : Byte := 0x80

/-- `FDD_MAX_DRIVES`, `FDD_SECTOR_SIZE`, `FDD_TRACKS_80` and `MOTOR_OFF_TICKS`. -/
def maxDrives : Int := 2
def sectorSize : Nat := 512
def tracks80 : Nat := 80
def motorOffTicks : Nat := 90

/-!
## The drive table
-/

def Fdc.unit (outside : Int -> DriveUnit) (f : Fdc) (i : Int) : DriveUnit :=
  if i = 0 then f.driveA else if i = 1 then f.driveB else outside i

def Fdc.setUnit (f : Fdc) (i : Int) (u : DriveUnit) : Fdc :=
  if i = 0 then { f with driveA := u } else if i = 1 then { f with driveB := u } else f

def Fdc.touch (f : Fdc) (i : Int) : Fdc :=
  { f with touched := i :: f.touched }

/-- `i < 0 || i >= FDD_MAX_DRIVES`. -/
def noDrive (i : Int) : Prop := i < 0 ∨ i ≥ maxDrives

instance (i : Int) : Decidable (noDrive i) :=
  inferInstanceAs (Decidable (_ ∨ _))

/-!
## Image I/O
-/

def sidesOf (d : Drive) : Nat :=
  if d.numSides = 0 then 2 else d.numSides

def sectorOffset (d : Drive) (track side sector : Nat) : Nat :=
  let bytesPerTrack := sectorSize * d.sectorsPerTrack
  bytesPerTrack * side + bytesPerTrack * sidesOf d * track + sectorSize * (sector - 1)

def outOfRange (d : Drive) (track side sector count : Nat) : Prop :=
  track ≥ d.numTracks ∨ side ≥ sidesOf d ∨ sector < 1 ∨ sector + count - 1 > d.sectorsPerTrack

instance (d : Drive) (track side sector count : Nat) :
    Decidable (outOfRange d track side sector count) :=
  inferInstanceAs (Decidable (_ ∨ _))

def imageRead (u : DriveUnit) (track side sector count : Nat) : Option (List UInt8) :=
  match u.drive.fd with
  | Option.none => Option.none
  | some img =>
      if u.drive.diskInserted = false then Option.none
      else if outOfRange u.drive track side sector count then Option.none
      else
        let buf := readCells img (sectorOffset u.drive track side sector) (count * sectorSize)
        if buf.length = count * sectorSize then some buf else Option.none

/-- `fdd_image_write`.  A file that was opened for reading cannot be written. -/
def imageWrite (u : DriveUnit) (track side sector count : Nat) (buf : List UInt8) :
    Option DriveUnit :=
  match u.drive.fd with
  | Option.none => Option.none
  | some img =>
      if u.drive.diskInserted = false then Option.none
      else if u.drive.writeProtected then Option.none
      else if outOfRange u.drive track side sector count then Option.none
      else if u.writable = false then Option.none
      else
        let img := writeCells 0 img (sectorOffset u.drive track side sector) buf
        some { u with drive := { u.drive with fd := some img } }

/-!
## Interrupt and status
-/

def Fdc.raiseIrqImmediate (f : Fdc) : Fdc := { f with irqPending := true, irqReady := true }

def Fdc.raiseIrqLatched (f : Fdc) : Fdc := { f with irqPending := true, irqReady := false }

def Fdc.clearIrq (f : Fdc) : Fdc := { f with irqPending := false, irqReady := false }

def Fdc.setStatus (f : Fdc) (bits : Byte) : Fdc := { f with status := f.status ||| bits }

def Fdc.clearStatus (f : Fdc) (bits : Byte) : Fdc := { f with status := f.status &&& ~~~bits }

def Port.machine (p : Port φ) : Machine := p.acsi.machine

def Port.setMachine (p : Port φ) (m : Machine) : Port φ :=
  { p with acsi := { p.acsi with machine := m } }

def Port.setDmaStatus (p : Port φ) (s : BitVec 16) : Port φ :=
  p.setMachine { p.machine with dmaStatus := s }

def Port.failCommand (p : Port φ) (bits : Byte) : Port φ :=
  { p with fdc := ((p.fdc.setStatus bits).clearStatus fdcStatusBusy).raiseIrqLatched }.setDmaStatus 0

def Port.endTransfer (p : Port φ) : Port φ :=
  let f := { p.fdc with dmaSectorCount := 0 }
  { p with fdc := (f.clearStatus fdcStatusBusy).raiseIrqLatched }.setDmaStatus
    (dmaStatusOk ||| dmaStatusSczero)

/-- `dma_copy_from_ram` into a fresh buffer, which keeps what it holds when the window
is not in ST-RAM. -/
def copyFromRam (env : PortEnv φ) (m : Machine) (n : Nat) : List Byte :=
  let addr := m.dmaAddr.toNat
  if addr < env.acsi.stramTop.toNat ∧ n ≤ env.acsi.stramTop.toNat - addr then
    readBlock m.ram addr n
  else readBlock env.acsi.stack 0 n

/-- `dma_hi_mask`: a machine with up to 4 MB has a counter of 22 bits. -/
def dmaHiMask (env : PortEnv φ) : Byte :=
  if env.acsi.stramTop > 0x400000 then 0xFF else 0x3F

/-!
## Commands
-/

def moveHead (cmd : Byte) (maxTracks : Nat) (f : Fdc) (u : DriveUnit) : Fdc × DriveUnit :=
  let top4 := cmd &&& 0xF0
  let top3 := cmd &&& 0xE0
  if top4 = 0x00 then ({ f with trackReg := 0 }, { u with currentTrack := 0 })
  else if top4 = 0x10 then
    let target := f.dataReg.toNat
    if target ≥ maxTracks then (f.setStatus fdcStatusSeekerr, u)
    else ({ f with trackReg := BitVec.ofNat 8 target }, { u with currentTrack := target })
  else if top3 = 0x20 then (f, u)
  else if top3 = 0x40 then
    let u := if u.currentTrack + 1 < maxTracks then { u with currentTrack := u.currentTrack + 1 }
      else u
    (if cmd &&& 0x10 ≠ 0 then { f with trackReg := BitVec.ofNat 8 u.currentTrack } else f, u)
  else if top3 = 0x60 then
    let u := { u with currentTrack := u.currentTrack - 1 }
    (if cmd &&& 0x10 ≠ 0 then { f with trackReg := BitVec.ofNat 8 u.currentTrack } else f, u)
  else (f, u)

def fdcDoType1 (env : PortEnv φ) (cmd : Byte) (f : Fdc) : Fdc :=
  let drv := f.selectedDrive
  if noDrive drv then
    ((f.clearStatus fdcStatusBusy).setStatus fdcStatusSeekerr).raiseIrqImmediate
  else
    let f := f.touch drv
    let u := f.unit env.outside drv
    let maxTracks := if u.drive.diskInserted then u.drive.numTracks else tracks80
    let moved := moveHead cmd maxTracks f u
    let f := moved.1.setUnit drv moved.2
    let f :=
      if moved.2.currentTrack = 0 then f.setStatus fdcStatusTrack0
      else f.clearStatus fdcStatusTrack0
    (f.clearStatus fdcStatusBusy).raiseIrqImmediate

def Fdc.count (f : Fdc) : Nat :=
  if f.dmaSectorCount = 0 then 1 else f.dmaSectorCount.toNat

/-- `fdc_do_read_sectors`.  The track is read before the index is checked. -/
def fdcDoReadSectors (env : PortEnv φ) (p : Port φ) : Port φ :=
  let p := p.setDmaStatus dmaStatusOk
  let drv := p.fdc.selectedDrive
  let p := { p with fdc := p.fdc.touch drv }
  let u := p.fdc.unit env.outside drv
  let side := p.fdc.selectedSide
  let sector := p.fdc.sectorReg.toNat
  let count := p.fdc.count
  if noDrive drv ∨ u.drive.diskInserted = false then p.failCommand fdcStatusRecnf
  else
    match imageRead u u.currentTrack side sector count with
    | Option.none => p.failCommand fdcStatusRecnf
    | some buf =>
        (p.setMachine (p.machine.copyToRam env.acsi (buf.map UInt8.toBitVec))).endTransfer

/-- `fdc_do_write_sectors`.  The track is read before the index is checked. -/
def fdcDoWriteSectors (env : PortEnv φ) (p : Port φ) : Port φ :=
  let p := p.setDmaStatus dmaStatusOk
  let drv := p.fdc.selectedDrive
  let p := { p with fdc := p.fdc.touch drv }
  let u := p.fdc.unit env.outside drv
  let side := p.fdc.selectedSide
  let sector := p.fdc.sectorReg.toNat
  let count := p.fdc.count
  if noDrive drv ∨ u.drive.diskInserted = false then p.failCommand fdcStatusRecnf
  else if u.drive.writeProtected then p.failCommand fdcStatusWrtprot
  else
    let buf := (copyFromRam env p.machine (count * sectorSize)).map UInt8.ofBitVec
    match imageWrite u u.currentTrack side sector count buf with
    | Option.none => p.failCommand fdcStatusRecnf
    | some u => { p with fdc := p.fdc.setUnit drv u }.endTransfer

def fdcDoReadAddress (env : PortEnv φ) (p : Port φ) : Port φ :=
  let drv := p.fdc.selectedDrive
  if noDrive drv then
    { p with
      fdc := ((p.fdc.setStatus fdcStatusRecnf).clearStatus fdcStatusBusy).raiseIrqImmediate }
  else
    let p := { p with fdc := p.fdc.touch drv }
    let u := p.fdc.unit env.outside drv
    if u.drive.diskInserted = false then
      { p with
        fdc := ((p.fdc.setStatus fdcStatusRecnf).clearStatus fdcStatusBusy).raiseIrqImmediate }
    else
      let track := BitVec.ofNat 8 u.currentTrack
      let side := BitVec.ofNat 8 p.fdc.selectedSide
      let sector := if p.fdc.sectorReg = 0 then 1 else p.fdc.sectorReg
      let p := p.setMachine (p.machine.copyToRam env.acsi [track, side, sector, 2, 0, 0])
      let f := { p.fdc with trackReg := track, sectorReg := sector }
      { p with fdc := (f.clearStatus fdcStatusBusy).raiseIrqImmediate }

/-- The end of Read Track and Write Track, which are not implemented. -/
def Fdc.notImplemented (f : Fdc) : Fdc :=
  ((f.setStatus fdcStatusRecnf).clearStatus fdcStatusBusy).raiseIrqImmediate

/-- The classes of commands, in the order in which they are told apart. -/
inductive CommandClass
  | forceInterrupt | type1 | readSectors | writeSectors | readAddress | readTrack | writeTrack
deriving DecidableEq, Repr

def commandClass (cmd : Byte) : CommandClass :=
  if cmd &&& 0xF0 = 0xD0 then .forceInterrupt
  else if cmd &&& 0xF0 = 0x00 ∨ cmd &&& 0xF0 = 0x10 ∨ cmd &&& 0xE0 = 0x20 ∨
      cmd &&& 0xE0 = 0x40 ∨ cmd &&& 0xE0 = 0x60 then .type1
  else if cmd &&& 0xE0 = 0x80 then .readSectors
  else if cmd &&& 0xE0 = 0xA0 then .writeSectors
  else if cmd &&& 0xF0 = 0xC0 then .readAddress
  else if cmd &&& 0xF0 = 0xE0 then .readTrack
  else .writeTrack

def Fdc.beginCommand (cmd : Byte) (f : Fdc) : Fdc :=
  let f := { f with command := cmd }
  let f := (f.setStatus fdcStatusBusy).clearStatus
    (fdcStatusIndex ||| fdcStatusCrcerr ||| fdcStatusSeekerr ||| fdcStatusWrtprot |||
      fdcStatusLostdata)
  f.clearIrq

def fdcExecCommand (env : PortEnv φ) (cmd : Byte) (p : Port φ) : Port φ :=
  let p := { p with fdc := p.fdc.beginCommand cmd }
  match commandClass cmd with
  | .forceInterrupt =>
      let f := p.fdc.clearStatus fdcStatusBusy
      { p with fdc := if cmd &&& 0x08 ≠ 0 then f.raiseIrqImmediate else f }
  | .type1 => { p with fdc := fdcDoType1 env cmd p.fdc }
  | .readSectors => fdcDoReadSectors env p
  | .writeSectors => fdcDoWriteSectors env p
  | .readAddress => fdcDoReadAddress env p
  | .readTrack => { p with fdc := p.fdc.notImplemented }
  | .writeTrack => { p with fdc := p.fdc.notImplemented }

/-!
## Registers
-/

/-- The status that the guest reads.  After a type I command its protect bit is the
drive's, inverted once after the medium was changed. -/
def fdcReadStatus (env : PortEnv φ) (f : Fdc) : Byte × Fdc :=
  if f.command &&& 0x80 = 0 ∧ ¬ noDrive f.selectedDrive then
    let f := f.touch f.selectedDrive
    let u := f.unit env.outside f.selectedDrive
    let val :=
      if u.drive.diskInserted = false ∨ u.drive.writeProtected then f.status ||| fdcStatusWrtprot
      else f.status &&& ~~~fdcStatusWrtprot
    if u.drive.mediaChanged then
      let u := { u with drive := { u.drive with mediaChanged := false } }
      (val ^^^ fdcStatusWrtprot, (f.setUnit f.selectedDrive u).clearIrq)
    else (val, f.clearIrq)
  else (f.status, f.clearIrq)

/-- `(fdc.dma_mode >> 1) & 0x03`. -/
def Fdc.regIndex (f : Fdc) : Nat :=
  ((f.dmaMode >>> 1) &&& 0x03).toNat

def Fdc.screg (f : Fdc) : Prop := f.dmaMode &&& dmaModeScreg ≠ 0

instance (f : Fdc) : Decidable f.screg := inferInstanceAs (Decidable (_ ≠ _))

def fdcReadAddr (env : PortEnv φ) (f : Fdc) : BitVec 32 × Fdc :=
  if f.screg then (f.dmaSectorCount.setWidth 32, f)
  else
    match f.regIndex with
    | 0 => ((fdcReadStatus env f).1.setWidth 32, (fdcReadStatus env f).2)
    | 1 => (f.trackReg.setWidth 32, f)
    | 2 => (f.sectorReg.setWidth 32, f)
    | _ => (f.dataReg.setWidth 32, f)

def Fdc.startMotor (outside : Int -> DriveUnit) (f : Fdc) : Fdc :=
  if noDrive f.selectedDrive then f
  else
    let u := { f.unit outside f.selectedDrive with motorTicks := motorOffTicks }
    (f.setUnit f.selectedDrive u).setStatus fdcStatusMotoron

/-- `fdc_write_addr`.  A sector count also loads the counter from the base again. -/
def fdcWriteAddr (env : PortEnv φ) (val : BitVec 32) (p : Port φ) : Port φ :=
  let v := val.setWidth 8
  if p.fdc.screg then
    { p with fdc := { p.fdc with dmaSectorCount := v.setWidth 16 } }.setMachine
      { p.machine with dmaAddr := p.fdc.dmaBaseAddr }
  else
    match p.fdc.regIndex with
    | 0 => fdcExecCommand env v { p with fdc := p.fdc.startMotor env.outside }
    | 1 => { p with fdc := { p.fdc with trackReg := v } }
    | 2 => { p with fdc := { p.fdc with sectorReg := v } }
    | _ => { p with fdc := { p.fdc with dataReg := v } }

def fdcDataReg : Nat := 0xFF8604
def dmaModeReg : Nat := 0xFF8606
def dmaBaseHigh : Nat := 0xFF8609
def dmaBaseMid : Nat := 0xFF860B
def dmaBaseLow : Nat := 0xFF860D
def psgRegSelect : Nat := 0xFF8800
def psgRegWrite : Nat := 0xFF8802
def psgPortAReg : Byte := 14

def dmaReadAddr (env : PortEnv φ) (p : Port φ) (addr : Nat) : BitVec 32 :=
  let a := p.machine.dmaAddr
  if addr = dmaModeReg then p.machine.dmaStatus.setWidth 32
  else if addr = dmaBaseHigh then (a >>> 16) &&& (dmaHiMask env).setWidth 32
  else if addr = dmaBaseMid then (a >>> 8) &&& 0xFF
  else if addr = dmaBaseLow then a &&& 0xFF
  else 0xFF

/-- The counter and the programmed copy, with the same byte of both replaced. -/
def Port.loadBase (p : Port φ) (load : BitVec 32 -> BitVec 32) : Port φ :=
  { p with fdc := { p.fdc with dmaBaseAddr := load p.fdc.dmaBaseAddr } }.setMachine
    { p.machine with dmaAddr := load p.machine.dmaAddr }

def dmaWriteAddr (env : PortEnv φ) (addr : Nat) (val : BitVec 32) (p : Port φ) : Port φ :=
  let v16 := val.setWidth 16
  let v8 := val.setWidth 8
  if addr = dmaModeReg then
    let p :=
      if (p.fdc.dmaMode ^^^ v16) &&& dmaModeRw ≠ 0 then { p with acsi := Acsi.dmaFifoReset p.acsi }
      else p
    { p with fdc := { p.fdc with dmaMode := v16 } }
  else if addr = dmaBaseHigh then
    p.loadBase (fun a => (a &&& 0x00FFFF) ||| ((v8 &&& dmaHiMask env).setWidth 32 <<< 16))
  else if addr = dmaBaseMid then p.loadBase (fun a => (a &&& 0xFF00FF) ||| (v8.setWidth 32 <<< 8))
  else if addr = dmaBaseLow then p.loadBase (fun a => (a &&& 0xFFFF00) ||| v8.setWidth 32)
  else p

def Fdc.decodeDriveSide (f : Fdc) : Fdc :=
  { f with
    selectedSide := if f.psgPorta &&& psgSideSel ≠ 0 then 0 else 1
    selectedDrive :=
      if f.psgPorta &&& psgDriveASel = 0 then 0
      else if f.psgPorta &&& psgDriveBSel = 0 then 1
      else -1 }

def psgWriteAddr (addr : Nat) (val : BitVec 32) (size : Nat) (f : Fdc) : Fdc :=
  let v : Byte := if size = 2 then (val >>> 8).setWidth 8 else val.setWidth 8
  if addr = psgRegSelect then { f with psgRegSel := v &&& 0x0F }
  else if addr = psgRegWrite ∧ f.psgRegSel = psgPortAReg then
    let f := (f.touch 0).touch 1
    { f with psgPorta := v }.decodeDriveSide
  else f

def Fdc.servedBits (f : Fdc) : Byte :=
  (if f.driveA.drive.diskInserted then psgDriveASel else 0) |||
    (if f.driveB.drive.diskInserted then psgDriveBSel else 0)

def psgReadAddr (env : PortEnv φ) (addr size : Nat) (f : Fdc) : BitVec 32 × Fdc :=
  let real := env.bus addr size
  let m := f.servedBits
  let f := (f.touch 0).touch 1
  if addr = psgRegSelect ∧ f.psgRegSel = psgPortAReg ∧ m ≠ 0 then
    let hi : Byte := if size = 2 then (real >>> 8).setWidth 8 else real.setWidth 8
    let hi := (hi &&& ~~~m) ||| (f.psgPorta &&& m)
    (if size = 2 then (hi.setWidth 32 <<< 8) ||| (real &&& 0xFF) else hi.setWidth 32, f)
  else (real, f)

/-!
## Guest accesses

A byte or a word.  A long access is two word accesses, the upper word first.
-/

def routed (env : PortEnv φ) (addr : Nat) : Prop :=
  (0xFF8600 ≤ addr ∧ addr ≤ 0xFF860F) ∨
    (env.fddEnabled = true ∧ 0xFF8800 ≤ addr ∧ addr ≤ 0xFF8803)

instance (env : PortEnv φ) (addr : Nat) : Decidable (routed env addr) :=
  inferInstanceAs (Decidable (_ ∨ _))

def Fdc.hdcSelected (f : Fdc) : Prop := f.dmaMode &&& dmaModeFdcHdc ≠ 0

instance (f : Fdc) : Decidable f.hdcSelected := inferInstanceAs (Decidable (_ ≠ _))

/-- The port with another controller, as reads of its registers leave it. -/
def Port.setFdc (p : Port φ) (r : BitVec 32 × Fdc) : BitVec 32 × Port φ :=
  (r.1, { p with fdc := r.2 })

def fddIoRead (env : PortEnv φ) (addr size : Nat) (p : Port φ) : BitVec 32 × Port φ :=
  if 0xFF8600 ≤ addr ∧ addr ≤ 0xFF860F then
    if addr = fdcDataReg then
      if p.fdc.screg then
        if p.acsi.owns then (p.acsi.residual.setWidth 32, p)
        else if p.hdcActive then (env.bus addr size, p)
        else p.setFdc (fdcReadAddr env p.fdc)
      else if p.fdc.hdcSelected then
        if p.acsi.owns then
          ((Acsi.statusRead p.acsi).1.setWidth 32, { p with acsi := (Acsi.statusRead p.acsi).2 })
        else (env.bus addr size, p)
      else if env.fddEnabled then p.setFdc (fdcReadAddr env p.fdc)
      else (env.bus addr size, p)
    else if addr = dmaModeReg ∨ addr = dmaBaseHigh ∨ addr = dmaBaseMid ∨ addr = dmaBaseLow then
      if p.hdcActive = true ∧ p.acsi.owns = false then (env.bus addr size, p)
      else (dmaReadAddr env p addr, p)
    else (dmaReadAddr env p addr, p)
  else if 0xFF8800 ≤ addr ∧ addr ≤ 0xFF8803 then p.setFdc (psgReadAddr env addr size p.fdc)
  else (0xFF, p)

def acsiByte (env : PortEnv φ) (val : BitVec 32) (p : Port φ) : Port φ :=
  let first := decide (p.fdc.dmaMode &&& dmaModeA = 0)
  let r := Acsi.cmdByte env.acsi (val.setWidth 8) first p.acsi
  { p with acsi := r.2, hdcActive := if r.1 then p.hdcActive else true }

def fddIoWrite (env : PortEnv φ) (addr : Nat) (val : BitVec 32) (size : Nat) (p : Port φ) :
    Port φ :=
  if 0xFF8600 ≤ addr ∧ addr ≤ 0xFF860F then
    if addr = dmaModeReg ∨ addr = dmaBaseHigh ∨ addr = dmaBaseMid ∨ addr = dmaBaseLow then
      dmaWriteAddr env addr val p
    else if addr = fdcDataReg then
      if p.fdc.screg then fdcWriteAddr env val p
      else if p.fdc.hdcSelected then acsiByte env val p
      else if env.fddEnabled = false then
        { p with acsi := Acsi.release p.acsi, hdcActive := true }
      else fdcWriteAddr env val { p with acsi := Acsi.release p.acsi, hdcActive := false }
    else p
  else if 0xFF8800 ≤ addr ∧ addr ≤ 0xFF8803 then
    { p with fdc := psgWriteAddr addr val size p.fdc }
  else p

def fddGpip (env : PortEnv φ) (p : Port φ) : Port φ :=
  if p.acsi.irq then p
  else if p.fdc.selectedDrive ≥ 0 then
    let f := p.fdc.touch p.fdc.selectedDrive
    if (f.unit env.outside f.selectedDrive).drive.diskInserted ∧ f.irqPending then
      { p with fdc := { f with irqReady := true } }
    else { p with fdc := f }
  else p

/-!
## Drives from the host's side
-/

/-- `motor_ticks` of one drive in `fdd_vbl`, and if the motor stops now. -/
def DriveUnit.tick (u : DriveUnit) : DriveUnit × Bool :=
  ({ u with motorTicks := u.motorTicks - 1 }, decide (u.motorTicks = 1))

def fddVbl (f : Fdc) : Fdc :=
  let stopped := (f.selectedDrive = 0 ∧ f.driveA.tick.2 = true) ∨
    (f.selectedDrive = 1 ∧ f.driveB.tick.2 = true)
  let f := { f with driveA := f.driveA.tick.1, driveB := f.driveB.tick.1 }
  if stopped then f.clearStatus fdcStatusMotoron else f

/-- If the image that `fdd_insert_disk` opens can be written.  An archive is decoded
into a file of its own. -/
def opensWritable (host : HostFiles) (path : Text) (wp : Bool) : Bool :=
  match msaOpenDecoded host path with
  | .decoded _ => true
  | _ => !wp

def DriveUnit.insert (host : HostFiles) (path : Text) (wp : Bool) (u : DriveUnit) :
    Bool × DriveUnit :=
  let r := insertDisk host path wp u.drive
  (r.1, { u with
    drive := r.2
    writable := if r.1 then opensWritable host path wp else u.writable })

def DriveUnit.eject (u : DriveUnit) : DriveUnit :=
  { u with drive := ejectDisk u.drive }

def DriveUnit.toggle (host : HostFiles) (u : DriveUnit) : Bool × DriveUnit :=
  if u.drive.diskInserted then
    (true, { u with lastWp := u.drive.writeProtected }.eject)
  else if u.drive.imagePath.chars = [] then (true, u)
  else u.insert host u.drive.imagePath.chars u.lastWp

/-- An operation on one drive of the table; an index outside is refused. -/
def Fdc.onDrive (outside : Int -> DriveUnit) (f : Fdc) (i : Int) (op : DriveUnit -> DriveUnit) :
    Fdc :=
  if noDrive i then f else (f.touch i).setUnit i (op (f.unit outside i))

inductive PortOp
  | read (addr size : Nat)
  | write (addr : Nat) (val : BitVec 32) (size : Nat)
  | gpip
  | vbl
  | ram (ram : Nat -> Byte)
  | insert (host : HostFiles) (drive : Int) (path : Text) (wp : Bool)
  | eject (drive : Int)
  | toggle (host : HostFiles) (drive : Int)
  | setWriteProtect (drive : Int) (wp : Bool)
  | pulse (drive : Int)

def portStep (env : PortEnv φ) (p : Port φ) : PortOp -> Port φ
  | .read addr size => if routed env addr then (fddIoRead env addr size p).2 else p
  | .write addr val size => if routed env addr then fddIoWrite env addr val size p else p
  | .gpip => fddGpip env p
  | .vbl => { p with fdc := fddVbl p.fdc }
  | .ram ram => p.setMachine { p.machine with ram := ram }
  | .insert host i path wp =>
      { p with fdc := p.fdc.onDrive env.outside i (fun u => (u.insert host path wp).2) }
  | .eject i => { p with fdc := p.fdc.onDrive env.outside i DriveUnit.eject }
  | .toggle host i =>
      { p with fdc := p.fdc.onDrive env.outside i (fun u => (u.toggle host).2) }
  | .setWriteProtect i wp =>
      { p with
        fdc := p.fdc.onDrive env.outside i
          (fun u => { u with drive := Floppy.setWriteProtect wp u.drive }) }
  | .pulse i =>
      { p with
        fdc := p.fdc.onDrive env.outside i (fun u => { u with drive := pulseMedia u.drive }) }

def DriveUnit.empty : DriveUnit where
  drive := { numSides := 2 }
  currentTrack := 0
  writable := false
  motorTicks := 0
  lastWp := false

def Fdc.init : Fdc where
  status := 0
  command := 0
  trackReg := 0
  sectorReg := 1
  dataReg := 0
  dmaMode := 0
  dmaSectorCount := 0
  dmaBaseAddr := 0
  psgPorta := 0xFF
  psgRegSel := 0
  selectedDrive := -1
  selectedSide := 0
  irqPending := false
  irqReady := false
  driveA := .empty
  driveB := .empty
  touched := []

/-- The port at start-up, with any targets attached and any contents of memory. -/
def Port.init (tgt : Acsi.Targets φ) (m : Machine) : Port φ where
  fdc := .init
  acsi := Acsi.boot tgt { m with dmaAddr := 0, dmaStatus := dmaStatusOk }
  hdcActive := false

/-!
## The sector commands
-/

def Port.lookUpTrack (p : Port φ) : Port φ :=
  { p.setDmaStatus dmaStatusOk with fdc := p.fdc.touch p.fdc.selectedDrive }

def Port.selected (env : PortEnv φ) (p : Port φ) : DriveUnit :=
  p.fdc.unit env.outside p.fdc.selectedDrive

theorem fdcDoReadSectors_eq (env : PortEnv φ) (p : Port φ) :
    fdcDoReadSectors env p =
      if noDrive p.fdc.selectedDrive ∨ (p.selected env).drive.diskInserted = false then
        p.lookUpTrack.failCommand fdcStatusRecnf
      else
        match imageRead (p.selected env) (p.selected env).currentTrack p.fdc.selectedSide
            p.fdc.sectorReg.toNat p.fdc.count with
        | Option.none => p.lookUpTrack.failCommand fdcStatusRecnf
        | some buf =>
            (p.lookUpTrack.setMachine (p.lookUpTrack.machine.copyToRam env.acsi
              (buf.map UInt8.toBitVec))).endTransfer := rfl

def Port.writeBuffer (env : PortEnv φ) (p : Port φ) : List UInt8 :=
  (copyFromRam env p.machine (p.fdc.count * sectorSize)).map UInt8.ofBitVec

theorem fdcDoWriteSectors_eq (env : PortEnv φ) (p : Port φ) :
    fdcDoWriteSectors env p =
      if noDrive p.fdc.selectedDrive ∨ (p.selected env).drive.diskInserted = false then
        p.lookUpTrack.failCommand fdcStatusRecnf
      else if (p.selected env).drive.writeProtected then
        p.lookUpTrack.failCommand fdcStatusWrtprot
      else
        match imageWrite (p.selected env) (p.selected env).currentTrack p.fdc.selectedSide
            p.fdc.sectorReg.toNat p.fdc.count (p.writeBuffer env) with
        | Option.none => p.lookUpTrack.failCommand fdcStatusRecnf
        | some u =>
            { p.lookUpTrack with
              fdc := p.lookUpTrack.fdc.setUnit p.fdc.selectedDrive u }.endTransfer := rfl

end Floppy
end PistormAtari
