import PistormAtari.Foundation.OpenFile
import PistormAtari.Foundation.Run

/-!
# The IDE controller

The task file, the command functions and the data port of `idedriver.c`.  Image
files are regular files opened for reading and writing, a different one for each
slot: `lseek` to an offset always succeeds, and each `read` or `write` of a sector
either works or fails with an error number, as the operation says.
-/

namespace PistormAtari
namespace Ide

open Foundation

abbrev Byte := BitVec 8
abbrev Word := BitVec 16

/-!
## Registers and drives
-/

inductive DriveState where
  | idle
  | cmd
  | dataIn
  | dataOut
deriving DecidableEq, Repr

def DEVH_HEAD : Byte := 15
def DEVH_DEV : Byte := 16
def DEVH_LBA : Byte := 64

def ERR_AMNF : Byte := 1
def ERR_ABRT : Byte := 4
def ERR_IDNF : Byte := 16
def ERR_UNC : Byte := 64

def ST_ERR : Byte := 1
def ST_DRQ : Byte := 8
def ST_DSC : Byte := 16
def ST_DRDY : Byte := 64
def ST_BSY : Byte := 128

def DCL_SRST : Byte := 4

structure Taskfile where
  data : Word
  error : Byte
  feature : Byte
  count : Byte
  status : Byte
  command : Byte
  devctrl : Byte
deriving DecidableEq, Repr

/-- A drive; `dptr` is an index into the sector buffer `data`, and `offset` the
byte offset of the next sector in the image file. -/
structure Drive where
  taskfile : Taskfile
  present : Bool
  intrq : Bool
  failed : Bool
  lba : Bool
  eightbit : Bool
  cylinders : Word
  heads : Byte
  sectors : Byte
  data : List Byte
  identify : Vector Word 256
  dptr : Nat
  state : DriveState
  fd : OpenFile Byte
  offset : Nat
  length : Nat
  headerPresent : Bool
  imgSwapped : Bool
  twisted : Bool

structure Controller where
  drive : Fin 2 -> Drive
  selected : Fin 2
  lba1 : Byte
  lba2 : Byte
  lba3 : Byte
  lba4 : Byte

inductive HostIo where
  | works
  | fails (eio : Bool)
deriving DecidableEq, Repr

def Drive.setStatus (d : Drive) (clear set : Byte) : Drive :=
  { d with taskfile := { d.taskfile with status := (d.taskfile.status &&& ~~~clear) ||| set } }

def Drive.setError (d : Drive) (error : Byte) : Drive :=
  { d with taskfile := { d.taskfile with error := error } }

def Controller.put (c : Controller) (i : Fin 2) (d : Drive) : Controller :=
  { c with drive := Function.update c.drive i d }

@[simp] theorem put_drive_self (c : Controller) (i : Fin 2) (d : Drive) :
    (c.put i d).drive i = d := by
  unfold Controller.put
  exact Function.update_self i d c.drive

theorem put_drive_of_ne {c : Controller} {i j : Fin 2} (h : j ≠ i) (d : Drive) :
    (c.put i d).drive j = c.drive j := by
  unfold Controller.put
  exact Function.update_of_ne h d c.drive

/-!
## Byte order

`IDE_NATIVE_BYTEORDER` is 0 in the build; `falconTos` is the machine's
`emulator_falcon_tos`.
-/

def IDE_NATIVE_BYTEORDER : Bool := false

def ideNativeOrder (falconTos : Bool) (d : Drive) : Bool :=
  IDE_NATIVE_BYTEORDER || !d.twisted || falconTos

def diskSwap512 : List Byte -> List Byte
  | a :: b :: rest => b :: a :: diskSwap512 rest
  | rest => rest

/-!
## Disk translation
-/

/-- The byte offset a request addresses; the sector number of CHS mode counts
from one. -/
def xlateBlock (c : Controller) (d : Drive) : Nat :=
  let lba :=
    if c.lba4 &&& DEVH_LBA ≠ 0 then
      (c.lba4 &&& DEVH_HEAD).toNat * 2 ^ 24 + c.lba3.toNat * 2 ^ 16 +
        c.lba2.toNat * 2 ^ 8 + c.lba1.toNat
    else
      let cyl := c.lba3.toNat * 2 ^ 8 + c.lba2.toNat
      let head := (c.lba4 &&& DEVH_HEAD).toNat
      let sec := if c.lba1 = 0 then 1 else c.lba1.toNat
      (cyl * d.heads.toNat + head) * d.sectors.toNat + (sec - 1)
  (lba + if d.headerPresent then 2 else 0) * 512

def requestCount (d : Drive) : Nat :=
  if d.taskfile.count = 0 then 256 else d.taskfile.count.toNat

/-!
## Completion
-/

def ready (d : Drive) : Drive :=
  { d.setStatus (ST_BSY ||| ST_DRQ) (ST_DRDY ||| ST_DSC) with state := .idle }

def completed (d : Drive) : Drive :=
  { ready d with intrq := true }

def driveFailed (d : Drive) : Drive :=
  ready ((d.setStatus 0 ST_ERR).setError ERR_IDNF)

def dataInState (d : Drive) : Drive :=
  { d.setStatus ST_BSY ST_DRQ with state := .dataIn, dptr := 512, intrq := true }

def dataOutState (d : Drive) : Drive :=
  { d.setStatus (ST_BSY ||| ST_DRDY) ST_DRQ with state := .dataOut, dptr := 0, intrq := true }

def ideXlateErrno (d : Drive) (failure : Option Bool) : Drive :=
  (d.setStatus 0 ST_ERR).setError
    (match failure with
    | some true => ERR_UNC
    | some false => ERR_AMNF
    | none => ERR_AMNF)

/-!
## Reset
-/

def eddSetup (c : Controller) (i : Fin 2) : Controller :=
  let d := c.drive i
  { c.put i (ready { d with taskfile := { d.taskfile with error := 0x01, count := 0x01 } }) with
    lba1 := 0x01, lba2 := 0x00, lba3 := 0x00, lba4 := 0x00 }

def eddIfPresent (c : Controller) (i : Fin 2) : Controller :=
  if (c.drive i).present then eddSetup c i else c

def resetDrive (c : Controller) (i : Fin 2) : Controller :=
  if (c.drive i).present then
    let c := eddSetup c i
    let d := c.drive i
    c.put i { d with
      taskfile := { d.taskfile with status := ST_DRDY ||| ST_DSC }, eightbit := false }
  else c

def ideReset (c : Controller) : Controller :=
  { resetDrive (resetDrive c 0) 1 with selected := 0 }

def busyIfPresent (c : Controller) (i : Fin 2) : Controller :=
  if (c.drive i).present then c.put i ((c.drive i).setStatus 0 ST_BSY) else c

def ideResetBegin (c : Controller) : Controller :=
  ideReset (busyIfPresent (busyIfPresent c 0) 1)

def ideSrstBegin (c : Controller) : Controller :=
  busyIfPresent (busyIfPresent (ideReset c) 0) 1

def ideSrstEnd (c : Controller) : Controller :=
  let c := c.put 0 (ready (c.drive 0))
  c.put 1 (ready (c.drive 1))

/-!
## Commands
-/

def identifyBytes (words : List Word) : List Byte :=
  words.flatMap fun (w : Word) => [w.setWidth 8, (w >>> 8).setWidth 8]

def cmdEddComplete (c : Controller) : Controller :=
  { eddIfPresent (eddIfPresent c 0) 1 with selected := 0 }

def cmdIdentifyComplete (falconTos : Bool) (d : Drive) : Drive :=
  let block := identifyBytes d.identify.toList
  { dataInState { d with
      data := if ideNativeOrder falconTos d then diskSwap512 block else block } with
    dptr := 0, length := 1 }

def cmdInitparamComplete (d : Drive) : Drive :=
  completed { d with failed := false }

def cmdReadsectorsComplete (c : Controller) (d : Drive) : Drive :=
  if d.failed then driveFailed d
  else
    let off := xlateBlock c d
    dataInState { d.setStatus ST_BSY (ST_DRQ ||| ST_DSC ||| ST_DRDY) with
      offset := off, length := requestCount d, fd := d.fd.seek off }

def cmdVerifysectorsComplete (c : Controller) (d : Drive) : Drive :=
  if d.failed then driveFailed d
  else
    let off := xlateBlock c d
    completed { d.setStatus 0 ST_DSC with
      offset := off, length := requestCount d
      fd := d.fd.seek (off + (requestCount d - 1) * 512) }

def cmdRecalibrateComplete (c : Controller) (d : Drive) : Drive :=
  let d := if d.failed then driveFailed d else d
  let d :=
    if xlateBlock c d ≠ 0 then
      (d.setStatus ST_DSC ST_ERR).setError (d.taskfile.error ||| ERR_ABRT)
    else d
  completed (d.setStatus 0 ST_DSC)

def cmdSeekComplete (c : Controller) (d : Drive) : Drive :=
  let d := if d.failed then driveFailed d else d
  let off := xlateBlock c d
  completed { d.setStatus 0 ST_DSC with offset := off, fd := d.fd.seek off }

def cmdSetfeaturesComplete (d : Drive) : Drive :=
  let refuse (d : Drive) := (d.setStatus 0 ST_ERR).setError (d.taskfile.error ||| ERR_ABRT)
  completed
    (match d.taskfile.feature with
    | 0x01#8 => { d with eightbit := true }
    | 0x03#8 => if 0x20#8 ≤ d.taskfile.count &&& 0xF0#8 then refuse d else d
    | 0x81#8 => { d with eightbit := false }
    | _ => refuse d)

def cmdWritesectorsComplete (c : Controller) (d : Drive) : Drive :=
  if d.failed then driveFailed d
  else
    let off := xlateBlock c d
    dataOutState { d.setStatus 0 ST_DRQ with
      offset := off, length := requestCount d, fd := d.fd.seek off }

inductive Command where
  | edd
  | identify
  | initparam
  | read
  | setfeatures
  | verify
  | write
  | recalibrate
  | seek
  | unknown
deriving DecidableEq, Repr

def decodeCommand (v : Byte) : Command :=
  match v with
  | 0x90#8 => .edd
  | 0xEC#8 => .identify
  | 0x91#8 => .initparam
  | 0x20#8 => .read
  | 0x21#8 => .read
  | 0xEF#8 => .setfeatures
  | 0x40#8 => .verify
  | 0x41#8 => .verify
  | 0x30#8 => .write
  | 0x31#8 => .write
  | _ =>
      if v &&& 0xF0#8 = 0x10#8 then .recalibrate
      else if v &&& 0xF0#8 = 0x70#8 then .seek
      else .unknown

def Drive.begun (d : Drive) (v : Byte) : Drive :=
  { { d with taskfile := { d.taskfile with command := v } }.setStatus
      (ST_ERR ||| ST_DRDY) ST_BSY |>.setError 0 with
    state := .cmd }

def ideIssueCommand (falconTos : Bool) (c : Controller) (v : Byte) : Controller :=
  let i := c.selected
  let d := (c.drive i).begun v
  match decodeCommand v with
  | .edd => cmdEddComplete (c.put i d)
  | .identify => c.put i (cmdIdentifyComplete falconTos d)
  | .initparam => c.put i (cmdInitparamComplete d)
  | .read => c.put i (cmdReadsectorsComplete c d)
  | .setfeatures => c.put i (cmdSetfeaturesComplete d)
  | .verify => c.put i (cmdVerifysectorsComplete c d)
  | .write => c.put i (cmdWritesectorsComplete c d)
  | .recalibrate => c.put i (cmdRecalibrateComplete c d)
  | .seek => c.put i (cmdSeekComplete c d)
  | .unknown =>
      c.put i (completed ((d.setStatus 0 ST_ERR).setError (d.taskfile.error ||| ERR_ABRT)))

/-!
## Sector input and output
-/

/-- `ide_set_error`: the failing address goes back into the registers. -/
def ideSetError (c : Controller) (i : Fin 2) : Controller :=
  let d := c.drive i
  let lba := d.offset / 512
  let d := { d with taskfile := { d.taskfile with count := BitVec.ofNat 8 d.length } }
  { c.put i (completed (d.setStatus 0 ST_ERR)) with
    lba1 := BitVec.ofNat 8 lba
    lba2 := BitVec.ofNat 8 (lba / 2 ^ 8)
    lba3 := BitVec.ofNat 8 (lba / 2 ^ 16)
    lba4 := (c.lba4 &&& DEVH_DEV) ||| DEVH_LBA ||| (BitVec.ofNat 8 (lba / 2 ^ 24) &&& DEVH_HEAD) }

def Drive.inFileOrder (d : Drive) (buf : List Byte) : List Byte :=
  if d.imgSwapped then diskSwap512 buf else buf

/-- `ide_read_sector`; the result says whether a whole sector was read. -/
def ideReadSector (d : Drive) (io : HostIo) : Drive × Bool :=
  match io with
  | .fails eio =>
      (ideXlateErrno ({ d with dptr := 0 }.setStatus ST_DSC ST_ERR) (some eio), false)
  | .works =>
      let got := d.fd.readable 512
      let data := got ++ d.data.drop got.length
      let d := { d with dptr := 0, fd := d.fd.advance 512, data := data }
      if got.length ≠ 512 then (ideXlateErrno (d.setStatus ST_DSC ST_ERR) none, false)
      else ({ d with data := d.inFileOrder data, offset := d.offset + 512 }, true)

/-- `ide_write_sector`; the result says whether the sector was written. -/
def ideWriteSector (d : Drive) (io : HostIo) : Drive × Bool :=
  let d := { d with dptr := 0 }
  match io with
  | .fails eio => (ideXlateErrno (d.setStatus ST_DSC ST_ERR) (some eio), false)
  | .works =>
      ({ d with fd := d.fd.write (d.inFileOrder d.data), offset := d.offset + 512 }, true)

/-!
## The data port
-/

def Drive.takeDatum (falconTos : Bool) (d : Drive) (len : Nat) : Drive :=
  let first := d.data.getD d.dptr 0
  let second := d.data.getD (d.dptr + 1) 0
  let v : Word :=
    if !d.eightbit && len == 2 then
      if ideNativeOrder falconTos d then first.setWidth 16 <<< 8 ||| second.setWidth 16
      else first.setWidth 16 ||| second.setWidth 16 <<< 8
    else first.setWidth 16
  { d with
    taskfile := { d.taskfile with data := v }
    dptr := if d.eightbit then d.dptr + 1 else d.dptr + 2 }

def Drive.sectorTaken (d : Drive) : Drive :=
  let d := { d with length := d.length - 1, intrq := true }
  if d.length = 0 then { completed d with intrq := false } else d

/-- A data read of a drive in its data-in phase; the result says whether the
sector it needed could be read. -/
def Drive.dataIn (falconTos : Bool) (d : Drive) (len : Nat) (io : HostIo) : Drive × Bool :=
  let (d, ok) := if d.dptr = 512 then ideReadSector d io else (d, true)
  if ok then
    let d := d.takeDatum falconTos len
    (if d.dptr = 512 then d.sectorTaken else d, true)
  else (d, false)

def ideDataIn (falconTos : Bool) (c : Controller) (len : Nat) (io : HostIo) :
    Controller × Word :=
  let i := c.selected
  let reply (c : Controller) : Controller × Word :=
    let data := (c.drive i).taskfile.data
    (c, if len = 1 then data &&& 0xFF#16 else data)
  if (c.drive i).state = .dataIn then
    let (d, ok) := (c.drive i).dataIn falconTos len io
    if ok then reply (c.put i d) else (ideSetError (c.put i d) i, 0xFFFF#16)
  else reply c

def Drive.putDatum (falconTos : Bool) (d : Drive) (v : Word) : Drive :=
  let low : Byte := v.setWidth 8
  let high : Byte := (v >>> 8).setWidth 8
  if d.eightbit then
    { d with
      data := d.data.set d.dptr low, dptr := d.dptr + 1
      taskfile := { d.taskfile with data := v &&& 0xFF#16 } }
  else if ideNativeOrder falconTos d then
    { d with
      data := (d.data.set d.dptr high).set (d.dptr + 1) low, dptr := d.dptr + 2
      taskfile := { d.taskfile with data := v } }
  else
    { d with
      data := (d.data.set d.dptr low).set (d.dptr + 1) high, dptr := d.dptr + 2
      taskfile := { d.taskfile with data := v >>> 8 } }

def Drive.sectorWritten (d : Drive) : Drive :=
  let d := { d with length := d.length - 1, intrq := true }
  if d.length = 0 then completed (d.setStatus 0 ST_DSC) else d

/-- A data write of a drive in its data-out phase; the result says whether the
sector it completed could be written. -/
def Drive.dataOut (falconTos : Bool) (d : Drive) (v : Word) (io : HostIo) : Drive × Bool :=
  let d := d.putDatum falconTos v
  if d.dptr = 512 then
    let (d, ok) := ideWriteSector d io
    (if ok then d.sectorWritten else d, ok)
  else (d, true)

def ideDataOut (falconTos : Bool) (c : Controller) (v : Word) (io : HostIo) : Controller :=
  let i := c.selected
  let d := c.drive i
  if d.state ≠ .dataOut then c.put i { d with taskfile := { d.taskfile with data := v } }
  else
    let (d, ok) := d.dataOut falconTos v io
    if ok then c.put i d else ideSetError (c.put i d) i

/-!
## Register accesses
-/

inductive Reg where
  | data
  | errorFeature
  | secCount
  | lbaLow
  | lbaMid
  | lbaHi
  | lbaTop
  | statusCommand
  | altstDevctrl
  | other
deriving DecidableEq, Repr

def Drive.busy (d : Drive) : Bool :=
  d.taskfile.status &&& ST_BSY != 0

def ideRead8 (falconTos : Bool) (c : Controller) (r : Reg) (io : HostIo) :
    Controller × Word :=
  let i := c.selected
  let d := c.drive i
  let t := d.taskfile
  match r with
  | .data =>
      let (c, v) := ideDataIn falconTos c 1 io
      (c, v &&& 0xFF#16)
  | .errorFeature => (c, t.error.setWidth 16)
  | .secCount => (c, t.count.setWidth 16)
  | .lbaLow => (c, c.lba1.setWidth 16)
  | .lbaMid => (c, c.lba2.setWidth 16)
  | .lbaHi => (c, c.lba3.setWidth 16)
  | .lbaTop => (c, (c.lba4 ||| if c.selected = 0 then 0x00#8 else 0x10#8).setWidth 16)
  | .statusCommand => (c.put i { d with intrq := false }, t.status.setWidth 16)
  | .altstDevctrl => (c, t.status.setWidth 16)
  | .other => (c, 0xFF#16)

/-- A write of the device control register, to which both drives respond. -/
def writeDevctrl (c : Controller) (v : Byte) : Controller :=
  let t := (c.drive c.selected).taskfile
  let c :=
    if (v ^^^ t.devctrl) &&& DCL_SRST ≠ 0 then
      if v &&& DCL_SRST ≠ 0 then ideSrstBegin c else ideSrstEnd c
    else c
  { c with drive := fun i =>
      let d := c.drive i
      { d with taskfile := { d.taskfile with devctrl := v } } }

def ideWrite8 (falconTos : Bool) (c : Controller) (r : Reg) (v : Byte) (io : HostIo) :
    Controller :=
  let i := c.selected
  let d := c.drive i
  let t := d.taskfile
  if r ≠ .altstDevctrl ∧ (d.busy = true ∨ (d.present = false ∧ r ≠ .lbaTop)) then c
  else
    match r with
    | .data => ideDataOut falconTos c (v.setWidth 16) io
    | .errorFeature => c.put i { d with taskfile := { t with feature := v } }
    | .secCount => c.put i { d with taskfile := { t with count := v } }
    | .lbaLow => { c with lba1 := v }
    | .lbaMid => { c with lba2 := v }
    | .lbaHi => { c with lba3 := v }
    | .lbaTop =>
        { c with
          selected := if v &&& DEVH_DEV ≠ 0 then 1 else 0
          lba4 := v &&& (DEVH_HEAD ||| DEVH_DEV ||| DEVH_LBA) }
    | .statusCommand => ideIssueCommand falconTos c v
    | .altstDevctrl => writeDevctrl c v
    | .other => c

def ideRead16 (falconTos : Bool) (c : Controller) (r : Reg) (io : HostIo) :
    Controller × Word :=
  if r = .data then ideDataIn falconTos c 2 io else ideRead8 falconTos c r io

def ideWrite16 (falconTos : Bool) (c : Controller) (r : Reg) (v : Word) (io : HostIo) :
    Controller :=
  if r ≠ .altstDevctrl ∧ (c.drive c.selected).busy = true then c
  else if r = .data then ideDataOut falconTos c v io
  else ideWrite8 falconTos c r (v.setWidth 8) io

/-!
## Attaching images
-/

/-- A text in identify words, two characters in each, the first one high. -/
def identText : List Byte -> List Word
  | a :: b :: rest => (a.setWidth 16 <<< 8 ||| b.setWidth 16) :: identText rest
  | [a] => [a.setWidth 16 <<< 8]
  | [] => []

def putWords (block : Vector Word 256) (start : Nat) : List Word -> Vector Word 256
  | [] => block
  | w :: ws => putWords (block.setIfInBounds start w) (start + 1) ws

def asciiBytes (s : String) : List Byte :=
  s.toList.map fun c => BitVec.ofNat 8 c.toNat

def ideMakeIdent (drive : Nat) (cyl : Word) (heads sectors : Byte) (name : String) :
    Vector Word 256 :=
  let total := cyl.toNat * heads.toNat * sectors.toNat
  let low := BitVec.ofNat 16 total
  let high := BitVec.ofNat 16 (total / 2 ^ 16)
  let model := name ++ toString drive ++ " " ++ toString (total / (1024 * 1024 / 512)) ++ "M"
  let p := Vector.replicate 256 (0 : Word)
  let p := putWords p 0 [0x8040, cyl, 0, heads.setWidth 16, 0, 0, sectors.setWidth 16]
  let p := putWords p 10 (identText (asciiBytes "QM12345"))
  let p := putWords p 21 [512, 4]
  let p := putWords p 23 (identText (asciiBytes "1.0"))
  let p := putWords p 27 (identText ((asciiBytes model).take 39))
  let p := putWords p 48 [1, 0x0200]
  let p := putWords p 51 [0xF000, 0x0200, 3, cyl, heads.setWidth 16, sectors.setWidth 16, low, high]
  putWords p 60 [low, high]

def emptyDrive : Drive where
  taskfile := ⟨0, 0, 0, 0, 0, 0, 0⟩
  present := false
  intrq := false
  failed := false
  lba := false
  eightbit := false
  cylinders := 0
  heads := 0
  sectors := 0
  data := List.replicate 512 0
  identify := Vector.replicate 256 0
  dptr := 0
  state := .idle
  fd := OpenFile.zeros 0
  offset := 0
  length := 0
  headerPresent := false
  imgSwapped := false
  twisted := false

def ideAllocate : Controller where
  drive := fun _ => emptyDrive
  selected := 0
  lba1 := 0
  lba2 := 0
  lba3 := 0
  lba4 := 0

/-- `ide_attach_st`; a slot is claimed before the size of the image is tested. -/
def ideAttachSt (c : Controller) (i : Fin 2) (file : OpenFile Byte) : Controller :=
  let d := c.drive i
  if d.present then c
  else
    let d := { d with
      fd := file.seek 0, present := true, lba := true, headerPresent := false
      heads := 2, sectors := 9, cylinders := 80 }
    let d :=
      if 720 * 1024 < file.size then d
      else { d with identify := ideMakeIdent i 80 2 9 "PISTORM IDE FD" }
    { c.put i d with lba4 := DEVH_LBA }

def imageSectors (file : OpenFile Byte) : Nat :=
  min (file.size / 512) 0x0FFFFFFF

def ideAttachHdf (c : Controller) (i : Fin 2) (file : OpenFile Byte) : Controller :=
  let d := c.drive i
  if d.present ∨ file.size < 4 * 1000 * 1000 then c
  else
    let cyl := BitVec.ofNat 16 (file.size / 512 / (63 * 16))
    let total := imageSectors file
    c.put i { d with
      fd := file.seek 0, present := true, lba := true, headerPresent := false
      heads := 16, sectors := 63, cylinders := cyl
      identify := putWords (ideMakeIdent i cyl 16 63 "PISTORM IDE DK") 60
        [BitVec.ofNat 16 total, BitVec.ofNat 16 (total / 2 ^ 16)] }

inductive DiskOrder where
  | native
  | swapped
  | bootswap
deriving DecidableEq, Repr

inductive ImageKind where
  | st
  | hdf
deriving DecidableEq, Repr

structure Image where
  kind : ImageKind
  file : OpenFile Byte
  order : DiskOrder

def attachImage (c : Controller) (i : Fin 2) : Option Image -> Controller
  | none => c
  | some image =>
      match image.kind with
      | .st => ideAttachSt c i image.file
      | .hdf =>
          let c := ideAttachHdf c i image.file
          let d := c.drive i
          if d.present then
            c.put i { d with
              imgSwapped := image.order == .swapped
              twisted := image.order == .bootswap }
          else c

/-- One PP-prepared image puts its whole controller in the twisted order. -/
def shareOrder (c : Controller) : Controller :=
  if (c.drive 0).twisted || (c.drive 1).twisted then
    { c with drive := fun i => { c.drive i with twisted := true } }
  else c

def initIde (images : Fin 2 -> Option Image) : Controller :=
  ideResetBegin (shareOrder
    (attachImage (attachImage ideAllocate 0 (images 0)) 1 (images 1)))

inductive Access where
  | read8 (r : Reg) (io : HostIo)
  | write8 (r : Reg) (v : Byte) (io : HostIo)
  | read16 (r : Reg) (io : HostIo)
  | write16 (r : Reg) (v : Word) (io : HostIo)
  | reset
deriving DecidableEq, Repr

def access (falconTos : Bool) (c : Controller) : Access -> Controller × Word
  | .read8 r io => ideRead8 falconTos c r io
  | .write8 r v io => (ideWrite8 falconTos c r v io, 0)
  | .read16 r io => ideRead16 falconTos c r io
  | .write16 r v io => (ideWrite16 falconTos c r v io, 0)
  | .reset => (ideResetBegin c, 0)

def ideStep (falconTos : Bool) (c : Controller) (a : Access) : Controller :=
  (access falconTos c a).1

end Ide
end PistormAtari
