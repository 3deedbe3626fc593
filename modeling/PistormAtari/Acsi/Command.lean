import PistormAtari.Acsi.Target
import PistormAtari.Foundation.WhileLoop

/-!
# The ACSI bus state and command execution

The state of the emulated targets on the DMA port, the data phase through the
DMA chip, and `exec_command` with every opcode of `acsi.c`.
-/

namespace PistormAtari
namespace Acsi

open Foundation

inductive Phase where
  | idle
  | cdb
  | status
deriving DecidableEq, Repr

/-- What the DMA port keeps outside `acsi.c`: the CPU's ST-RAM mirror, the RAM
on the real bus, the live address counter and the status word. -/
structure Machine where
  ram : Nat -> Byte
  bus : Nat -> Byte
  dmaAddr : BitVec 32
  dmaStatus : BitVec 16

/-- The surroundings of the target: the image calls, the end of ST-RAM
(`g_stram_top`) and what an uninitialised local buffer happens to hold. -/
structure Host (φ : Type _) where
  io : HostFile φ
  stramTop : BitVec 32
  stack : Nat -> Byte

/-- What is recorded of a run: the first byte of a CDB accepted by a target, a
command executed on the bytes received, its completion, a status byte read. -/
inductive Event where
  | accept (id : BitVec 3)
  | exec (bytes : List Byte)
  | finish (st sense : Byte) (lba : BitVec 32)
  | statusRead (v : Byte)
deriving DecidableEq, Repr

/-- The variables of `acsi.c`.  `trace` is a ghost record, newest first. -/
structure State (φ : Type _) where
  tgt : Targets φ
  phase : Phase
  curId : Option (BitVec 3)
  cdb : Nat -> Byte
  cdbLen : Nat
  cdbGot : Nat
  icd : Bool
  statusByte : Byte
  irq : Bool
  owns : Bool
  statusValid : Bool
  residual : BitVec 16
  dmaFifo : List Byte
  machine : Machine
  trace : List Event

variable {φ : Type _}

def State.received (s : State φ) : List Byte :=
  readBlock s.cdb 0 s.cdbGot

def State.attached (s : State φ) (id : BitVec 3) : Prop :=
  (s.tgt id).isSome = true

instance (s : State φ) (id : BitVec 3) : Decidable (s.attached id) :=
  inferInstanceAs (Decidable (_ = _))

/-!
## Completion
-/

def senseNone : Byte := 0x00
def senseInvalidOp : Byte := 0x20
def senseInvalidLba : Byte := 0x21
def senseInvalidCdb : Byte := 0x24
def senseInvalidLun : Byte := 0x25

/-- `fdd_dma_note_ok`: `DMA_STATUS_OK`, and `DMA_STATUS_SCZERO` on request. -/
def Machine.noteOk (m : Machine) (countZero : Bool) : Machine :=
  { m with dmaStatus := 1 ||| (if countZero then 2 else 0) }

def finish (id : BitVec 3) (st sense : Byte) (lba : BitVec 32) (s : State φ) : State φ :=
  { s with
    statusByte := st
    tgt := Function.update s.tgt id
      ((s.tgt id).map fun t => { t with sense := sense, senseLba := lba })
    phase := .status
    statusValid := true
    irq := true
    machine := s.machine.noteOk (s.residual == 0)
    trace := .finish st sense lba :: s.trace }

def finishGood (id : BitVec 3) (s : State φ) : State φ :=
  finish id 0x00 senseNone 0 s

def finishCheck (id : BitVec 3) (sense : Byte) (lba : BitVec 32) (s : State φ) : State φ :=
  finish id 0x02 sense lba s

/-!
## Data helpers

The DMA chip moves device data to RAM in 16-byte bursts; a shorter tail waits
in its FIFO and goes out in front of the next transfer.
-/

/-- `fdd_dma_copy_to_ram`: the real bus below 4 MB, then the ST-RAM mirror when
the whole block lies in it. -/
def Machine.copyToRam (env : Host φ) (m : Machine) (buf : List Byte) : Machine :=
  let addr := m.dmaAddr.toNat
  { m with
    bus := writeBlock m.bus addr (buf.take (0x400000 - addr))
    ram :=
      if addr < env.stramTop.toNat ∧ buf.length ≤ env.stramTop.toNat - addr then
        writeBlock m.ram addr buf
      else m.ram }

def Machine.advance (m : Machine) (n : Nat) : Machine :=
  { m with dmaAddr := m.dmaAddr + BitVec.ofNat 32 n }

theorem toNat_add_ofNat {a : BitVec 32} {n : Nat} (h : a.toNat + n < 2 ^ 32) :
    (a + BitVec.ofNat 32 n).toNat = a.toNat + n := by
  rw [BitVec.toNat_add, BitVec.toNat_ofNat, Nat.add_mod_mod, Nat.mod_eq_of_lt h]

structure DmaOut where
  buf : List Byte
  fifo : List Byte
  machine : Machine

def dmaOutStep (env : Host φ) (l : DmaOut) : DmaOut :=
  if l.fifo = [] ∧ 16 ≤ l.buf.length then
    let n := l.buf.length / 16 * 16
    { l with
      buf := l.buf.drop n
      machine := (l.machine.copyToRam env (l.buf.take n)).advance n }
  else
    let fifo := l.fifo ++ l.buf.take 1
    if fifo.length = 16 then
      { buf := l.buf.drop 1, fifo := [],
        machine := (l.machine.copyToRam env fifo).advance 16 }
    else { l with buf := l.buf.drop 1, fifo := fifo }

def dmaOut (env : Host φ) (buf : List Byte) (fifo : List Byte) (m : Machine) : DmaOut :=
  whileFuel (fun l => !l.buf.isEmpty) (dmaOutStep env) buf.length
    { buf := buf, fifo := fifo, machine := m }

/-- `dma_in` of `len` bytes into `buf`, which keeps its contents when the
window is not in ST-RAM. -/
def dmaIn (env : Host φ) (buf : List Byte) (len : Nat) (m : Machine) :
    List Byte × Machine :=
  if len = 0 then (buf, m)
  else
    let addr := m.dmaAddr.toNat
    (if addr < env.stramTop.toNat ∧ len ≤ env.stramTop.toNat - addr then
      readBlock m.ram addr len ++ buf.drop len
    else buf, m.advance len)

def State.reply (env : Host φ) (s : State φ) (buf : List Byte) : State φ :=
  let out := dmaOut env buf s.dmaFifo s.machine
  { s with dmaFifo := out.fifo, machine := out.machine }

/-- `t->...` stored back into the target table. -/
def State.setTarget (s : State φ) (id : BitVec 3) (t : Target φ) : State φ :=
  { s with tgt := Function.update s.tgt id (some t) }

/-!
## READ and WRITE
-/

/-- `lba + blocks > t->total_lba || lba + blocks < lba`. -/
def offDisk (t : Target φ) (lba blocks : BitVec 32) : Bool :=
  decide (t.totalLba < lba + blocks) || decide (lba + blocks < lba)

/-- The loop of `exec_read` from block `i` on; `some i` when block `i` fails. -/
def readLoop (env : Host φ) (lba : BitVec 32) :
    Nat -> Nat -> Target φ -> List Byte -> Machine ->
      (Target φ × List Byte × Machine) × Option Nat
  | 0, _, t, fifo, m => ((t, fifo, m), none)
  | todo + 1, i, t, fifo, m =>
      let r := readLba env.io t (lba + BitVec.ofNat 32 i)
      match r.2 with
      | none => ((r.1, fifo, m), some i)
      | some buf =>
          let out := dmaOut env buf fifo m
          readLoop env lba todo (i + 1) r.1 out.fifo out.machine

/-- The loop of `exec_write` from block `i` on; the buffer is carried round. -/
def writeLoop (env : Host φ) (lba : BitVec 32) :
    Nat -> Nat -> List Byte -> Target φ -> Machine ->
      (Target φ × Machine) × Option Nat
  | 0, _, _, t, m => ((t, m), none)
  | todo + 1, i, buf, t, m =>
      let x := dmaIn env buf 512 m
      let r := writeLba env.io t (lba + BitVec.ofNat 32 i) x.1
      if r.2 then writeLoop env lba todo (i + 1) x.1 r.1 x.2
      else ((r.1, x.2), some i)

/-- The end of `exec_read` and `exec_write`: the residual count and one
completion, good or with the failing block. -/
def finishTransfer (id : BitVec 3) (lba blocks : BitVec 32) (failed : Option Nat)
    (s : State φ) : State φ :=
  match failed with
  | none => finishGood id { s with residual := 0 }
  | some i =>
      finishCheck id senseInvalidLba (lba + BitVec.ofNat 32 i)
        { s with residual := (blocks - BitVec.ofNat 32 i).setWidth 16 }

def execRead (env : Host φ) (id : BitVec 3) (t : Target φ) (lba blocks : BitVec 32)
    (s : State φ) : State φ :=
  if offDisk t lba blocks then finishCheck id senseInvalidLba lba s
  else
    let x := readLoop env lba blocks.toNat 0 t s.dmaFifo s.machine
    finishTransfer id lba blocks x.2
      { s.setTarget id x.1.1 with dmaFifo := x.1.2.1, machine := x.1.2.2 }

def execWrite (env : Host φ) (id : BitVec 3) (t : Target φ) (lba blocks : BitVec 32)
    (s : State φ) : State φ :=
  if offDisk t lba blocks then finishCheck id senseInvalidLba lba s
  else
    let x := writeLoop env lba blocks.toNat 0 (readBlock env.stack 0 512) t s.machine
    finishTransfer id lba blocks x.2 { s.setTarget id x.1.1 with machine := x.1.2 }

/-!
## The other commands
-/

def asciiBytes (text : String) : List Byte :=
  text.toList.map fun c => BitVec.ofNat 8 c.toNat

def inquiryData (hfs : Bool) (pdt : Byte) : List Byte :=
  [pdt, 0x00, 0x02, 0x02, 31, 0, 0, 0] ++ asciiBytes "PiStorm " ++
    (if hfs then asciiBytes "ACSI HFS DISK   " else asciiBytes "ACSI DISK       ") ++
    asciiBytes "1.0 " ++ List.replicate 12 0

def execInquiry (env : Host φ) (id : BitVec 3) (t : Target φ) (alloc : Nat) (pdt : Byte)
    (s : State φ) : State φ :=
  finishGood id
    { s.reply env ((inquiryData t.hfs pdt).take (min alloc 48)) with residual := 0 }

def senseData (t : Target φ) : List Byte :=
  [t.sense, byteOf t.senseLba 16 &&& 0x1F, byteOf t.senseLba 8, byteOf t.senseLba 0] ++
    List.replicate 12 0

def execRequestSense (env : Host φ) (id : BitVec 3) (t : Target φ) (alloc : Nat)
    (s : State φ) : State φ :=
  let s1 := s.reply env ((senseData t).take (min (max alloc 4) 16))
  finishGood id { s1.setTarget id { t with sense := senseNone } with residual := 0 }

/-- The reply of `exec_mode_sense`; `none` for a page it does not have. -/
def modeSenseData (t : Target φ) (page : Byte) : Option (List Byte) :=
  let blocks := t.totalLba
  if page = 0x00 then
    some [0, 0, 0, 8, 0, byteOf blocks 16, byteOf blocks 8, byteOf blocks 0, 0, 0, 2, 0]
  else if page = 0x04 then
    let cyl := if blocks / 512 = 0 then 1 else blocks / 512
    some ([22, 0, 0, 0, 0x04, 0x12, byteOf cyl 16, byteOf cyl 8, byteOf cyl 0, 16] ++
      List.replicate 14 0)
  else none

def execModeSense (env : Host φ) (id : BitVec 3) (t : Target φ) (page : Byte)
    (alloc : Nat) (s : State φ) : State φ :=
  match modeSenseData t page with
  | none => finishCheck id senseInvalidCdb 0 s
  | some d =>
      let n := if alloc ≠ 0 ∧ alloc < d.length then alloc else d.length
      finishGood id { s.reply env (d.take n) with residual := 0 }

/-- The loop of MODE SELECT that takes the parameter list in and drops it. -/
def drainLoop (env : Host φ) (n : Nat) (m : Machine) : Machine :=
  (whileFuel (fun l : Nat × List Byte × Machine => l.1 != 0)
    (fun l =>
      let chunk := min l.1 512
      let x := dmaIn env l.2.1 chunk l.2.2
      (l.1 - chunk, x.1, x.2))
    n (n, readBlock env.stack 0 512, m)).2.2

def execModeSelect (env : Host φ) (id : BitVec 3) (n : Nat) (s : State φ) : State φ :=
  finishGood id { s with machine := drainLoop env n s.machine, residual := 0 }

def execReadCapacity (env : Host φ) (id : BitVec 3) (t : Target φ) (s : State φ) :
    State φ :=
  let last := t.totalLba - 1
  finishGood id
    { s.reply env
        [byteOf last 24, byteOf last 16, byteOf last 8, byteOf last 0, 0, 0, 2, 0] with
      residual := 0 }

def execReportLuns (env : Host φ) (id : BitVec 3) (alloc : Nat) (s : State φ) : State φ :=
  finishGood id
    { s.reply env (([0, 0, 0, 8] ++ List.replicate 12 0).take (min alloc 16)) with
      residual := 0 }

/-!
## Dispatch
-/

/-- `(c[i] << 24) | (c[i+1] << 16) | (c[i+2] << 8) | c[i+3]`. -/
def be32 (c : Nat -> Byte) (i : Nat) : BitVec 32 :=
  (c i).setWidth 32 <<< 24 ||| (c (i + 1)).setWidth 32 <<< 16 |||
    (c (i + 2)).setWidth 32 <<< 8 ||| (c (i + 3)).setWidth 32

def lba6 (c : Nat -> Byte) : BitVec 32 :=
  ((c 1).setWidth 32 &&& 0x1F) <<< 16 ||| (c 2).setWidth 32 <<< 8 ||| (c 3).setWidth 32

def len6 (c : Nat -> Byte) : BitVec 32 :=
  if c 4 = 0 then 256 else (c 4).setWidth 32

def len10 (c : Nat -> Byte) : BitVec 32 :=
  (c 7).setWidth 32 <<< 8 ||| (c 8).setWidth 32

def allocOr (c : Nat -> Byte) (d : Nat) : Nat :=
  if c 4 = 0 then d else (c 4).toNat

def icdOnly (icd : Bool) (id : BitVec 3) (body : State φ -> State φ) (s : State φ) :
    State φ :=
  if icd then body s else finishCheck id senseInvalidOp 0 s

/-- The `switch (op)` of `exec_command`. -/
def execSwitch (env : Host φ) (id : BitVec 3) (t : Target φ) (icd : Bool) (op : Byte)
    (c : Nat -> Byte) (s : State φ) : State φ :=
  if op = 0x00 ∨ op = 0x01 then finishGood id { s with residual := 0 }
  else if op = 0x03 then execRequestSense env id t (allocOr c 4) s
  else if op = 0x04 then finishGood id { s with residual := 0 }
  else if op = 0x08 then execRead env id t (lba6 c) (len6 c) s
  else if op = 0x0A then execWrite env id t (lba6 c) (len6 c) s
  else if op = 0x0B then
    if lba6 c < t.totalLba then finishGood id { s with residual := 0 }
    else finishCheck id senseInvalidLba (lba6 c) s
  else if op = 0x12 then execInquiry env id t (allocOr c 5) 0x00 s
  else if op = 0x15 then execModeSelect env id (c 4).toNat s
  else if op = 0x1A then execModeSense env id t (c 2 &&& 0x3F) (c 4).toNat s
  else if op = 0x25 then icdOnly icd id (execReadCapacity env id t) s
  else if op = 0xA0 then icdOnly icd id (execReportLuns env id (be32 c 6).toNat) s
  else if op = 0x28 then icdOnly icd id (execRead env id t (be32 c 2) (len10 c)) s
  else if op = 0x2A then icdOnly icd id (execWrite env id t (be32 c 2) (len10 c)) s
  else finishCheck id senseInvalidOp 0 s

def execOn (env : Host φ) (id : BitVec 3) (t : Target φ) (s : State φ) : State φ :=
  let c : Nat -> Byte := if s.icd then fun i => s.cdb (i + 1) else s.cdb
  let op := if s.icd then c 0 else c 0 &&& 0x1F
  let lun := c 1 >>> 5
  let t := { t with probed := true }
  let s := s.setTarget id t
  if s.icd = false ∧ lun ≠ 0 ∧ op = 0x12 then execInquiry env id t (allocOr c 5) 0x7F s
  else if s.icd = false ∧ lun ≠ 0 then finishCheck id senseInvalidLun 0 s
  else execSwitch env id t s.icd op c s

/-- `exec_command`.  It is entered with a CDB complete, so `cur_id` names an
attached target; the other cases do not arise. -/
def execCommand (env : Host φ) (s : State φ) : State φ :=
  let s := { s with trace := .exec s.received :: s.trace }
  match s.curId with
  | none => s
  | some id =>
      match s.tgt id with
      | none => s
      | some t => execOn env id t s

end Acsi
end PistormAtari
