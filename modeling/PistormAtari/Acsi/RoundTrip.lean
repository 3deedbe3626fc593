import PistormAtari.Acsi.CdbTransfer
import PistormAtari.Acsi.SectorImage

/-!
# WRITE and READ round trips

A READ or WRITE request is sent as a 6-byte CDB or as a 10-byte one behind the
ICD wrapper.  Its effect depends on the request only, a WRITE followed by a READ
of the same blocks gives the written bytes back, and a request that leaves the
disk is refused without touching anything.
-/

namespace PistormAtari
namespace Acsi

open Foundation

variable {φ : Type _}

/-!
## Requests
-/

inductive Direction where
  | read
  | write
deriving DecidableEq, Repr

def opSix : Direction -> Byte
  | .read => 0x08
  | .write => 0x0A

def opTen : Direction -> Byte
  | .read => 0x28
  | .write => 0x2A

def execTransfer (env : Host φ) (dir : Direction) (id : BitVec 3) (t : Target φ)
    (lba blocks : BitVec 32) (s : State φ) : State φ :=
  match dir with
  | .read => execRead env id t lba blocks s
  | .write => execWrite env id t lba blocks s

/-- The bytes `v :: rest` ask target `id` to transfer `blocks` blocks at `lba`.
Reserved and control bytes are free. -/
inductive Encodes (dir : Direction) (lba blocks : BitVec 32) :
    BitVec 3 -> Byte -> List Byte -> Prop where
  | six {v b1 b2 b3 b4 control : Byte} (hop : v &&& 0x1F = opSix dir)
      (hlun : b1 >>> 5 = 0)
      (hlba : ((b1.setWidth 32 &&& 0x1F) <<< 16 ||| b2.setWidth 32 <<< 8 |||
        b3.setWidth 32) = lba)
      (hblocks : (if b4 = 0 then 256 else b4.setWidth 32) = blocks) :
      Encodes dir lba blocks (idOf v) v [b1, b2, b3, b4, control]
  | ten {v r1 b2 b3 b4 b5 r6 b7 b8 control : Byte} (hicd : v &&& 0x1F = 0x1F#8)
      (hlba : (b2.setWidth 32 <<< 24 ||| b3.setWidth 32 <<< 16 |||
        b4.setWidth 32 <<< 8 ||| b5.setWidth 32) = lba)
      (hblocks : (b7.setWidth 32 <<< 8 ||| b8.setWidth 32) = blocks) :
      Encodes dir lba blocks (idOf v) v [opTen dir, r1, b2, b3, b4, b5, r6, b7, b8, control]

/-!
## The effect of a request
-/

/-- A state without the registers that hold the CDB as it was sent, and without
the history. -/
def eraseCdb (s : State φ) : State φ :=
  { s with cdb := fun _ => 0, cdbLen := 0, cdbGot := 0, icd := false, trace := [] }

/-- The state in which a command runs on `t` at `id`, its CDB left out. -/
def accepted (s : State φ) (id : BitVec 3) (t : Target φ) : State φ :=
  eraseCdb { s with
    tgt := Function.update s.tgt id (some t)
    phase := .cdb
    curId := some id
    owns := true
    statusValid := false
    residual := 0
    irq := false }

theorem eraseCdb_finishTransfer (id : BitVec 3) (lba blocks : BitVec 32)
    (failed : Option Nat) (s : State φ) :
    eraseCdb (finishTransfer id lba blocks failed s) =
      eraseCdb (finishTransfer id lba blocks failed (eraseCdb s)) := by
  cases failed with
  | none => rfl
  | some i => rfl

theorem eraseCdb_execTransfer (env : Host φ) (dir : Direction) (id : BitVec 3)
    (t : Target φ) (lba blocks : BitVec 32) (s : State φ) :
    eraseCdb (execTransfer env dir id t lba blocks s) =
      eraseCdb (execTransfer env dir id t lba blocks (eraseCdb s)) := by
  cases dir with
  | read =>
      unfold execTransfer execRead
      dsimp only
      split
      · rfl
      · rw [eraseCdb_finishTransfer]
        rfl
  | write =>
      unfold execTransfer execWrite
      dsimp only
      split
      · rfl
      · rw [eraseCdb_finishTransfer]
        rfl

theorem cdb_of_received {s : State φ} {bytes : List Byte} (h : s.received = bytes)
    {i : Nat} {b : Byte} (hb : bytes[i]? = some b) : s.cdb i = b := by
  subst h
  have hi : i < s.cdbGot := by
    have hlt := (List.getElem?_eq_some_iff.mp hb).1
    rwa [State.received, length_readBlock] at hlt
  simpa [State.received, readBlock, hi] using hb

def contacted (t : Target φ) : Target φ :=
  { t with probed := true }

theorem execOn_plain (env : Host φ) (id : BitVec 3) (t : Target φ) {s : State φ}
    (hicd : s.icd = false) (hlun : s.cdb 1 >>> 5 = 0) :
    execOn env id t s =
      execSwitch env id (contacted t) false (s.cdb 0 &&& 0x1F) s.cdb
        (s.setTarget id (contacted t)) := by
  have hicd' : forall t', (s.setTarget id t').icd = false := fun _ => hicd
  unfold execOn
  simp only [hicd, hicd', Bool.false_eq_true, if_false, hlun]
  simp only [ne_eq, not_true_eq_false, false_and, and_false, if_false]
  rfl

theorem execOn_wrapped (env : Host φ) (id : BitVec 3) (t : Target φ) {s : State φ}
    (hicd : s.icd = true) :
    execOn env id t s =
      execSwitch env id (contacted t) true (s.cdb 1) (fun i => s.cdb (i + 1))
        (s.setTarget id (contacted t)) := by
  have hicd' : forall t', (s.setTarget id t').icd = true := fun _ => hicd
  unfold execOn
  simp only [hicd, hicd', if_true, Bool.true_eq_false, false_and, if_false]
  rfl

theorem execSwitch_six (env : Host φ) (dir : Direction) (id : BitVec 3) (t : Target φ)
    (icd : Bool) (c : Nat -> Byte) (s : State φ) :
    execSwitch env id t icd (opSix dir) c s =
      execTransfer env dir id t (lba6 c) (len6 c) s := by
  cases dir with
  | read => rfl
  | write => rfl

theorem execSwitch_ten (env : Host φ) (dir : Direction) (id : BitVec 3) (t : Target φ)
    (c : Nat -> Byte) (s : State φ) :
    execSwitch env id t true (opTen dir) c s =
      execTransfer env dir id t (be32 c 2) (len10 c) s := by
  cases dir with
  | read => rfl
  | write => rfl

theorem eraseCdb_ready {s s' : State φ} {id : BitVec 3} {v : Byte} {bytes : List Byte}
    (h : Ready (acceptFirst id v s) s' bytes) (t : Target φ) (tr : List Event) :
    eraseCdb ({ s' with trace := tr }.setTarget id t) = accepted s id t := by
  rw [h.rest]
  rfl

theorem ready_addressed {s s' : State φ} {id : BitVec 3} {v : Byte} {bytes : List Byte}
    (h : Ready (acceptFirst id v s) s' bytes) :
    s'.curId = some id ∧ s'.tgt = s.tgt ∧ s'.icd = (v &&& 0x1F == 0x1F#8) := by
  rw [h.rest]
  exact ⟨rfl, rfl, rfl⟩

/-- A request runs the transfer it encodes, whatever its form. -/
theorem sendCdb_request (env : Host φ) {s : State φ} (hs : s.phase ≠ .cdb)
    {id : BitVec 3} {t : Target φ} (ht : s.tgt id = some t) {dir : Direction}
    {lba blocks : BitVec 32} {v : Byte} {rest : List Byte}
    (henc : Encodes dir lba blocks id v rest) {flagged : List (Byte × Bool)}
    (hflagged : flagged.map Prod.fst = rest) :
    eraseCdb (sendCdb env v flagged s).2 =
      eraseCdb (execTransfer env dir id (contacted t) lba blocks
        (accepted s id (contacted t))) := by
  have hid : (s.tgt id).isSome = true := by
    rw [ht]
    rfl
  cases henc with
  | @six _ b1 b2 b3 b4 control hop hlun hlba hblocks =>
      have hwhole : Whole ((v &&& 0x1F) :: [b1, b2, b3, b4, control]) := by
        unfold Whole
        rw [hop]
        cases dir <;> rfl
      rcases sendCdb_whole env hs hid hwhole with ⟨s1, hready, hsend⟩
      rcases ready_addressed hready with ⟨hcur, htgt, hicd⟩
      have hplain : s1.icd = false := by
        rw [hicd, hop]
        cases dir <;> rfl
      have hc0 : s1.cdb 0 = v &&& 0x1F := cdb_of_received hready.received rfl
      have hc1 : s1.cdb 1 = b1 := cdb_of_received hready.received rfl
      have hc2 : s1.cdb 2 = b2 := cdb_of_received hready.received rfl
      have hc3 : s1.cdb 3 = b3 := cdb_of_received hready.received rfl
      have hc4 : s1.cdb 4 = b4 := cdb_of_received hready.received rfl
      have hop' : s1.cdb 0 &&& 0x1F = opSix dir := by
        rw [hc0, hop]
        cases dir <;> rfl
      have hlba' : lba6 s1.cdb = lba := by
        rw [← hlba, lba6, hc1, hc2, hc3]
      have hlen' : len6 s1.cdb = blocks := by
        rw [← hblocks, len6, hc4]
      have hlun' : s1.cdb 1 >>> 5 = 0 := by
        rw [hc1, hlun]
      have htarget : s1.tgt (idOf v) = some t := by
        rw [htgt, ht]
      rw [hsend flagged hflagged, execCommand_eq env hcur htarget,
        execOn_plain env (idOf v) t
          (s := { s1 with trace := .exec s1.received :: s1.trace }) hplain hlun']
      dsimp only
      rw [hop', execSwitch_six, hlba', hlen', eraseCdb_execTransfer,
        eraseCdb_ready hready]
  | @ten _ r1 b2 b3 b4 b5 r6 b7 b8 control hicd hlba hblocks =>
      have hwhole : Whole ((v &&& 0x1F) ::
          [opTen dir, r1, b2, b3, b4, b5, r6, b7, b8, control]) := by
        unfold Whole
        rw [hicd]
        cases dir <;> rfl
      rcases sendCdb_whole env hs hid hwhole with ⟨s1, hready, hsend⟩
      rcases ready_addressed hready with ⟨hcur, htgt, hicd1⟩
      have hwrapped : s1.icd = true := by
        rw [hicd1, hicd]
        rfl
      have hc1 : s1.cdb 1 = opTen dir := cdb_of_received hready.received rfl
      have hc3 : s1.cdb 3 = b2 := cdb_of_received hready.received rfl
      have hc4 : s1.cdb 4 = b3 := cdb_of_received hready.received rfl
      have hc5 : s1.cdb 5 = b4 := cdb_of_received hready.received rfl
      have hc6 : s1.cdb 6 = b5 := cdb_of_received hready.received rfl
      have hc8 : s1.cdb 8 = b7 := cdb_of_received hready.received rfl
      have hc9 : s1.cdb 9 = b8 := cdb_of_received hready.received rfl
      have hlba' : be32 (fun i => s1.cdb (i + 1)) 2 = lba := by
        rw [← hlba, be32, hc3, hc4, hc5, hc6]
      have hlen' : len10 (fun i => s1.cdb (i + 1)) = blocks := by
        rw [← hblocks, len10, hc8, hc9]
      have htarget : s1.tgt (idOf v) = some t := by
        rw [htgt, ht]
      rw [hsend flagged hflagged, execCommand_eq env hcur htarget,
        execOn_wrapped env (idOf v) t
          (s := { s1 with trace := .exec s1.received :: s1.trace }) hwrapped]
      dsimp only
      rw [hc1, execSwitch_ten, hlba', hlen', eraseCdb_execTransfer,
        eraseCdb_ready hready]

/-!
## Transfers on and off the disk
-/

theorem offDisk_of_le {t : Target φ} {lba blocks : BitVec 32}
    (h : lba.toNat + blocks.toNat ≤ t.totalLba.toNat) : offDisk t lba blocks = false := by
  have htotal := t.totalLba.isLt
  have hsum : (lba + blocks).toNat = lba.toNat + blocks.toNat := by
    rw [BitVec.toNat_add, Nat.mod_eq_of_lt (by lia)]
  unfold offDisk
  simp only [BitVec.lt_def, hsum, Bool.or_eq_false_iff, decide_eq_false_iff_not]
  lia

/-- The two comparisons catch every request that leaves the disk, also those
whose end wraps round 32 bits. -/
theorem offDisk_of_lt {t : Target φ} {lba blocks : BitVec 32}
    (h : t.totalLba.toNat < lba.toNat + blocks.toNat) : offDisk t lba blocks = true := by
  have hlba := lba.isLt
  have hblocks := blocks.isLt
  unfold offDisk
  simp only [BitVec.lt_def, BitVec.toNat_add, Bool.or_eq_true, decide_eq_true_eq]
  rcases Nat.lt_or_ge (lba.toNat + blocks.toNat) (2 ^ 32) with hsum | hsum
  · left
    rwa [Nat.mod_eq_of_lt hsum]
  · right
    rw [Nat.mod_eq_sub_mod hsum, Nat.mod_eq_of_lt (by lia)]
    lia

section Transfers

variable {view : FileView φ} {env : Host φ} (hio : env.io.Lawful view)

include hio

theorem execWrite_onDisk (id : BitVec 3) {t : Target φ} (hm : Mounted view t)
    {lba blocks : BitVec 32} (hdisk : lba.toNat + blocks.toNat ≤ t.totalLba.toNat)
    {s : State φ} (hwin : InWindow env s.machine (512 * blocks.toNat)) :
    exists t', execWrite env id t lba blocks s =
        finishGood id { s.setTarget id t' with
          machine := s.machine.advance (512 * blocks.toNat), residual := 0 } ∧
      SameImage view t t' ∧
      forall k, sector view t' k =
        if lba.toNat ≤ k ∧ k < lba.toNat + blocks.toNat ∧ ¬ IsRoot t k then
          readBlock s.machine.ram (s.machine.dmaAddr.toNat + 512 * (k - lba.toNat)) 512
        else sector view t k := by
  rcases writeLoop_spec hio lba blocks.toNat 0 (readBlock env.stack 0 512) t s.machine
    (length_readBlock _ _ _) hm hdisk hwin with ⟨t', hloop, himage, hsector⟩
  refine ⟨t', ?_, himage, hsector⟩
  unfold execWrite
  rw [if_neg (by rw [offDisk_of_le hdisk]; decide)]
  simp only [hloop]
  rfl

theorem execRead_onDisk (id : BitVec 3) {t : Target φ} (hm : Mounted view t)
    {lba blocks : BitVec 32} (hdisk : lba.toNat + blocks.toNat ≤ t.totalLba.toNat)
    {s : State φ} (hfifo : s.dmaFifo = [])
    (hwin : InWindow env s.machine (512 * blocks.toNat)) :
    exists t', execRead env id t lba blocks s =
        finishGood id { s.setTarget id t' with
          dmaFifo := []
          machine := s.machine.deliver (sectors view t lba.toNat blocks.toNat)
          residual := 0 } ∧
      SameImage view t t' ∧ forall k, sector view t' k = sector view t k := by
  rcases readLoop_spec hio lba blocks.toNat 0 t s.machine hm hdisk hwin with
    ⟨t', hloop, himage, hsame⟩
  refine ⟨t', ?_, himage, hsame⟩
  unfold execRead
  rw [if_neg (by rw [offDisk_of_le hdisk]; decide)]
  simp only [hfifo, hloop]
  rfl

end Transfers

theorem execTransfer_offDisk (env : Host φ) (dir : Direction) (id : BitVec 3)
    {t : Target φ} {lba blocks : BitVec 32}
    (h : t.totalLba.toNat < lba.toNat + blocks.toNat) (s : State φ) :
    execTransfer env dir id t lba blocks s = finishCheck id senseInvalidLba lba s := by
  have hoff := offDisk_of_lt h
  cases dir with
  | read => exact if_pos hoff
  | write => exact if_pos hoff

/-!
## The round trip
-/

def imageSector (view : FileView φ) (s : State φ) (j : BitVec 3) (k : Nat) :
    Option (List Byte) :=
  (s.tgt j).map fun t => sector view t k

/-- The bytes `n` blocks at `lba` hold after a WRITE from the RAM at the DMA
address: that RAM, but for the synthesized root sector. -/
def writtenData (t : Target φ) (m : Machine) (lba n : Nat) : List Byte :=
  (List.range n).flatMap fun i =>
    if IsRoot t (lba + i) then t.root
    else readBlock m.ram (m.dmaAddr.toNat + 512 * i) 512

/-- A WRITE and then a READ of the same blocks, with the status read and the DMA
set up anew in between. -/
def RoundTrips (env : Host φ) (view : FileView φ) (s : State φ) (id : BitVec 3)
    (t : Target φ) : Prop :=
  forall (lba blocks : BitVec 32) (v v' : Byte) (flagged flagged' : List (Byte × Bool))
    (m : Machine),
    Encodes .write lba blocks id v (flagged.map Prod.fst) ->
    Encodes .read lba blocks id v' (flagged'.map Prod.fst) ->
    lba.toNat + blocks.toNat ≤ t.totalLba.toNat ->
    InWindow env s.machine (512 * blocks.toNat) ->
    InWindow env m (512 * blocks.toNat) ->
    let w := (sendCdb env v flagged s).2
    let r := (sendCdb env v' flagged' { (statusRead w).2 with machine := m }).2
    (statusRead w).1 = 0x00 ∧ (statusRead r).1 = 0x00 ∧
      r.machine.ram = writeBlock m.ram m.dmaAddr.toNat
        (writtenData t s.machine lba.toNat blocks.toNat) ∧
      w.machine.ram = s.machine.ram ∧
      w.machine.dmaAddr = s.machine.dmaAddr + BitVec.ofNat 32 (512 * blocks.toNat) ∧
      r.machine.dmaAddr = m.dmaAddr + BitVec.ofNat 32 (512 * blocks.toNat) ∧
      (forall j k,
        (j = id -> k < lba.toNat ∨ lba.toNat + blocks.toNat ≤ k ∨ IsRoot t k) ->
        imageSector view w j k = imageSector view s j k) ∧
      (forall j k, imageSector view r j k = imageSector view w j k)

/-- Two forms of one request differ in nothing but the CDB registers. -/
def FormsAgree (env : Host φ) (s : State φ) (id : BitVec 3) : Prop :=
  forall (dir : Direction) (lba blocks : BitVec 32) (v v' : Byte)
    (flagged flagged' : List (Byte × Bool)),
    Encodes dir lba blocks id v (flagged.map Prod.fst) ->
    Encodes dir lba blocks id v' (flagged'.map Prod.fst) ->
    eraseCdb (sendCdb env v flagged s).2 = eraseCdb (sendCdb env v' flagged' s).2

/-- A request that leaves the disk changes neither RAM nor any image. -/
def RejectsOffDisk (env : Host φ) (s : State φ) (id : BitVec 3) (t : Target φ) : Prop :=
  forall (dir : Direction) (lba blocks : BitVec 32) (v : Byte)
    (flagged : List (Byte × Bool)),
    Encodes dir lba blocks id v (flagged.map Prod.fst) ->
    t.totalLba.toNat < lba.toNat + blocks.toNat ->
    let x := (sendCdb env v flagged s).2
    (statusRead x).1 = 0x02 ∧
      (exists t', x.tgt id = some t' ∧ t'.sense = senseInvalidLba ∧ t'.file = t.file) ∧
      (forall j, j ≠ id -> x.tgt j = s.tgt j) ∧
      x.machine.ram = s.machine.ram ∧ x.machine.bus = s.machine.bus ∧
      x.machine.dmaAddr = s.machine.dmaAddr

theorem formsAgree (env : Host φ) {s : State φ} (hs : s.phase ≠ .cdb) {id : BitVec 3}
    {t : Target φ} (ht : s.tgt id = some t) : FormsAgree env s id := by
  intro dir lba blocks v v' flagged flagged' h h'
  rw [sendCdb_request env hs ht h rfl, sendCdb_request env hs ht h' rfl]

theorem rejectsOffDisk (env : Host φ) {s : State φ} (hs : s.phase ≠ .cdb)
    {id : BitVec 3} {t : Target φ} (ht : s.tgt id = some t) :
    RejectsOffDisk env s id t := by
  intro dir lba blocks v flagged henc hoff
  have hoff' : (contacted t).totalLba.toNat < lba.toNat + blocks.toNat := hoff
  have hsent := sendCdb_request env hs ht henc rfl
  rw [execTransfer_offDisk env dir id hoff'] at hsent
  have htgt := congrArg State.tgt hsent
  have hvalid : (sendCdb env v flagged s).2.statusValid = true :=
    congrArg State.statusValid hsent
  have hbyte := congrArg State.statusByte hsent
  have hram := congrArg (fun x => x.machine.ram) hsent
  have hbus := congrArg (fun x => x.machine.bus) hsent
  have haddr := congrArg (fun x => x.machine.dmaAddr) hsent
  dsimp only
  refine ⟨?_, ?_, ?_, hram, hbus, haddr⟩
  · rw [statusRead_of_valid hvalid]
    exact hbyte
  · refine ⟨{ t with sense := senseInvalidLba, senseLba := lba, probed := true }, ?_, rfl, rfl⟩
    have hat := congrFun htgt id
    simpa [eraseCdb, finishCheck, finish, accepted, contacted] using hat
  · intro j hj
    have hat := congrFun htgt j
    simpa [eraseCdb, finishCheck, finish, accepted, hj] using hat

theorem sectors_eq_flatMap (view : FileView φ) (t : Target φ) (a n : Nat) :
    sectors view t a n = (List.range n).flatMap fun i => sector view t (a + i) := by
  induction n generalizing a with
  | zero => rfl
  | succ n ih =>
      rw [sectors, ih, List.range_succ_eq_map, List.flatMap_cons, List.flatMap_map]
      congr 1
      congr 1
      funext i
      rw [Nat.add_assoc, Nat.add_comm 1 i]

theorem imageSector_of_tgt {view : FileView φ} {s : State φ} {j : BitVec 3} {t : Target φ}
    (h : s.tgt j = some t) (k : Nat) : imageSector view s j k = some (sector view t k) := by
  rw [imageSector, h]
  rfl

section RoundTrip

variable {view : FileView φ} {env : Host φ} (hio : env.io.Lawful view)

include hio

theorem sendCdb_write {s : State φ} (hs : s.phase ≠ .cdb) {id : BitVec 3} {t : Target φ}
    (ht : s.tgt id = some t) (hm : Mounted view t) {lba blocks : BitVec 32} {v : Byte}
    {flagged : List (Byte × Bool)}
    (henc : Encodes .write lba blocks id v (flagged.map Prod.fst))
    (hdisk : lba.toNat + blocks.toNat ≤ t.totalLba.toNat)
    (hwin : InWindow env s.machine (512 * blocks.toNat)) :
    let w := (sendCdb env v flagged s).2
    w.phase = .status ∧ w.statusValid = true ∧ w.statusByte = 0x00 ∧
      w.dmaFifo = s.dmaFifo ∧ w.machine.ram = s.machine.ram ∧
      w.machine.dmaAddr = s.machine.dmaAddr + BitVec.ofNat 32 (512 * blocks.toNat) ∧
      (forall j, j ≠ id -> w.tgt j = s.tgt j) ∧
      exists t', w.tgt id = some t' ∧ Mounted view t' ∧ t'.totalLba = t.totalLba ∧
        (forall k, IsRoot t' k <-> IsRoot t k) ∧ t'.root = t.root ∧
        forall k, sector view t' k =
          if lba.toNat ≤ k ∧ k < lba.toNat + blocks.toNat ∧ ¬ IsRoot t k then
            readBlock s.machine.ram (s.machine.dmaAddr.toNat + 512 * (k - lba.toNat)) 512
          else sector view t k := by
  have hsent := sendCdb_request env hs ht henc rfl
  have hm' : Mounted view (contacted t) := ⟨hm.root, hm.backed⟩
  rcases execWrite_onDisk hio id (s := accepted s id (contacted t)) hm' hdisk hwin with
    ⟨t', hexec, himage, hsector⟩
  rw [execTransfer, hexec] at hsent
  have htgt := congrArg State.tgt hsent
  have hphase := congrArg State.phase hsent
  have hvalid := congrArg State.statusValid hsent
  have hbyte := congrArg State.statusByte hsent
  have hfifo := congrArg State.dmaFifo hsent
  have hram := congrArg (fun x => x.machine.ram) hsent
  have haddr := congrArg (fun x => x.machine.dmaAddr) hsent
  refine ⟨hphase, hvalid, hbyte, hfifo, hram, haddr, ?_, ?_⟩
  · intro j hj
    have hat := congrFun htgt j
    simpa [eraseCdb, finishGood, finish, accepted, State.setTarget, hj] using hat
  · refine ⟨{ t' with sense := senseNone, senseLba := 0 }, ?_, ?_, ?_, ?_, ?_, hsector⟩
    · have hat := congrFun htgt id
      simpa [eraseCdb, finishGood, finish, accepted, State.setTarget] using hat
    · exact ⟨(himage.mounted hm').root, (himage.mounted hm').backed⟩
    · rw [himage.rest]
      rfl
    · intro k
      exact himage.isRoot k
    · rw [himage.rest]
      rfl

theorem sendCdb_read {s : State φ} (hs : s.phase ≠ .cdb) {id : BitVec 3} {t : Target φ}
    (ht : s.tgt id = some t) (hm : Mounted view t) (hfifo : s.dmaFifo = [])
    {lba blocks : BitVec 32} {v : Byte} {flagged : List (Byte × Bool)}
    (henc : Encodes .read lba blocks id v (flagged.map Prod.fst))
    (hdisk : lba.toNat + blocks.toNat ≤ t.totalLba.toNat)
    (hwin : InWindow env s.machine (512 * blocks.toNat)) :
    let r := (sendCdb env v flagged s).2
    r.statusValid = true ∧ r.statusByte = 0x00 ∧
      r.machine.ram = writeBlock s.machine.ram s.machine.dmaAddr.toNat
        (sectors view t lba.toNat blocks.toNat) ∧
      r.machine.dmaAddr = s.machine.dmaAddr + BitVec.ofNat 32 (512 * blocks.toNat) ∧
      forall j k, imageSector view r j k = imageSector view s j k := by
  have hsent := sendCdb_request env hs ht henc rfl
  have hm' : Mounted view (contacted t) := ⟨hm.root, hm.backed⟩
  rcases execRead_onDisk hio id (s := accepted s id (contacted t)) hm' hdisk hfifo hwin with
    ⟨t', hexec, himage, hsame⟩
  have hsectors : sectors view (contacted t) lba.toNat blocks.toNat =
      sectors view t lba.toNat blocks.toNat := sectors_congr fun _ _ _ => rfl
  rw [execTransfer, hexec, hsectors] at hsent
  have htgt := congrArg State.tgt hsent
  have hvalid := congrArg State.statusValid hsent
  have hbyte := congrArg State.statusByte hsent
  have hram := congrArg (fun x => x.machine.ram) hsent
  have haddr := congrArg (fun x => x.machine.dmaAddr) hsent
  refine ⟨hvalid, hbyte, hram, ?_, ?_⟩
  · have hlen := length_sectors hm lba.toNat blocks.toNat
    rw [← hlen]
    exact haddr
  · intro j k
    have hat := congrFun htgt j
    rcases eq_or_ne j id with hj | hj
    · subst hj
      have hread : (sendCdb env v flagged s).2.tgt j =
          some { t' with sense := senseNone, senseLba := 0 } := by
        simpa [eraseCdb, finishGood, finish, accepted, State.setTarget] using hat
      rw [imageSector_of_tgt hread, imageSector_of_tgt ht]
      exact congrArg some (hsame k)
    · have hother : (sendCdb env v flagged s).2.tgt j = s.tgt j := by
        simpa [eraseCdb, finishGood, finish, accepted, State.setTarget, hj] using hat
      rw [imageSector, imageSector, hother]

theorem roundTrips {s : State φ} (hs : s.phase ≠ .cdb) {id : BitVec 3} {t : Target φ}
    (ht : s.tgt id = some t) (hm : Mounted view t) (hfifo : s.dmaFifo = []) :
    RoundTrips env view s id t := by
  intro lba blocks v v' flagged flagged' m hwrite hread hdisk hwin hwin' w r
  rcases sendCdb_write hio hs ht hm hwrite hdisk hwin with
    ⟨hphase, hvalid, hbyte, hwfifo, hram, haddr, hother, t', ht', hm', htotal, hroot,
      hrootData, hsector⟩
  have hstatus := statusRead_of_valid hvalid
  have hs' : ({ (statusRead w).2 with machine := m } : State φ).phase ≠ .cdb := by
    rw [hstatus, hphase]
    change (if Phase.status = .status then Phase.idle else Phase.status) ≠ .cdb
    decide
  have ht'' : ({ (statusRead w).2 with machine := m } : State φ).tgt id = some t' := by
    rw [hstatus]
    exact ht'
  have hfifo' : ({ (statusRead w).2 with machine := m } : State φ).dmaFifo = [] := by
    rw [hstatus, ← hfifo]
    exact hwfifo
  have hdisk' : lba.toNat + blocks.toNat ≤ t'.totalLba.toNat := by
    rwa [htotal]
  rcases sendCdb_read hio hs' ht'' hm' hfifo' hread hdisk' hwin' with
    ⟨hrvalid, hrbyte, hrram, hraddr, hrimage⟩
  refine ⟨?_, ?_, ?_, hram, haddr, hraddr, ?_, ?_⟩
  · rw [hstatus]
    exact hbyte
  · rw [statusRead_of_valid hrvalid]
    exact hrbyte
  · have hdata : sectors view t' lba.toNat blocks.toNat =
        writtenData t s.machine lba.toNat blocks.toNat := by
      rw [sectors_eq_flatMap, writtenData]
      apply List.flatMap_congr
      intro i hi
      have hlt := List.mem_range.mp hi
      rw [hsector]
      rcases Decidable.em (IsRoot t (lba.toNat + i)) with hk | hk
      · rw [if_neg (fun h => h.2.2 hk), if_pos hk, sector, if_pos hk]
      · rw [if_pos ⟨by lia, by lia, hk⟩, if_neg hk, Nat.add_sub_cancel_left]
    rw [← hdata]
    exact hrram
  · intro j k houtside
    rcases eq_or_ne j id with hj | hj
    · subst hj
      rw [imageSector_of_tgt ht', imageSector_of_tgt ht, hsector, if_neg]
      intro hin
      rcases houtside rfl with hlo | hhi | hk
      · lia
      · lia
      · exact hin.2.2 hk
    · rw [imageSector, imageSector, hother j hj]
  · intro j k
    rw [hrimage, hstatus]
    rfl

end RoundTrip

/-- Whatever the layout of the image and the form of the CDBs: what a WRITE took
from RAM a READ brings back, the two forms of a request act alike, and a
request that leaves the disk is refused. -/
theorem write_read_round_trip {env : Host φ} {view : FileView φ}
    (hio : env.io.Lawful view) {s : State φ} (hs : s.phase ≠ .cdb) {id : BitVec 3}
    {t : Target φ} (ht : s.tgt id = some t) (hm : Mounted view t)
    (hfifo : s.dmaFifo = []) :
    RoundTrips env view s id t ∧ FormsAgree env s id ∧ RejectsOffDisk env s id t :=
  ⟨roundTrips hio hs ht hm hfifo, formsAgree env hs ht, rejectsOffDisk env hs ht⟩

structure FlatFile where
  size : Nat
  bytes : Nat -> Byte

def flatFile : HostFile FlatFile where
  pread f off := (f, if off + 512 ≤ f.size then some (readBlock f.bytes off 512) else none)
  pwrite f off buf :=
    ({ size := max f.size (off + buf.length), bytes := writeBlock f.bytes off buf }, true)

def flatView : FileView FlatFile where
  size := FlatFile.size
  bytes := FlatFile.bytes

theorem flatFile_lawful : flatFile.Lawful flatView where
  pread_size _ _ := rfl
  pread_bytes _ _ := rfl
  pread_data f off h := if_pos h
  pwrite_size f off buf hbuf h := by
    change max f.size (off + buf.length) = f.size
    rw [hbuf]
    exact Nat.max_eq_left h
  pwrite_bytes _ _ _ _ _ := rfl
  pwrite_ok _ _ _ _ _ := rfl

def flatHost : Host FlatFile where
  io := flatFile
  stramTop := 0x400000
  stack := fun _ => 0

def hfsVolume : Target FlatFile :=
  openTarget "disk.hfs".toList ⟨⟨1024, fun _ => 0⟩, 1024, 0⟩

/-- The volume serves requests, for instance block 1 as a 6-byte WRITE and as a
10-byte READ, and they round-trip. -/
theorem write_read_round_trip_hfs_volume :
    (RoundTrips flatHost flatView (boot (fun _ => some hfsVolume) clearMachine) 0 hfsVolume ∧
      FormsAgree flatHost (boot (fun _ => some hfsVolume) clearMachine) 0 ∧
      RejectsOffDisk flatHost (boot (fun _ => some hfsVolume) clearMachine) 0 hfsVolume) ∧
    Encodes .write 1 1 0 0x0A [0, 0, 1, 1, 0] ∧
    Encodes .read 1 1 0 0x1F [0x28, 0, 0, 0, 0, 1, 0, 0, 1, 0] ∧
    1 + 1 ≤ hfsVolume.totalLba.toNat ∧ InWindow flatHost clearMachine 512 := by
  have hio : flatHost.io.Lawful flatView := flatFile_lawful
  have ht : (boot (fun _ => some hfsVolume) clearMachine).tgt 0 = some hfsVolume := rfl
  have hwrite : Encodes .write 1 1 (idOf 0x0A) 0x0A [0, 0, 1, 1, 0] :=
    .six (by decide) (by decide) (by decide) (by decide)
  have hread : Encodes .read 1 1 (idOf 0x1F) 0x1F [0x28, 0, 0, 0, 0, 1, 0, 0, 1, 0] :=
    .ten (by decide) (by decide) (by decide)
  refine ⟨?_, hwrite, hread, by decide, by decide⟩
  exact write_read_round_trip hio (by decide) ht (mounted_openTarget flatView _ rfl) rfl

/-!
## What a disk keeps
-/

def Target.shape (t : Target φ) : Bool × BitVec 32 × List Byte × Bool :=
  (t.hfs, t.totalLba, t.root, t.swapped)

/-- `t'` is `t` after commands: its image has the same size, and the same bytes unless `w`. -/
structure KeepsDisk (view : FileView φ) (w : Prop) (t t' : Target φ) : Prop where
  shape : t'.shape = t.shape
  size : view.size t'.file = view.size t.file
  bytes : ¬ w -> view.bytes t'.file = view.bytes t.file

def Leaves (view : FileView φ) (w : Prop) (id : BitVec 3) (t : Target φ) (s : State φ) : Prop :=
  exists t', s.tgt id = some t' ∧ KeepsDisk view w t t'

def State.opcode (s : State φ) : Byte :=
  if s.icd then s.cdb 1 else s.cdb 0 &&& 0x1F

def WritesTo (id : BitVec 3) (s : State φ) : Op -> Prop
  | .cmdByte v _ => s.curId = some id ∧ (storeByte v s).cdbLen ≤ s.cdbGot + 1 ∧
      ((storeByte v s).opcode = 0x0A ∨ (storeByte v s).opcode = 0x2A)
  | _ => False

section Disks

variable {view : FileView φ} {w : Prop} {env : Host φ} {id : BitVec 3} {s : State φ}
  {t t' t'' : Target φ}

theorem KeepsDisk.refl : KeepsDisk view w t t :=
  ⟨rfl, rfl, fun _ => rfl⟩

theorem KeepsDisk.trans (h : KeepsDisk view w t t') (h' : KeepsDisk view w t' t'') :
    KeepsDisk view w t t'' :=
  ⟨h'.shape.trans h.shape, h'.size.trans h.size, fun hw => (h'.bytes hw).trans (h.bytes hw)⟩

theorem KeepsDisk.mounted (h : KeepsDisk view w t t') (hm : Mounted view t) : Mounted view t' := by
  have hshape := h.shape
  unfold Target.shape at hshape
  rw [Prod.mk.injEq, Prod.mk.injEq, Prod.mk.injEq] at hshape
  rcases hshape with ⟨hhfs, htotal, hroot, -⟩
  exact ⟨hroot ▸ hm.root, by rw [htotal, h.size, hhfs]; exact hm.backed⟩

theorem leaves_finish (h : Leaves view w id t s) (st sense : Byte) (lba : BitVec 32) :
    Leaves view w id t (finish id st sense lba s) := by
  rcases h with ⟨t', ht', hkeeps⟩
  refine ⟨{ t' with sense := sense, senseLba := lba }, ?_, hkeeps.shape, hkeeps.size, hkeeps.bytes⟩
  simp [finish, ht']

theorem leaves_good (h : Leaves view w id t s) : Leaves view w id t (finishGood id s) :=
  leaves_finish h _ _ _

theorem leaves_check (h : Leaves view w id t s) {sense : Byte} {lba : BitVec 32} :
    Leaves view w id t (finishCheck id sense lba s) :=
  leaves_finish h _ _ _

theorem leaves_finishTransfer (h : Leaves view w id t s) (lba blocks : BitVec 32)
    (failed : Option Nat) : Leaves view w id t (finishTransfer id lba blocks failed s) := by
  cases failed with
  | none => exact leaves_good h
  | some i => exact leaves_check h

theorem leaves_ite {c : Prop} [Decidable c] {a b : State φ} (ha : c -> Leaves view w id t a)
    (hb : ¬ c -> Leaves view w id t b) : Leaves view w id t (if c then a else b) := by
  split
  · exact ha ‹_›
  · exact hb ‹_›

theorem readLoop_keeps (hio : env.io.Lawful view) (lba : BitVec 32) (todo i : Nat)
    (t : Target φ) (fifo : List Byte) (m : Machine) :
    KeepsDisk view w t (readLoop env lba todo i t fifo m).1.1 := by
  induction todo generalizing i t fifo m with
  | zero => exact KeepsDisk.refl
  | succ todo ih =>
      have hread : KeepsDisk view w t (readLba env.io t (lba + BitVec.ofNat 32 i)).1 := by
        rw [readLba_eq]
        split
        · exact KeepsDisk.refl
        · exact ⟨rfl, hio.pread_size _ _, fun _ => hio.pread_bytes _ _⟩
      unfold readLoop
      dsimp only
      split
      · exact hread
      · exact hread.trans (ih _ _ _ _)

theorem length_dmaIn {buf : List Byte} (h : buf.length = 512) (m : Machine) :
    (dmaIn env buf 512 m).1.length = 512 := by
  unfold dmaIn
  rw [if_neg (by decide)]
  dsimp only
  split
  · simp [h]
  · exact h

theorem writeLoop_keeps (hio : env.io.Lawful view) (hw : w) (lba : BitVec 32) (todo i : Nat)
    (buf : List Byte) (t : Target φ) (m : Machine) (hbuf : buf.length = 512)
    (hm : Mounted view t) (hdisk : lba.toNat + i + todo ≤ t.totalLba.toNat) :
    KeepsDisk view w t (writeLoop env lba todo i buf t m).1.1 := by
  induction todo generalizing i buf t m with
  | zero => exact KeepsDisk.refl
  | succ todo ih =>
      have htotal := t.totalLba.isLt
      have hlba : (lba + BitVec.ofNat 32 i).toNat = lba.toNat + i := toNat_add_ofNat (by lia)
      have himage := (@writeLba_spec φ view env.io hio t hm (lba + BitVec.ofNat 32 i)
        (by lia) _ (@length_dmaIn φ env buf hbuf m)).2.1
      have hwrite : KeepsDisk view w t
          (writeLba env.io t (lba + BitVec.ofNat 32 i) (dmaIn env buf 512 m).1).1 :=
        ⟨by rw [himage.rest]; rfl, himage.size, fun hnot => absurd hw hnot⟩
      unfold writeLoop
      dsimp only
      split
      · refine hwrite.trans (ih _ _ _ _ (length_dmaIn hbuf m) (hwrite.mounted hm) ?_)
        rw [himage.rest]
        dsimp only
        lia
      · exact hwrite

theorem leaves_execSwitch (hio : env.io.Lawful view) (hm : Mounted view t)
    (ht : s.tgt id = some t) (icd : Bool) {op : Byte} (hop : op = 0x0A ∨ op = 0x2A -> w)
    (c : Nat -> Byte) : Leaves view w id t (execSwitch env id t icd op c s) := by
  have hgood {s' : State φ} (hs' : s'.tgt = s.tgt) : Leaves view w id t (finishGood id s') :=
    leaves_good ⟨t, by rw [hs', ht], KeepsDisk.refl⟩
  have hcheck {sense : Byte} {lba : BitVec 32} :
      Leaves view w id t (finishCheck id sense lba s) :=
    leaves_check ⟨t, ht, KeepsDisk.refl⟩
  have hsense : Leaves view w id t (execRequestSense env id t (allocOr c 4) s) := by
    refine leaves_good ?_
    exact ⟨_, Function.update_self _ _ _, rfl, rfl, fun _ => rfl⟩
  have hmode (page : Byte) (alloc : Nat) :
      Leaves view w id t (execModeSense env id t page alloc s) := by
    unfold execModeSense
    split
    · exact hcheck
    · exact hgood rfl
  have hread (lba blocks : BitVec 32) : Leaves view w id t (execRead env id t lba blocks s) := by
    refine leaves_ite (fun _ => hcheck) fun _ => leaves_finishTransfer ?_ _ _ _
    exact ⟨_, Function.update_self _ _ _, readLoop_keeps hio lba _ 0 t _ _⟩
  have hwrite (hw : w) (lba blocks : BitVec 32) :
      Leaves view w id t (execWrite env id t lba blocks s) := by
    refine leaves_ite (fun _ => hcheck) fun hon => leaves_finishTransfer ?_ _ _ _
    have hdisk : lba.toNat + blocks.toNat ≤ t.totalLba.toNat :=
      Nat.le_of_not_lt fun hlt => hon (offDisk_of_lt hlt)
    exact ⟨_, Function.update_self _ _ _,
      writeLoop_keeps hio hw lba _ 0 _ t _ (length_readBlock _ _ _) hm hdisk⟩
  have hicd {body : State φ -> State φ} (hbody : Leaves view w id t (body s)) :
      Leaves view w id t (icdOnly icd id body s) :=
    leaves_ite (fun _ => hbody) fun _ => hcheck
  refine leaves_ite (fun _ => hgood rfl) fun _ => leaves_ite (fun _ => hsense) fun _ => ?_
  refine leaves_ite (fun _ => hgood rfl) fun _ => leaves_ite (fun _ => hread _ _) fun _ => ?_
  refine leaves_ite (fun h => hwrite (hop (Or.inl h)) _ _) fun _ => ?_
  refine leaves_ite (fun _ => leaves_ite (fun _ => hgood rfl) fun _ => hcheck) fun _ => ?_
  refine leaves_ite (fun _ => hgood rfl) fun _ => leaves_ite (fun _ => hgood rfl) fun _ => ?_
  refine leaves_ite (fun _ => hmode _ _) fun _ => leaves_ite (fun _ => hicd (hgood rfl)) fun _ => ?_
  refine leaves_ite (fun _ => hicd (hgood rfl)) fun _ => ?_
  refine leaves_ite (fun _ => hicd (hread _ _)) fun _ => ?_
  exact leaves_ite (fun h => hicd (hwrite (hop (Or.inr h)) _ _)) fun _ => hcheck

theorem leaves_execOn (hio : env.io.Lawful view) (hm : Mounted view t)
    (hop : s.opcode = 0x0A ∨ s.opcode = 0x2A -> w) : Leaves view w id t (execOn env id t s) := by
  unfold execOn
  extract_lets c op lun t1 s1
  have hself : s1.tgt id = some t1 := Function.update_self _ _ _
  have hleft : Leaves view w id t s1 := ⟨t1, hself, rfl, rfl, fun _ => rfl⟩
  have hcode : op = s.opcode := by
    unfold op c State.opcode
    split
    · rfl
    · rfl
  refine leaves_ite (fun _ => leaves_good hleft) fun _ => ?_
  refine leaves_ite (fun _ => leaves_check hleft) fun _ => ?_
  rw [← hcode] at hop
  have hm1 : Mounted view t1 := ⟨hm.root, hm.backed⟩
  rcases leaves_execSwitch hio hm1 hself s1.icd hop c with ⟨t', ht', hkeeps⟩
  exact ⟨t', ht', hkeeps.shape, hkeeps.size, hkeeps.bytes⟩

theorem leaves_other {s' : State φ} (ht : s.tgt id = some t) (h : s'.tgt id = s.tgt id) :
    Leaves view w id t s' :=
  ⟨t, h.trans ht, KeepsDisk.refl⟩

theorem leaves_execCommand (hio : env.io.Lawful view) (hm : Mounted view t)
    (ht : s.tgt id = some t)
    (hop : s.curId = some id -> s.opcode = 0x0A ∨ s.opcode = 0x2A -> w) :
    Leaves view w id t (execCommand env s) := by
  unfold execCommand
  dsimp only
  split
  · exact leaves_other ht rfl
  · rename_i other hcur
    split
    · exact leaves_other ht rfl
    · rename_i t' ht'
      by_cases hother : id = other
      · subst hother
        rw [Option.some.inj (ht'.symm.trans ht)]
        exact leaves_execOn hio hm (hop hcur)
      · have hattached :
            State.attached { s with trace := .exec s.received :: s.trace } other := by
          show (s.tgt other).isSome = true
          rw [ht']
          rfl
        exact leaves_other ht ((completed_execOn env hattached t').otherTargets id hother)

theorem leaves_step (hio : env.io.Lawful view) (hm : Mounted view t) (ht : s.tgt id = some t)
    (op : Op) : Leaves view (WritesTo id s op) id t (step env s op) := by
  have hsame : Leaves view (WritesTo id s op) id t s := ⟨t, ht, KeepsDisk.refl⟩
  cases op with
  | release => exact hsame
  | dmaFifoReset => exact hsame
  | guest m => exact hsame
  | statusRead =>
      unfold step statusRead
      dsimp only
      split
      · cases hid : s.curId with
        | none => exact hsame
        | some other =>
            by_cases hother : id = other
            · rw [← hother]
              refine ⟨{ t with sense := senseInvalidCdb }, ?_, rfl, rfl, fun _ => rfl⟩
              simp [ht]
            · exact leaves_other ht (Function.update_of_ne hother _ _)
      · exact hsame
  | cmdByte v firstByte =>
      unfold step cmdByte
      dsimp only
      repeat' split
      all_goals first
        | exact hsame
        | exact leaves_execCommand hio hm ht fun hid hop => ⟨hid, Nat.le_of_not_lt ‹_›, hop⟩

end Disks

/-- Whatever is sent, every disk keeps its size and its layout, and one that is sent no WRITE
keeps every byte of its image. -/
theorem disks_kept {view : FileView φ} {env : Host φ} (hio : env.io.Lawful view)
    {s : State φ} {id : BitVec 3} {t : Target φ} (ht : s.tgt id = some t) (hm : Mounted view t)
    (ops : List Op) :
    exists t', (run (step env) s ops).tgt id = some t' ∧ t'.shape = t.shape ∧
      view.size t'.file = view.size t.file ∧
      (Steps (step env) (fun s op => ¬ WritesTo id s op) s ops ->
        view.bytes t'.file = view.bytes t.file) := by
  induction ops generalizing s t with
  | nil => exact ⟨t, ht, rfl, rfl, fun _ => rfl⟩
  | cons op rest ih =>
      rcases @leaves_step φ view env id s t hio hm ht op with ⟨t1, ht1, hstep⟩
      rcases ih ht1 (hstep.mounted hm) with ⟨t', ht', hshape, hsize, hbytes⟩
      refine ⟨t', ht', hshape.trans hstep.shape, hsize.trans hstep.size, ?_⟩
      intro hops
      exact (hbytes hops.2).trans (hstep.bytes hops.1)

/-- The first byte of a READ is sent to the volume. -/
theorem disks_kept_hfs_volume :
    exists t', (run (step flatHost) (boot (fun _ => some hfsVolume) clearMachine)
      [.cmdByte 0x08 true]).tgt 0 = some t' ∧ t'.shape = hfsVolume.shape ∧
      flatView.size t'.file = flatView.size hfsVolume.file := by
  rcases @disks_kept FlatFile flatView flatHost flatFile_lawful
    (boot (fun _ => some hfsVolume) clearMachine) 0 hfsVolume rfl
    (mounted_openTarget flatView _ rfl) [.cmdByte 0x08 true] with ⟨t', ht', hshape, hsize, _⟩
  exact ⟨t', ht', hshape, hsize⟩

end Acsi
end PistormAtari
