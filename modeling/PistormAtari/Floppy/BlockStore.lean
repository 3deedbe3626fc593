import PistormAtari.Floppy.DriveState

/-!
# The floppy as a block store

Sectors are windows of the image.  Reading several delivers them one behind the other,
what is written is read back, and a request that fails leaves image and memory alone.
-/

namespace PistormAtari
namespace Floppy

open Foundation
open Config
open Acsi (Byte Machine)

variable {φ : Type _}

structure SectorId where
  track : Nat
  side : Nat
  sector : Nat
deriving DecidableEq, Repr

def SectorId.offset (d : Drive) (x : SectorId) : Nat :=
  sectorOffset d x.track x.side x.sector

def SectorId.inRange (d : Drive) (x : SectorId) : Prop :=
  ¬ outOfRange d x.track x.side x.sector 1

def SectorId.read (u : DriveUnit) (x : SectorId) : Option (List UInt8) :=
  imageRead u x.track x.side x.sector 1

/-!
## Windows
-/

def SectorId.number (d : Drive) (x : SectorId) : Nat :=
  (x.track * sidesOf d + x.side) * d.sectorsPerTrack + (x.sector - 1)

theorem SectorId.offset_eq (d : Drive) (x : SectorId) :
    x.offset d = sectorSize * x.number d := by
  unfold SectorId.offset sectorOffset SectorId.number
  dsimp only
  ring

theorem digits_inj {a a' b b' m : Nat} (hb : b < m) (hb' : b' < m)
    (h : a * m + b = a' * m + b') : a = a' ∧ b = b' := by
  have hpos : 0 < m := Nat.lt_of_le_of_lt (Nat.zero_le b) hb
  have hquot : forall c e, e < m -> (c * m + e) / m = c := by
    intro c e he
    rw [Nat.add_comm, Nat.add_mul_div_right e c hpos, Nat.div_eq_of_lt he, Nat.zero_add]
  have ha : a = a' := by
    rw [← hquot a b hb, ← hquot a' b' hb', h]
  rw [ha] at h
  exact ⟨ha, Nat.add_left_cancel h⟩

theorem SectorId.number_inj {d : Drive} {x y : SectorId} (hx : x.inRange d) (hy : y.inRange d)
    (h : x.number d = y.number d) : x = y := by
  unfold SectorId.inRange outOfRange at hx hy
  have hsector := digits_inj (by lia) (by lia) h
  have hside := digits_inj (by lia) (by lia) hsector.1
  cases x
  cases y
  simp only [SectorId.mk.injEq]
  dsimp only at hx hy hsector hside
  lia

theorem SectorId.number_lt {d : Drive} {x : SectorId} (hx : x.inRange d) :
    x.number d < d.numTracks * sidesOf d * d.sectorsPerTrack := by
  unfold SectorId.inRange outOfRange at hx
  have htrack : x.track + 1 ≤ d.numTracks := by lia
  have hside : x.side + 1 ≤ sidesOf d := by lia
  have hrow : x.track * sidesOf d + x.side + 1 ≤ d.numTracks * sidesOf d := by
    have hnext := Nat.mul_le_mul_right (sidesOf d) htrack
    rw [Nat.succ_mul] at hnext
    lia
  have hall := Nat.mul_le_mul_right d.sectorsPerTrack hrow
  rw [Nat.succ_mul] at hall
  unfold SectorId.number
  lia

theorem SectorId.window_inside {d : Drive} {x : SectorId} (hx : x.inRange d) :
    x.offset d + sectorSize ≤
      d.numTracks * sidesOf d * d.sectorsPerTrack * sectorSize := by
  have hlt := x.number_lt hx
  have hnext := Nat.mul_le_mul_right sectorSize (Nat.succ_le_of_lt hlt)
  rw [x.offset_eq]
  lia

theorem SectorId.windows_disjoint {d : Drive} {x y : SectorId} (hx : x.inRange d)
    (hy : y.inRange d) (hne : x ≠ y) :
    x.offset d + sectorSize ≤ y.offset d ∨ y.offset d + sectorSize ≤ x.offset d := by
  have hnumber : x.number d ≠ y.number d := fun h => hne (number_inj hx hy h)
  rw [x.offset_eq, y.offset_eq]
  unfold sectorSize
  lia

/-!
## Reads
-/

/-- The reads of `count` sectors from `sector` on, one behind the other. -/
def singleReads (u : DriveUnit) (track side : Nat) : Nat -> Nat -> Option (List UInt8)
  | _, 0 => some []
  | sector, count + 1 => do
      let first <- SectorId.read u ⟨track, side, sector⟩
      let rest <- singleReads u track side (sector + 1) count
      return first ++ rest

variable {u : DriveUnit} {track side sector count : Nat}

theorem imageRead_eq_some {buf : List UInt8} :
    imageRead u track side sector count = some buf <->
      exists img, u.drive.fd = some img ∧ u.drive.diskInserted = true ∧
        ¬ outOfRange u.drive track side sector count ∧
        sectorOffset u.drive track side sector + count * sectorSize ≤
          max img.length (sectorOffset u.drive track side sector) ∧
        buf = readCells img (sectorOffset u.drive track side sector) (count * sectorSize) := by
  unfold imageRead
  cases u.drive.fd with
  | none => simp
  | some img =>
      have hlen := length_readCells img (sectorOffset u.drive track side sector)
        (count * sectorSize)
      simp only [Option.some.injEq, exists_eq_left']
      by_cases hin : u.drive.diskInserted = false
      · simp [hin]
      · rw [if_neg hin]
        by_cases hrange : outOfRange u.drive track side sector count
        · simp [hrange]
        · rw [if_neg hrange]
          by_cases hwhole : (readCells img (sectorOffset u.drive track side sector)
              (count * sectorSize)).length = count * sectorSize
          · rw [if_pos hwhole, Option.some.injEq]
            constructor
            · intro h
              exact ⟨by simpa using hin, hrange, by lia, h.symm⟩
            · rintro ⟨_, _, _, h⟩
              exact h.symm
          · rw [if_neg hwhole]
            constructor
            · intro h
              cases h
            · rintro ⟨_, _, hfits, _⟩
              exact absurd (by lia) hwhole

theorem sectorOffset_succ (d : Drive) (track side sector : Nat) (hsector : 1 ≤ sector) :
    sectorOffset d track side (sector + 1) = sectorOffset d track side sector + sectorSize := by
  unfold sectorOffset sectorSize
  dsimp only
  lia

theorem imageRead_split (u : DriveUnit) (track side sector count : Nat) :
    imageRead u track side sector (count + 2) =
      (imageRead u track side sector 1).bind (fun first =>
        (imageRead u track side (sector + 1) (count + 1)).map (first ++ ·)) := by
  apply Option.ext
  intro buf
  rw [imageRead_eq_some]
  simp only [Option.bind_eq_some_iff, Option.map_eq_some_iff, imageRead_eq_some]
  constructor
  · rintro ⟨img, hfd, hin, hrange, hfits, rfl⟩
    unfold outOfRange at hrange ⊢
    have hnext := sectorOffset_succ u.drive track side sector (by lia)
    refine ⟨_, ⟨img, hfd, hin, by lia, by unfold sectorSize at *; lia, rfl⟩, _,
      ⟨img, hfd, hin, by lia, by rw [hnext]; unfold sectorSize at *; lia, rfl⟩, ?_⟩
    rw [hnext, Nat.one_mul, ← readCells_append]
    congr 1
    ring
  · rintro ⟨_, ⟨img, hfd, hin, hrange, hfits, rfl⟩, _, ⟨img', hfd', _, hrange', hfits', rfl⟩, rfl⟩
    rw [hfd] at hfd'
    cases hfd'
    unfold outOfRange at hrange hrange' ⊢
    have hnext := sectorOffset_succ u.drive track side sector (by lia)
    rw [hnext] at hfits'
    refine ⟨img, hfd, hin, by lia, by unfold sectorSize at *; lia, ?_⟩
    rw [hnext, Nat.one_mul, ← readCells_append]
    congr 1
    ring

theorem imageRead_eq_singleReads (u : DriveUnit) (track side : Nat) (count sector : Nat) :
    imageRead u track side sector (count + 1) = singleReads u track side sector (count + 1) := by
  induction count generalizing sector with
  | zero =>
      unfold singleReads singleReads SectorId.read
      cases imageRead u track side sector 1 with
      | none => rfl
      | some buf => simp
  | succ count ih =>
      rw [imageRead_split, ih]
      conv_rhs => unfold singleReads
      unfold SectorId.read
      cases imageRead u track side sector 1 with
      | none => rfl
      | some first =>
          cases singleReads u track side (sector + 1) (count + 1) with
          | none => rfl
          | some rest => rfl

/-!
## Writes
-/

theorem imageWrite_eq_some {u u' : DriveUnit} {track side sector count : Nat}
    {buf : List UInt8} :
    imageWrite u track side sector count buf = some u' <->
      exists img, u.drive.fd = some img ∧ u.drive.diskInserted = true ∧
        u.drive.writeProtected = false ∧ ¬ outOfRange u.drive track side sector count ∧
        u.writable = true ∧
        u' = { u with drive := { u.drive with
          fd := some (writeCells 0 img (sectorOffset u.drive track side sector) buf) } } := by
  unfold imageWrite
  cases u.drive.fd with
  | none => simp
  | some img =>
      simp only [Option.some.injEq, exists_eq_left']
      by_cases hin : u.drive.diskInserted = false
      · simp [hin]
      · rw [if_neg hin]
        by_cases hprotected : u.drive.writeProtected = true
        · simp [hprotected]
        · rw [if_neg hprotected]
          by_cases hrange : outOfRange u.drive track side sector count
          · simp [hrange]
          · rw [if_neg hrange]
            by_cases hmode : u.writable = false
            · simp [hmode]
            · rw [if_neg hmode]
              simp only [Bool.not_eq_false] at hin hmode
              simp only [Bool.not_eq_true] at hprotected
              simp [hin, hprotected, hrange, hmode, eq_comm]

theorem imageRead_imageWrite {u u' : DriveUnit} {track side sector count : Nat}
    {buf : List UInt8} (hbuf : buf.length = count * sectorSize)
    (h : imageWrite u track side sector count buf = some u') :
    imageRead u' track side sector count = some buf := by
  rcases imageWrite_eq_some.mp h with ⟨img, hfd, hin, _, hrange, _, rfl⟩
  apply imageRead_eq_some.mpr
  refine ⟨_, rfl, hin, hrange, ?_, ?_⟩
  · rw [length_writeCells, hbuf]
    show sectorOffset u.drive track side sector + count * sectorSize ≤ _
    lia
  · rw [← hbuf]
    exact (readCells_writeCells_self 0 img _ buf).symm

def SectorId.within (x : SectorId) (track side sector count : Nat) : Prop :=
  x.track = track ∧ x.side = side ∧ sector ≤ x.sector ∧ x.sector < sector + count

theorem SectorId.window_beside {d : Drive} {x : SectorId} {track side sector count : Nat}
    (hx : x.inRange d) (hrange : ¬ outOfRange d track side sector count)
    (hother : ¬ x.within track side sector count) :
    x.offset d + sectorSize ≤ sectorOffset d track side sector ∨
      sectorOffset d track side sector + count * sectorSize ≤ x.offset d := by
  have hnumber : forall k, k < count ->
      (SectorId.mk track side (sector + k)).number d =
        (SectorId.mk track side sector).number d + k := by
    intro k hk
    unfold outOfRange at hrange
    unfold SectorId.number
    dsimp only
    lia
  have hmiss : forall k, k < count ->
      x.number d ≠ (SectorId.mk track side sector).number d + k := by
    intro k hk hsame
    apply hother
    rw [← hnumber k hk] at hsame
    have hin : (SectorId.mk track side (sector + k)).inRange d := by
      unfold SectorId.inRange outOfRange
      unfold outOfRange at hrange
      dsimp only
      lia
    rw [SectorId.number_inj hx hin hsame]
    exact ⟨rfl, rfl, by dsimp only; lia, by dsimp only; lia⟩
  have hstart : sectorOffset d track side sector =
      sectorSize * (SectorId.mk track side sector).number d :=
    (SectorId.mk track side sector).offset_eq d
  have hplace : x.number d < (SectorId.mk track side sector).number d ∨
      (SectorId.mk track side sector).number d + count ≤ x.number d := by
    by_contra hbetween
    have hk := hmiss (x.number d - (SectorId.mk track side sector).number d)
    lia
  rw [x.offset_eq, hstart]
  unfold sectorSize
  lia

theorem read_imageWrite_other {u u' : DriveUnit} {track side sector count : Nat}
    {buf data : List UInt8} {x : SectorId} (hbuf : buf.length = count * sectorSize)
    (h : imageWrite u track side sector count buf = some u')
    (hother : ¬ x.within track side sector count) (hread : x.read u = some data) :
    x.read u' = some data := by
  rcases imageWrite_eq_some.mp h with ⟨img, hfd, _, _, hrange, _, rfl⟩
  rcases imageRead_eq_some.mp hread with ⟨img', hfd', hin, hx, hfits, rfl⟩
  rw [hfd] at hfd'
  cases hfd'
  have hbeside := SectorId.window_beside hx hrange hother
  unfold SectorId.offset at hbeside
  have hheld : sectorOffset u.drive x.track x.side x.sector + 1 * sectorSize ≤ img.length := by
    unfold sectorSize at hfits ⊢
    lia
  apply imageRead_eq_some.mpr
  refine ⟨_, rfl, hin, hx, ?_, ?_⟩
  · rw [length_writeCells]
    show sectorOffset u.drive x.track x.side x.sector + 1 * sectorSize ≤ _
    lia
  · apply (readCells_writeCells_of_disjoint 0 hheld _).symm
    rw [hbuf, Nat.one_mul]
    exact hbeside

/-!
## Commands
-/

/-- A sector command has ended with an error.  It has moved nothing. -/
structure Refused (bits : Byte) (p p' : Port φ) : Prop where
  notBusy : p'.fdc.status &&& fdcStatusBusy = 0
  reported : p'.fdc.status &&& bits ≠ 0
  dmaError : p'.machine.dmaStatus = 0
  driveA : p'.fdc.driveA = p.fdc.driveA
  driveB : p'.fdc.driveB = p.fdc.driveB
  ram : p'.machine.ram = p.machine.ram
  bus : p'.machine.bus = p.machine.bus

structure Done (p' : Port φ) : Prop where
  notBusy : p'.fdc.status &&& fdcStatusBusy = 0
  noError : p'.fdc.status &&& (fdcStatusRecnf ||| fdcStatusWrtprot ||| fdcStatusLostdata) = 0
  count : p'.fdc.dmaSectorCount = 0
  dmaOk : p'.machine.dmaStatus = dmaStatusOk ||| dmaStatusSczero

/-- What Read Sectors does: the sectors go to memory one behind the other, or nothing. -/
structure ReadOutcome (env : PortEnv φ) (p p' : Port φ) : Prop where
  delivered : forall buf, ¬ noDrive p.fdc.selectedDrive ->
    singleReads (p.selected env) (p.selected env).currentTrack p.fdc.selectedSide
      p.fdc.sectorReg.toNat p.fdc.count = some buf ->
    Done p' ∧ p'.fdc.driveA = p.fdc.driveA ∧ p'.fdc.driveB = p.fdc.driveB ∧
      p'.machine.ram = (p.machine.copyToRam env.acsi (buf.map UInt8.toBitVec)).ram ∧
      p'.machine.bus = (p.machine.copyToRam env.acsi (buf.map UInt8.toBitVec)).bus
  untransferred : forall a,
    a < p.machine.dmaAddr.toNat ∨
      p.machine.dmaAddr.toNat + p.fdc.count * sectorSize ≤ a ->
    p'.machine.ram a = p.machine.ram a
  unreadable : singleReads (p.selected env) (p.selected env).currentTrack p.fdc.selectedSide
      p.fdc.sectorReg.toNat p.fdc.count = Option.none ->
    Refused fdcStatusRecnf p p'
  noDisk : noDrive p.fdc.selectedDrive ∨ (p.selected env).drive.diskInserted = false ->
    Refused fdcStatusRecnf p p'
  outside : outOfRange (p.selected env).drive (p.selected env).currentTrack p.fdc.selectedSide
      p.fdc.sectorReg.toNat p.fdc.count ->
    Refused fdcStatusRecnf p p'

/-- What Write Sectors does: a read of the sectors finds what memory held, and the
others that the image holds stay, or nothing happens. -/
structure WriteOutcome (env : PortEnv φ) (p p' : Port φ) : Prop where
  stored : forall u', ¬ noDrive p.fdc.selectedDrive ->
    imageWrite (p.selected env) (p.selected env).currentTrack p.fdc.selectedSide
      p.fdc.sectorReg.toNat p.fdc.count (p.writeBuffer env) = some u' ->
    Done p' ∧ p'.selected env = u' ∧
      singleReads u' (p.selected env).currentTrack p.fdc.selectedSide
        p.fdc.sectorReg.toNat p.fdc.count = some (p.writeBuffer env) ∧
      (forall (x : SectorId) data,
        ¬ x.within (p.selected env).currentTrack p.fdc.selectedSide p.fdc.sectorReg.toNat
          p.fdc.count -> x.read (p.selected env) = some data -> x.read u' = some data) ∧
      (forall i, i ≠ p.fdc.selectedDrive -> p'.fdc.unit env.outside i = p.fdc.unit env.outside i)
  memory : p'.machine.ram = p.machine.ram
  unwritable : (p.selected env).drive.writeProtected = false ->
    imageWrite (p.selected env) (p.selected env).currentTrack p.fdc.selectedSide
      p.fdc.sectorReg.toNat p.fdc.count (p.writeBuffer env) = Option.none ->
    Refused fdcStatusRecnf p p'
  noDisk : noDrive p.fdc.selectedDrive ∨ (p.selected env).drive.diskInserted = false ->
    Refused fdcStatusRecnf p p'
  guarded : ¬ noDrive p.fdc.selectedDrive -> (p.selected env).drive.diskInserted = true ->
    (p.selected env).drive.writeProtected = true -> Refused fdcStatusWrtprot p p'
  outside : ¬ noDrive p.fdc.selectedDrive -> (p.selected env).drive.diskInserted = true ->
    (p.selected env).drive.writeProtected = false ->
    outOfRange (p.selected env).drive (p.selected env).currentTrack p.fdc.selectedSide
      p.fdc.sectorReg.toNat p.fdc.count -> Refused fdcStatusRecnf p p'

theorem and_clear_and {x m k : Byte} (h : ~~~m &&& k = 0) : x &&& ~~~m &&& k = 0 := by
  rw [BitVec.and_assoc, h]
  exact BitVec.and_zero

theorem set_and_ne_zero {x bits m : Byte} (hkept : bits &&& ~~~m = bits) (hbits : bits ≠ 0) :
    (x ||| bits) &&& ~~~m &&& bits ≠ 0 := by
  have hself : (x ||| bits) &&& bits = bits := by
    ext i hi
    simp only [BitVec.getElem_and, BitVec.getElem_or]
    cases x[i]
    · simp
    · simp
  rw [BitVec.and_assoc, BitVec.and_comm _ bits, hkept, hself]
  exact hbits

theorem refused_failCommand {p q : Port φ} {bits : Byte} (ha : q.fdc.driveA = p.fdc.driveA)
    (hb : q.fdc.driveB = p.fdc.driveB) (hmachine : q.machine = p.machine)
    (hkept : bits &&& ~~~fdcStatusBusy = bits) (hbits : bits ≠ 0) :
    Refused bits p (q.lookUpTrack.failCommand bits) where
  notBusy := and_clear_and rfl
  reported := set_and_ne_zero hkept hbits
  dmaError := rfl
  driveA := ha
  driveB := hb
  ram := by
    rw [← hmachine]
    rfl
  bus := by
    rw [← hmachine]
    rfl

theorem done_endTransfer {q : Port φ} {cmd : Byte} {f : Fdc}
    (h : q.fdc.status = (f.beginCommand cmd).status) : Done q.endTransfer where
  notBusy := and_clear_and rfl
  noError := by
    show q.fdc.status &&& ~~~fdcStatusBusy &&& _ = 0
    have hclear : (f.beginCommand cmd).status &&&
        (fdcStatusRecnf ||| fdcStatusWrtprot ||| fdcStatusLostdata) = 0 := and_clear_and rfl
    rw [h, BitVec.and_assoc, BitVec.and_comm (~~~fdcStatusBusy), ← BitVec.and_assoc, hclear]
    exact BitVec.zero_and
  count := rfl
  dmaOk := rfl

theorem count_pos (f : Fdc) : exists n, f.count = n + 1 := by
  apply Nat.exists_eq_add_one_of_ne_zero
  unfold Fdc.count
  split
  · exact one_ne_zero
  · next hne =>
    intro hzero
    exact hne (BitVec.eq_of_toNat_eq hzero)

theorem imageRead_eq_reads (u : DriveUnit) (track side sector : Nat) (f : Fdc) :
    imageRead u track side sector f.count = singleReads u track side sector f.count := by
  rcases count_pos f with ⟨n, hn⟩
  rw [hn]
  exact imageRead_eq_singleReads u track side n sector

theorem length_imageRead {buf : List UInt8}
    (h : imageRead u track side sector count = some buf) :
    buf.length = count * sectorSize := by
  rcases imageRead_eq_some.mp h with ⟨img, _, _, _, hfits, rfl⟩
  rw [length_readCells]
  lia

theorem imageRead_notInserted
    (h : u.drive.diskInserted = false) : imageRead u track side sector count = Option.none := by
  apply Option.eq_none_iff_forall_not_mem.mpr
  intro buf hbuf
  rcases imageRead_eq_some.mp hbuf with ⟨_, _, hin, _⟩
  rw [h] at hin
  cases hin

theorem imageRead_outOfRange (h : outOfRange u.drive track side sector count) :
    imageRead u track side sector count = Option.none := by
  apply Option.eq_none_iff_forall_not_mem.mpr
  intro buf hbuf
  rcases imageRead_eq_some.mp hbuf with ⟨_, _, _, hin, _⟩
  exact hin h

theorem imageWrite_outOfRange {buf : List UInt8}
    (h : outOfRange u.drive track side sector count) :
    imageWrite u track side sector count buf = Option.none := by
  apply Option.eq_none_iff_forall_not_mem.mpr
  intro u' hu'
  rcases imageWrite_eq_some.mp hu' with ⟨_, _, _, _, hin, _⟩
  exact hin h

variable (env : PortEnv φ)

theorem copyToRam_outside (m : Machine) (buf : List Byte) {a : Nat}
    (h : a < m.dmaAddr.toNat ∨ m.dmaAddr.toNat + buf.length ≤ a) :
    (m.copyToRam env.acsi buf).ram a = m.ram a := by
  unfold Machine.copyToRam
  dsimp only
  split
  · exact writeBlock_of_outside h
  · rfl

theorem refused_read {env : PortEnv φ} {p : Port φ} {cmd : Byte}
    (hclass : commandClass cmd = .readSectors)
    (h : noDrive p.fdc.selectedDrive ∨ imageRead (p.selected env) (p.selected env).currentTrack
      p.fdc.selectedSide p.fdc.sectorReg.toNat p.fdc.count = Option.none) :
    Refused fdcStatusRecnf p (fdcExecCommand env cmd p) := by
  let q : Port φ := { p with fdc := p.fdc.beginCommand cmd }
  have hstep : fdcExecCommand env cmd p = fdcDoReadSectors env q := by
    unfold fdcExecCommand
    rw [hclass]
  have hfail : fdcDoReadSectors env q = q.lookUpTrack.failCommand fdcStatusRecnf := by
    rw [fdcDoReadSectors_eq]
    split
    · rfl
    · next hdrive =>
      rcases h with hnone | hnone
      · exact absurd (Or.inl hnone) hdrive
      · have hsame : imageRead (q.selected env) (q.selected env).currentTrack q.fdc.selectedSide
            q.fdc.sectorReg.toNat q.fdc.count = Option.none := hnone
        rw [hsame]
  rw [hstep, hfail]
  exact refused_failCommand rfl rfl rfl rfl (by decide)

theorem readOutcome (p : Port φ) {cmd : Byte}
    (hclass : commandClass cmd = .readSectors) : ReadOutcome env p (fdcExecCommand env cmd p) := by
  let q : Port φ := { p with fdc := p.fdc.beginCommand cmd }
  have hstep : fdcExecCommand env cmd p = fdcDoReadSectors env q := by
    unfold fdcExecCommand
    rw [hclass]
  have hread := imageRead_eq_reads (p.selected env) (p.selected env).currentTrack
    p.fdc.selectedSide p.fdc.sectorReg.toNat p.fdc
  have hdelivered : forall buf, ¬ noDrive p.fdc.selectedDrive ->
      imageRead (p.selected env) (p.selected env).currentTrack p.fdc.selectedSide
        p.fdc.sectorReg.toNat p.fdc.count = some buf ->
      fdcDoReadSectors env q = (q.lookUpTrack.setMachine (q.lookUpTrack.machine.copyToRam env.acsi
        (buf.map UInt8.toBitVec))).endTransfer := by
    intro buf hdrive hbuf
    have hsame : imageRead (q.selected env) (q.selected env).currentTrack q.fdc.selectedSide
        q.fdc.sectorReg.toNat q.fdc.count = some buf := hbuf
    have hin : ¬ (noDrive q.fdc.selectedDrive ∨ (q.selected env).drive.diskInserted = false) := by
      rintro (hno | hout)
      · exact hdrive hno
      · rw [imageRead_notInserted hout] at hsame
        cases hsame
    rw [fdcDoReadSectors_eq, if_neg hin, hsame]
  constructor
  · intro buf hdrive hbuf
    rw [← hread] at hbuf
    rw [hstep, hdelivered buf hdrive hbuf]
    exact ⟨done_endTransfer rfl, rfl, rfl, rfl, rfl⟩
  · intro a ha
    by_cases hdrive : noDrive p.fdc.selectedDrive
    · rw [(refused_read hclass (Or.inl hdrive)).ram]
    · cases hbuf : imageRead (p.selected env) (p.selected env).currentTrack p.fdc.selectedSide
          p.fdc.sectorReg.toNat p.fdc.count with
      | none => rw [(refused_read hclass (Or.inr hbuf)).ram]
      | some buf =>
          rw [hstep, hdelivered buf hdrive hbuf]
          apply copyToRam_outside env q.lookUpTrack.machine
          rw [List.length_map, length_imageRead hbuf]
          exact ha
  · intro hnone
    exact refused_read hclass (Or.inr (hread.trans hnone))
  · rintro (hnone | hout)
    · exact refused_read hclass (Or.inl hnone)
    · exact refused_read hclass (Or.inr (imageRead_notInserted hout))
  · intro hout
    exact refused_read hclass (Or.inr (imageRead_outOfRange hout))

theorem length_writeBuffer (p : Port φ) :
    (p.writeBuffer env).length = p.fdc.count * sectorSize := by
  unfold Port.writeBuffer copyFromRam
  rw [List.length_map]
  dsimp only
  split
  · exact length_readBlock _ _ _
  · exact length_readBlock _ _ _

theorem unit_setUnit_of_ne {outside : Int -> DriveUnit} {f : Fdc} {i j : Int} (u : DriveUnit)
    (hne : j ≠ i) : (f.setUnit i u).unit outside j = f.unit outside j := by
  unfold Fdc.setUnit Fdc.unit
  repeat' split
  all_goals first
    | rfl
    | lia

theorem writeOutcome (p : Port φ) {cmd : Byte} (hclass : commandClass cmd = .writeSectors) :
    WriteOutcome env p (fdcExecCommand env cmd p) := by
  let q : Port φ := { p with fdc := p.fdc.beginCommand cmd }
  have hstep : fdcExecCommand env cmd p = fdcDoWriteSectors env q := by
    unfold fdcExecCommand
    rw [hclass]
  have hrecnf : Refused fdcStatusRecnf p (q.lookUpTrack.failCommand fdcStatusRecnf) :=
    refused_failCommand rfl rfl rfl rfl (by decide)
  have hwrtprot : Refused fdcStatusWrtprot p (q.lookUpTrack.failCommand fdcStatusWrtprot) :=
    refused_failCommand rfl rfl rfl rfl (by decide)
  have hnodisk : noDrive p.fdc.selectedDrive ∨ (p.selected env).drive.diskInserted = false ->
      fdcDoWriteSectors env q = q.lookUpTrack.failCommand fdcStatusRecnf := by
    intro hnone
    have hnone' : noDrive q.fdc.selectedDrive ∨ (q.selected env).drive.diskInserted = false := hnone
    rw [fdcDoWriteSectors_eq, if_pos hnone']
  have hunwritable : (p.selected env).drive.writeProtected = false ->
      imageWrite (p.selected env) (p.selected env).currentTrack p.fdc.selectedSide
        p.fdc.sectorReg.toNat p.fdc.count (p.writeBuffer env) = Option.none ->
      Refused fdcStatusRecnf p (fdcDoWriteSectors env q) := by
    intro hmode hnone
    have hsame : imageWrite (q.selected env) (q.selected env).currentTrack q.fdc.selectedSide
        q.fdc.sectorReg.toNat q.fdc.count (q.writeBuffer env) = Option.none := hnone
    have hprotect : ¬ (q.selected env).drive.writeProtected = true := by
      intro htrue
      exact absurd (htrue.symm.trans hmode) (by decide)
    rw [fdcDoWriteSectors_eq, if_neg hprotect, hsame]
    split
    · exact hrecnf
    · exact hrecnf
  rw [hstep]
  constructor
  · intro u' hdrive hwrite
    have hsame : imageWrite (q.selected env) (q.selected env).currentTrack q.fdc.selectedSide
        q.fdc.sectorReg.toNat q.fdc.count (q.writeBuffer env) = some u' := hwrite
    rcases imageWrite_eq_some.mp hwrite with ⟨_, _, hin, hmode, _, _, _⟩
    have hready : ¬ (noDrive q.fdc.selectedDrive ∨ (q.selected env).drive.diskInserted = false) := by
      rintro (hno | hout)
      · exact hdrive hno
      · exact absurd (hin.symm.trans hout) (by decide)
    have hprotect : ¬ (q.selected env).drive.writeProtected = true := by
      intro htrue
      exact absurd (htrue.symm.trans hmode) (by decide)
    have hlen := length_writeBuffer env p
    rw [fdcDoWriteSectors_eq, if_neg hready, if_neg hprotect, hsame]
    refine ⟨?_, ?_, ?_, ?_, ?_⟩
    · have hstatus : (q.lookUpTrack.fdc.setUnit q.fdc.selectedDrive u').status =
          (p.fdc.beginCommand cmd).status := by
        unfold Fdc.setUnit
        repeat' split
        all_goals rfl
      exact done_endTransfer hstatus
    · show (q.lookUpTrack.fdc.setUnit q.fdc.selectedDrive u').unit env.outside
        (q.lookUpTrack.fdc.setUnit q.fdc.selectedDrive u').selectedDrive = u'
      have hselected : (q.lookUpTrack.fdc.setUnit q.fdc.selectedDrive u').selectedDrive =
          q.fdc.selectedDrive := by
        unfold Fdc.setUnit
        repeat' split
        all_goals rfl
      rw [hselected]
      exact unit_setUnit hdrive u'
    · rw [← imageRead_eq_reads]
      exact imageRead_imageWrite hlen hwrite
    · intro x data hother hread
      exact read_imageWrite_other hlen hwrite hother hread
    · intro i hi
      exact unit_setUnit_of_ne u' hi
  · by_cases hnone : noDrive p.fdc.selectedDrive ∨ (p.selected env).drive.diskInserted = false
    · rw [hnodisk hnone]
      rfl
    · have hnone' : ¬ (noDrive q.fdc.selectedDrive ∨
          (q.selected env).drive.diskInserted = false) := hnone
      rw [fdcDoWriteSectors_eq, if_neg hnone']
      split
      · rfl
      · split
        · rfl
        · rfl
  · exact hunwritable
  · intro hnone
    rw [hnodisk hnone]
    exact hrecnf
  · intro hdrive hin hprotected
    have hready : ¬ (noDrive q.fdc.selectedDrive ∨ (q.selected env).drive.diskInserted = false) := by
      rintro (hno | hout)
      · exact hdrive hno
      · exact absurd (hin.symm.trans hout) (by decide)
    have hprotected' : (q.selected env).drive.writeProtected = true := hprotected
    rw [fdcDoWriteSectors_eq, if_neg hready, if_pos hprotected']
    exact hwrtprot
  · intro hdrive hin hmode hout
    exact hunwritable hmode (imageWrite_outOfRange hout)

end Floppy
end PistormAtari
