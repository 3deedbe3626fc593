import PistormAtari.Floppy.Fdc

/-!
# The state of the drives

A drive with a disk has an open image that holds all sectors of its geometry.  The
guest's accesses keep that.  An insert breaks it in two ways: it closes the old image
before the new one is opened, and it takes the geometry from the boot sector, or from
a table of sizes, without a look at the end of the image.
-/

namespace PistormAtari
namespace Floppy

open Foundation
open Config
open Acsi (Byte Machine)

variable {φ : Type _}

/-- A disk that is in the drive has an open image, a geometry with sectors, and all
of them in the image. -/
def Addressable (u : DriveUnit) : Prop :=
  u.drive.diskInserted = true ->
    exists img, u.drive.fd = some img ∧ 1 ≤ u.drive.sectorsPerTrack ∧
      (u.drive.numSides = 1 ∨ u.drive.numSides = 2) ∧
      u.drive.numTracks * u.drive.numSides * u.drive.sectorsPerTrack * sectorSize ≤ img.length

structure DriveOk (u : DriveUnit) : Prop where
  addressable : Addressable u
  closed : u.drive.diskInserted = false -> u.drive.fd = Option.none

structure DrivesOk (f : Fdc) : Prop where
  driveA : DriveOk f.driveA
  driveB : DriveOk f.driveB

/-!
## What keeps the medium

The head, the motor and the sensors may change, and the image may be written and grow.
-/

structure SameMedium (u u' : DriveUnit) : Prop where
  diskInserted : u'.drive.diskInserted = u.drive.diskInserted
  sectorsPerTrack : u'.drive.sectorsPerTrack = u.drive.sectorsPerTrack
  numTracks : u'.drive.numTracks = u.drive.numTracks
  numSides : u'.drive.numSides = u.drive.numSides
  image : forall img, u.drive.fd = some img ->
    exists img', u'.drive.fd = some img' ∧ img.length ≤ img'.length
  noImage : u.drive.fd = Option.none -> u'.drive.fd = Option.none

theorem SameMedium.ofFd {u u' : DriveUnit}
    (hinserted : u'.drive.diskInserted = u.drive.diskInserted)
    (hspt : u'.drive.sectorsPerTrack = u.drive.sectorsPerTrack)
    (htracks : u'.drive.numTracks = u.drive.numTracks)
    (hsides : u'.drive.numSides = u.drive.numSides) (hfd : u'.drive.fd = u.drive.fd) :
    SameMedium u u' where
  diskInserted := hinserted
  sectorsPerTrack := hspt
  numTracks := htracks
  numSides := hsides
  image img himg := ⟨img, hfd.trans himg, le_rfl⟩
  noImage hnone := hfd.trans hnone

theorem SameMedium.refl (u : DriveUnit) : SameMedium u u :=
  .ofFd rfl rfl rfl rfl rfl

theorem SameMedium.trans {u v w : DriveUnit} (h : SameMedium u v) (h' : SameMedium v w) :
    SameMedium u w where
  diskInserted := h'.diskInserted.trans h.diskInserted
  sectorsPerTrack := h'.sectorsPerTrack.trans h.sectorsPerTrack
  numTracks := h'.numTracks.trans h.numTracks
  numSides := h'.numSides.trans h.numSides
  image img himg := by
    rcases h.image img himg with ⟨img', himg', hle⟩
    rcases h'.image img' himg' with ⟨img'', himg'', hle'⟩
    exact ⟨img'', himg'', hle.trans hle'⟩
  noImage hnone := h'.noImage (h.noImage hnone)

theorem DriveOk.sameMedium {u u' : DriveUnit} (h : DriveOk u) (hsame : SameMedium u u') :
    DriveOk u' where
  addressable := by
    intro hinserted
    rw [hsame.diskInserted] at hinserted
    rcases h.addressable hinserted with ⟨img, himg, hspt, hsides, hfits⟩
    rcases hsame.image img himg with ⟨img', himg', hle⟩
    refine ⟨img', himg', ?_, ?_, ?_⟩
    · rw [hsame.sectorsPerTrack]
      exact hspt
    · rw [hsame.numSides]
      exact hsides
    · rw [hsame.numTracks, hsame.numSides, hsame.sectorsPerTrack]
      exact hfits.trans hle
  closed := by
    intro hout
    rw [hsame.diskInserted] at hout
    exact hsame.noImage (h.closed hout)

structure KeepsMedia (f f' : Fdc) : Prop where
  driveA : SameMedium f.driveA f'.driveA
  driveB : SameMedium f.driveB f'.driveB

theorem KeepsMedia.ofDrives {f f' : Fdc} (ha : f'.driveA = f.driveA) (hb : f'.driveB = f.driveB) :
    KeepsMedia f f' where
  driveA := by
    rw [ha]
    exact .refl _
  driveB := by
    rw [hb]
    exact .refl _

theorem KeepsMedia.trans {f g h : Fdc} (hfg : KeepsMedia f g) (hgh : KeepsMedia g h) :
    KeepsMedia f h :=
  ⟨hfg.driveA.trans hgh.driveA, hfg.driveB.trans hgh.driveB⟩

theorem DrivesOk.keepsMedia {f f' : Fdc} (h : DrivesOk f) (hkeeps : KeepsMedia f f') :
    DrivesOk f' :=
  ⟨h.driveA.sameMedium hkeeps.driveA, h.driveB.sameMedium hkeeps.driveB⟩

theorem keepsMedia_setUnit {o : Int -> DriveUnit} {f : Fdc} {i : Int} {u : DriveUnit}
    (h : SameMedium (f.unit o i) u) : KeepsMedia f (f.setUnit i u) := by
  unfold Fdc.setUnit
  unfold Fdc.unit at h
  by_cases hzero : i = 0
  · rw [if_pos hzero] at h ⊢
    exact ⟨h, .refl _⟩
  · rw [if_neg hzero] at h ⊢
    by_cases hone : i = 1
    · rw [if_pos hone] at h ⊢
      exact ⟨.refl _, h⟩
    · rw [if_neg hone]
      exact .ofDrives rfl rfl

theorem sameMedium_imageWrite {u u' : DriveUnit} {track side sector count : Nat}
    {buf : List UInt8} (h : imageWrite u track side sector count buf = some u') :
    SameMedium u u' := by
  unfold imageWrite at h
  cases hfd : u.drive.fd with
  | none =>
      rw [hfd] at h
      cases h
  | some img =>
      rw [hfd] at h
      dsimp only at h
      repeat' split at h
      all_goals cases h
      constructor
      · rfl
      · rfl
      · rfl
      · rfl
      · intro img' himg'
        rw [hfd] at himg'
        cases himg'
        refine ⟨_, rfl, ?_⟩
        rw [length_writeCells]
        exact Nat.le_max_left _ _
      · intro hnone
        rw [hfd] at hnone
        cases hnone

theorem moveHead_drives (cmd : Byte) (n : Nat) (f : Fdc) (u : DriveUnit) :
    (moveHead cmd n f u).1.driveA = f.driveA ∧ (moveHead cmd n f u).1.driveB = f.driveB ∧
      (moveHead cmd n f u).2.drive = u.drive := by
  unfold moveHead
  dsimp only
  repeat' split
  all_goals exact ⟨rfl, rfl, rfl⟩

variable {outside : Int -> DriveUnit}

theorem unit_congr {f f' : Fdc} (ha : f'.driveA = f.driveA)
    (hb : f'.driveB = f.driveB) (i : Int) : f'.unit outside i = f.unit outside i := by
  unfold Fdc.unit
  rw [ha, hb]

theorem keepsMedia_moveHead (outside : Int -> DriveUnit) (cmd : Byte) (n : Nat) (f : Fdc)
    (i : Int) :
    KeepsMedia f ((moveHead cmd n f (f.unit outside i)).1.setUnit i
      (moveHead cmd n f (f.unit outside i)).2) := by
  rcases moveHead_drives cmd n f (f.unit outside i) with ⟨ha, hb, hdrive⟩
  have hmoved : KeepsMedia f (moveHead cmd n f (f.unit outside i)).1 := .ofDrives ha hb
  apply hmoved.trans
  apply keepsMedia_setUnit (o := outside)
  rw [unit_congr ha hb]
  apply SameMedium.ofFd
  · rw [hdrive]
  · rw [hdrive]
  · rw [hdrive]
  · rw [hdrive]
  · rw [hdrive]

variable (env : PortEnv φ)

theorem keepsMedia_fdcDoType1 (cmd : Byte) (f : Fdc) :
    KeepsMedia f (fdcDoType1 env cmd f) := by
  unfold fdcDoType1
  by_cases hnone : noDrive f.selectedDrive
  · simp only [if_pos hnone]
    exact .ofDrives rfl rfl
  · simp only [if_neg hnone]
    have htouch : KeepsMedia f (f.touch f.selectedDrive) := .ofDrives rfl rfl
    have hmove := fun n => htouch.trans
      (keepsMedia_moveHead env.outside cmd n (f.touch f.selectedDrive) f.selectedDrive)
    repeat' split
    all_goals exact (hmove _).trans (.ofDrives rfl rfl)

theorem keepsMedia_fdcDoReadSectors (p : Port φ) :
    KeepsMedia p.fdc (fdcDoReadSectors env p).fdc := by
  rw [fdcDoReadSectors_eq]
  split
  · exact .ofDrives rfl rfl
  · split
    · exact .ofDrives rfl rfl
    · exact .ofDrives rfl rfl

theorem keepsMedia_fdcDoWriteSectors (p : Port φ) :
    KeepsMedia p.fdc (fdcDoWriteSectors env p).fdc := by
  rw [fdcDoWriteSectors_eq]
  split
  · exact .ofDrives rfl rfl
  · split
    · exact .ofDrives rfl rfl
    · split
      · exact .ofDrives rfl rfl
      · next u hwrite =>
        have hlook : KeepsMedia p.fdc p.lookUpTrack.fdc := .ofDrives rfl rfl
        have hset := keepsMedia_setUnit (f := p.lookUpTrack.fdc) (sameMedium_imageWrite hwrite)
        have hend : KeepsMedia (p.lookUpTrack.fdc.setUnit p.fdc.selectedDrive u)
            (Port.endTransfer { p.lookUpTrack with
              fdc := p.lookUpTrack.fdc.setUnit p.fdc.selectedDrive u }).fdc := .ofDrives rfl rfl
        exact (hlook.trans hset).trans hend

theorem keepsMedia_fdcDoReadAddress (p : Port φ) :
    KeepsMedia p.fdc (fdcDoReadAddress env p).fdc := by
  unfold fdcDoReadAddress
  dsimp only
  repeat' split
  all_goals exact .ofDrives rfl rfl

theorem keepsMedia_fdcExecCommand (cmd : Byte) (p : Port φ) :
    KeepsMedia p.fdc (fdcExecCommand env cmd p).fdc := by
  have hbegin : KeepsMedia p.fdc (p.fdc.beginCommand cmd) := .ofDrives rfl rfl
  unfold fdcExecCommand
  dsimp only
  cases commandClass cmd with
  | forceInterrupt =>
      dsimp only
      split
      · exact .ofDrives rfl rfl
      · exact .ofDrives rfl rfl
  | type1 => exact hbegin.trans (keepsMedia_fdcDoType1 env cmd _)
  | readSectors =>
      exact hbegin.trans
        (keepsMedia_fdcDoReadSectors env { p with fdc := p.fdc.beginCommand cmd })
  | writeSectors =>
      exact hbegin.trans
        (keepsMedia_fdcDoWriteSectors env { p with fdc := p.fdc.beginCommand cmd })
  | readAddress =>
      exact hbegin.trans
        (keepsMedia_fdcDoReadAddress env { p with fdc := p.fdc.beginCommand cmd })
  | readTrack => exact .ofDrives rfl rfl
  | writeTrack => exact .ofDrives rfl rfl

theorem keepsMedia_startMotor (outside : Int -> DriveUnit) (f : Fdc) :
    KeepsMedia f (f.startMotor outside) := by
  unfold Fdc.startMotor
  split
  · exact .ofDrives rfl rfl
  · have hset := keepsMedia_setUnit (o := outside) (f := f) (i := f.selectedDrive)
      (u := { f.unit outside f.selectedDrive with motorTicks := motorOffTicks })
      (.ofFd rfl rfl rfl rfl rfl)
    exact hset.trans (.ofDrives rfl rfl)

theorem keepsMedia_fdcReadAddr (f : Fdc) :
    KeepsMedia f (fdcReadAddr env f).2 := by
  have hstatus : KeepsMedia f (fdcReadStatus env f).2 := by
    unfold fdcReadStatus
    dsimp only
    split
    · split
      · have htouch : KeepsMedia f (f.touch f.selectedDrive) := .ofDrives rfl rfl
        have hset := keepsMedia_setUnit (o := env.outside) (f := f.touch f.selectedDrive)
          (i := f.selectedDrive)
          (u := { f.unit env.outside f.selectedDrive with
            drive := { (f.unit env.outside f.selectedDrive).drive with mediaChanged := false } })
          (.ofFd rfl rfl rfl rfl rfl)
        exact (htouch.trans hset).trans (.ofDrives rfl rfl)
      · exact .ofDrives rfl rfl
    · exact .ofDrives rfl rfl
  unfold fdcReadAddr
  repeat' split
  all_goals first
    | exact hstatus
    | exact .ofDrives rfl rfl

theorem keepsMedia_fddIoRead (addr size : Nat) (p : Port φ) :
    KeepsMedia p.fdc (fddIoRead env addr size p).2.fdc := by
  have hpsg : KeepsMedia p.fdc (psgReadAddr env addr size p.fdc).2 := by
    unfold psgReadAddr
    dsimp only
    split
    · exact .ofDrives rfl rfl
    · exact .ofDrives rfl rfl
  unfold fddIoRead Port.setFdc
  repeat' split
  all_goals first
    | exact .ofDrives rfl rfl
    | exact keepsMedia_fdcReadAddr env p.fdc
    | exact hpsg

theorem keepsMedia_fdcWriteAddr (val : BitVec 32) (p : Port φ) :
    KeepsMedia p.fdc (fdcWriteAddr env val p).fdc := by
  unfold fdcWriteAddr
  dsimp only
  repeat' split
  all_goals first
    | exact .ofDrives rfl rfl
    | exact (keepsMedia_startMotor env.outside p.fdc).trans
        (keepsMedia_fdcExecCommand env _ { p with fdc := p.fdc.startMotor env.outside })

theorem keepsMedia_dmaWriteAddr (addr : Nat) (val : BitVec 32) (p : Port φ) :
    KeepsMedia p.fdc (dmaWriteAddr env addr val p).fdc := by
  unfold dmaWriteAddr
  dsimp only
  repeat' split
  all_goals exact .ofDrives rfl rfl

theorem keepsMedia_psgWriteAddr (addr : Nat) (val : BitVec 32) (size : Nat) (f : Fdc) :
    KeepsMedia f (psgWriteAddr addr val size f) := by
  unfold psgWriteAddr
  dsimp only
  repeat' split
  all_goals exact .ofDrives rfl rfl

theorem keepsMedia_fddIoWrite (addr : Nat) (val : BitVec 32) (size : Nat)
    (p : Port φ) : KeepsMedia p.fdc (fddIoWrite env addr val size p).fdc := by
  unfold fddIoWrite
  repeat' split
  all_goals first
    | exact keepsMedia_dmaWriteAddr env addr val p
    | exact keepsMedia_fdcWriteAddr env val p
    | exact keepsMedia_fdcWriteAddr env val
        { p with acsi := Acsi.release p.acsi, hdcActive := false }
    | exact keepsMedia_psgWriteAddr addr val size p.fdc
    | exact .ofDrives rfl rfl

theorem keepsMedia_fddGpip (p : Port φ) :
    KeepsMedia p.fdc (fddGpip env p).fdc := by
  unfold fddGpip
  dsimp only
  repeat' split
  all_goals exact .ofDrives rfl rfl

theorem keepsMedia_fddVbl (f : Fdc) : KeepsMedia f (fddVbl f) := by
  have hticks : KeepsMedia f { f with driveA := f.driveA.tick.1, driveB := f.driveB.tick.1 } :=
    ⟨.ofFd rfl rfl rfl rfl rfl, .ofFd rfl rfl rfl rfl rfl⟩
  unfold fddVbl
  dsimp only
  split
  · exact hticks.trans (.ofDrives rfl rfl)
  · exact hticks

/-!
## Inserting

The size that an image claims comes from its boot sector or, if that is not valid, from
a table of sizes.
-/

def bpbValid (img : List UInt8) : Prop :=
  512 ≤ img.length ∧ le16 img 0x0B = 512 ∧ 1 ≤ le16 img 0x18 ∧ le16 img 0x18 ≤ 18 ∧
    1 ≤ le16 img 0x1A ∧ le16 img 0x1A ≤ 2 ∧ 0 < le16 img 0x13

instance (img : List UInt8) : Decidable (bpbValid img) := inferInstanceAs (Decidable (_ ∧ _))

def claimedSectors (img : List UInt8) : Nat :=
  if bpbValid img then
    le16 img 0x13 / (le16 img 0x18 * le16 img 0x1A) * le16 img 0x1A * le16 img 0x18
  else if img.length % 2 ^ 32 ≤ 80 * 1 * 9 * 512 then img.length % 2 ^ 32 / (512 * 9) * 9
  else if img.length % 2 ^ 32 ≤ 80 * 2 * 9 * 512 then 80 * 2 * 9
  else 80 * 2 * 18

def Covers (img : List UInt8) : Prop := claimedSectors img * sectorSize ≤ img.length

theorem setGeometry_spec (d : Drive) (img : List UInt8)
    (hsize : d.imageSize = UInt32.ofNat img.length) :
    1 ≤ (setGeometry d img).sectorsPerTrack ∧
      ((setGeometry d img).numSides = 1 ∨ (setGeometry d img).numSides = 2) ∧
      (setGeometry d img).numTracks * (setGeometry d img).numSides *
        (setGeometry d img).sectorsPerTrack = claimedSectors img := by
  have hnat : d.imageSize.toNat = img.length % 2 ^ 32 := by
    rw [hsize, UInt32.toNat_ofNat']
  unfold setGeometry claimedSectors
  dsimp only
  by_cases hbpb : bpbValid img
  · rw [if_pos hbpb]
    unfold bpbValid at hbpb
    rw [if_pos hbpb]
    rcases hbpb with ⟨_, _, hspt, _, hsides, hsides', _⟩
    exact ⟨hspt, by dsimp only; lia, rfl⟩
  · rw [if_neg hbpb]
    unfold bpbValid at hbpb
    rw [if_neg hbpb]
    have hss : d.imageSize ≤ 80 * 1 * 9 * 512 <-> img.length % 2 ^ 32 ≤ 80 * 1 * 9 * 512 := by
      rw [UInt32.le_iff_toNat_le, hnat]
      rfl
    have hds : d.imageSize ≤ 80 * 2 * 9 * 512 <-> img.length % 2 ^ 32 ≤ 80 * 2 * 9 * 512 := by
      rw [UInt32.le_iff_toNat_le, hnat]
      rfl
    by_cases hone : d.imageSize ≤ 80 * 1 * 9 * 512
    · rw [if_pos hone, if_pos (hss.mp hone)]
      refine ⟨by dsimp only; lia, Or.inl rfl, ?_⟩
      dsimp only
      rw [hnat, Nat.mul_one]
    · rw [if_neg hone, if_neg (fun h => hone (hss.mpr h))]
      by_cases htwo : d.imageSize ≤ 80 * 2 * 9 * 512
      · rw [if_pos htwo, if_pos (hds.mp htwo)]
        exact ⟨by dsimp only; lia, Or.inr rfl, rfl⟩
      · rw [if_neg htwo, if_neg (fun h => htwo (hds.mpr h))]
        exact ⟨by dsimp only; lia, Or.inr rfl, rfl⟩

/-- An insert that cannot open its image leaves the drive with none open. -/
theorem insert_failed {host : HostFiles} {path : Text} {wp : Bool} {u : DriveUnit}
    (h : openImage host path wp = Option.none) :
    u.insert host path wp = (false, { u with drive := { u.drive with fd := Option.none } }) := by
  unfold DriveUnit.insert insertDisk
  rw [h]
  rfl

theorem insert_failed_unchanged {host : HostFiles} {path : Text} {wp : Bool} {u : DriveUnit}
    (h : openImage host path wp = Option.none) :
    (u.insert host path wp).2 = u <-> u.drive.fd = Option.none := by
  rw [insert_failed h]
  constructor
  · intro hsame
    rw [← hsame]
  · intro hnone
    have hdrive : { u.drive with fd := Option.none } = u.drive := by
      rw [← hnone]
    show { u with drive := { u.drive with fd := Option.none } } = u
    rw [hdrive]

theorem insert_opened {host : HostFiles} {path : Text} {wp wp' : Bool} {u : DriveUnit}
    {img : List UInt8} (h : openImage host path wp = some (img, wp')) :
    (u.insert host path wp).1 = true ∧
      (DriveOk (u.insert host path wp).2 <-> Covers img) ∧
      (Addressable (u.insert host path wp).2 -> Covers img) := by
  have hspec := setGeometry_spec
    { { u.drive with fd := Option.none } with fd := some img, imageSize := UInt32.ofNat img.length }
    img rfl
  have hfd : (setGeometry { { u.drive with fd := Option.none } with
      fd := some img, imageSize := UInt32.ofNat img.length } img).fd = some img := by
    unfold setGeometry
    dsimp only
    repeat' split
    all_goals rfl
  have hresult : u.insert host path wp = (true, { u with
      drive := { setGeometry { { u.drive with fd := Option.none } with
          fd := some img, imageSize := UInt32.ofNat img.length } img with
        writeProtected := wp'
        diskInserted := true
        mediaChanged := false
        imagePath := pathBuf path }
      writable := opensWritable host path wp }) := by
    unfold DriveUnit.insert insertDisk
    rw [h]
    rfl
  rw [hresult]
  rcases hspec with ⟨hspt, hsides, hsectors⟩
  have hcovers : Addressable { u with
      drive := { setGeometry { { u.drive with fd := Option.none } with
          fd := some img, imageSize := UInt32.ofNat img.length } img with
        writeProtected := wp'
        diskInserted := true
        mediaChanged := false
        imagePath := pathBuf path }
      writable := opensWritable host path wp } <-> Covers img := by
    constructor
    · intro haddressable
      rcases haddressable rfl with ⟨img', himg', _, _, hfits⟩
      have hsame : some img = some img' := hfd.symm.trans himg'
      cases hsame
      unfold Covers
      rw [← hsectors]
      exact hfits
    · intro hfits _
      refine ⟨img, hfd, hspt, hsides, ?_⟩
      show _ * _ * _ * sectorSize ≤ img.length
      rw [hsectors]
      exact hfits
  refine ⟨rfl, ⟨fun hok => hcovers.mp hok.addressable, fun hfits => ?_⟩, hcovers.mp⟩
  exact ⟨hcovers.mpr hfits, fun hout => absurd hout Bool.true_eq_false_eq_False.elim⟩

/-!
## Runs
-/

/-- The call of `fdd_insert_disk` that an operation makes on a drive: the drive and the
arguments. -/
def insertCall (env : PortEnv φ) (p : Port φ) : PortOp -> Option (HostFiles × Int × Text × Bool)
  | .insert host i path wp => if noDrive i then Option.none else some (host, i, path, wp)
  | .toggle host i =>
      let u := p.fdc.unit env.outside i
      if noDrive i ∨ u.drive.diskInserted = true ∨ u.drive.imagePath.chars = [] then Option.none
      else some (host, i, u.drive.imagePath.chars, u.lastWp)
  | _ => Option.none

/-- After a step both drives are addressable, and an insert that fails has left them as
they were. -/
structure StepKeepsDrives (env : PortEnv φ) (p : Port φ) (op : PortOp) : Prop where
  driveA : Addressable (portStep env p op).fdc.driveA
  driveB : Addressable (portStep env p op).fdc.driveB
  failed : forall host i path wp, insertCall env p op = some (host, i, path, wp) ->
    ((p.fdc.unit env.outside i).insert host path wp).1 = false ->
      (portStep env p op).fdc.driveA = p.fdc.driveA ∧
        (portStep env p op).fdc.driveB = p.fdc.driveB

/-- An image that is inserted covers its sectors, and where none can be opened, the
drive has none open. -/
def InsertsSound (env : PortEnv φ) (p : Port φ) (op : PortOp) : Prop :=
  forall host i path wp, insertCall env p op = some (host, i, path, wp) ->
    match openImage host path wp with
    | some (img, _) => Covers img
    | Option.none => (p.fdc.unit env.outside i).drive.fd = Option.none

theorem zero_or_one {i : Int} (h : ¬ noDrive i) : i = 0 ∨ i = 1 := by
  unfold noDrive maxDrives at h
  lia

theorem DrivesOk.unit {f : Fdc} (hok : DrivesOk f) {i : Int}
    (hi : ¬ noDrive i) : DriveOk (f.unit outside i) := by
  rcases zero_or_one hi with rfl | rfl
  · exact hok.driveA
  · exact hok.driveB

theorem DrivesOk.setUnit {f : Fdc} (hok : DrivesOk f) (i : Int) {u : DriveUnit} (hu : DriveOk u) :
    DrivesOk (f.setUnit i u) := by
  unfold Fdc.setUnit
  by_cases hzero : i = 0
  · rw [if_pos hzero]
    exact ⟨hu, hok.driveB⟩
  · rw [if_neg hzero]
    by_cases hone : i = 1
    · rw [if_pos hone]
      exact ⟨hok.driveA, hu⟩
    · rw [if_neg hone]
      exact hok

theorem DrivesOk.onDrive {f : Fdc} (hok : DrivesOk f) (i : Int)
    {op : DriveUnit -> DriveUnit} (hop : forall u, DriveOk u -> DriveOk (op u)) :
    DrivesOk (f.onDrive outside i op) := by
  unfold Fdc.onDrive
  by_cases hi : noDrive i
  · rw [if_pos hi]
    exact hok
  · rw [if_neg hi]
    have htouch : DrivesOk (f.touch i) := ⟨hok.driveA, hok.driveB⟩
    exact htouch.setUnit i (hop _ (hok.unit hi))

theorem driveOk_eject (u : DriveUnit) : DriveOk u.eject :=
  ⟨fun hin => absurd hin Bool.false_ne_true, fun _ => rfl⟩

theorem DrivesOk.portStep_other {env : PortEnv φ} {p : Port φ} {op : PortOp}
    (hok : DrivesOk p.fdc) (h : insertCall env p op = Option.none) :
    DrivesOk (portStep env p op).fdc := by
  cases op with
  | read addr size =>
      dsimp only [portStep]
      split
      · exact hok.keepsMedia (keepsMedia_fddIoRead env addr size p)
      · exact hok
  | write addr val size =>
      dsimp only [portStep]
      split
      · exact hok.keepsMedia (keepsMedia_fddIoWrite env addr val size p)
      · exact hok
  | gpip => exact hok.keepsMedia (keepsMedia_fddGpip env p)
  | vbl => exact hok.keepsMedia (keepsMedia_fddVbl p.fdc)
  | ram ram => exact hok
  | insert host i path wp =>
      have hi : noDrive i := by
        by_contra hvalid
        simp [insertCall, hvalid] at h
      dsimp only [portStep]
      unfold Fdc.onDrive
      rw [if_pos hi]
      exact hok
  | eject i =>
      dsimp only [portStep]
      exact hok.onDrive i (fun u _ => driveOk_eject u)
  | toggle host i =>
      dsimp only [portStep]
      unfold Fdc.onDrive
      by_cases hi : noDrive i
      · rw [if_pos hi]
        exact hok
      · rw [if_neg hi]
        have htouch : DrivesOk (p.fdc.touch i) := ⟨hok.driveA, hok.driveB⟩
        apply htouch.setUnit
        show DriveOk ((p.fdc.unit env.outside i).toggle host).2
        unfold DriveUnit.toggle
        by_cases hin : (p.fdc.unit env.outside i).drive.diskInserted = true
        · rw [if_pos hin]
          exact driveOk_eject _
        · rw [if_neg hin]
          by_cases hpath : (p.fdc.unit env.outside i).drive.imagePath.chars = []
          · rw [if_pos hpath]
            exact hok.unit hi
          · simp [insertCall, hi, hin, hpath] at h
  | setWriteProtect i wp =>
      dsimp only [portStep]
      exact hok.onDrive i (fun u hu => hu.sameMedium (.ofFd rfl rfl rfl rfl rfl))
  | pulse i =>
      dsimp only [portStep]
      exact hok.onDrive i (fun u hu => hu.sameMedium (.ofFd rfl rfl rfl rfl rfl))

theorem portStep_insert {env : PortEnv φ} {p : Port φ} {op : PortOp} {host : HostFiles} {i : Int}
    {path : Text} {wp : Bool} (h : insertCall env p op = some (host, i, path, wp)) :
    ¬ noDrive i ∧ (portStep env p op).fdc =
      (p.fdc.touch i).setUnit i ((p.fdc.unit env.outside i).insert host path wp).2 := by
  cases op with
  | insert host' i' path' wp' =>
      dsimp only [insertCall] at h
      by_cases hi : noDrive i'
      · rw [if_pos hi] at h
        cases h
      · rw [if_neg hi] at h
        cases h
        exact ⟨hi, if_neg hi⟩
  | toggle host' i' =>
      dsimp only [insertCall] at h
      by_cases hnone : noDrive i' ∨ (p.fdc.unit env.outside i').drive.diskInserted = true ∨
          (p.fdc.unit env.outside i').drive.imagePath.chars = []
      · rw [if_pos hnone] at h
        cases h
      · rw [if_neg hnone] at h
        cases h
        rcases not_or.mp hnone with ⟨hi, hother⟩
        rcases not_or.mp hother with ⟨hin, hpath⟩
        have htoggle : (p.fdc.unit env.outside i).toggle host =
            (p.fdc.unit env.outside i).insert host (p.fdc.unit env.outside i).drive.imagePath.chars
              (p.fdc.unit env.outside i).lastWp := by
          unfold DriveUnit.toggle
          rw [if_neg hin, if_neg hpath]
        refine ⟨hi, ?_⟩
        rw [← htoggle]
        exact if_neg hi
  | _ => simp [insertCall] at h

theorem unit_setUnit {f : Fdc} {i : Int} (hi : ¬ noDrive i)
    (u : DriveUnit) : (f.setUnit i u).unit outside i = u := by
  rcases zero_or_one hi with rfl | rfl
  · rfl
  · rfl

theorem setUnit_unit {f : Fdc} {i : Int} (hi : ¬ noDrive i) :
    (f.setUnit i (f.unit outside i)).driveA = f.driveA ∧
      (f.setUnit i (f.unit outside i)).driveB = f.driveB := by
  rcases zero_or_one hi with rfl | rfl
  · exact ⟨rfl, rfl⟩
  · exact ⟨rfl, rfl⟩

theorem StepKeepsDrives.addressable {env : PortEnv φ} {p : Port φ} {op : PortOp}
    (h : StepKeepsDrives env p op) {i : Int} (hi : ¬ noDrive i) :
    Addressable ((portStep env p op).fdc.unit env.outside i) := by
  rcases zero_or_one hi with rfl | rfl
  · exact h.driveA
  · exact h.driveB

theorem stepKeepsDrives_iff {env : PortEnv φ} {p : Port φ} (hok : DrivesOk p.fdc) (op : PortOp) :
    (StepKeepsDrives env p op <-> InsertsSound env p op) ∧
      (InsertsSound env p op -> DrivesOk (portStep env p op).fdc) := by
  cases hcall : insertCall env p op with
  | none =>
      have hnext := hok.portStep_other hcall
      have hnever : forall c, insertCall env p op ≠ some c := by
        intro c
        rw [hcall]
        simp
      refine ⟨⟨fun _ host i path wp h => absurd h (hnever _), fun _ => ?_⟩, fun _ => hnext⟩
      exact ⟨hnext.driveA.addressable, hnext.driveB.addressable,
        fun host i path wp h => absurd h (hnever _)⟩
  | some call =>
      rcases call with ⟨host, i, path, wp⟩
      rcases portStep_insert hcall with ⟨hi, hstep⟩
      have htouch : DrivesOk (p.fdc.touch i) := ⟨hok.driveA, hok.driveB⟩
      have hunit : (portStep env p op).fdc.unit env.outside i =
          ((p.fdc.unit env.outside i).insert host path wp).2 := by
        rw [hstep]
        exact unit_setUnit hi _
      have hsound : InsertsSound env p op <->
          match openImage host path wp with
          | some (img, _) => Covers img
          | Option.none => (p.fdc.unit env.outside i).drive.fd = Option.none := by
        constructor
        · intro h
          exact h host i path wp hcall
        · intro h host' i' path' wp' hcall'
          rw [hcall] at hcall'
          cases hcall'
          exact h
      have hnext : DriveOk ((p.fdc.unit env.outside i).insert host path wp).2 ->
          DrivesOk (portStep env p op).fdc := by
        intro hdrive
        rw [hstep]
        exact htouch.setUnit i hdrive
      rw [hsound]
      cases hopen : openImage host path wp with
      | none =>
          have hfailed := insert_failed_unchanged (u := p.fdc.unit env.outside i) hopen
          have hgood : (p.fdc.unit env.outside i).drive.fd = Option.none ->
              DrivesOk (portStep env p op).fdc := by
            intro hnone
            apply hnext
            rw [hfailed.mpr hnone]
            exact hok.unit hi
          refine ⟨⟨fun hkeeps => ?_, fun hnone => ?_⟩, hgood⟩
          · have hfalse : ((p.fdc.unit env.outside i).insert host path wp).1 = false := by
              rw [insert_failed hopen]
            rcases hkeeps.failed host i path wp hcall hfalse with ⟨ha, hb⟩
            apply hfailed.mp
            rw [← hunit]
            exact unit_congr ha hb i
          · refine ⟨(hgood hnone).driveA.addressable, (hgood hnone).driveB.addressable, ?_⟩
            intro host' i' path' wp' hcall' _
            rw [hstep, hfailed.mpr hnone]
            exact setUnit_unit (f := p.fdc.touch i) hi
      | some opened =>
          rcases opened with ⟨img, wp'⟩
          rcases insert_opened (u := p.fdc.unit env.outside i) hopen with ⟨htrue, hiff, hcovers⟩
          have hgood : Covers img -> DrivesOk (portStep env p op).fdc :=
            fun hfits => hnext (hiff.mpr hfits)
          refine ⟨⟨fun hkeeps => ?_, fun hfits => ?_⟩, hgood⟩
          · apply hcovers
            rw [← hunit]
            exact hkeeps.addressable hi
          · refine ⟨(hgood hfits).driveA.addressable, (hgood hfits).driveB.addressable, ?_⟩
            intro host' i' path' wp'' hcall' hfalse
            rw [hcall] at hcall'
            cases hcall'
            rw [htrue] at hfalse
            cases hfalse

theorem drivesOk_init (tgt : Acsi.Targets φ) (m : Machine) : DrivesOk (Port.init tgt m).fdc := by
  have hempty : DriveOk .empty := ⟨fun hin => absurd hin Bool.false_ne_true, fun _ => rfl⟩
  exact ⟨hempty, hempty⟩

/-- In a run from start-up every disk in a drive stays addressable and every insert
that fails changes nothing, exactly when each image inserted covers the sectors that it
claims and each insert that cannot open its image finds the drive with none open. -/
theorem drives_kept_iff_inserts_sound (env : PortEnv φ) (tgt : Acsi.Targets φ) (m : Machine)
    (ops : List PortOp) :
    Steps (portStep env) (StepKeepsDrives env) (Port.init tgt m) ops <->
      Steps (portStep env) (InsertsSound env) (Port.init tgt m) ops := by
  have hstep : forall (p : Port φ) (op : PortOp), DrivesOk p.fdc -> InsertsSound env p op ->
      DrivesOk (portStep env p op).fdc :=
    fun p op hok => (stepKeepsDrives_iff hok op).2
  have hiff : forall (p : Port φ) (op : PortOp), DrivesOk p.fdc ->
      (StepKeepsDrives env p op <-> InsertsSound env p op) :=
    fun p op hok => (stepKeepsDrives_iff hok op).1
  exact Steps.iff_of_invariant hstep hiff (drivesOk_init tgt m)

theorem byteAt_zeros (n i : Nat) : byteAt (List.replicate n 0) i = 0 := by
  unfold byteAt
  rw [List.getD_eq_getElem?_getD, List.getElem?_replicate]
  split
  · rfl
  · rfl

/-- An image of one sector is put into drive A, and then one that is not there. -/
theorem failed_insert_closes_image :
    ¬ forall (env : PortEnv Unit) (tgt : Acsi.Targets Unit) (m : Machine) (ops : List PortOp),
      Steps (portStep env) (StepKeepsDrives env) (Port.init tgt m) ops := by
  intro hall
  rcases @exists_eq' _ (List.replicate 512 (0 : UInt8)) with ⟨img, himg⟩
  have hlen : img.length = 512 := by rw [← himg, List.length_replicate]
  have hbps : le16 img 0x0B = 0 := by
    rw [← himg, le16, byteAt_zeros, byteAt_zeros]
  have hmagic : byteAt img 0 = 0 := by
    rw [← himg]
    exact byteAt_zeros 512 0
  have hcovers : Covers img := by
    have hinvalid : ¬ bpbValid img := fun h => by
      have hsize := h.2.1
      rw [hbps] at hsize
      cases hsize
    unfold Covers claimedSectors
    rw [if_neg hinvalid, hlen]
    decide
  let env : PortEnv Unit :=
    { acsi :=
        { io := ⟨fun file _ => (file, Option.none), fun file _ _ => (file, false)⟩
          stramTop := 0x400000
          stack := fun _ => 0 }
      fddEnabled := true
      outside := fun _ => .empty
      bus := fun _ _ => 0 }
  let m : Machine := { ram := fun _ => 0, bus := fun _ => 0, dmaAddr := 0, dmaStatus := 0 }
  let host : HostFiles :=
    { contents := fun path => if path = ['a'] then some img else Option.none
      writable := fun _ => true }
  let p : Port Unit := Port.init (fun _ => Option.none) m
  have hopen : openImage host ['a'] false = some (img, false) := by
    have hraw : msaOpenDecoded host ['a'] = .raw := by
      show (if img.length < 2 ∨ byteAt img 0 ≠ 0x0E ∨ byteAt img 1 ≠ 0x0F then Msa.raw else _) = _
      rw [if_pos (Or.inr (Or.inl (by rw [hmagic]; decide)))]
    unfold openImage
    rw [hraw]
    rfl
  have hmissing : openImage host ['b'] false = Option.none := rfl
  have hrun := hall env (fun _ => Option.none) m
    [.insert host 0 ['a'] false, .insert host 0 ['b'] false]
  have hok : DrivesOk p.fdc := drivesOk_init (fun _ => Option.none) m
  have hfirst : InsertsSound env p (.insert host 0 ['a'] false) :=
    (stepKeepsDrives_iff hok _).1.mp hrun.1
  have hok' := (stepKeepsDrives_iff hok _).2 hfirst
  have hsecond := (stepKeepsDrives_iff hok' _).1.mp hrun.2.1 host 0 ['b'] false rfl
  rw [hmissing] at hsecond
  have hinserted : ((portStep env p (.insert host 0 ['a'] false)).fdc.unit env.outside 0) =
      (DriveUnit.empty.insert host ['a'] false).2 := rfl
  rw [hinserted] at hsecond
  have hdrive := (insert_opened (u := DriveUnit.empty) hopen).2.1.mpr hcovers
  have hin : (DriveUnit.empty.insert host ['a'] false).2.drive.diskInserted = true := by
    unfold DriveUnit.insert insertDisk
    rw [hopen]
  rcases hdrive.addressable hin with ⟨img', himg', _⟩
  rw [hsecond] at himg'
  cases himg'

def PortOp.changesDisk : PortOp -> Bool
  | .insert _ _ _ _ => true
  | .eject _ => true
  | .toggle _ _ => true
  | _ => false

abbrev GuestOp := { op : PortOp // op.changesDisk = false }

theorem KeepsMedia.refl (f : Fdc) : KeepsMedia f f := .ofDrives rfl rfl

theorem keepsMedia_onDrive {outside : Int -> DriveUnit} {f : Fdc} (i : Int)
    {change : DriveUnit -> DriveUnit} (h : forall u, SameMedium u (change u)) :
    KeepsMedia f (f.onDrive outside i change) := by
  unfold Fdc.onDrive
  split
  · exact KeepsMedia.refl f
  · have htouch : KeepsMedia f (f.touch i) := .ofDrives rfl rfl
    exact htouch.trans (@keepsMedia_setUnit outside (f.touch i) i _ (h (f.unit outside i)))

theorem keepsMedia_portStep {env : PortEnv φ} (p : Port φ) {op : PortOp}
    (h : op.changesDisk = false) : KeepsMedia p.fdc (portStep env p op).fdc := by
  cases op with
  | read addr size =>
      dsimp only [portStep]
      split
      · exact keepsMedia_fddIoRead env addr size p
      · exact KeepsMedia.refl _
  | write addr val size =>
      dsimp only [portStep]
      split
      · exact keepsMedia_fddIoWrite env addr val size p
      · exact KeepsMedia.refl _
  | gpip => exact keepsMedia_fddGpip env p
  | vbl => exact keepsMedia_fddVbl p.fdc
  | ram ram => exact KeepsMedia.refl _
  | insert host i path wp => cases h
  | eject i => cases h
  | toggle host i => cases h
  | setWriteProtect i wp =>
      dsimp only [portStep]
      exact keepsMedia_onDrive i (fun u => SameMedium.ofFd rfl rfl rfl rfl rfl)
  | pulse i =>
      dsimp only [portStep]
      exact keepsMedia_onDrive i (fun u => SameMedium.ofFd rfl rfl rfl rfl rfl)

/-- Whatever the guest does to the controllers between two changes of disks, both drives keep
their disks: none appears or goes, the geometry stays, and no image is closed or cut short. -/
theorem media_kept (env : PortEnv φ) (p : Port φ) (ops : List GuestOp) :
    KeepsMedia p.fdc (run (portStep env) p (ops.map Subtype.val)).fdc := by
  induction ops generalizing p with
  | nil => exact KeepsMedia.refl _
  | cons op rest ih => exact (keepsMedia_portStep p op.2).trans (ih _)

end Floppy
end PistormAtari
