import PistormAtari.Foundation.RunWindow
import PistormAtari.Mfp.StboxMfp

/-!
# The floppy controller of the STBOX

{lit}`fdc_complete` executes a command against the disk image: sectors move between the image
and the RAM by the address and the sector count of the DMA chip, and a raw track is made up
from the sectors of the image.
-/

namespace PistormAtari
namespace Stbox

open Foundation
open Mfp

/-!
## The image
-/

/-- The `diska` structure with an image in it.  Its geometry is one of those that
`fdc_geometry` finds. -/
structure Disk where
  data : Nat -> Byte
  size : Nat
  spt : Nat
  sides : Nat
  bounded : 8 ≤ spt ∧ spt ≤ 12

/-- The sectors of a track and the sides by the size alone, the first that divide it. -/
def sizeGeometry (size : Nat) : Nat × Nat :=
  ([(9, 2), (10, 2), (11, 2), (9, 1), (10, 1), (11, 1)].find? fun g =>
    size % (512 * g.1 * g.2) = 0).getD (9, 2)

/-- `fdc_geometry`: the boot sector is believed if the size agrees with it. -/
def fdcGeometry (data : Nat -> Byte) (size : Nat) : Nat × Nat :=
  let spt := (data 24).toNat + 256 * (data 25).toNat
  let sides := (data 26).toNat + 256 * (data 27).toNat
  if spt < 8 ∨ 12 < spt ∨ sides < 1 ∨ 2 < sides ∨ size % (512 * spt * sides) ≠ 0 then
    sizeGeometry size
  else (spt, sides)

theorem sizeGeometry_bounded (size : Nat) :
    8 ≤ (sizeGeometry size).1 ∧ (sizeGeometry size).1 ≤ 12 := by
  unfold sizeGeometry
  cases hfind : [(9, 2), (10, 2), (11, 2), (9, 1), (10, 1), (11, 1)].find? fun g =>
      size % (512 * g.1 * g.2) = 0 with
  | none => decide
  | some g =>
      have hmem := List.mem_of_find?_eq_some hfind
      have hall : forall g, g ∈ [(9, 2), (10, 2), (11, 2), (9, 1), (10, 1), (11, 1)] ->
          8 ≤ g.1 ∧ g.1 ≤ 12 := by decide
      exact hall g hmem

theorem fdcGeometry_bounded (data : Nat -> Byte) (size : Nat) :
    8 ≤ (fdcGeometry data size).1 ∧ (fdcGeometry data size).1 ≤ 12 := by
  unfold fdcGeometry
  dsimp only
  split
  · exact sizeGeometry_bounded size
  · next hbelieved => lia

def adopt (data : Nat -> Byte) (size : Nat) : Disk where
  data := data
  size := size
  spt := (fdcGeometry data size).1
  sides := (fdcGeometry data size).2
  bounded := fdcGeometry_bounded data size

def Disk.tracks (d : Disk) : Nat := d.size / (512 * d.spt * d.sides) % 2 ^ 16

def Disk.offset (d : Disk) (track side sector : Nat) : Nat :=
  ((track * d.sides + side) * d.spt + (sector - 1)) * 512

def Disk.has (d : Disk) (track side sector : Nat) : Prop :=
  d.offset track side sector + 512 ≤ d.size

instance (d : Disk) (track side sector : Nat) : Decidable (d.has track side sector) :=
  inferInstanceAs (Decidable (_ ≤ _))

def Disk.sectorBytes (d : Disk) (track side sector : Nat) : List Byte :=
  (List.range 512).map fun i => d.data (d.offset track side sector + i)

/-!
## The controller
-/

/-- The `fdc` structure, the image in the drive, the side that the PSG selects, the RAM, the
cycle counter and the MFP.  A DMA address that has been programmed has 24 bits, so that no
sum of a command reaches 32. -/
structure Fdc where
  cmd : Byte
  track : Byte
  sector : Byte
  status : Byte
  sectorCount : BitVec 16
  dmaAddr : Nat
  pending : Bool
  disk : Option Disk
  side : Fin 2
  ramSize : Nat
  ram : Nat -> Byte
  totalCyc : Nat
  mfp : StMfp

def ramCell (ramSize n : Nat) : Option Nat :=
  if 8 ≤ n % 2 ^ 24 ∧ n % 2 ^ 24 < ramSize then some (n % 2 ^ 24) else none

def MFP_CH_GPIP5 : Fin 16 := (7#4).toFin

def fdcIntrq (status : Byte) (s : Fdc) : Fdc :=
  { s with
    status := status
    mfp := mfpRaise { s.mfp with gpip := s.mfp.gpip &&& ~~~0x20 } MFP_CH_GPIP5 }

def readSector (d : Disk) (s : Fdc) : Fdc :=
  { s with
    ram := putRun (ramCell s.ramSize) s.ram s.dmaAddr
      (d.sectorBytes s.track.toNat s.side.val s.sector.toNat)
    dmaAddr := s.dmaAddr + 512
    sectorCount := if s.sectorCount = 0 then 0 else s.sectorCount - 1
    sector := s.sector + 1 }

def writeSector (d : Disk) (s : Fdc) : Fdc :=
  let off := d.offset s.track.toNat s.side.val s.sector.toNat
  let byte (i : Nat) : Byte :=
    let a := (s.dmaAddr + i) % 2 ^ 24
    if a < s.ramSize then s.ram a else 0
  { s with
    disk := some
      { d with data := fun x => if off ≤ x ∧ x < off + 512 then byte (x - off) else d.data x }
    dmaAddr := s.dmaAddr + 512
    sectorCount := if s.sectorCount = 0 then 0 else s.sectorCount - 1
    sector := s.sector + 1 }

/-- The sector loop of a type II command, by the sectors that are left on the track. -/
def sectorLoop : Nat -> Fdc -> Fdc
  | 0, s => s
  | left + 1, s =>
      match s.disk with
      | none => s
      | some d =>
          if d.has s.track.toNat s.side.val s.sector.toNat then
            let s' := if s.cmd &&& 0x20 = 0 then readSector d s else writeSector d s
            if s.cmd &&& 0x10 ≠ 0 ∧ s'.sector.toNat ≤ d.spt ∧ s'.sectorCount ≠ 0 then
              sectorLoop left s'
            else s'
          else s

def Fdc.accepts (s : Fdc) (d : Disk) : Prop :=
  s.track.toNat < d.tracks ∧ 1 ≤ s.sector.toNat ∧ s.sector.toNat ≤ d.spt ∧ s.side.val < d.sides

instance (s : Fdc) (d : Disk) : Decidable (s.accepts d) :=
  inferInstanceAs (Decidable (_ ∧ _ ∧ _ ∧ _))

def idField (s : Fdc) (d : Disk) : List Byte :=
  [s.track, BitVec.ofNat 8 s.side.val, BitVec.ofNat 8 (1 + s.totalCyc / 22000 % d.spt), 2, 0xDE, 0xAD]

/-!
## Raw tracks
-/

def crcByte (c : BitVec 16) (v : Byte) : BitVec 16 :=
  (fun c : BitVec 16 => if c &&& 0x8000 ≠ 0 then c <<< 1 ^^^ 0x1021 else c <<< 1)^[8]
    (c ^^^ v.setWidth 16 <<< 8)

def mfmCrc (bytes : List Byte) : BitVec 16 := bytes.foldl crcByte 0xFFFF

def crcBytes (c : BitVec 16) : List Byte := [(c >>> 8).setWidth 8, c.setWidth 8]

def trackRecord (d : Disk) (track : Byte) (side sector : Nat) : List Byte :=
  let hdr : List Byte := [0xA1, 0xA1, 0xA1, 0xFE, track, BitVec.ofNat 8 side, BitVec.ofNat 8 sector, 2]
  let dam : List Byte := [0xA1, 0xA1, 0xA1, 0xFB]
  let data := d.sectorBytes track.toNat side sector
  List.replicate 12 0x00 ++ hdr ++ crcBytes (mfmCrc hdr) ++ List.replicate 22 0x4E ++
    List.replicate 12 0x00 ++ dam ++ data ++ crcBytes (mfmCrc (dam ++ data)) ++
    List.replicate 24 0x4E

/-- The sectors of a raw track from `sector` on, by those that are left, after `len` of the
`want` bytes: the limit is looked at before each sector. -/
def trackSectors (d : Disk) (track : Byte) (side want : Nat) : Nat -> Nat -> Nat -> List Byte
  | 0, _, _ => []
  | left + 1, sector, len =>
      if len < want ∧ d.has track.toNat side sector then
        trackRecord d track side sector ++
          trackSectors d track side want left (sector + 1)
            (len + (trackRecord d track side sector).length)
      else []

def trackBytes (d : Disk) (track : Byte) (side want : Nat) : List Byte :=
  let gap : List Byte := List.replicate (min 60 want) 0x4E
  let body := gap ++ trackSectors d track side want d.spt 1 gap.length
  body ++ List.replicate (want - body.length) 0x4E

def fdcComplete (s : Fdc) : Fdc :=
  let s := { s with pending := false }
  if s.cmd < 0x80 then
    fdcIntrq (0xA0 ||| (if s.track = 0 then 0x04 else 0x00) ||| (if s.disk.isNone then 0x10 else 0x00)) s
  else if s.cmd < 0xC0 then
    match s.disk with
    | none => fdcIntrq 0x90 s
    | some d =>
        if s.accepts d then fdcIntrq 0x80 (sectorLoop (d.spt + 1 - s.sector.toNat) s)
        else fdcIntrq 0x90 s
  else if s.cmd &&& 0xF0 = 0xC0 then
    match s.disk with
    | none => fdcIntrq 0x90 s
    | some d =>
        fdcIntrq 0x80
          { s with
            ram := putRun (ramCell s.ramSize) s.ram s.dmaAddr (idField s d)
            dmaAddr := s.dmaAddr + 6
            sector := s.track }
  else if s.cmd &&& 0xF0 = 0xE0 then
    match s.disk with
    | none => fdcIntrq 0x90 s
    | some d =>
        let want := s.sectorCount.toNat * 512
        fdcIntrq 0x80
          { s with
            ram := putRun (ramCell s.ramSize) s.ram s.dmaAddr (trackBytes d s.track s.side.val want)
            dmaAddr := s.dmaAddr + want
            sectorCount := 0 }
  else fdcIntrq 0x80 s

end Stbox
end PistormAtari
