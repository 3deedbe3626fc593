import PistormAtari.Config.EmulatorConfig

/-!
# Floppy drives

The two drives of `atari_fdd.c`, as the settings see them: inserting an image,
ejecting it, and asking what a drive holds.  A compressed MSA image is decoded
when it is inserted.
-/

namespace PistormAtari
namespace Floppy

open Foundation
open Config

/-- The host's files: what they hold, and if they can be opened for writing. -/
structure HostFiles where
  contents : Text -> Option (List UInt8)
  writable : Text -> Bool

inductive FddType
  | none | dd | hd
deriving DecidableEq, Repr

structure Drive where
  fd : Option (List UInt8) := Option.none
  imagePath : PathBuf := noPath
  writeProtected : Bool := false
  diskInserted : Bool := false
  mediaChanged : Bool := false
  type : FddType := .none
  sectorsPerTrack : Nat := 0
  numTracks : Nat := 0
  numSides : Nat := 0
  imageSize : UInt32 := 0
  reservedSectors : Nat := 0
deriving DecidableEq

/-!
## MSA images
-/

/-- What `msa_open_decoded` finds: no MSA file, a broken one, or a decoded image. -/
inductive Msa
  | raw
  | corrupt
  | decoded (img : List UInt8)

def byteAt (raw : List UInt8) (i : Nat) : Nat :=
  (raw.getD i 0).toNat

def be16 (raw : List UInt8) (i : Nat) : Nat :=
  byteAt raw i * 256 + byteAt raw (i + 1)

/-- A run-length coded track: `0xE5 v hi lo` stands for that many bytes `v`.  `room`
is what the track still takes. -/
def rleTrack : Nat -> List UInt8 -> Nat -> Option (List UInt8)
  | 0, _, _ => some []
  | _ + 1, [], _ => some []
  | fuel + 1, b :: rest, room =>
      if room = 0 then some []
      else if b ≠ 0xE5 then (rleTrack fuel rest (room - 1)).map (b :: ·)
      else
        match rest with
        | v :: hi :: lo :: rest =>
            let n := min (hi.toNat * 256 + lo.toNat) room
            (rleTrack fuel rest (room - n)).map (List.replicate n v ++ ·)
        | _ => Option.none

def msaTrack (data : List UInt8) (tlen : Nat) : Option (List UInt8) :=
  if data.length = tlen then some data
  else (rleTrack data.length data tlen).map (fun t => t ++ List.replicate (tlen - t.length) 0)

def msaTracks (raw : List UInt8) (tlen : Nat) : Nat -> Nat -> Option (List UInt8)
  | 0, _ => some []
  | tracks + 1, src =>
      if src + 2 > raw.length then Option.none
      else
        let dlen := be16 raw src
        if src + 2 + dlen > raw.length then Option.none
        else
          match msaTrack ((raw.drop (src + 2)).take dlen) tlen with
          | Option.none => Option.none
          | some t => (msaTracks raw tlen tracks (src + 2 + dlen)).map (t ++ ·)

def msaOpenDecoded (host : HostFiles) (path : Text) : Msa :=
  match host.contents path with
  | Option.none => .raw
  | some raw =>
      if raw.length < 2 ∨ byteAt raw 0 ≠ 0x0E ∨ byteAt raw 1 ≠ 0x0F then .raw
      else if raw.length < 12 ∨ raw.length > 2 * 1024 * 1024 then .corrupt
      else
        let spt := be16 raw 2
        let sides := (be16 raw 4 + 1) % 65536
        let tstart := be16 raw 6
        let tend := be16 raw 8
        let tlen := 512 * spt
        if spt = 0 ∨ spt > 12 ∨ sides > 2 ∨ tend < tstart ∨
            tlen * sides * (tend - tstart + 1) > 2048 * 1024 then .corrupt
        else
          match msaTracks raw tlen ((tend - tstart + 1) * sides) 10 with
          | Option.none => .corrupt
          | some img => .decoded img

/-!
## Geometry
-/

def le16 (raw : List UInt8) (i : Nat) : Nat :=
  byteAt raw i + byteAt raw (i + 1) * 256

/-- The first sector of the image's first two tracks that starts like a FAT. -/
def scanFat (img : List UInt8) : Nat -> Nat -> Option Nat
  | 0, _ => Option.none
  | n + 1, s =>
      if s * 512 + 4 ≤ img.length ∧ byteAt img (s * 512 + 1) = 0xFF ∧
          byteAt img (s * 512 + 2) = 0xFF ∧ byteAt img (s * 512) ≥ 0xF8 then some s
      else scanFat img n (s + 1)

/-- The geometry that the boot sector gives, or else the size of the image. -/
def setGeometry (d : Drive) (img : List UInt8) : Drive :=
  let bps := le16 img 0x0B
  let spt := le16 img 0x18
  let sides := le16 img 0x1A
  let total := le16 img 0x13
  if 512 ≤ img.length ∧ bps = 512 ∧ 1 ≤ spt ∧ spt ≤ 18 ∧ 1 ≤ sides ∧ sides ≤ 2 ∧ 0 < total then
    { d with
      sectorsPerTrack := spt
      numTracks := total / (spt * sides)
      numSides := sides
      type := if spt > 9 then .hd else .dd
      reservedSectors := (scanFat img (spt * 2 - 1) 1).getD (le16 img 0x0E) }
  else if d.imageSize ≤ 80 * 1 * 9 * 512 then
    { d with
      type := .dd
      sectorsPerTrack := 9
      numSides := 1
      numTracks := d.imageSize.toNat / (512 * 9)
      reservedSectors := 1 }
  else if d.imageSize ≤ 80 * 2 * 9 * 512 then
    { d with
      type := .dd
      sectorsPerTrack := 9
      numSides := 2
      numTracks := 80
      reservedSectors := 1 }
  else
    { d with type := .hd, sectorsPerTrack := 18, numSides := 2, numTracks := 80 }

/-!
## Inserting and ejecting
-/

/-- The file that `fdd_insert_disk` opens, and if it is then write protected. -/
def openImage (host : HostFiles) (path : Text) (wp : Bool) : Option (List UInt8 × Bool) :=
  match msaOpenDecoded host path with
  | .corrupt => Option.none
  | .decoded img => some (img, true)
  | .raw =>
      match host.contents path with
      | Option.none => Option.none
      | some img => if wp || host.writable path then some (img, wp) else Option.none

/-- `fdd_insert_disk`.  The old image is closed before the new one is opened. -/
def insertDisk (host : HostFiles) (path : Text) (wp : Bool) (d : Drive) : Bool × Drive :=
  let d := { d with fd := Option.none }
  match openImage host path wp with
  | Option.none => (false, d)
  | some (img, wp) =>
      let d := setGeometry { d with fd := some img, imageSize := UInt32.ofNat img.length } img
      (true, { d with
        writeProtected := wp
        diskInserted := true
        mediaChanged := false
        imagePath := pathBuf path })

def ejectDisk (d : Drive) : Drive :=
  { d with
    fd := Option.none
    diskInserted := false
    mediaChanged := true
    writeProtected := false
    numSides := 2 }

def pulseMedia (d : Drive) : Drive :=
  { d with mediaChanged := true }

def setWriteProtect (wp : Bool) (d : Drive) : Drive :=
  { d with writeProtected := wp }

def queryPath (d : Drive) : Option Text :=
  if d.diskInserted then some d.imagePath.chars else Option.none

end Floppy
end PistormAtari
