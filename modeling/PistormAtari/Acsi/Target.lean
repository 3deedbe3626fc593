import PistormAtari.Foundation.BlockMemory

/-!
# ACSI targets and their disk images

An emulated target serves one image file of the host.  The file is reached
through `pread` and `pwrite` only, so the model takes those two calls as a
parameter; three storage layouts sit on top of them (raw, byte-swapped, and a
bare HFS volume behind a synthesized root sector).
-/

namespace PistormAtari
namespace Acsi

open Foundation

abbrev Byte := BitVec 8

/-- The host calls an image is served through.  `pread` yields the 512 bytes
only when the call returned 512; `pwrite` tells whether it returned 512.  Both
return the file as the call leaves it. -/
structure HostFile (φ : Type _) where
  pread : φ -> Nat -> φ × Option (List Byte)
  pwrite : φ -> Nat -> List Byte -> φ × Bool

structure Target (φ : Type _) where
  file : φ
  hfs : Bool
  totalLba : BitVec 32
  root : List Byte
  sense : Byte
  senseLba : BitVec 32
  probed : Bool
  swapped : Bool

/-- `tgt[ACSI_MAX_TARGETS]`; no entry stands for `fd < 0`. -/
abbrev Targets (φ : Type _) := BitVec 3 -> Option (Target φ)

def nTargets {φ : Type _} (tgt : Targets φ) : Nat :=
  ((List.range 8).filter fun i => (tgt (BitVec.ofNat 3 i)).isSome).length

theorem nTargets_pos {φ : Type _} {tgt : Targets φ} {id : BitVec 3}
    (h : (tgt id).isSome = true) : 0 < nTargets tgt := by
  unfold nTargets
  apply List.length_pos_of_mem (a := id.toNat)
  rw [List.mem_filter]
  constructor
  · exact List.mem_range.mpr id.isLt
  · rwa [BitVec.ofNat_toNat, BitVec.setWidth_eq]

variable {φ : Type _}

/-!
## Attaching an image
-/

def byteOf (v : BitVec 32) (shift : Nat) : Byte :=
  (v >>> shift).setWidth 8

def pokeAll (buf : List Byte) (pokes : List (Nat × Byte)) : List Byte :=
  pokes.foldl (fun b p => b.set p.1 p.2) buf

@[simp] theorem length_pokeAll (buf : List Byte) (pokes : List (Nat × Byte)) :
    (pokeAll buf pokes).length = buf.length := by
  induction pokes generalizing buf with
  | nil => rfl
  | cons p rest ih =>
      change (pokeAll (buf.set p.1 p.2) rest).length = buf.length
      rw [ih, List.length_set]

/-- `synth_root`: an AHDI root sector with one `MAC` partition at sector 1. -/
def synthRoot (hfsSectors : BitVec 32) : List Byte :=
  let total := hfsSectors + 1
  pokeAll (List.replicate 512 0)
    [(0x1C2, byteOf total 24), (0x1C3, byteOf total 16),
      (0x1C4, byteOf total 8), (0x1C5, byteOf total 0),
      (0x1C6, 0x01), (0x1C7, 0x4D), (0x1C8, 0x41), (0x1C9, 0x43),
      (0x1CA, 0), (0x1CB, 0), (0x1CC, 0), (0x1CD, 1),
      (0x1CE, byteOf hfsSectors 24), (0x1CF, byteOf hfsSectors 16),
      (0x1D0, byteOf hfsSectors 8), (0x1D1, byteOf hfsSectors 0)]

@[simp] theorem length_synthRoot (n : BitVec 32) : (synthRoot n).length = 512 := by
  rw [synthRoot, length_pokeAll, List.length_replicate]

/-- What `open`, `fstat` and `disk_order_resolve` report of an image file. -/
structure OpenedImage (φ : Type _) where
  file : φ
  size : Nat
  order : Nat

/-- `strrchr(path, '.')` followed by `strcasecmp(dot, ".hfs") == 0`. -/
def isHfsPath (path : List Char) : Bool :=
  path.contains '.' &&
    (path.reverse.takeWhile (· != '.')).reverse.map Char.toLower == ['h', 'f', 's']

def openTarget (path : List Char) (img : OpenedImage φ) : Target φ :=
  let fileSectors := BitVec.ofNat 32 (img.size / 512)
  if isHfsPath path then
    { file := img.file, hfs := true, totalLba := fileSectors + 1,
      root := synthRoot fileSectors, sense := 0, senseLba := 0,
      probed := false, swapped := false }
  else
    { file := img.file, hfs := false, totalLba := fileSectors,
      root := List.replicate 512 0, sense := 0, senseLba := 0,
      probed := false, swapped := img.order == 1 }

/-- `acsi_attach_at`; `none` as ID asks for the lowest free one, and `none` as
a result is the `-1` return. -/
def attachAt (openImage : List Char -> Option (OpenedImage φ)) (tgt : Targets φ)
    (id : Option Nat) (path : List Char) : Option Nat × Targets φ :=
  let id := id.getD
    (((List.range 8).find? fun i => (tgt (BitVec.ofNat 3 i)).isNone).getD 8)
  if 8 ≤ id then (none, tgt)
  else if (tgt (BitVec.ofNat 3 id)).isSome then (none, tgt)
  else
    match openImage path with
    | none => (none, tgt)
    | some img =>
        if img.size < 512 then (none, tgt)
        else (some id, Function.update tgt (BitVec.ofNat 3 id) (openTarget path img))

def attach (openImage : List Char -> Option (OpenedImage φ)) (tgt : Targets φ)
    (path : List Char) : Option Nat × Targets φ :=
  match path with
  | d :: sep :: rest =>
      if '0' ≤ d ∧ d ≤ '7' ∧ (sep = ':' ∨ sep = ' ' ∨ sep = '\t') then
        attachAt openImage tgt (some (d.toNat - '0'.toNat))
          (rest.dropWhile fun c => c == ' ' || c == '\t')
      else attachAt openImage tgt none path
  | _ => attachAt openImage tgt none path

/-!
## Sector access
-/

/-- `disk_swap512`: the two bytes of every 16-bit word change places. -/
def diskSwap512 : List Byte -> List Byte
  | a :: b :: rest => b :: a :: diskSwap512 rest
  | rest => rest

@[simp] theorem length_diskSwap512 (bs : List Byte) :
    (diskSwap512 bs).length = bs.length := by
  fun_induction diskSwap512 bs with
  | case1 a b rest ih => simp [ih]
  | case2 rest h => rfl

@[simp] theorem diskSwap512_diskSwap512 (bs : List Byte) :
    diskSwap512 (diskSwap512 bs) = bs := by
  fun_induction diskSwap512 bs with
  | case1 a b rest ih => simp [diskSwap512, ih]
  | case2 rest h =>
      cases rest with
      | nil => rfl
      | cons a rest =>
          cases rest with
          | nil => rfl
          | cons b rest => exact absurd rfl (h a b rest)

def readLba (io : HostFile φ) (t : Target φ) (lba : BitVec 32) :
    Target φ × Option (List Byte) :=
  if t.hfs then
    if lba = 0 then (t, some t.root)
    else
      let r := io.pread t.file ((lba - 1).toNat * 512)
      ({ t with file := r.1 }, r.2)
  else
    let r := io.pread t.file (lba.toNat * 512)
    ({ t with file := r.1 }, r.2.map fun buf => if t.swapped then diskSwap512 buf else buf)

/-- `write_lba`; `false` is the `-1` return.  The synthesized root is not
backed by the file and a write to it is ignored. -/
def writeLba (io : HostFile φ) (t : Target φ) (lba : BitVec 32) (buf : List Byte) :
    Target φ × Bool :=
  if t.hfs then
    if lba = 0 then (t, true)
    else
      let r := io.pwrite t.file ((lba - 1).toNat * 512) buf
      ({ t with file := r.1 }, r.2)
  else
    let r := io.pwrite t.file (lba.toNat * 512) (if t.swapped then diskSwap512 buf else buf)
    ({ t with file := r.1 }, r.2)

end Acsi
end PistormAtari
