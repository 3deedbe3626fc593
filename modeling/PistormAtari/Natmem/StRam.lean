import Mathlib
import PistormAtari.Foundation.MirrorWindow
import PistormAtari.Natmem.CodePages
import PistormAtari.Natmem.HostPointers
import PistormAtari.Natmem.VideoRegs

/-!
# Writes to ST-RAM

A guest write updates the mirror in host memory, is followed by the low-RAM snoop,
goes through to the real bus where the board has to see it, and is checked against
the pages that hold compiled code.  On a board that cannot decode the guest's
screen the screen's writes go to a shadow of it at the top of the real memory.
-/

namespace PistormAtari
namespace Natmem

open Foundation

def stramLowWriteThroughSize : Nat := 0x5B4
def stramScreenWriteThroughSize : Nat := 0x20000
def stramShadowSize : Nat := 0x8000

/-- The machine around the mirror: the bank table, the configuration, the probed
board and the environment. -/
structure NatmemMachine where
  jit : JitMachine
  stram_cache : Bool
  psvidel_active : Bool
  hdmi_only : Bool
  stram_phys : Option (List Char)
  stram_shadow : Option (List Char)
  mirrors : Bool
  g_shadow_ste_reg : Bool
  ttsmc : Option (List Char)

/-- The mirror, the memory and the registers behind the bus, what is known of the
video, and the marks of the code pages. -/
structure StRam where
  natmem : Nat -> BitVec 8
  bus : Nat -> BitVec 8
  video : Video
  g_shadow_src : Nat
  g_shadow_have_base : Bool
  pages : CodePages

namespace NatmemMachine

variable (m : NatmemMachine)

/-- Where the shadow goes: the top 32 KB of the board's memory, unless the board
repeats its memory, the guest was told its real size, or there is no room. -/
def stramShadowInit (phys_top : Nat) : Nat :=
  if envOff m.stram_shadow then 0
  else if m.jit.stramAlias.isSome || m.mirrors || phys_top == 0 || stRamSize ≤ phys_top then 0
  else if phys_top < stramShadowSize * 2 then 0
  else (phys_top - stramShadowSize) / 0x100 * 0x100

/-- The shadow's place once the board was probed, 0 when it is not engaged. -/
def shadowBase : Nat :=
  if envOff m.stram_phys then 0
  else if m.jit.phys0 = 0 then 0
  else m.stramShadowInit (m.jit.phys0 + m.jit.phys1)

theorem shadowBase_room : m.shadowBase = 0 ∨
    (stramShadowSize ≤ m.shadowBase ∧ m.shadowBase + stramShadowSize ≤ stRamSize) := by
  unfold shadowBase stramShadowInit
  split
  · exact Or.inl rfl
  · split
    · exact Or.inl rfl
    · split
      · exact Or.inl rfl
      · split
        · exact Or.inl rfl
        · next hout =>
          split
          · exact Or.inl rfl
          · next hroom =>
            right
            simp only [Bool.or_eq_true, decide_eq_true_eq, not_or, not_le] at hout
            unfold stramShadowSize stRamSize at *
            lia

end NatmemMachine

namespace StRam

/-!
## Where the screen is
-/

def physbase (natmem : Nat -> BitVec 8) : Nat :=
  ((natmem 0x44F).toNat * 0x10000 + (natmem 0x450).toNat * 0x100 + (natmem 0x451).toNat) / 2 * 2

def stramScreenBase (s : StRam) : Nat :=
  let regbase := s.video.rtg.regbase
  if regbase ≠ 0 ∧ regbase < stRamSize then regbase
  else if s.video.rtg.vram_base ≠ 0 ∧ s.video.rtg.vram_base < stRamSize then
    s.video.rtg.vram_base / 2 * 2
  else if physbase s.natmem ≠ 0 ∧ physbase s.natmem < stRamSize then physbase s.natmem
  else 0

/-- The guest's screen base, once it has written one that can be a screen. -/
def stramShadowGuestBase (s : StRam) : Nat :=
  if s.g_shadow_have_base = false then 0
  else
    let b := s.video.rtg.regbase
    if b < 0x8000 ∨ stRamSize < b + stramShadowSize then 0 else b

def stramRangeOverlaps (a sz start len : Nat) : Bool := a < start + len && start < a + sz

def stramNeedsBusWrite (m : NatmemMachine) (s : StRam) (a sz : Nat) : Bool :=
  let a := a % 0x01000000
  if stRamSize ≤ a then false
  else if !m.stram_cache then true
  else if a < stramLowWriteThroughSize then true
  else
    let screen := s.stramScreenBase
    if screen ≠ 0 ∧ stramRangeOverlaps a sz screen stramScreenWriteThroughSize = true then
      !m.psvidel_active && !m.hdmi_only
    else false

/-- Screen writes land in the shadow; everything else keeps its address. -/
def stramBusAddr (m : NatmemMachine) (s : StRam) (a : Nat) : Nat :=
  let scr := s.stramShadowGuestBase
  if m.shadowBase ≠ 0 ∧ scr ≠ 0 ∧ scr ≤ a ∧ a < scr + stramShadowSize then
    m.shadowBase + (a - scr)
  else a % 0x01000000

/-!
## The shadow
-/

def stramShadowProgramBase (m : NatmemMachine) (s : StRam) : StRam :=
  if s.stramShadowGuestBase = 0 then s
  else
    let bus := writeBlock s.bus 0xFF8201 [BitVec.ofNat 8 (m.shadowBase / 0x10000)]
    let bus := writeBlock bus 0xFF8203 [BitVec.ofNat 8 (m.shadowBase / 0x100)]
    { s with
      bus :=
        if m.g_shadow_ste_reg then
          writeBlock bus 0xFF820D [BitVec.ofNat 8 m.shadowBase &&& 0xFE]
        else bus }

/-- Copy the guest's screen into the shadow when its base has moved: with the
cache on only the longs that differ from the screen shown before. -/
def stramShadowRefill (m : NatmemMachine) (s : StRam) : StRam :=
  let scr := s.stramShadowGuestBase
  if scr = 0 ∨ scr = s.g_shadow_src then s
  else
    let prev := s.g_shadow_src
    let diff := prev ≠ 0 ∧ m.stram_cache = true
    { s with
      g_shadow_src := scr
      bus :=
        copyPieces s.natmem scr m.shadowBase 4
          (fun k => decide diff && readBlock s.natmem (scr + 4 * k) 4 ==
            readBlock s.natmem (prev + 4 * k) 4)
          0x2000 s.bus }

def stramShadowVideoAfter (m : NatmemMachine) (s : StRam) (a : Nat) (w : Width) : StRam :=
  if m.shadowBase = 0 then s
  else if m.psvidel_active then s
  else if baseHit a w = false then s
  else
    let s := { s with g_shadow_have_base := true }
    if m.hdmi_only then s
    else (s.stramShadowRefill m).stramShadowProgramBase m

def hwVideoPut (m : NatmemMachine) (s : StRam) (a : Nat) (w : Width) (v : BitVec 32) : StRam :=
  let s := { s with video := s.video.stVideoSnoop a w v }
  let s := { s with bus := writeBlock s.bus (a % 0x01000000) (w.bytes v) }
  s.stramShadowVideoAfter m a w

/-!
## The write handlers
-/

def stramSnoopLowram (s : StRam) (a sz : Nat) : StRam :=
  let a := a % 0x01000000
  let rtg := s.video.rtg
  let rtg := if a = 0x448 then { rtg with pal := s.natmem 0x449 } else rtg
  let rtg :=
    if a = 0x44C ∧ rtg.shift_mode ≠ s.natmem 0x44D then
      { rtg with shift_mode := s.natmem 0x44D, res_changed := true }
    else rtg
  let rtg :=
    if a < 0x452 ∧ 0x44E < a + sz then { rtg with vram_base := physbase s.natmem } else rtg
  { s with video := { s.video with rtg := rtg } }

def pistormSmc (s : StRam) (addr sz : Nat) : StRam :=
  { s with pages := s.pages.pistormSmc addr sz }

def loPut (s : StRam) (a : Nat) (w : Width) (v : BitVec 32) : StRam :=
  ({ s with natmem := writeBlock s.natmem a (w.bytes v) } : StRam).pistormSmc a w.size

def writeThrough (m : NatmemMachine) (s : StRam) (a : Nat) (w : Width) (v : BitVec 32) : StRam :=
  let s := { s with natmem := writeBlock s.natmem a (w.bytes v) }
  let s := s.stramSnoopLowram a w.size
  if s.stramNeedsBusWrite m a w.size then
    { s with bus := writeBlock s.bus (s.stramBusAddr m a) (w.bytes v) }
  else s

def srPut (m : NatmemMachine) (s : StRam) (a : Nat) (w : Width) (v : BitVec 32) : StRam :=
  (s.writeThrough m a w v).pistormSmc a w.size

def ttPut (m : NatmemMachine) (s : StRam) (a : Nat) (w : Width) (v : BitVec 32) : Option StRam :=
  (s.pages.store m.jit.tt_ram_size a w.size).map fun pages =>
    { s with
      natmem := writeBlock s.natmem a (w.bytes v)
      pages := pages }

/-- A guest write, dispatched by the bank of its first byte.  The banks that hold
neither ST-RAM nor TT-RAM keep both as they are. -/
def guestPut (m : NatmemMachine) (s : StRam) (addr : BitVec 32) (w : Width) (v : BitVec 32) :
    Option StRam :=
  match m.jit.reached addr with
  | (.lowram, a) => some (s.loPut a w v)
  | (.stram, a) => some (s.srPut m a w v)
  | (.ttram, a) => s.ttPut m a w v
  | _ => some s

def blitTt (m : NatmemMachine) (a : Nat) : Bool :=
  m.jit.tt_ram_available && ttRamBase ≤ a &&
    a - ttRamBase < (m.jit.tt_ram_size + (2 ^ 32 - 1)) % 2 ^ 32

def pistormBlitWrite16 (m : NatmemMachine) (s : StRam) (a : Nat) (v : BitVec 16) : Option StRam :=
  if blitTt m a then s.ttPut m (a / 2 * 2) .word (v.setWidth 32)
  else
    let a := a % 0x01000000 / 2 * 2
    if m.jit.stramTop ≤ a then some s else some (s.srPut m a .word (v.setWidth 32))

def pistormDmaToStram (m : NatmemMachine) (s : StRam) (addr n : Nat) (src : Nat -> BitVec 8) :
    StRam :=
  let s :=
    if addr < m.jit.stramTop ∧ n ≤ m.jit.stramTop - addr then
      { s with natmem := fun a => if addr ≤ a ∧ a < addr + n then src (a - addr) else s.natmem a }
    else s
  s.pistormSmc addr n

/-!
## The read-back of the real blitter
-/

structure BlitterRegs where
  dst : BitVec 32
  dx : BitVec 16
  dy : BitVec 16
  xcnt : BitVec 16
  ycnt : BitVec 16

/-- The range the blitter may have written, none when nothing is read back. -/
def syncRange (r : BlitterRegs) : Option (Nat × Nat) :=
  let dst : Int := (r.dst.toNat % 0x01000000 / 2 * 2 : Nat)
  let xcnt := if r.xcnt.toNat = 0 then 65536 else r.xcnt.toNat
  let ycnt := if r.ycnt.toNat = 0 then 65536 else r.ycnt.toNat
  if 4096 < xcnt ∨ 4096 < ycnt then none
  else
    let xlast : Int := (xcnt - 1) * r.dx.toInt
    let ylast : Int := (ycnt - 1) * r.dy.toInt
    let minoff := min (min (min 0 xlast) ylast) (xlast + ylast)
    let maxoff := max (max (max 2 (xlast + 2)) (ylast + 2)) (xlast + ylast + 2)
    let start64 := dst + minoff
    let end64 := dst + maxoff
    if end64 ≤ 0 ∨ (stRamSize : Int) ≤ start64 then none
    else
      let start := (max start64 0).toNat / 2 * 2
      let stop := min (((min end64 stRamSize).toNat + 1) / 2 * 2) stRamSize
      if stop ≤ start then none else some (start, stop)

theorem syncRange_stop {r : BlitterRegs} {x : Nat × Nat} (h : syncRange r = some x) :
    x.1 < x.2 ∧ x.2 ≤ stRamSize := by
  unfold syncRange at h
  dsimp only at h
  generalize (if r.xcnt.toNat = 0 then 65536 else r.xcnt.toNat) = xcnt at h
  generalize (if r.ycnt.toNat = 0 then 65536 else r.ycnt.toNat) = ycnt at h
  split at h
  · cases h
  · split at h
    · cases h
    · split at h
      · cases h
      · next hroom =>
        rw [← Option.some.inj h]
        exact ⟨Nat.not_le.mp hroom, min_le_right _ _⟩

/-- Read words off the bus into the mirror, until one of them is a bus error. -/
def syncWords (answers : Nat -> Option (BitVec 16)) :
    Nat -> Nat -> (Nat -> BitVec 8) -> Nat -> BitVec 8
  | 0, _, natmem => natmem
  | n + 1, p, natmem =>
      match answers p with
      | none => natmem
      | some w =>
          syncWords answers n (p + 2)
            (writeBlock natmem p [w.extractLsb' 8 8, w.extractLsb' 0 8])

def blitterSyncDest (s : StRam) (r : BlitterRegs) (answers : Nat -> Option (BitVec 16)) : StRam :=
  match syncRange r with
  | none => s
  | some (start, stop) =>
      ({ s with natmem := syncWords answers ((stop - start) / 2) start s.natmem } : StRam).pistormSmc
        start (stop - start)

end StRam
end Natmem
end PistormAtari
