import Mathlib

/-!
# The video registers the emulator follows

Every guest write to the video page is looked at on its way to the chip.  The
screen base, the resolution and the palette are kept for the HDMI renderer; there is
one function for each width of a write.
-/

namespace PistormAtari
namespace Natmem

inductive Width where
  | byte | word | long
deriving DecidableEq, Repr

namespace Width

def size : Width -> Nat
  | .byte => 1
  | .word => 2
  | .long => 4

def bytes : Width -> BitVec 32 -> List (BitVec 8)
  | .byte, v => [v.extractLsb' 0 8]
  | .word, v => [v.extractLsb' 8 8, v.extractLsb' 0 8]
  | .long, v => [v.extractLsb' 24 8, v.extractLsb' 16 8, v.extractLsb' 8 8, v.extractLsb' 0 8]

@[simp] theorem length_bytes (w : Width) (v : BitVec 32) : (w.bytes v).length = w.size := by
  cases w <;> rfl

theorem size_pos (w : Width) : 0 < w.size := by
  cases w <;> decide

theorem size_le (w : Width) : w.size ≤ 4 := by
  cases w <;> decide

end Width

structure Rtg where
  high : BitVec 8
  mid : BitVec 8
  low : BitVec 8
  linewidth : BitVec 8
  hscroll : BitVec 8
  shift_mode : BitVec 8
  hw_rez : BitVec 8
  pal : BitVec 8
  res_changed : Bool
  vram_base : Nat
deriving DecidableEq, Repr

def Rtg.regbase (r : Rtg) : Nat :=
  r.high.toNat * 0x10000 + r.mid.toNat * 0x100 + (r.low &&& 0xFE).toNat

structure Video where
  rtg : Rtg
  st_palette : Nat -> BitVec 16

namespace Video

def setHigh (s : Video) (v : BitVec 8) : Video :=
  { s with rtg := { s.rtg with high := v, low := 0 } }

def setMid (s : Video) (v : BitVec 8) : Video :=
  { s with rtg := { s.rtg with mid := v, low := 0 } }

def setLow (s : Video) (v : BitVec 8) : Video :=
  { s with rtg := { s.rtg with low := v } }

def setLinewidth (s : Video) (v : BitVec 8) : Video :=
  { s with rtg := { s.rtg with linewidth := v } }

def setHscroll (s : Video) (v : BitVec 8) : Video :=
  { s with rtg := { s.rtg with hscroll := v &&& 0x0F } }

def setRez (s : Video) (v : BitVec 8) : Video :=
  { s with rtg := { s.rtg with shift_mode := v, hw_rez := v } }

def setColour (s : Video) (i : Nat) (v : BitVec 16) : Video :=
  { s with st_palette := Function.update s.st_palette i v }

def stVideoSnoop8 (s : Video) (address : Nat) (value : BitVec 8) : Video :=
  let a := address % 0x01000000
  if a = 0xFF8201 then s.setHigh value
  else if a = 0xFF8203 then s.setMid value
  else if a = 0xFF820D then s.setLow value
  else if a = 0xFF820F then s.setLinewidth value
  else if a = 0xFF8265 then s.setHscroll value
  else if a = 0xFF8260 then s.setRez value
  else s

def stVideoSnoop16 (s : Video) (address : Nat) (value : BitVec 16) : Video :=
  let a := address % 0x01000000
  if a = 0xFF8200 then s.setHigh (value.extractLsb' 0 8)
  else if a = 0xFF8202 then s.setMid (value.extractLsb' 0 8)
  else if a = 0xFF820C then s.setLow (value.extractLsb' 0 8)
  else if a = 0xFF820E then s.setLinewidth (value.extractLsb' 0 8)
  else if a = 0xFF8264 then s.setHscroll (value.extractLsb' 0 8)
  else if a = 0xFF8260 then s.setRez (value.extractLsb' 8 8)
  else if 0xFF8240 ≤ a ∧ a < 0xFF8260 then s.setColour ((a - 0xFF8240) / 2) value
  else s

def stVideoSnoop32 (s : Video) (address : Nat) (value : BitVec 32) : Video :=
  let a := address % 0x01000000
  if a = 0xFF8200 then (s.setHigh (value.extractLsb' 16 8)).setMid (value.extractLsb' 0 8)
  else if a = 0xFF820C then
    (s.setLow (value.extractLsb' 16 8)).setLinewidth (value.extractLsb' 0 8)
  else if 0xFF8240 ≤ a ∧ a < 0xFF8260 then
    let i := (a - 0xFF8240) / 2
    let s := s.setColour i (value.extractLsb' 16 16)
    if i + 1 < 16 then s.setColour (i + 1) (value.extractLsb' 0 16)
    -- The low word of a long at the last colour lands on the resolution.
    else s.stVideoSnoop8 0xFF8260 (value.extractLsb' 8 8)
  else if a = 0xFF8260 then s.stVideoSnoop8 a (value.extractLsb' 24 8)
  else s

def stVideoSnoop (s : Video) (a : Nat) : Width -> BitVec 32 -> Video
  | .byte, v => s.stVideoSnoop8 a (v.extractLsb' 0 8)
  | .word, v => s.stVideoSnoop16 a (v.extractLsb' 0 16)
  | .long, v => s.stVideoSnoop32 a v

end Video

def baseHit (a : Nat) : Width -> Bool
  | .byte => a % 0x01000000 == 0xFF8201 || a % 0x01000000 == 0xFF8203 ||
      a % 0x01000000 == 0xFF820D
  | .word => a % 0x01000000 == 0xFF8200 || a % 0x01000000 == 0xFF8202 ||
      a % 0x01000000 == 0xFF820C
  | .long => a % 0x01000000 == 0xFF8200 || a % 0x01000000 == 0xFF820C

theorem Video.stVideoSnoop_regbase {s : Video} {a : Nat} {w : Width} {v : BitVec 32}
    (h : baseHit a w = false) : (s.stVideoSnoop a w v).rtg.regbase = s.rtg.regbase := by
  unfold baseHit at h
  unfold Video.stVideoSnoop
  cases w with
  | byte =>
      simp only [Bool.or_eq_false_iff, beq_eq_false_iff_ne] at h
      unfold Video.stVideoSnoop8
      dsimp only
      rw [if_neg h.1.1, if_neg h.1.2, if_neg h.2]
      split
      · rfl
      · split
        · rfl
        · split
          · rfl
          · rfl
  | word =>
      simp only [Bool.or_eq_false_iff, beq_eq_false_iff_ne] at h
      unfold Video.stVideoSnoop16
      dsimp only
      rw [if_neg h.1.1, if_neg h.1.2, if_neg h.2]
      split
      · rfl
      · split
        · rfl
        · split
          · rfl
          · split
            · rfl
            · rfl
  | long =>
      simp only [Bool.or_eq_false_iff, beq_eq_false_iff_ne] at h
      unfold Video.stVideoSnoop32
      dsimp only
      rw [if_neg h.1, if_neg h.2]
      split
      · split
        · rfl
        · rfl
      · split
        · next hrez =>
          rw [hrez]
          rfl
        · rfl

end Natmem
end PistormAtari
