import Mathlib
import PistormAtari.Stbox.Fdc

/-!
# The window of the floppy DMA

The DMA chip should move data only while its sector count is not zero, so a command may change
the RAM only in the programmed window.  A sector and an ID field are transferred whatever the
count is, and a raw track ends with a whole sector.
-/

namespace PistormAtari
namespace Stbox

open Foundation
open Mfp

def Fdc.programmed (s : Fdc) (addr : BitVec 24) : Fdc := { s with dmaAddr := addr.toNat }

def Fdc.window (s : Fdc) : Nat := s.sectorCount.toNat * 512

/-- Whatever the RAM holds, the command changes it only in the window. -/
def StaysInWindow (s : Fdc) : Prop :=
  forall ram a, (fdcComplete { s with ram := ram }).ram a ≠ ram a ->
    InWindow (ramCell s.ramSize) s.dmaAddr s.window a

/-- The sectors of a track that the image has, one behind the other from the first. -/
def Disk.sectorsOf (d : Disk) (track side : Nat) : Nat :=
  min d.spt ((d.size - d.offset track side 1) / 512)

/-- The bytes of a raw track with `n` sectors: a gap of 60, and 598 to a sector. -/
def trackLen (n : Nat) : Nat := 60 + 598 * n

def overrun (s : Fdc) : Nat :=
  match s.disk with
  | none => 0
  | some d =>
      if s.cmd < 0x80 then 0
      else if s.cmd < 0xC0 then
        if s.cmd &&& 0x20 = 0 ∧ s.accepts d ∧ d.has s.track.toNat s.side.val s.sector.toNat ∧
            s.sectorCount = 0 then 512
        else 0
      else if s.cmd &&& 0xF0 = 0xC0 then if s.sectorCount = 0 then 6 else 0
      else if s.cmd &&& 0xF0 = 0xE0 then
        if s.sectorCount ≠ 0 ∧ s.window < trackLen (d.sectorsOf s.track.toNat s.side.val) then
          (598 - (s.window - 60) % 598) % 598
        else 0
      else 0

/-- No byte beyond the window lands in the RAM, but for one that wraps round into it. -/
def OverrunHarmless (s : Fdc) : Prop :=
  forall i, i < overrun s -> forall a, ramCell s.ramSize (s.dmaAddr + s.window + i) = some a ->
    InWindow (ramCell s.ramSize) s.dmaAddr s.window a

/-!
## What is transferred
-/

/-- A command puts these bytes from the DMA address on, whatever the RAM holds. -/
def Transfers (s : Fdc) (bytes : List Byte) : Prop :=
  forall ram, (fdcComplete { s with ram := ram }).ram =
    putRun (ramCell s.ramSize) ram s.dmaAddr bytes

instance : Nontrivial Byte := ⟨⟨0, 1, by decide⟩⟩

variable {s : Fdc}

theorem Transfers.stays_iff {bytes : List Byte} (h : Transfers s bytes)
    (hlen : bytes.length - s.window = overrun s) : StaysInWindow s <-> OverrunHarmless s := by
  have hiff := putRun_stays_iff (ramCell s.ramSize) s.dmaAddr s.window bytes
  rw [hlen] at hiff
  unfold StaysInWindow OverrunHarmless
  rw [← hiff]
  refine forall_congr' fun ram => forall_congr' fun a => ?_
  rw [h ram]

/-!
## Sectors
-/

variable (d : Disk)

theorem length_sectorBytes (track side sector : Nat) :
    (d.sectorBytes track side sector).length = 512 := by
  unfold Disk.sectorBytes
  rw [List.length_map, List.length_range]

theorem sectorLoop_succ {d : Disk} (hdisk : s.disk = some d) (hread : s.cmd &&& 0x20 = 0)
    (left : Nat) :
    sectorLoop (left + 1) s =
      if d.has s.track.toNat s.side.val s.sector.toNat then
        if s.cmd &&& 0x10 ≠ 0 ∧ (readSector d s).sector.toNat ≤ d.spt ∧
            (readSector d s).sectorCount ≠ 0 then
          sectorLoop left (readSector d s)
        else readSector d s
      else s := by
  rw [sectorLoop, hdisk]
  dsimp only
  rw [if_pos hread]

theorem ram_readSector (s : Fdc) (ram : Nat -> Byte) :
    readSector d { s with ram := ram } =
      { readSector d s with
        ram := putRun (ramCell s.ramSize) ram s.dmaAddr
          (d.sectorBytes s.track.toNat s.side.val s.sector.toNat) } := rfl

theorem sectorLoop_counted (left : Nat) (s : Fdc) {d : Disk} (hdisk : s.disk = some d)
    (hread : s.cmd &&& 0x20 = 0) (hcount : s.sectorCount ≠ 0) :
    exists bytes : List Byte, bytes.length ≤ s.window ∧
      forall ram, (sectorLoop left { s with ram := ram }).ram =
        putRun (ramCell s.ramSize) ram s.dmaAddr bytes := by
  induction left generalizing s with
  | zero => exact ⟨[], Nat.zero_le _, fun _ => rfl⟩
  | succ left ih =>
      have hwindow : (readSector d s).window + 512 = s.window := by
        have hpos : 1 ≤ s.sectorCount.toNat := by
          apply Nat.pos_of_ne_zero
          intro hzero
          exact hcount (BitVec.eq_of_toNat_eq hzero)
        have hone : (1#16).toNat = 1 := rfl
        have hless : (readSector d s).sectorCount = s.sectorCount - 1#16 := if_neg hcount
        unfold Fdc.window
        rw [hless, BitVec.toNat_sub_of_le (by rw [BitVec.le_def]; exact hpos), hone]
        lia
      have hlen := length_sectorBytes d s.track.toNat s.side.val s.sector.toNat
      by_cases hhas : d.has s.track.toNat s.side.val s.sector.toNat
      · by_cases hmore : s.cmd &&& 0x10 ≠ 0 ∧ (readSector d s).sector.toNat ≤ d.spt ∧
            (readSector d s).sectorCount ≠ 0
        · rcases ih (readSector d s) hdisk hread hmore.2.2 with ⟨bytes, hle, hram⟩
          refine ⟨d.sectorBytes s.track.toNat s.side.val s.sector.toNat ++ bytes, ?_, ?_⟩
          · rw [List.length_append, hlen]
            lia
          · intro ram
            have hmore' : { s with ram := ram }.cmd &&& 0x10 ≠ 0 ∧
                (readSector d { s with ram := ram }).sector.toNat ≤ d.spt ∧
                (readSector d { s with ram := ram }).sectorCount ≠ 0 := hmore
            rw [@sectorLoop_succ { s with ram := ram } d hdisk hread, if_pos hhas, if_pos hmore',
              ram_readSector, hram, putRun_append, hlen]
            dsimp only [readSector]
        · refine ⟨d.sectorBytes s.track.toNat s.side.val s.sector.toNat, ?_, ?_⟩
          · rw [hlen]
            lia
          · intro ram
            have hmore' : ¬ ({ s with ram := ram }.cmd &&& 0x10 ≠ 0 ∧
                (readSector d { s with ram := ram }).sector.toNat ≤ d.spt ∧
                (readSector d { s with ram := ram }).sectorCount ≠ 0) := hmore
            rw [@sectorLoop_succ { s with ram := ram } d hdisk hread, if_pos hhas, if_neg hmore',
              ram_readSector]
      · refine ⟨[], Nat.zero_le _, fun ram => ?_⟩
        rw [@sectorLoop_succ { s with ram := ram } d hdisk hread, if_neg hhas]
        rfl

theorem sectorLoop_uncounted (left : Nat) (s : Fdc) {d : Disk} (hdisk : s.disk = some d)
    (hread : s.cmd &&& 0x20 = 0) (hcount : s.sectorCount = 0) (ram : Nat -> Byte) :
    (sectorLoop (left + 1) { s with ram := ram }).ram =
      putRun (ramCell s.ramSize) ram s.dmaAddr
        (if d.has s.track.toNat s.side.val s.sector.toNat then
          d.sectorBytes s.track.toNat s.side.val s.sector.toNat else []) := by
  have hzero : (readSector d { s with ram := ram }).sectorCount = 0 := if_pos hcount
  rw [@sectorLoop_succ { s with ram := ram } d hdisk hread]
  by_cases hhas : d.has s.track.toNat s.side.val s.sector.toNat
  · rw [if_pos hhas, if_pos hhas, if_neg (fun hmore => hmore.2.2 hzero), ram_readSector]
  · rw [if_neg hhas, if_neg hhas]
    rfl

theorem sectorLoop_write (left : Nat) (s : Fdc) (hwrite : s.cmd &&& 0x20 ≠ 0) :
    (sectorLoop left s).ram = s.ram := by
  induction left generalizing s with
  | zero => rfl
  | succ left ih =>
      unfold sectorLoop
      split
      · rfl
      · split
        · dsimp only
          split
          · exact ih _ hwrite
          · rfl
        · rfl

/-!
## Raw tracks
-/

theorem length_trackRecord (track : Byte) (side sector : Nat) :
    (trackRecord d track side sector).length = 598 := by
  unfold trackRecord crcBytes
  simp only [List.length_append, List.length_replicate, List.length_cons, List.length_nil,
    length_sectorBytes]

theorem Disk.has_iff (track side sector : Nat) (hpos : 1 ≤ sector)
    (hspt : sector ≤ d.spt) : d.has track side sector <-> sector ≤ d.sectorsOf track side := by
  have hoff : d.offset track side sector = d.offset track side 1 + (sector - 1) * 512 := by
    unfold Disk.offset
    rw [Nat.sub_self, Nat.add_zero, Nat.add_mul]
  unfold Disk.has Disk.sectorsOf
  rw [hoff, le_min_iff, Nat.le_div_iff_mul_le (by norm_num)]
  lia

theorem length_trackSectors (track : Byte) (side want left done len : Nat)
    (hleft : done + left = d.spt) (hdone : done ≤ d.sectorsOf track.toNat side) :
    exists k, (trackSectors d track side want left (done + 1) len).length = 598 * k ∧
      done + k ≤ d.sectorsOf track.toNat side ∧
      (done + k = d.sectorsOf track.toNat side ∨ want ≤ len + 598 * k) ∧
      (k = 0 ∨ len + 598 * (k - 1) < want) := by
  induction left generalizing done len with
  | zero =>
      have hmost : d.sectorsOf track.toNat side ≤ d.spt := min_le_left ..
      exact ⟨0, rfl, hdone, Or.inl (by lia), Or.inl rfl⟩
  | succ left ih =>
      have hhas := d.has_iff track.toNat side (done + 1) (by lia) (by lia)
      rw [trackSectors]
      by_cases hgo : len < want ∧ d.has track.toNat side (done + 1)
      · rw [if_pos hgo, List.length_append, length_trackRecord]
        rcases ih (done + 1) (len + 598) (by lia) (hhas.mp hgo.2) with ⟨k, hlen, hle, hstop, hlast⟩
        exact ⟨k + 1, by rw [hlen]; lia, by lia, by lia, by lia⟩
      · rw [if_neg hgo]
        refine ⟨0, rfl, hdone, ?_, Or.inl rfl⟩
        rw [not_and_or, hhas] at hgo
        lia

theorem length_trackBytes (track : Byte) (side want : Nat) (hwant : want % 512 = 0) :
    (trackBytes d track side want).length - want =
      if want ≠ 0 ∧ want < trackLen (d.sectorsOf track.toNat side) then
        (598 - (want - 60) % 598) % 598
      else 0 := by
  rcases length_trackSectors d track side want d.spt 0 (min 60 want) (Nat.zero_add _)
    (Nat.zero_le _) with ⟨k, hlen, hle, hstop, hlast⟩
  have hbytes : (trackBytes d track side want).length =
      min 60 want + 598 * k + (want - (min 60 want + 598 * k)) := by
    unfold trackBytes
    rw [List.length_append, List.length_append, List.length_replicate, List.length_replicate, hlen]
  unfold trackLen
  rw [hbytes]
  generalize d.sectorsOf track.toNat side = sectors at hle hstop
  split
  · lia
  · lia

/-!
## Commands
-/

theorem overrun_noDisk (hdisk : s.disk = none) : overrun s = 0 := by
  unfold overrun
  rw [hdisk]

theorem transfers_nil (h : forall ram, (fdcComplete { s with ram := ram }).ram = ram) :
    Transfers s [] := h

theorem transfers_noDisk (hdisk : s.disk = none) : Transfers s [] := by
  apply transfers_nil
  intro ram
  unfold fdcComplete fdcIntrq
  dsimp only
  rw [hdisk]
  dsimp only
  repeat (split; · rfl)
  rfl

theorem transfers_seek (hcmd : s.cmd < 0x80) : Transfers s [] := by
  apply transfers_nil
  intro ram
  unfold fdcComplete
  dsimp only
  rw [if_pos hcmd]
  rfl

theorem complete_sectors {d : Disk} (hdisk : s.disk = some d) (hseek : ¬ s.cmd < 0x80)
    (hcmd : s.cmd < 0xC0) (ram : Nat -> Byte) :
    (fdcComplete { s with ram := ram }).ram =
      if s.accepts d then
        (sectorLoop (d.spt + 1 - s.sector.toNat) { s with pending := false, ram := ram }).ram
      else ram := by
  unfold fdcComplete
  dsimp only
  rw [if_neg hseek, if_pos hcmd, hdisk]
  dsimp only
  split
  · next haccepts =>
    have haccepts' : s.accepts d := haccepts
    rw [if_pos haccepts']
    rfl
  · next haccepts =>
    have haccepts' : ¬ s.accepts d := haccepts
    rw [if_neg haccepts']
    rfl

theorem transfers_sectors {d : Disk} (hdisk : s.disk = some d) (hseek : ¬ s.cmd < 0x80)
    (hcmd : s.cmd < 0xC0) :
    exists bytes, Transfers s bytes ∧ bytes.length - s.window = overrun s := by
  have hrun := complete_sectors hdisk hseek hcmd
  have hover : overrun s =
      if s.cmd &&& 0x20 = 0 ∧ s.accepts d ∧ d.has s.track.toNat s.side.val s.sector.toNat ∧
        s.sectorCount = 0 then 512 else 0 := by
    unfold overrun
    rw [hdisk]
    dsimp only
    rw [if_neg hseek, if_pos hcmd]
  by_cases haccepts : s.accepts d
  · by_cases hread : s.cmd &&& 0x20 = 0
    · by_cases hcount : s.sectorCount = 0
      · have hleft : d.spt + 1 - s.sector.toNat = d.spt - s.sector.toNat + 1 := by
          have hspt : s.sector.toNat ≤ d.spt := haccepts.2.2.1
          lia
        refine ⟨if d.has s.track.toNat s.side.val s.sector.toNat then
          d.sectorBytes s.track.toNat s.side.val s.sector.toNat else [], fun ram => ?_, ?_⟩
        · rw [hrun, if_pos haccepts, hleft]
          exact sectorLoop_uncounted _ { s with pending := false } hdisk hread hcount ram
        · have hwindow : s.window = 0 := by
            unfold Fdc.window
            rw [hcount]
            rfl
          rw [hover, hwindow]
          by_cases hhas : d.has s.track.toNat s.side.val s.sector.toNat
          · rw [if_pos hhas, if_pos ⟨hread, haccepts, hhas, hcount⟩, length_sectorBytes]
          · rw [if_neg hhas, if_neg (fun h => hhas h.2.2.1)]
            rfl
      · rcases sectorLoop_counted (d.spt + 1 - s.sector.toNat) { s with pending := false } hdisk
          hread hcount with ⟨bytes, hle, hram⟩
        refine ⟨bytes, fun ram => ?_, ?_⟩
        · rw [hrun, if_pos haccepts]
          exact hram ram
        · rw [hover, if_neg (fun h => hcount h.2.2.2)]
          exact Nat.sub_eq_zero_of_le hle
    · refine ⟨[], fun ram => ?_, ?_⟩
      · rw [hrun, if_pos haccepts]
        exact sectorLoop_write _ { s with pending := false, ram := ram } hread
      · rw [hover, if_neg (fun h => hread h.1)]
        exact Nat.zero_sub _
  · refine ⟨[], fun ram => ?_, ?_⟩
    · rw [hrun, if_neg haccepts]
      rfl
    · rw [hover, if_neg (fun h => haccepts h.2.1)]
      exact Nat.zero_sub _

theorem transfers_address {d : Disk} (hdisk : s.disk = some d) (hseek : ¬ s.cmd < 0x80)
    (hsector : ¬ s.cmd < 0xC0) (hcmd : s.cmd &&& 0xF0 = 0xC0) : Transfers s (idField s d) := by
  intro ram
  unfold fdcComplete
  dsimp only
  rw [if_neg hseek, if_neg hsector, if_pos hcmd, hdisk]
  rfl

theorem transfers_track {d : Disk} (hdisk : s.disk = some d) (hseek : ¬ s.cmd < 0x80)
    (hsector : ¬ s.cmd < 0xC0) (haddress : s.cmd &&& 0xF0 ≠ 0xC0) (hcmd : s.cmd &&& 0xF0 = 0xE0) :
    Transfers s (trackBytes d s.track s.side.val s.window) := by
  intro ram
  unfold fdcComplete
  dsimp only
  rw [if_neg hseek, if_neg hsector, if_neg haddress, if_pos hcmd, hdisk]
  rfl

theorem transfers_format (hseek : ¬ s.cmd < 0x80) (hsector : ¬ s.cmd < 0xC0)
    (haddress : s.cmd &&& 0xF0 ≠ 0xC0) (htrack : s.cmd &&& 0xF0 ≠ 0xE0) : Transfers s [] := by
  apply transfers_nil
  intro ram
  unfold fdcComplete
  dsimp only
  rw [if_neg hseek, if_neg hsector, if_neg haddress, if_neg htrack]
  rfl

theorem exists_transfers (s : Fdc) :
    exists bytes, Transfers s bytes ∧ bytes.length - s.window = overrun s := by
  cases hdisk : s.disk with
  | none => exact ⟨[], transfers_noDisk hdisk, by rw [overrun_noDisk hdisk]; exact Nat.zero_sub _⟩
  | some d =>
      by_cases hseek : s.cmd < 0x80
      · refine ⟨[], transfers_seek hseek, ?_⟩
        unfold overrun
        rw [hdisk]
        dsimp only
        rw [if_pos hseek]
        exact Nat.zero_sub _
      by_cases hsector : s.cmd < 0xC0
      · exact transfers_sectors hdisk hseek hsector
      have hover : overrun s =
          if s.cmd &&& 0xF0 = 0xC0 then if s.sectorCount = 0 then 6 else 0
          else if s.cmd &&& 0xF0 = 0xE0 then
            if s.sectorCount ≠ 0 ∧ s.window < trackLen (d.sectorsOf s.track.toNat s.side.val) then
              (598 - (s.window - 60) % 598) % 598
            else 0
          else 0 := by
        unfold overrun
        rw [hdisk]
        dsimp only
        rw [if_neg hseek, if_neg hsector]
      have hcount : s.sectorCount = 0 <-> s.window = 0 := by
        rw [← BitVec.toNat_inj]
        unfold Fdc.window
        rw [Nat.mul_eq_zero]
        exact (or_iff_left (by norm_num)).symm
      rw [hover]
      by_cases haddress : s.cmd &&& 0xF0 = 0xC0
      · refine ⟨idField s d, transfers_address hdisk hseek hsector haddress, ?_⟩
        have hlen : (idField s d).length = 6 := rfl
        have hwindow : s.window % 512 = 0 := Nat.mul_mod_left ..
        rw [if_pos haddress, hlen]
        split
        · next hzero => rw [hcount.mp hzero]
        · next hsome => rw [hcount] at hsome; lia
      rw [if_neg haddress]
      by_cases htrack : s.cmd &&& 0xF0 = 0xE0
      · refine ⟨_, transfers_track hdisk hseek hsector haddress htrack, ?_⟩
        rw [if_pos htrack, length_trackBytes _ _ _ s.window (Nat.mul_mod_left ..)]
        simp only [ne_eq, hcount]
      · refine ⟨[], transfers_format hseek hsector haddress htrack, ?_⟩
        rw [if_neg htrack]
        exact Nat.zero_sub _

/-!
## The window
-/

/-- A command stays in the window of its programmed address and count exactly if no byte of its
overrun lands beyond it. -/
theorem stays_in_window_iff (s : Fdc) (addr : BitVec 24) :
    StaysInWindow (s.programmed addr) <-> OverrunHarmless (s.programmed addr) := by
  rcases exists_transfers (s.programmed addr) with ⟨bytes, hbytes, hlen⟩
  exact hbytes.stays_iff hlen

def driveReady : Fdc where
  cmd := 0
  track := 0
  sector := 1
  status := 0x80
  sectorCount := 0
  dmaAddr := 0
  pending := false
  disk := some (adopt (fun _ => 0xE5) 368640)
  side := (0#1).toFin
  ramSize := 0x100000
  ram := fun _ => 0
  totalCyc := 0
  mfp := coldReset

/-- READ SECTOR without a count transfers a sector, and READ TRACK with a count of 1 transfers
146 bytes too many. -/
theorem read_beyond_window :
    ¬ StaysInWindow ({ driveReady with cmd := 0x80 }.programmed 0x1000) ∧
      ¬ StaysInWindow ({ driveReady with cmd := 0xE0, sectorCount := 1 }.programmed 0x1000) := by
  constructor
  · rcases exists_transfers ({ driveReady with cmd := 0x80 }.programmed 0x1000)
      with ⟨bytes, hbytes, hlen⟩
    intro hstays
    rcases (hbytes.stays_iff hlen).mp hstays 0 (by decide) 0x1000 (by decide) with ⟨j, hj, _⟩
    exact absurd hj (Nat.not_lt_zero j)
  · rcases exists_transfers ({ driveReady with cmd := 0xE0, sectorCount := 1 }.programmed 0x1000)
      with ⟨bytes, hbytes, hlen⟩
    intro hstays
    rcases (hbytes.stays_iff hlen).mp hstays 0 (by decide) 0x1200 (by decide) with ⟨j, hj, hcell⟩
    have hj : j < 512 := hj
    have hcell : ramCell 0x100000 (0x1000 + j) = some 0x1200 := hcell
    unfold ramCell at hcell
    split at hcell
    · rw [Option.some.injEq] at hcell
      lia
    · cases hcell

end Stbox
end PistormAtari
