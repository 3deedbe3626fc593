import PistormAtari.Acsi.DmaTrace
import PistormAtari.Floppy.BlockStore
import PistormAtari.Floppy.DriveSelect

/-!
# The address counter of the DMA

The counter is shared by the floppy controller and the ACSI targets.  What a
transfer moves to or from RAM is read off the copies it makes, and compared with
what the guest reads back from the counter.
-/

namespace PistormAtari
namespace Floppy

open Foundation Acsi

variable {φ : Type _}

/-!
## The counter
-/

def counterBytes (hi mid lo : BitVec 32) : Nat :=
  hi.toNat * 65536 + mid.toNat * 256 + lo.toNat

def shownCounter (env : PortEnv φ) (p : Port φ) : Nat :=
  counterBytes (dmaReadAddr env p dmaBaseHigh) (dmaReadAddr env p dmaBaseMid)
    (dmaReadAddr env p dmaBaseLow)

def readBack (env : PortEnv φ) (p : Port φ) : Nat :=
  counterBytes (fddIoRead env dmaBaseHigh 1 p).1 (fddIoRead env dmaBaseMid 1 p).1
    (fddIoRead env dmaBaseLow 1 p).1

def wideCounter (env : PortEnv φ) : Prop := env.acsi.stramTop > 0x400000

instance (env : PortEnv φ) : Decidable (wideCounter env) := inferInstanceAs (Decidable (_ > _))

def counterSpan (env : PortEnv φ) : Nat := if wideCounter env then 2 ^ 24 else 2 ^ 22

theorem toNat_byte_of_shift (a : BitVec 32) (k n : Nat) (hn : n ≤ 8) :
    ((a >>> k) &&& (BitVec.ofNat 32 (2 ^ n - 1))).toNat = a.toNat / 2 ^ k % 2 ^ n := by
  have hsmall : 2 ^ n - 1 < 2 ^ 32 := by
    have hle : 2 ^ n ≤ 2 ^ 8 := Nat.pow_le_pow_right (by decide) hn
    lia
  rw [BitVec.toNat_and, BitVec.toNat_ushiftRight, BitVec.toNat_ofNat,
    Nat.mod_eq_of_lt hsmall, Nat.shiftRight_eq_div_pow, Nat.and_two_pow_sub_one_eq_mod]

theorem shownCounter_eq (env : PortEnv φ) (p : Port φ) :
    shownCounter env p = p.machine.dmaAddr.toNat % counterSpan env := by
  have hmid : (dmaReadAddr env p dmaBaseMid).toNat = p.machine.dmaAddr.toNat / 2 ^ 8 % 2 ^ 8 :=
    toNat_byte_of_shift p.machine.dmaAddr 8 8 (by decide)
  have hlo : (dmaReadAddr env p dmaBaseLow).toNat = p.machine.dmaAddr.toNat / 2 ^ 0 % 2 ^ 8 := by
    rw [← toNat_byte_of_shift p.machine.dmaAddr 0 8 (by decide), BitVec.ushiftRight_zero]
    rfl
  have hhi : (dmaReadAddr env p dmaBaseHigh).toNat =
      p.machine.dmaAddr.toNat / 2 ^ 16 % (counterSpan env / 2 ^ 16) := by
    show ((p.machine.dmaAddr >>> 16) &&& (dmaHiMask env).setWidth 32).toNat = _
    by_cases hwide : wideCounter env
    · have hmask : dmaHiMask env = 0xFF := if_pos hwide
      have hspan : counterSpan env = 2 ^ 24 := if_pos hwide
      rw [hmask, hspan]
      exact toNat_byte_of_shift p.machine.dmaAddr 16 8 (by decide)
    · have hmask : dmaHiMask env = 0x3F := if_neg hwide
      have hspan : counterSpan env = 2 ^ 22 := if_neg hwide
      rw [hmask, hspan]
      exact toNat_byte_of_shift p.machine.dmaAddr 16 6 (by decide)
  unfold shownCounter counterBytes
  rw [hhi, hmid, hlo]
  unfold counterSpan
  split
  · lia
  · lia

def Port.emulated (p : Port φ) : Prop := p.hdcActive = false ∨ p.acsi.owns = true

variable {env : PortEnv φ} {p : Port φ}

theorem readBack_eq (h : p.emulated) :
    readBack env p = shownCounter env p := by
  have hread (addr : Nat) (hrange : 0xFF8600 ≤ addr ∧ addr ≤ 0xFF860F) (hdata : addr ≠ fdcDataReg)
      (hreg : addr = dmaModeReg ∨ addr = dmaBaseHigh ∨ addr = dmaBaseMid ∨ addr = dmaBaseLow) :
      (fddIoRead env addr 1 p).1 = dmaReadAddr env p addr := by
    have hemulated : ¬ (p.hdcActive = true ∧ p.acsi.owns = false) := by
      rintro ⟨hactive, howns⟩
      rcases h with hidle | hours
      · exact absurd (hidle.symm.trans hactive) Bool.false_ne_true
      · exact absurd (howns.symm.trans hours) Bool.false_ne_true
    unfold fddIoRead
    rw [if_pos hrange, if_neg hdata, if_pos hreg, if_neg hemulated]
  unfold readBack shownCounter
  rw [hread dmaBaseHigh (by decide) (by decide) (by decide),
    hread dmaBaseMid (by decide) (by decide) (by decide),
    hread dmaBaseLow (by decide) (by decide) (by decide)]

/-!
## Transfers
-/

/-- What Read Sector and Write Sector do to the DMA chip when they succeed. -/
def sectorOps (env : PortEnv φ) (cmd : Byte) (p : Port φ) : List DmaOp :=
  let u := p.selected env
  if noDrive p.fdc.selectedDrive ∨ u.drive.diskInserted = false then []
  else
    match commandClass cmd with
    | .readSectors =>
        match imageRead u u.currentTrack p.fdc.selectedSide p.fdc.sectorReg.toNat p.fdc.count with
        | Option.none => []
        | some buf => [.toRam (buf.map UInt8.toBitVec)]
    | .writeSectors =>
        if u.drive.writeProtected then []
        else
          match imageWrite u u.currentTrack p.fdc.selectedSide p.fdc.sectorReg.toNat p.fdc.count
              (p.writeBuffer env) with
          | Option.none => []
          | some _ => [.fromRam (p.fdc.count * sectorSize)]
    | _ => []

def acsiWritten (p : Port φ) : PortOp -> Option (BitVec 32)
  | .write addr val _ =>
      if addr = fdcDataReg ∧ ¬ p.fdc.screg ∧ p.fdc.hdcSelected then some val else Option.none
  | _ => Option.none

def transferOps (env : PortEnv φ) (p : Port φ) (op : PortOp) : List DmaOp :=
  match acsiWritten p op, commandWritten env p op with
  | some val, _ =>
      cmdByteOps env.acsi (val.setWidth 8) (decide (p.fdc.dmaMode &&& dmaModeA = 0)) p.acsi
  | Option.none, some cmd => sectorOps env cmd (p.forCommand env)
  | Option.none, Option.none => []

variable {op : PortOp}

theorem portStep_acsiByte {val : BitVec 32}
    (h : acsiWritten p op = some val) : portStep env p op = acsiByte env val p := by
  cases op with
  | write addr w size =>
      simp only [acsiWritten, Option.ite_none_right_eq_some, Option.some.injEq] at h
      rcases h with ⟨⟨rfl, hscreg, hhdc⟩, rfl⟩
      have hrouted : routed env fdcDataReg := Or.inl ⟨by decide, by decide⟩
      have hport : 0xFF8600 ≤ fdcDataReg ∧ fdcDataReg ≤ 0xFF860F := ⟨by decide, by decide⟩
      have hother : ¬ (fdcDataReg = dmaModeReg ∨ fdcDataReg = dmaBaseHigh ∨
          fdcDataReg = dmaBaseMid ∨ fdcDataReg = dmaBaseLow) := by decide
      show (if routed env fdcDataReg then fddIoWrite env fdcDataReg w size p else p) = _
      rw [if_pos hrouted]
      unfold fddIoWrite
      rw [if_pos hport, if_neg hother, if_pos rfl, if_neg hscreg, if_pos hhdc]
  | _ => simp [acsiWritten] at h

theorem acsiWritten_hdcSelected {val : BitVec 32}
    (h : acsiWritten p op = some val) : p.fdc.hdcSelected := by
  cases op with
  | write addr w size =>
      simp only [acsiWritten, Option.ite_none_right_eq_some, Option.some.injEq] at h
      exact h.1.2.2
  | _ => simp [acsiWritten] at h

theorem commandWritten_not_hdcSelected {cmd : Byte}
    (h : commandWritten env p op = some cmd) : ¬ p.fdc.hdcSelected := by
  cases op with
  | write addr w size =>
      simp only [commandWritten, Option.ite_none_right_eq_some, Option.some.injEq] at h
      exact h.1.2.2.1
  | _ => simp [commandWritten] at h

theorem acsi_counter {val : BitVec 32}
    (h : acsiWritten p op = some val) (hmoved : bytesMoved (transferOps env p op) ≠ 0) :
    (portStep env p op).machine.dmaAddr =
        p.machine.dmaAddr + BitVec.ofNat 32 (bytesMoved (transferOps env p op)) ∧
      (portStep env p op).emulated := by
  have hops : transferOps env p op = cmdByteOps env.acsi (val.setWidth 8)
      (decide (p.fdc.dmaMode &&& dmaModeA = 0)) p.acsi := by
    unfold transferOps
    rw [h]
  rcases cmdByte_traced env.acsi (val.setWidth 8) (decide (p.fdc.dmaMode &&& dmaModeA = 0))
    p.acsi with ⟨hmemory, hpaced, howns⟩
  rw [hops] at hmoved ⊢
  have hsome : cmdByteOps env.acsi (val.setWidth 8) (decide (p.fdc.dmaMode &&& dmaModeA = 0))
      p.acsi ≠ [] := by
    intro hnil
    rw [hnil] at hmoved
    exact hmoved rfl
  rw [portStep_acsiByte h]
  constructor
  · show (cmdByte env.acsi (val.setWidth 8) _ p.acsi).2.machine.dmaAddr = _
    rw [hmemory.dmaAddr, dmaAddr_runDma, hpaced]
    rfl
  · exact Or.inr (howns hsome).2

theorem sectorOps_moved (env : PortEnv φ) (cmd : Byte) (p : Port φ) :
    bytesMoved (sectorOps env cmd p) = 0 ∨
      bytesMoved (sectorOps env cmd p) = p.fdc.count * sectorSize := by
  unfold sectorOps
  dsimp only
  split
  · exact Or.inl rfl
  · split
    · split
      · exact Or.inl rfl
      · next buf hread =>
        right
        show (buf.map UInt8.toBitVec).length + 0 = _
        rw [List.length_map, Nat.add_zero]
        exact length_imageRead hread
    · split
      · exact Or.inl rfl
      · split
        · exact Or.inl rfl
        · exact Or.inr (Nat.add_zero _)
    · exact Or.inl rfl

theorem dmaAddr_fdcExecCommand (env : PortEnv φ) (cmd : Byte) (p : Port φ) :
    (fdcExecCommand env cmd p).machine.dmaAddr = p.machine.dmaAddr ∧
      (fdcExecCommand env cmd p).hdcActive = p.hdcActive := by
  unfold fdcExecCommand
  dsimp only
  cases commandClass cmd with
  | readSectors =>
      dsimp only
      rw [fdcDoReadSectors_eq]
      split
      · exact ⟨rfl, rfl⟩
      · split
        · exact ⟨rfl, rfl⟩
        · exact ⟨rfl, rfl⟩
  | writeSectors =>
      dsimp only
      rw [fdcDoWriteSectors_eq]
      split
      · exact ⟨rfl, rfl⟩
      · split
        · exact ⟨rfl, rfl⟩
        · split
          · exact ⟨rfl, rfl⟩
          · exact ⟨rfl, rfl⟩
  | readAddress =>
      dsimp only
      unfold fdcDoReadAddress
      dsimp only
      split
      · exact ⟨rfl, rfl⟩
      · split
        · exact ⟨rfl, rfl⟩
        · exact ⟨rfl, rfl⟩
  | _ => exact ⟨rfl, rfl⟩

theorem sector_counter {cmd : Byte} (h : commandWritten env p op = some cmd) :
    (portStep env p op).machine.dmaAddr = p.machine.dmaAddr ∧ (portStep env p op).emulated := by
  have hexec := dmaAddr_fdcExecCommand env cmd (p.forCommand env)
  rw [portStep_command h]
  constructor
  · exact hexec.1
  · exact Or.inl hexec.2

/-!
## The law
-/

/-- After a transfer the guest reads back the address it was to start at and the bytes
that were moved. -/
def CounterLaw (env : PortEnv φ) (p : Port φ) (op : PortOp) : Prop :=
  bytesMoved (transferOps env p op) ≠ 0 ->
    readBack env (portStep env p op) =
      (shownCounter env p + bytesMoved (transferOps env p op)) % 2 ^ 24

/-- The transfer is one with an ACSI target, and a counter of 22 bits does not pass the
end of its 4 MB. -/
def CounterCalm (env : PortEnv φ) (p : Port φ) (op : PortOp) : Prop :=
  bytesMoved (transferOps env p op) ≠ 0 ->
    p.fdc.hdcSelected ∧ (wideCounter env ∨
      (shownCounter env p + bytesMoved (transferOps env p op)) % 2 ^ 24 < 2 ^ 22)

def CountOk (f : Fdc) : Prop := f.dmaSectorCount.toNat < 256

theorem CountOk.count {f : Fdc} (h : CountOk f) : 1 ≤ f.count ∧ f.count < 256 := by
  unfold CountOk at h
  unfold Fdc.count
  split
  · decide
  · next hcount =>
    constructor
    · apply Nat.pos_of_ne_zero
      intro hzero
      exact hcount (BitVec.eq_of_toNat_eq hzero)
    · exact h

theorem readBack_lt (env : PortEnv φ) (p : Port φ) : shownCounter env p < 2 ^ 24 := by
  rw [shownCounter_eq]
  unfold counterSpan
  split
  · exact Nat.mod_lt _ (by decide)
  · exact Nat.lt_trans (Nat.mod_lt _ (by decide)) (by decide)

theorem sectorCount_setUnit (f : Fdc) (i : Int) (u : DriveUnit) :
    (f.setUnit i u).dmaSectorCount = f.dmaSectorCount := by
  unfold Fdc.setUnit
  repeat' split
  all_goals rfl

theorem countOk_startMotor (outside : Int -> DriveUnit) {f : Fdc} (h : CountOk f) :
    CountOk (f.startMotor outside) := by
  unfold Fdc.startMotor
  split
  · exact h
  · show (Fdc.setUnit _ _ _).dmaSectorCount.toNat < 256
    rw [sectorCount_setUnit]
    exact h

theorem counterLaw_iff_calm (hcount : CountOk p.fdc)
    (op : PortOp) : CounterLaw env p op <-> CounterCalm env p op := by
  unfold CounterLaw CounterCalm
  apply forall_congr'
  intro hmoved
  cases hacsi : acsiWritten p op with
  | some val =>
      rcases acsi_counter hacsi hmoved with ⟨haddr, hemulated⟩
      have hbefore := shownCounter_eq env p
      have hafter := shownCounter_eq env (portStep env p op)
      rw [haddr, BitVec.toNat_add, BitVec.toNat_ofNat] at hafter
      rw [readBack_eq hemulated, hafter, hbefore]
      unfold counterSpan
      by_cases hwide : wideCounter env
      · rw [if_pos hwide]
        constructor
        · intro _
          exact ⟨acsiWritten_hdcSelected hacsi, Or.inl hwide⟩
        · intro _
          lia
      · rw [if_neg hwide]
        constructor
        · intro hlaw
          refine ⟨acsiWritten_hdcSelected hacsi, Or.inr ?_⟩
          rw [← hlaw]
          exact Nat.mod_lt _ (by decide)
        · rintro ⟨_, hin⟩
          rcases hin with habsurd | hlt
          · exact absurd habsurd hwide
          · lia
  | none =>
      cases hcommand : commandWritten env p op with
      | none =>
          have hnone : transferOps env p op = [] := by
            unfold transferOps
            rw [hacsi, hcommand]
          rw [hnone] at hmoved
          exact absurd rfl hmoved
      | some cmd =>
          have hops : transferOps env p op = sectorOps env cmd (p.forCommand env) := by
            unfold transferOps
            rw [hacsi, hcommand]
          rcases sector_counter hcommand with ⟨haddr, hemulated⟩
          constructor
          · intro hlaw
            exfalso
            have hbound := (show CountOk (p.forCommand env).fdc from
              countOk_startMotor env.outside hcount).count
            have hlt := readBack_lt env p
            rw [readBack_eq hemulated, shownCounter_eq, haddr, ← shownCounter_eq] at hlaw
            rcases sectorOps_moved env cmd (p.forCommand env) with hzero | hsectors
            · rw [hops] at hmoved
              exact hmoved hzero
            · rw [hops, hsectors] at hlaw
              unfold sectorSize at hlaw
              lia
          · intro hcalm
            exact absurd hcalm.1 (commandWritten_not_hdcSelected hcommand)

/-!
## Runs
-/

theorem CountOk.same {f f' : Fdc} (h : CountOk f) (hcount : f'.dmaSectorCount = f.dmaSectorCount) :
    CountOk f' := by
  unfold CountOk
  rw [hcount]
  exact h

theorem CountOk.onDrive {outside : Int -> DriveUnit} {f : Fdc} (h : CountOk f) (i : Int)
    (op : DriveUnit -> DriveUnit) : CountOk (f.onDrive outside i op) := by
  unfold Fdc.onDrive
  split
  · exact h
  · exact h.same (sectorCount_setUnit _ _ _)

theorem CountOk.fdcReadAddr {f : Fdc} (h : CountOk f) :
    CountOk (fdcReadAddr env f).2 := by
  have hstatus : CountOk (fdcReadStatus env f).2 := by
    unfold fdcReadStatus
    dsimp only
    split
    · split
      · exact h.same (sectorCount_setUnit _ _ _)
      · exact h.same rfl
    · exact h.same rfl
  unfold Floppy.fdcReadAddr
  split
  · exact h
  · split
    · exact hstatus
    · exact h
    · exact h
    · exact h

theorem CountOk.psgReadAddr {f : Fdc} (h : CountOk f) (addr size : Nat) :
    CountOk (psgReadAddr env addr size f).2 := by
  unfold Floppy.psgReadAddr
  dsimp only
  split
  · exact h.same rfl
  · exact h.same rfl

theorem CountOk.fdcExecCommand (h : CountOk p.fdc) (cmd : Byte) :
    CountOk (fdcExecCommand env cmd p).fdc := by
  have hdone (q : Port φ) : CountOk q.endTransfer.fdc := by
    show (0 : BitVec 16).toNat < 256
    decide
  have hfail (q : Port φ) (bits : Byte) (hq : CountOk q.fdc) : CountOk (q.failCommand bits).fdc :=
    hq.same rfl
  unfold Floppy.fdcExecCommand
  dsimp only
  cases commandClass cmd with
  | forceInterrupt =>
      dsimp only
      split
      · exact h.same rfl
      · exact h.same rfl
  | type1 =>
      dsimp only
      unfold fdcDoType1
      dsimp only
      have hmove (maxTracks : Nat) (f : Fdc) (u : DriveUnit) :
          (moveHead cmd maxTracks f u).1.dmaSectorCount = f.dmaSectorCount := by
        unfold moveHead
        dsimp only
        repeat' split
        all_goals rfl
      repeat' split
      · exact h.same rfl
      · exact h.same ((sectorCount_setUnit _ _ _).trans (hmove _ _ _))
      · exact h.same ((sectorCount_setUnit _ _ _).trans (hmove _ _ _))
      · exact h.same ((sectorCount_setUnit _ _ _).trans (hmove _ _ _))
      · exact h.same ((sectorCount_setUnit _ _ _).trans (hmove _ _ _))
  | readSectors =>
      dsimp only
      rw [fdcDoReadSectors_eq]
      split
      · exact hfail _ _ (h.same rfl)
      · split
        · exact hfail _ _ (h.same rfl)
        · exact hdone _
  | writeSectors =>
      dsimp only
      rw [fdcDoWriteSectors_eq]
      split
      · exact hfail _ _ (h.same rfl)
      · split
        · exact hfail _ _ (h.same rfl)
        · split
          · exact hfail _ _ (h.same rfl)
          · exact hdone _
  | readAddress =>
      dsimp only
      unfold fdcDoReadAddress
      dsimp only
      repeat' split
      all_goals exact h.same rfl
  | _ => exact h.same rfl

theorem CountOk.fdcWriteAddr (h : CountOk p.fdc)
    (val : BitVec 32) : CountOk (fdcWriteAddr env val p).fdc := by
  unfold Floppy.fdcWriteAddr
  dsimp only
  split
  · show (((val.setWidth 8).setWidth 16 : BitVec 16)).toNat < 256
    have hlt := (val.setWidth 8).isLt
    rw [BitVec.toNat_setWidth]
    exact Nat.lt_of_le_of_lt (Nat.mod_le _ _) hlt
  · split
    · exact CountOk.fdcExecCommand (p := { p with fdc := p.fdc.startMotor env.outside })
        (countOk_startMotor env.outside h) _
    · exact h.same rfl
    · exact h.same rfl
    · exact h.same rfl

theorem CountOk.portStep (h : CountOk p.fdc) (op : PortOp) :
    CountOk (portStep env p op).fdc := by
  cases op with
  | read addr size =>
      dsimp only [Floppy.portStep]
      split
      · unfold fddIoRead Port.setFdc
        repeat' split
        all_goals first
          | exact h
          | exact h.fdcReadAddr
          | exact h.psgReadAddr addr size
      · exact h
  | write addr val size =>
      dsimp only [Floppy.portStep]
      split
      · unfold fddIoWrite
        split
        · split
          · unfold dmaWriteAddr
            dsimp only
            repeat' split
            all_goals exact h.same rfl
          · split
            · split
              · exact h.fdcWriteAddr val
              · split
                · exact h
                · split
                  · exact h
                  · exact CountOk.fdcWriteAddr (p := { p with
                      acsi := Acsi.release p.acsi, hdcActive := false }) h val
            · exact h
        · split
          · unfold psgWriteAddr
            dsimp only
            repeat' split
            all_goals exact h.same rfl
          · exact h
      · exact h
  | gpip =>
      show CountOk (fddGpip env p).fdc
      unfold fddGpip
      dsimp only
      repeat' split
      all_goals exact h.same rfl
  | vbl =>
      show CountOk (fddVbl p.fdc)
      unfold fddVbl
      dsimp only
      split
      · exact h.same rfl
      · exact h.same rfl
  | ram ram => exact h
  | insert host i path wp => exact h.onDrive i _
  | eject i => exact h.onDrive i _
  | toggle host i => exact h.onDrive i _
  | setWriteProtect i wp => exact h.onDrive i _
  | pulse i => exact h.onDrive i _

theorem driveA_by_porta (f : Fdc) :
    psgWriteAddr psgRegWrite 5 1 { f with psgRegSel := 14 } =
      { f with
        psgRegSel := 14, psgPorta := 5, selectedSide := 0, selectedDrive := 0
        touched := 1 :: 0 :: f.touched } := by
  have hside : (5 : Byte) &&& psgSideSel ≠ 0 := by decide
  have hdrive : (5 : Byte) &&& psgDriveASel = 0 := by decide
  have hport : psgWriteAddr psgRegWrite 5 1 { f with psgRegSel := 14 } =
      { f with
        psgRegSel := 14, psgPorta := 5, touched := 1 :: 0 :: f.touched }.decodeDriveSide := by
    unfold psgWriteAddr
    dsimp only
    rw [if_neg (show ¬ psgRegWrite = psgRegSelect by decide), if_pos ⟨rfl, rfl⟩]
    rfl
  rw [hport]
  unfold Fdc.decodeDriveSide
  dsimp only
  rw [if_pos hside, if_pos hdrive]

end Floppy
end PistormAtari
