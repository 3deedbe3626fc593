import PistormAtari.Floppy.Fdc

/-!
# Commands without a drive

The PSG selects the drive, and may select none.  Most accesses to the drive table
check the index first.  Reading and writing sectors look up the track of the
selected drive before they check.
-/

namespace PistormAtari
namespace Floppy

open Foundation
open Config
open Acsi (Byte Machine)

variable {φ : Type _}

/-!
## What leaves the selection and the accesses alone
-/

variable (f : Fdc)

@[simp] theorem selectedDrive_touch (i : Int) :
    (f.touch i).selectedDrive = f.selectedDrive := rfl

@[simp] theorem touched_touch (i : Int) : (f.touch i).touched = i :: f.touched := rfl

@[simp] theorem selectedDrive_setStatus (bits : Byte) :
    (f.setStatus bits).selectedDrive = f.selectedDrive := rfl

@[simp] theorem touched_setStatus (bits : Byte) :
    (f.setStatus bits).touched = f.touched := rfl

@[simp] theorem selectedDrive_clearStatus (bits : Byte) :
    (f.clearStatus bits).selectedDrive = f.selectedDrive := rfl

@[simp] theorem touched_clearStatus (bits : Byte) :
    (f.clearStatus bits).touched = f.touched := rfl

@[simp] theorem selectedDrive_setUnit (i : Int) (u : DriveUnit) :
    (f.setUnit i u).selectedDrive = f.selectedDrive := by
  unfold Fdc.setUnit
  split
  · rfl
  · split
    · rfl
    · rfl

@[simp] theorem touched_setUnit (i : Int) (u : DriveUnit) :
    (f.setUnit i u).touched = f.touched := by
  unfold Fdc.setUnit
  split
  · rfl
  · split
    · rfl
    · rfl

theorem selectedDrive_moveHead (cmd : Byte) (n : Nat) (f : Fdc) (u : DriveUnit) :
    (moveHead cmd n f u).1.selectedDrive = f.selectedDrive ∧
      (moveHead cmd n f u).1.touched = f.touched := by
  unfold moveHead
  dsimp only
  repeat' split
  all_goals exact ⟨rfl, rfl⟩

/-- The accesses that a part of the controller makes: none, or one with the
selected index. -/
structure Accesses (f f' : Fdc) (made : List Int) : Prop where
  selected : f'.selectedDrive = f.selectedDrive
  touched : f'.touched = made ++ f.touched

theorem accesses_fdcDoType1 (env : PortEnv φ) (cmd : Byte) (f : Fdc) :
    Accesses f (fdcDoType1 env cmd f)
      (if noDrive f.selectedDrive then [] else [f.selectedDrive]) := by
  unfold fdcDoType1
  by_cases hnone : noDrive f.selectedDrive
  · simp only [if_pos hnone]
    exact ⟨rfl, rfl⟩
  · simp only [if_neg hnone]
    have hmove := fun n => selectedDrive_moveHead cmd n (f.touch f.selectedDrive)
      ((f.touch f.selectedDrive).unit env.outside f.selectedDrive)
    repeat' split
    all_goals
      constructor
      · exact (selectedDrive_setUnit _ _ _).trans (hmove _).1
      · exact (touched_setUnit _ _ _).trans (hmove _).2

theorem accesses_fdcDoReadSectors (env : PortEnv φ) (p : Port φ) :
    Accesses p.fdc (fdcDoReadSectors env p).fdc [p.fdc.selectedDrive] := by
  rw [fdcDoReadSectors_eq]
  split
  · exact ⟨rfl, rfl⟩
  · split
    · exact ⟨rfl, rfl⟩
    · exact ⟨rfl, rfl⟩

theorem accesses_fdcDoWriteSectors (env : PortEnv φ) (p : Port φ) :
    Accesses p.fdc (fdcDoWriteSectors env p).fdc [p.fdc.selectedDrive] := by
  rw [fdcDoWriteSectors_eq]
  split
  · exact ⟨rfl, rfl⟩
  · split
    · exact ⟨rfl, rfl⟩
    · split
      · exact ⟨rfl, rfl⟩
      · constructor
        · exact selectedDrive_setUnit _ _ _
        · exact touched_setUnit _ _ _

theorem accesses_fdcDoReadAddress (env : PortEnv φ) (p : Port φ) :
    Accesses p.fdc (fdcDoReadAddress env p).fdc
      (if noDrive p.fdc.selectedDrive then [] else [p.fdc.selectedDrive]) := by
  unfold fdcDoReadAddress
  by_cases hnone : noDrive p.fdc.selectedDrive
  · simp only [if_pos hnone]
    exact ⟨rfl, rfl⟩
  · simp only [if_neg hnone]
    split
    · exact ⟨rfl, rfl⟩
    · exact ⟨rfl, rfl⟩

def unguarded (cmd : Byte) : Prop :=
  commandClass cmd = .readSectors ∨ commandClass cmd = .writeSectors

instance (cmd : Byte) : Decidable (unguarded cmd) := inferInstanceAs (Decidable (_ ∨ _))

theorem accesses_fdcExecCommand (env : PortEnv φ) (cmd : Byte) (p : Port φ) :
    exists made, Accesses p.fdc (fdcExecCommand env cmd p).fdc made ∧
      (forall i, i ∈ made -> i = p.fdc.selectedDrive) ∧
      (noDrive p.fdc.selectedDrive -> (made ≠ [] <-> unguarded cmd)) := by
  have hguarded : forall i : Int,
      (forall j, j ∈ (if noDrive i then [] else [i]) -> j = i) ∧
        (noDrive i -> (if noDrive i then [] else [i]) = []) := by
    intro i
    by_cases h : noDrive i
    · simp [h]
    · simp [h]
  unfold fdcExecCommand unguarded
  dsimp only
  cases hclass : commandClass cmd with
  | forceInterrupt =>
      refine ⟨[], ?_, by simp, by simp⟩
      dsimp only
      split
      · exact ⟨rfl, rfl⟩
      · exact ⟨rfl, rfl⟩
  | type1 =>
      rcases hguarded p.fdc.selectedDrive with ⟨hsame, hnone⟩
      have hmade := accesses_fdcDoType1 env cmd (p.fdc.beginCommand cmd)
      refine ⟨_, ⟨hmade.selected, hmade.touched⟩, hsame, fun h => ?_⟩
      simp only [reduceCtorEq, or_self, iff_false, not_not]
      exact hnone h
  | readSectors =>
      have hmade := accesses_fdcDoReadSectors env { p with fdc := p.fdc.beginCommand cmd }
      refine ⟨_, ⟨hmade.selected, hmade.touched⟩, ?_, by simp⟩
      simp [Fdc.beginCommand, Fdc.clearIrq]
  | writeSectors =>
      have hmade := accesses_fdcDoWriteSectors env { p with fdc := p.fdc.beginCommand cmd }
      refine ⟨_, ⟨hmade.selected, hmade.touched⟩, ?_, by simp⟩
      simp [Fdc.beginCommand, Fdc.clearIrq]
  | readAddress =>
      rcases hguarded p.fdc.selectedDrive with ⟨hsame, hnone⟩
      have hmade := accesses_fdcDoReadAddress env { p with fdc := p.fdc.beginCommand cmd }
      refine ⟨_, ⟨hmade.selected, hmade.touched⟩, hsame, fun h => ?_⟩
      simp only [reduceCtorEq, or_self, iff_false, not_not]
      exact hnone h
  | readTrack => exact ⟨[], ⟨rfl, rfl⟩, by simp, by simp⟩
  | writeTrack => exact ⟨[], ⟨rfl, rfl⟩, by simp, by simp⟩

/-!
## How a command without a drive ends
-/

/-- The command is over, and if it looked for anything on a disk, it says that it has
not found it.  Force Interrupt looks for nothing.  No drive has changed. -/
structure EndsNotFound (cmd : Byte) (f f' : Fdc) : Prop where
  notBusy : f'.status &&& fdcStatusBusy = 0
  notFound : commandClass cmd ≠ .forceInterrupt -> f'.status &&& fdcStatusRecnf ≠ 0
  driveA : f'.driveA = f.driveA
  driveB : f'.driveB = f.driveB

theorem notBusy_clearStatus :
    (f.clearStatus fdcStatusBusy).status &&& fdcStatusBusy = 0 := by
  show f.status &&& ~~~fdcStatusBusy &&& fdcStatusBusy = 0
  have hbit : ~~~fdcStatusBusy &&& fdcStatusBusy = 0 := rfl
  rw [BitVec.and_assoc, hbit]
  exact BitVec.and_zero

theorem notBusy_setStatus {f : Fdc} {bits : Byte} (h : f.status &&& fdcStatusBusy = 0)
    (hbits : bits &&& fdcStatusBusy = 0) :
    (f.setStatus bits).status &&& fdcStatusBusy = 0 := by
  show (f.status ||| bits) &&& fdcStatusBusy = 0
  rw [BitVec.and_comm, BitVec.and_or_distrib_left, BitVec.and_comm, h, BitVec.and_comm, hbits]
  rfl

theorem status_ne_zero {f : Fdc} {x : Byte} (hkept : fdcStatusRecnf &&& x = fdcStatusRecnf) :
    (f.status ||| fdcStatusRecnf) &&& x &&& fdcStatusRecnf ≠ 0 := by
  have hbits : (f.status ||| fdcStatusRecnf) &&& fdcStatusRecnf = fdcStatusRecnf := by
    ext i hi
    simp only [BitVec.getElem_and, BitVec.getElem_or]
    cases f.status[i]
    · simp
    · simp
  rw [BitVec.and_assoc, BitVec.and_comm x, hkept, hbits]
  decide

theorem endsNotFound_fdcExecCommand (env : PortEnv φ) (cmd : Byte) (p : Port φ)
    (hnone : noDrive p.fdc.selectedDrive) :
    EndsNotFound cmd p.fdc (fdcExecCommand env cmd p).fdc := by
  have hbegin : noDrive (p.fdc.beginCommand cmd).selectedDrive := hnone
  have hrecnf : fdcStatusRecnf &&& ~~~fdcStatusBusy = fdcStatusRecnf := rfl
  have hother : fdcStatusRecnf &&& fdcStatusBusy = 0 := rfl
  unfold fdcExecCommand
  dsimp only
  cases hclass : commandClass cmd with
  | forceInterrupt =>
      dsimp only
      split
      · exact ⟨notBusy_clearStatus _, fun h => absurd hclass h, rfl, rfl⟩
      · exact ⟨notBusy_clearStatus _, fun h => absurd hclass h, rfl, rfl⟩
  | type1 =>
      unfold fdcDoType1
      simp only [if_pos hbegin]
      refine ⟨notBusy_setStatus (notBusy_clearStatus _) hother, fun _ => ?_, rfl, rfl⟩
      have hset := status_ne_zero (f := (p.fdc.beginCommand cmd).clearStatus fdcStatusBusy)
        (x := fdcStatusRecnf) rfl
      rwa [BitVec.and_assoc, BitVec.and_self] at hset
  | readSectors =>
      rw [fdcDoReadSectors_eq, if_pos (Or.inl hbegin)]
      exact ⟨notBusy_clearStatus _, fun _ => status_ne_zero hrecnf, rfl, rfl⟩
  | writeSectors =>
      rw [fdcDoWriteSectors_eq, if_pos (Or.inl hbegin)]
      exact ⟨notBusy_clearStatus _, fun _ => status_ne_zero hrecnf, rfl, rfl⟩
  | readAddress =>
      unfold fdcDoReadAddress
      dsimp only
      rw [if_pos hbegin]
      exact ⟨notBusy_clearStatus _, fun _ => status_ne_zero hrecnf, rfl, rfl⟩
  | readTrack => exact ⟨notBusy_clearStatus _, fun _ => status_ne_zero hrecnf, rfl, rfl⟩
  | writeTrack => exact ⟨notBusy_clearStatus _, fun _ => status_ne_zero hrecnf, rfl, rfl⟩

/-!
## Runs
-/

/-- The index of the selected drive is one of the table or none, and the accesses so
far were in range. -/
structure TableOk (f : Fdc) : Prop where
  selected : f.selectedDrive = -1 ∨ f.selectedDrive = 0 ∨ f.selectedDrive = 1
  inRange : forall i, i ∈ f.touched -> ¬ noDrive i

theorem Accesses.tableOk {f f' : Fdc} {made : List Int} (h : Accesses f f' made)
    (hmade : forall i, i ∈ made -> ¬ noDrive i) (hok : TableOk f) : TableOk f' := by
  constructor
  · rw [h.selected]
    exact hok.selected
  · intro i hi
    rw [h.touched] at hi
    rcases List.mem_append.mp hi with hnew | hold
    · exact hmade i hnew
    · exact hok.inRange i hold

theorem TableOk.same {f f' : Fdc} (hok : TableOk f) (hselected : f'.selectedDrive = f.selectedDrive)
    (htouched : f'.touched = f.touched) : TableOk f' := by
  have hmade : Accesses f f' [] := ⟨hselected, htouched⟩
  exact hmade.tableOk (fun i hi => absurd hi List.not_mem_nil) hok

theorem TableOk.touch {f : Fdc} (hok : TableOk f) {i : Int} (hi : ¬ noDrive i) :
    TableOk (f.touch i) := by
  have hmade : Accesses f (f.touch i) [i] := ⟨rfl, rfl⟩
  apply hmade.tableOk _ hok
  intro j hj
  rw [List.mem_singleton.mp hj]
  exact hi

theorem TableOk.setUnit {f : Fdc} (hok : TableOk f) (i : Int) (u : DriveUnit) :
    TableOk (f.setUnit i u) :=
  hok.same (selectedDrive_setUnit f i u) (touched_setUnit f i u)

theorem TableOk.onDrive {outside : Int -> DriveUnit} {f : Fdc} (hok : TableOk f) (i : Int)
    (op : DriveUnit -> DriveUnit) : TableOk (f.onDrive outside i op) := by
  unfold Fdc.onDrive
  by_cases hi : noDrive i
  · rw [if_pos hi]
    exact hok
  · rw [if_neg hi]
    exact (hok.touch hi).setUnit i _

variable {env : PortEnv φ}

theorem TableOk.fdcReadStatus {f : Fdc} (hok : TableOk f) :
    TableOk (fdcReadStatus env f).2 := by
  unfold Floppy.fdcReadStatus
  by_cases hdrive : f.command &&& 0x80 = 0 ∧ ¬ noDrive f.selectedDrive
  · rw [if_pos hdrive]
    have htouch := hok.touch hdrive.2
    dsimp only
    split
    · exact (htouch.setUnit _ _).same rfl rfl
    · exact htouch.same rfl rfl
  · rw [if_neg hdrive]
    exact hok.same rfl rfl

theorem TableOk.fdcReadAddr {f : Fdc} (hok : TableOk f) :
    TableOk (fdcReadAddr env f).2 := by
  unfold Floppy.fdcReadAddr
  split
  · exact hok
  · split
    · exact hok.fdcReadStatus
    · exact hok
    · exact hok
    · exact hok

theorem not_noDrive_zero : ¬ noDrive 0 := by decide

theorem not_noDrive_one : ¬ noDrive 1 := by decide

theorem TableOk.psgReadAddr {f : Fdc} (hok : TableOk f) (addr size : Nat) :
    TableOk (psgReadAddr env addr size f).2 := by
  have htouch := (hok.touch not_noDrive_zero).touch not_noDrive_one
  unfold Floppy.psgReadAddr
  dsimp only
  split
  · exact htouch
  · exact htouch

theorem selectedDrive_decodeDriveSide :
    f.decodeDriveSide.selectedDrive = -1 ∨ f.decodeDriveSide.selectedDrive = 0 ∨
      f.decodeDriveSide.selectedDrive = 1 := by
  unfold Fdc.decodeDriveSide
  dsimp only
  by_cases ha : f.psgPorta &&& psgDriveASel = 0
  · rw [if_pos ha]
    exact Or.inr (Or.inl rfl)
  · rw [if_neg ha]
    by_cases hb : f.psgPorta &&& psgDriveBSel = 0
    · rw [if_pos hb]
      exact Or.inr (Or.inr rfl)
    · rw [if_neg hb]
      exact Or.inl rfl

theorem TableOk.psgWriteAddr {f : Fdc} (hok : TableOk f) (addr : Nat) (val : BitVec 32)
    (size : Nat) : TableOk (psgWriteAddr addr val size f) := by
  have htouch := (hok.touch not_noDrive_zero).touch not_noDrive_one
  unfold Floppy.psgWriteAddr
  dsimp only
  split
  · exact hok.same rfl rfl
  · split
    · exact ⟨selectedDrive_decodeDriveSide _, htouch.inRange⟩
    · exact hok

variable {p : Port φ}

theorem TableOk.fddIoRead (hok : TableOk p.fdc) (addr size : Nat) :
    TableOk (fddIoRead env addr size p).2.fdc := by
  unfold Floppy.fddIoRead Port.setFdc
  repeat' split
  all_goals first
    | exact hok
    | exact hok.fdcReadAddr
    | exact hok.psgReadAddr addr size

theorem TableOk.dmaWriteAddr (hok : TableOk p.fdc) (addr : Nat)
    (val : BitVec 32) : TableOk (dmaWriteAddr env addr val p).fdc := by
  unfold Floppy.dmaWriteAddr
  dsimp only
  repeat' split
  all_goals exact hok.same rfl rfl

theorem TableOk.fddGpip (hok : TableOk p.fdc) :
    TableOk (fddGpip env p).fdc := by
  unfold Floppy.fddGpip
  split
  · exact hok
  · split
    · next hdrive =>
      have hvalid : ¬ noDrive p.fdc.selectedDrive := by
        rcases hok.selected with hsel | hsel | hsel
        · rw [hsel] at hdrive
          exact absurd hdrive (by decide)
        · rw [hsel]
          exact not_noDrive_zero
        · rw [hsel]
          exact not_noDrive_one
      have htouch := hok.touch hvalid
      dsimp only
      split
      · exact htouch.same rfl rfl
      · exact htouch
    · exact hok

/-- The byte that an access writes into the command register of the emulated
controller. -/
def commandWritten (env : PortEnv φ) (p : Port φ) : PortOp -> Option Byte
  | .write addr val _ =>
      if addr = fdcDataReg ∧ ¬ p.fdc.screg ∧ ¬ p.fdc.hdcSelected ∧ env.fddEnabled = true ∧
          p.fdc.regIndex = 0 then
        some (val.setWidth 8)
      else Option.none
  | _ => Option.none

def Port.forCommand (env : PortEnv φ) (p : Port φ) : Port φ :=
  { p with
    fdc := p.fdc.startMotor env.outside
    acsi := Acsi.release p.acsi
    hdcActive := false }

theorem portStep_command {op : PortOp} {cmd : Byte} (h : commandWritten env p op = some cmd) :
    portStep env p op = fdcExecCommand env cmd (p.forCommand env) := by
  cases op with
  | write addr val size =>
      simp only [commandWritten, Option.ite_none_right_eq_some, Option.some.injEq] at h
      rcases h with ⟨⟨rfl, hscreg, hhdc, henabled, hreg⟩, rfl⟩
      have hrouted : routed env fdcDataReg := Or.inl ⟨by decide, by decide⟩
      have hport : 0xFF8600 ≤ fdcDataReg ∧ fdcDataReg ≤ 0xFF860F := ⟨by decide, by decide⟩
      have hother : ¬ (fdcDataReg = dmaModeReg ∨ fdcDataReg = dmaBaseHigh ∨
          fdcDataReg = dmaBaseMid ∨ fdcDataReg = dmaBaseLow) := by decide
      show (if routed env fdcDataReg then fddIoWrite env fdcDataReg val size p else p) = _
      rw [if_pos hrouted]
      unfold fddIoWrite
      rw [if_pos hport, if_neg hother, if_pos rfl, if_neg hscreg, if_neg hhdc,
        if_neg (by rw [henabled]; decide)]
      unfold fdcWriteAddr
      dsimp only
      rw [if_neg hscreg, hreg]
      rfl
  | _ => simp [commandWritten] at h

theorem startMotor_noDrive {outside : Int -> DriveUnit} {f : Fdc} (h : noDrive f.selectedDrive) :
    f.startMotor outside = f :=
  if_pos h

theorem accesses_startMotor (outside : Int -> DriveUnit) (f : Fdc) :
    Accesses f (f.startMotor outside) [] := by
  unfold Fdc.startMotor
  split
  · exact ⟨rfl, rfl⟩
  · exact ⟨selectedDrive_setUnit _ _ _, touched_setUnit _ _ _⟩

theorem TableOk.portStep_other {op : PortOp}
    (hok : TableOk p.fdc) (h : commandWritten env p op = Option.none) :
    TableOk (portStep env p op).fdc := by
  cases op with
  | read addr size =>
      dsimp only [portStep]
      split
      · exact hok.fddIoRead addr size
      · exact hok
  | write addr val size =>
      dsimp only [portStep]
      split
      · unfold fddIoWrite
        split
        · split
          · exact hok.dmaWriteAddr addr val
          · split
            · next haddr =>
              by_cases hscreg : p.fdc.screg
              · rw [if_pos hscreg, fdcWriteAddr, if_pos hscreg]
                exact hok.same rfl rfl
              · rw [if_neg hscreg]
                by_cases hhdc : p.fdc.hdcSelected
                · rw [if_pos hhdc]
                  exact hok
                · rw [if_neg hhdc]
                  split
                  · exact hok
                  · next henabled =>
                    have hreg : p.fdc.regIndex ≠ 0 := by
                      intro hzero
                      have hcommand : commandWritten env p (.write addr val size) =
                          some (val.setWidth 8) :=
                        if_pos ⟨haddr, hscreg, hhdc, by simpa using henabled, hzero⟩
                      rw [hcommand] at h
                      cases h
                    unfold fdcWriteAddr
                    dsimp only
                    rw [if_neg hscreg]
                    split
                    · next hzero => exact absurd hzero hreg
                    · exact hok.same rfl rfl
                    · exact hok.same rfl rfl
                    · exact hok.same rfl rfl
            · exact hok
        · split
          · exact hok.psgWriteAddr addr val size
          · exact hok
      · exact hok
  | gpip => exact hok.fddGpip
  | vbl =>
      show TableOk (fddVbl p.fdc)
      unfold fddVbl
      dsimp only
      split
      · exact hok.same rfl rfl
      · exact hok.same rfl rfl
  | ram ram => exact hok
  | insert host i path wp =>
      dsimp only [portStep]
      exact hok.onDrive i _
  | eject i =>
      dsimp only [portStep]
      exact hok.onDrive i _
  | toggle host i =>
      dsimp only [portStep]
      exact hok.onDrive i _
  | setWriteProtect i wp =>
      dsimp only [portStep]
      exact hok.onDrive i _
  | pulse i =>
      dsimp only [portStep]
      exact hok.onDrive i _

/-- A step accesses the drive table in range, and a command that finds no drive
selected ends so and changes none. -/
def StepInRange (env : PortEnv φ) (p : Port φ) (op : PortOp) : Prop :=
  (forall i, i ∈ (portStep env p op).fdc.touched -> ¬ noDrive i) ∧
    forall cmd, commandWritten env p op = some cmd -> noDrive p.fdc.selectedDrive ->
      EndsNotFound cmd p.fdc (portStep env p op).fdc

/-- No command to read or write sectors is given while no drive is selected. -/
def SectorCommandsSelected (env : PortEnv φ) (p : Port φ) (op : PortOp) : Prop :=
  forall cmd, commandWritten env p op = some cmd -> unguarded cmd ->
    ¬ noDrive p.fdc.selectedDrive

theorem stepInRange_iff (hok : TableOk p.fdc) (op : PortOp) :
    (StepInRange env p op <-> SectorCommandsSelected env p op) ∧
      (SectorCommandsSelected env p op -> TableOk (portStep env p op).fdc) := by
  cases hcommand : commandWritten env p op with
  | none =>
      have hnext := hok.portStep_other hcommand
      have hnever : forall cmd, commandWritten env p op ≠ some cmd := by
        intro cmd
        rw [hcommand]
        simp
      refine ⟨⟨fun _ cmd h => absurd h (hnever cmd), fun _ => ⟨hnext.inRange, ?_⟩⟩, fun _ => hnext⟩
      intro cmd h
      exact absurd h (hnever cmd)
  | some cmd =>
      have hmotor := accesses_startMotor env.outside p.fdc
      have hstart : TableOk (p.forCommand env).fdc := hok.same hmotor.selected hmotor.touched
      have hselected : (p.forCommand env).fdc.selectedDrive = p.fdc.selectedDrive :=
        hmotor.selected
      have hstep := portStep_command hcommand
      rcases accesses_fdcExecCommand env cmd (p.forCommand env) with ⟨made, hmade, hsame, hnone⟩
      rw [hselected] at hsame hnone
      have hgood : SectorCommandsSelected env p op -> TableOk (portStep env p op).fdc := by
        intro hcond
        rw [hstep]
        apply hmade.tableOk _ hstart
        intro i hi
        rw [hsame i hi]
        intro hno
        exact hcond cmd hcommand ((hnone hno).mp (List.ne_nil_of_mem hi)) hno
      refine ⟨⟨?_, ?_⟩, hgood⟩
      · intro hin cmd' hcommand' hbad hno
        rw [hcommand] at hcommand'
        cases hcommand'
        cases hlist : made with
        | nil => exact (hnone hno).mpr hbad hlist
        | cons i rest =>
            have htouched : i ∈ (portStep env p op).fdc.touched := by
              rw [hstep, hmade.touched, hlist]
              exact List.mem_cons_self
            have hi := hsame i (by rw [hlist]; exact List.mem_cons_self)
            exact hin.1 i htouched (by rw [hi]; exact hno)
      · intro hcond
        refine ⟨(hgood hcond).inRange, ?_⟩
        intro cmd' hcommand' hno
        rw [hcommand] at hcommand'
        cases hcommand'
        have hend := endsNotFound_fdcExecCommand env cmd (p.forCommand env)
          (by rw [hselected]; exact hno)
        have hsamefdc : (p.forCommand env).fdc = p.fdc := startMotor_noDrive hno
        rw [hsamefdc] at hend
        rw [hstep]
        exact hend

theorem tableOk_init (tgt : Acsi.Targets φ) (m : Machine) : TableOk (Port.init tgt m).fdc :=
  ⟨Or.inl rfl, fun _ hi => absurd hi List.not_mem_nil⟩

/-- The accesses of a run are in range, and its commands without a drive end as not
found, exactly when it gives no command to read or write sectors without a drive. -/
theorem table_in_range_iff_selected (env : PortEnv φ) (tgt : Acsi.Targets φ) (m : Machine)
    (ops : List PortOp) :
    Steps (portStep env) (StepInRange env) (Port.init tgt m) ops <->
      Steps (portStep env) (SectorCommandsSelected env) (Port.init tgt m) ops := by
  have hstep : forall (p : Port φ) (op : PortOp), TableOk p.fdc ->
      SectorCommandsSelected env p op -> TableOk (portStep env p op).fdc :=
    fun p op hok => (stepInRange_iff hok op).2
  have hiff : forall (p : Port φ) (op : PortOp), TableOk p.fdc ->
      (StepInRange env p op <-> SectorCommandsSelected env p op) :=
    fun p op hok => (stepInRange_iff hok op).1
  exact Steps.iff_of_invariant hstep hiff (tableOk_init tgt m)

/-- Read Sector as the first access after start-up, when no drive is selected. -/
theorem read_sector_without_drive :
    ¬ forall (env : PortEnv Unit) (tgt : Acsi.Targets Unit) (m : Machine) (ops : List PortOp),
      Steps (portStep env) (StepInRange env) (Port.init tgt m) ops := by
  intro hall
  let env : PortEnv Unit :=
    { acsi :=
        { io := ⟨fun file _ => (file, Option.none), fun file _ _ => (file, false)⟩
          stramTop := 0x400000
          stack := fun _ => 0 }
      fddEnabled := true
      outside := fun _ => .empty
      bus := fun _ _ => 0 }
  let m : Machine := { ram := fun _ => 0, bus := fun _ => 0, dmaAddr := 0, dmaStatus := 0 }
  let p : Port Unit := Port.init (fun _ => Option.none) m
  have hrun := hall env (fun _ => Option.none) m [.write fdcDataReg 0x80 2]
  have hcommand : commandWritten env p (.write fdcDataReg 0x80 2) = some 0x80 :=
    if_pos ⟨rfl, by decide, by decide, rfl, by decide⟩
  have hok : TableOk p.fdc := tableOk_init (fun _ => Option.none) m
  have hselected := (stepInRange_iff hok (.write fdcDataReg 0x80 2)).1.mp hrun.1
  exact hselected 0x80 hcommand (by decide) (by decide)

end Floppy
end PistormAtari
