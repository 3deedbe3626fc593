import PistormAtari.Ide.Transfer

/-!
# Data phases

DRQ tells the host that a drive is in a data phase, and a phase lasts until the
sectors asked for have gone through the data port.  The end of a software reset
makes both slots ready, attached or not.
-/

namespace PistormAtari
namespace Ide

open Foundation

/-!
## Status bits
-/

def Drive.drq (d : Drive) : Bool := d.taskfile.status &&& ST_DRQ != 0

def Drive.drdy (d : Drive) : Bool := d.taskfile.status &&& ST_DRDY != 0

def Drive.inPhase (d : Drive) : Bool := d.state == .dataIn || d.state == .dataOut

theorem status_ready (s : Byte) :
    (((s &&& ~~~(ST_BSY ||| ST_DRQ)) ||| (ST_DRDY ||| ST_DSC)) &&& ST_DRQ != 0) = false ∧
      (((s &&& ~~~(ST_BSY ||| ST_DRQ)) ||| (ST_DRDY ||| ST_DSC)) &&& ST_DRDY != 0) = true := by
  revert s
  decide

theorem status_dataIn (s : Byte) :
    (((s &&& ~~~ST_BSY) ||| ST_DRQ) &&& ST_DRQ != 0) = true ∧
      (((s &&& ~~~ST_BSY) ||| ST_DRQ) &&& ST_BSY != 0) = false := by
  revert s
  decide

theorem status_dataOut (s : Byte) :
    (((s &&& ~~~(ST_BSY ||| ST_DRDY)) ||| ST_DRQ) &&& ST_DRQ != 0) = true ∧
      (((s &&& ~~~(ST_BSY ||| ST_DRDY)) ||| ST_DRQ) &&& ST_BSY != 0) = false := by
  revert s
  decide

/-- DRQ tells a data phase, the pointer is inside the sector buffer, a drive in a
data phase is attached and not busy, and a slot without a drive shows neither DRDY
nor DRQ. -/
structure PhaseOk (d : Drive) : Prop where
  drq : d.drq = d.inPhase
  pointer : d.dptr ≤ 512
  phase : d.inPhase = true -> d.busy = false ∧ d.present = true
  absent : d.present = false -> d.drq = false ∧ d.drdy = false

namespace PhaseOk

variable {d d' : Drive}

theorem of_registers (h : PhaseOk d) (hstatus : d'.taskfile.status = d.taskfile.status)
    (hstate : d'.state = d.state) (hdptr : d'.dptr = d.dptr) (hpresent : d'.present = d.present) :
    PhaseOk d' := by
  have hdrq : d'.drq = d.drq := by
    unfold Drive.drq
    rw [hstatus]
  have hdrdy : d'.drdy = d.drdy := by
    unfold Drive.drdy
    rw [hstatus]
  have hbusy : d'.busy = d.busy := by
    unfold Drive.busy
    rw [hstatus]
  have hphase : d'.inPhase = d.inPhase := by
    unfold Drive.inPhase
    rw [hstate]
  constructor
  · rw [hdrq, hphase]
    exact h.drq
  · rw [hdptr]
    exact h.pointer
  · rw [hphase, hbusy, hpresent]
    exact h.phase
  · rw [hdrq, hdrdy, hpresent]
    exact h.absent

theorem of_idle (hstate : d.state = .idle) (hdrq : d.drq = false) (hdptr : d.dptr ≤ 512)
    (hpresent : d.present = true) : PhaseOk d := by
  have hphase : d.inPhase = false := by
    unfold Drive.inPhase
    rw [hstate]
    rfl
  constructor
  · rw [hdrq, hphase]
  · exact hdptr
  · intro h
    rw [hphase] at h
    cases h
  · intro h
    rw [hpresent] at h
    cases h

theorem ready (hdptr : d.dptr ≤ 512) (hpresent : d.present = true) : PhaseOk (ready d) :=
  of_idle rfl (status_ready d.taskfile.status).1 hdptr hpresent

theorem completed (hdptr : d.dptr ≤ 512) (hpresent : d.present = true) :
    PhaseOk (completed d) :=
  of_idle rfl (status_ready d.taskfile.status).1 hdptr hpresent

theorem of_phase (hphase : d.inPhase = true) (hdrq : d.drq = true) (hbusy : d.busy = false)
    (hdptr : d.dptr ≤ 512) (hpresent : d.present = true) : PhaseOk d := by
  constructor
  · rw [hdrq, hphase]
  · exact hdptr
  · intro _
    exact ⟨hbusy, hpresent⟩
  · intro h
    rw [hpresent] at h
    cases h

theorem dataInState (hpresent : d.present = true) : PhaseOk (dataInState d) :=
  of_phase rfl (status_dataIn d.taskfile.status).1 (status_dataIn d.taskfile.status).2
    (Nat.le_refl 512) hpresent

theorem dataOutState (hpresent : d.present = true) : PhaseOk (dataOutState d) :=
  of_phase rfl (status_dataOut d.taskfile.status).1 (status_dataOut d.taskfile.status).2
    (Nat.zero_le 512) hpresent

end PhaseOk

/-!
## Commands
-/

def Drive.diagnosed (d : Drive) : Drive :=
  ready { d with taskfile := { d.taskfile with error := 0x01, count := 0x01 } }

theorem eddSetup_drive (c : Controller) (j i : Fin 2) :
    (eddSetup c j).drive i = if i = j then (c.drive j).diagnosed else c.drive i := by
  change (c.put j (c.drive j).diagnosed).drive i = _
  by_cases hi : i = j
  · rw [if_pos hi, hi, put_drive_self]
  · rw [if_neg hi, put_drive_of_ne hi]

theorem PhaseOk.diagnosed {d : Drive} (hdptr : d.dptr ≤ 512) (hpresent : d.present = true) :
    PhaseOk d.diagnosed :=
  PhaseOk.ready hdptr hpresent

/-- Diagnostics leave an attached drive ready, whatever state it was in. -/
theorem eddIfPresent_drive (c : Controller) (j i : Fin 2) :
    (eddIfPresent c j).drive i =
      if i = j ∧ (c.drive j).present = true then (c.drive j).diagnosed else c.drive i := by
  unfold eddIfPresent
  by_cases hpresent : (c.drive j).present = true
  · rw [if_pos hpresent, eddSetup_drive]
    by_cases hi : i = j
    · rw [if_pos hi, if_pos ⟨hi, hpresent⟩]
    · rw [if_neg hi, if_neg (fun h => hi h.1)]
  · rw [if_neg hpresent, if_neg (fun h => hpresent h.2)]

theorem cmdEddComplete_drive (c : Controller) (i : Fin 2) :
    (cmdEddComplete c).drive i =
      if (c.drive i).present = true then (c.drive i).diagnosed else c.drive i := by
  change (eddIfPresent (eddIfPresent c 0) 1).drive i = _
  rw [eddIfPresent_drive, eddIfPresent_drive, eddIfPresent_drive]
  rcases Fin.exists_fin_two.mp ⟨i, rfl⟩ with hi | hi
  · simp [hi]
  · simp [hi]

theorem cmdSetfeatures_frame (d : Drive) :
    (cmdSetfeaturesComplete d).present = d.present ∧
      (cmdSetfeaturesComplete d).dptr = d.dptr := by
  unfold cmdSetfeaturesComplete
  dsimp only
  split
  · exact ⟨rfl, rfl⟩
  · split <;> exact ⟨rfl, rfl⟩
  · exact ⟨rfl, rfl⟩
  · exact ⟨rfl, rfl⟩

theorem cmdRecalibrate_frame (c : Controller) (d : Drive) :
    (cmdRecalibrateComplete c d).present = d.present ∧
      (cmdRecalibrateComplete c d).dptr = d.dptr := by
  unfold cmdRecalibrateComplete
  dsimp only
  split
  · split <;> exact ⟨rfl, rfl⟩
  · split <;> exact ⟨rfl, rfl⟩

theorem cmdSeek_frame (c : Controller) (d : Drive) :
    (cmdSeekComplete c d).present = d.present ∧ (cmdSeekComplete c d).dptr = d.dptr := by
  unfold cmdSeekComplete
  dsimp only
  split <;> exact ⟨rfl, rfl⟩

theorem phaseOk_of_completed {d e : Drive} (hcompleted : d = completed e)
    (hframe : d.present = true ∧ d.dptr ≤ 512) : PhaseOk d := by
  rw [hcompleted] at hframe ⊢
  exact PhaseOk.completed hframe.2 hframe.1

variable (falconTos : Bool) {c : Controller}

theorem ideIssueCommand_phaseOk
    (h : forall i, PhaseOk (c.drive i)) (hpresent : (c.drive c.selected).present = true)
    (v : Byte) (i : Fin 2) : PhaseOk ((ideIssueCommand falconTos c v).drive i) := by
  have hdptr : ((c.drive c.selected).begun v).dptr ≤ 512 := (h c.selected).pointer
  have hbegun : ((c.drive c.selected).begun v).present = true := hpresent
  have hput {d : Drive} (hd : PhaseOk d) : PhaseOk ((c.put c.selected d).drive i) := by
    by_cases hi : i = c.selected
    · rw [hi, put_drive_self]
      exact hd
    · rw [put_drive_of_ne hi]
      exact h i
  unfold ideIssueCommand
  dsimp only
  cases decodeCommand v with
  | edd =>
      rw [cmdEddComplete_drive]
      by_cases hi : i = c.selected
      · rw [hi, put_drive_self, if_pos hbegun]
        exact PhaseOk.diagnosed hdptr hbegun
      · rw [put_drive_of_ne hi]
        split
        · next hother => exact PhaseOk.diagnosed (h i).pointer hother
        · exact h i
  | identify =>
      apply hput
      exact PhaseOk.of_phase rfl (status_dataIn _).1 (status_dataIn _).2 (Nat.zero_le 512) hbegun
  | initparam => exact hput (PhaseOk.completed hdptr hbegun)
  | read =>
      apply hput
      unfold cmdReadsectorsComplete
      split
      · exact PhaseOk.ready hdptr hbegun
      · exact PhaseOk.dataInState hbegun
  | setfeatures =>
      have hframe := cmdSetfeatures_frame ((c.drive c.selected).begun v)
      apply hput
      exact phaseOk_of_completed rfl ⟨hframe.1.trans hbegun, hframe.2.trans_le hdptr⟩
  | verify =>
      apply hput
      unfold cmdVerifysectorsComplete
      split
      · exact PhaseOk.ready hdptr hbegun
      · exact PhaseOk.completed hdptr hbegun
  | write =>
      apply hput
      unfold cmdWritesectorsComplete
      split
      · exact PhaseOk.ready hdptr hbegun
      · exact PhaseOk.dataOutState hbegun
  | recalibrate =>
      have hframe := cmdRecalibrate_frame c ((c.drive c.selected).begun v)
      apply hput
      exact phaseOk_of_completed rfl ⟨hframe.1.trans hbegun, hframe.2.trans_le hdptr⟩
  | seek =>
      have hframe := cmdSeek_frame c ((c.drive c.selected).begun v)
      apply hput
      exact phaseOk_of_completed rfl ⟨hframe.1.trans hbegun, hframe.2.trans_le hdptr⟩
  | unknown => exact hput (PhaseOk.completed hdptr hbegun)

/-!
## One datum
-/

/-- A datum went through the data port: the pointer is one datum on, the sectors
still to come are fewer by it, and the phase lasts while there are any. -/
structure Moved (d d' : Drive) : Prop where
  dptr : d'.dptr % 512 = (d.dptr + d.width) % 512
  left : 512 * d'.length + d.dptr % 512 + d.width = 512 * d.length + d'.dptr % 512
  phase : d'.inPhase = true <-> 1 ≤ d'.length
  ok : PhaseOk d'

/-- All that counts of a drive in a data phase but the pointer. -/
structure SamePhase (d d' : Drive) : Prop where
  status : d'.taskfile.status = d.taskfile.status
  state : d'.state = d.state
  present : d'.present = d.present
  length : d'.length = d.length
  width : d'.width = d.width

theorem SamePhase.inPhase {d d' : Drive} (h : SamePhase d d') : d'.inPhase = d.inPhase := by
  unfold Drive.inPhase
  rw [h.state]

theorem SamePhase.ok {d d' : Drive} (h : SamePhase d d') (hok : PhaseOk d) (hdptr : d'.dptr ≤ 512) :
    PhaseOk d' := by
  have hmoved : PhaseOk { d with dptr := d'.dptr } := ⟨hok.drq, hdptr, hok.phase, hok.absent⟩
  exact hmoved.of_registers h.status h.state rfl h.present

theorem moved_of_next {d d' : Drive} (hsame : SamePhase d d') (hok : PhaseOk d)
    (hphase : d.inPhase = true) (hlength : 1 ≤ d.length)
    (hdptr : d'.dptr = d.dptr % 512 + d.width) (hlt : d'.dptr < 512) : Moved d d' := by
  constructor
  · rw [hdptr, Nat.mod_add_mod]
  · rw [hsame.length, hdptr]
    rw [hdptr] at hlt
    rw [Nat.mod_eq_of_lt hlt]
    lia
  · rw [hsame.inPhase, hsame.length]
    exact ⟨fun _ => hlength, fun _ => hphase⟩
  · exact hsame.ok hok (Nat.le_of_lt hlt)

theorem moved_of_end {d d' : Drive} (hend : d.dptr % 512 + d.width = 512)
    (hlength : 1 ≤ d.length) (hlength' : d'.length = d.length - 1)
    (hdptr' : d'.dptr % 512 = 0) (hphase : d'.inPhase = true <-> 1 ≤ d'.length)
    (hok : PhaseOk d') : Moved d d' := by
  constructor
  · rw [hdptr', ← Nat.mod_add_mod, hend]
  · rw [hlength', hdptr']
    lia
  · exact hphase
  · exact hok

theorem takeDatum_same (d : Drive) (len : Nat) :
    SamePhase d (d.takeDatum falconTos len) := by
  constructor
  · rfl
  · rfl
  · rfl
  · rfl
  · rfl

theorem putDatum_same (d : Drive) (v : Word) :
    SamePhase d (d.putDatum falconTos v) := by
  unfold Drive.putDatum
  dsimp only
  split
  · exact ⟨rfl, rfl, rfl, rfl, rfl⟩
  · split <;> exact ⟨rfl, rfl, rfl, rfl, rfl⟩

theorem sectorTaken_ended {d : Drive} (hok : PhaseOk d) (hphase : d.inPhase = true) :
    d.sectorTaken.length = d.length - 1 ∧ d.sectorTaken.dptr = d.dptr ∧
      (d.sectorTaken.inPhase = true <-> 1 ≤ d.sectorTaken.length) ∧ PhaseOk d.sectorTaken := by
  unfold Drive.sectorTaken
  dsimp only
  by_cases hzero : d.length - 1 = 0
  · rw [if_pos hzero]
    constructor
    · rfl
    constructor
    · rfl
    constructor
    · change false = true <-> 1 ≤ d.length - 1
      rw [hzero]
      simp
    · exact PhaseOk.of_idle rfl (status_ready d.taskfile.status).1 hok.pointer
        (hok.phase hphase).2
  · rw [if_neg hzero]
    constructor
    · rfl
    constructor
    · rfl
    constructor
    · change d.inPhase = true <-> 1 ≤ d.length - 1
      rw [hphase]
      simp only [true_iff]
      lia
    · exact hok.of_registers rfl rfl rfl rfl

theorem sectorWritten_ended {d : Drive} (hok : PhaseOk d) (hphase : d.inPhase = true) :
    d.sectorWritten.length = d.length - 1 ∧ d.sectorWritten.dptr = d.dptr ∧
      (d.sectorWritten.inPhase = true <-> 1 ≤ d.sectorWritten.length) ∧
        PhaseOk d.sectorWritten := by
  unfold Drive.sectorWritten
  dsimp only
  by_cases hzero : d.length - 1 = 0
  · rw [if_pos hzero]
    constructor
    · rfl
    constructor
    · rfl
    constructor
    · change false = true <-> 1 ≤ d.length - 1
      rw [hzero]
      simp
    · exact PhaseOk.completed hok.pointer (hok.phase hphase).2
  · rw [if_neg hzero]
    constructor
    · rfl
    constructor
    · rfl
    constructor
    · change d.inPhase = true <-> 1 ≤ d.length - 1
      rw [hphase]
      simp only [true_iff]
      lia
    · exact hok.of_registers rfl rfl rfl rfl

theorem ideReadSector_same {d : Drive} {io : HostIo} (h : (ideReadSector d io).2 = true) :
    SamePhase d (ideReadSector d io).1 ∧ (ideReadSector d io).1.dptr = 0 := by
  unfold ideReadSector at h ⊢
  cases io with
  | fails eio => cases h
  | works =>
      dsimp only at h ⊢
      split at h
      · cases h
      · next hfull =>
        rw [if_neg hfull]
        exact ⟨⟨rfl, rfl, rfl, rfl, rfl⟩, rfl⟩

structure InTransfer (d : Drive) : Prop where
  ok : PhaseOk d
  paced : Paced d
  phase : d.inPhase = true
  length : 1 ≤ d.length

theorem InTransfer.active {d : Drive} (h : InTransfer d) :
    d.dptr ≤ 512 ∧ (d.eightbit = false -> d.dptr % 2 = 0) := by
  apply h.paced.active
  have hphase := h.phase
  unfold Drive.inPhase at hphase
  simpa using hphase

theorem InTransfer.fits {d : Drive} (h : InTransfer d) : d.dptr % 512 + d.width ≤ 512 := by
  have hactive := h.active
  by_cases hend : d.dptr = 512
  · have hwidth := d.width_le.2
    rw [hend]
    lia
  · have hlt : d.dptr < 512 := Nat.lt_of_le_of_ne hactive.1 hend
    rw [Nat.mod_eq_of_lt hlt]
    exact (dptr_next hlt hactive.2).1

theorem dataIn_moved {falconTos : Bool} {d : Drive} {len : Nat} {io : HostIo}
    (h : InTransfer d) (hok : (d.dataIn falconTos len io).2 = true) :
    Moved d (d.dataIn falconTos len io).1 := by
  have htake (e : Drive) (hsame : SamePhase d e) (hdptr : e.dptr = d.dptr % 512) :
      Moved d (if (e.takeDatum falconTos len).dptr = 512
        then (e.takeDatum falconTos len).sectorTaken else e.takeDatum falconTos len) := by
    have htaken := takeDatum_same falconTos e len
    have hpointer : (e.takeDatum falconTos len).dptr = d.dptr % 512 + d.width := by
      rw [takeDatum_dptr, hdptr, hsame.width]
    have hle : (e.takeDatum falconTos len).dptr ≤ 512 := by
      rw [hpointer]
      exact h.fits
    have hsame' : SamePhase d (e.takeDatum falconTos len) :=
      ⟨htaken.status.trans hsame.status, htaken.state.trans hsame.state,
        htaken.present.trans hsame.present, htaken.length.trans hsame.length,
        htaken.width.trans hsame.width⟩
    by_cases hend : (e.takeDatum falconTos len).dptr = 512
    · rw [if_pos hend]
      have hended := sectorTaken_ended (hsame'.ok h.ok hle) (hsame'.inPhase.trans h.phase)
      rw [hsame'.length] at hended
      apply moved_of_end (hpointer.symm.trans hend) h.length hended.1 _ hended.2.2.1 hended.2.2.2
      rw [hended.2.1, hend]
    · rw [if_neg hend]
      exact moved_of_next hsame' h.ok h.phase h.length hpointer (Nat.lt_of_le_of_ne hle hend)
  have hlt : d.dptr ≠ 512 -> d.dptr < 512 := Nat.lt_of_le_of_ne h.active.1
  unfold Drive.dataIn at hok ⊢
  by_cases hend : d.dptr = 512
  · rw [if_pos hend] at hok ⊢
    cases hread : (ideReadSector d io).2 with
    | false =>
        dsimp only at hok
        rw [hread, if_neg Bool.false_ne_true] at hok
        cases hok
    | true =>
        have hsector := ideReadSector_same hread
        dsimp only
        rw [hread, if_pos rfl]
        apply htake _ hsector.1
        rw [hsector.2, hend]
  · rw [if_neg hend]
    apply htake d ⟨rfl, rfl, rfl, rfl, rfl⟩
    exact (Nat.mod_eq_of_lt (hlt hend)).symm

theorem dataOut_moved {falconTos : Bool} {d : Drive} {v : Word} {io : HostIo}
    (h : InTransfer d) (hfilling : d.dptr < 512) (hok : (d.dataOut falconTos v io).2 = true) :
    Moved d (d.dataOut falconTos v io).1 := by
  have hput := putDatum_same falconTos d v
  have hpointer : (d.putDatum falconTos v).dptr = d.dptr % 512 + d.width := by
    rw [putDatum_dptr, Nat.mod_eq_of_lt hfilling]
  have hle : (d.putDatum falconTos v).dptr ≤ 512 := by
    rw [hpointer]
    exact h.fits
  unfold Drive.dataOut at hok ⊢
  dsimp only at hok ⊢
  by_cases hend : (d.putDatum falconTos v).dptr = 512
  · rw [if_pos hend] at hok ⊢
    cases io with
    | fails eio => cases hok
    | works =>
        have hstored : SamePhase d (d.putDatum falconTos v).sectorStored :=
          ⟨hput.status, hput.state, hput.present, hput.length, hput.width⟩
        have hended := sectorWritten_ended (hstored.ok h.ok (Nat.zero_le 512))
          (hstored.inPhase.trans h.phase)
        rw [hstored.length] at hended
        apply moved_of_end (hpointer.symm.trans hend) h.length hended.1 _ hended.2.2.1
          hended.2.2.2
        exact congrArg (fun n => n % 512) hended.2.1
  · rw [if_neg hend]
    exact moved_of_next hput h.ok h.phase h.length hpointer (Nat.lt_of_le_of_ne hle hend)

/-!
## Accesses
-/

def Access.takes : Access -> Option (Nat × HostIo)
  | .read8 .data io => some (1, io)
  | .read16 .data io => some (2, io)
  | _ => none

def Access.gives (c : Controller) : Access -> Option (Word × HostIo)
  | .write8 .data v io =>
      if (c.drive c.selected).busy = false ∧ (c.drive c.selected).present = true
        then some (v.setWidth 16, io) else none
  | .write16 .data v io =>
      if (c.drive c.selected).busy = false then some (v, io) else none
  | _ => none

def moves (falconTos : Bool) (c : Controller) (a : Access) : Bool :=
  let d := c.drive c.selected
  match a.takes, a.gives c with
  | some (len, io), _ => d.state == .dataIn && (d.dataIn falconTos len io).2
  | none, some (v, io) => d.state == .dataOut && (d.dataOut falconTos v io).2
  | none, none => false

def Access.dataPort : Access -> Bool
  | .read8 .data _ => true
  | .read16 .data _ => true
  | .write8 .data _ _ => true
  | .write16 .data _ _ => true
  | _ => false

def Access.devctrl : Access -> Option Byte
  | .write8 .altstDevctrl v _ => some v
  | .write16 .altstDevctrl v _ => some (v.setWidth 8)
  | _ => none

def Interrupts (c : Controller) (a : Access) : Prop :=
  a = .reset ∨ (issued c a).isSome = true ∨ a.devctrl.isSome = true

structure Kept (d d' : Drive) : Prop where
  same : SamePhase d d'
  dptr : d'.dptr = d.dptr

theorem Kept.refl (d : Drive) : Kept d d := ⟨⟨rfl, rfl, rfl, rfl, rfl⟩, rfl⟩

theorem Kept.ok {d d' : Drive} (h : Kept d d') (hok : PhaseOk d) : PhaseOk d' :=
  h.same.ok hok (h.dptr.trans_le hok.pointer)

theorem put_kept {i : Fin 2} {d : Drive} (h : Kept (c.drive i) d) (j : Fin 2) :
    Kept (c.drive j) ((c.put i d).drive j) := by
  by_cases hj : j = i
  · rw [hj, put_drive_self]
    exact h
  · rw [put_drive_of_ne hj]
    exact Kept.refl _

theorem ideSetError_ok {i : Fin 2} (hpresent : (c.drive i).present = true)
    (hdptr : (c.drive i).dptr ≤ 512) :
    PhaseOk ((ideSetError c i).drive i) ∧ ((ideSetError c i).drive i).inPhase = false ∧
      forall j, j ≠ i -> (ideSetError c i).drive j = c.drive j := by
  unfold ideSetError
  dsimp only
  rw [put_drive_self]
  constructor
  · exact PhaseOk.completed hdptr hpresent
  constructor
  · rfl
  · intro j hj
    exact put_drive_of_ne hj _

theorem ideReadSector_frame (d : Drive) (io : HostIo) :
    (ideReadSector d io).1.present = d.present ∧ (ideReadSector d io).1.dptr = 0 := by
  unfold ideReadSector
  split
  · exact ⟨rfl, rfl⟩
  · dsimp only
    split <;> exact ⟨rfl, rfl⟩

theorem dataIn_error {falconTos : Bool} {d : Drive} {len : Nat} {io : HostIo}
    (h : (d.dataIn falconTos len io).2 = false) :
    (d.dataIn falconTos len io).1.present = d.present ∧
      (d.dataIn falconTos len io).1.dptr ≤ 512 := by
  unfold Drive.dataIn at h ⊢
  by_cases hend : d.dptr = 512
  · have hframe := ideReadSector_frame d io
    rw [if_pos hend] at h ⊢
    cases hread : (ideReadSector d io).2 with
    | true =>
        dsimp only at h
        rw [hread, if_pos rfl] at h
        cases h
    | false =>
        dsimp only
        rw [hread, if_neg Bool.false_ne_true]
        exact ⟨hframe.1, hframe.2.trans_le (Nat.zero_le 512)⟩
  · rw [if_neg hend] at h
    cases h

theorem dataOut_error {falconTos : Bool} {d : Drive} {v : Word} {io : HostIo}
    (h : (d.dataOut falconTos v io).2 = false) :
    (d.dataOut falconTos v io).1.present = d.present ∧
      (d.dataOut falconTos v io).1.dptr ≤ 512 := by
  have hput := putDatum_same falconTos d v
  unfold Drive.dataOut at h ⊢
  dsimp only at h ⊢
  split at h
  · next hend =>
    rw [if_pos hend]
    cases io with
    | works => cases h
    | fails eio => exact ⟨hput.present, Nat.zero_le 512⟩
  · cases h

inductive Outcome (falconTos : Bool) (c : Controller) (a : Access) (c' : Controller) : Prop where
  | quiet (hissued : issued c a = none) (hmoves : moves falconTos c a = false)
      (hkept : forall i, Kept (c.drive i) (c'.drive i))
  | moved (hissued : issued c a = none) (hmoves : moves falconTos c a = true)
      (hport : a.dataPort = true) (hphase : (c.drive c.selected).inPhase = true)
      (hmoved : Moved (c.drive c.selected) (c'.drive c.selected))
      (hother : forall i, i ≠ c.selected -> c'.drive i = c.drive i)
  | failed (hissued : issued c a = none) (hmoves : moves falconTos c a = false)
      (hport : a.dataPort = true) (hok : PhaseOk (c'.drive c.selected))
      (hstopped : (c'.drive c.selected).inPhase = false)
      (hother : forall i, i ≠ c.selected -> c'.drive i = c.drive i)
  | broken (hbroken : Interrupts c a) (hmoves : moves falconTos c a = false)
      (hok : forall i, PhaseOk (c'.drive i))
      (hkept : forall i, (c'.drive i).inPhase = true -> issued c a = none ∨ i ≠ c.selected ->
        Kept (c.drive i) (c'.drive i))
      (hbegun : forall v, issued c a = some v -> (c'.drive c.selected).inPhase = true ->
        (c'.drive c.selected).dptr % 512 = 0 ∧ 1 ≤ (c'.drive c.selected).length ∧
          (c'.drive c.selected).length =
            (if decodeCommand v = .identify then 1 else requestCount (c.drive c.selected)))

structure DriveInv (d : Drive) : Prop where
  ok : PhaseOk d
  paced : Paced d
  length : d.inPhase = true -> 1 ≤ d.length

theorem DriveInv.inTransfer {d : Drive} (h : DriveInv d) (hphase : d.inPhase = true) :
    InTransfer d :=
  ⟨h.ok, h.paced, hphase, h.length hphase⟩

theorem ideDataIn_outcome (h : forall i, DriveInv (c.drive i))
    {a : Access} {len : Nat} {io : HostIo} (hissued : issued c a = none)
    (hport : a.dataPort = true) (htakes : a.takes = some (len, io)) :
    Outcome falconTos c a (ideDataIn falconTos c len io).1 := by
  have hmoves : moves falconTos c a =
      ((c.drive c.selected).state == .dataIn &&
        ((c.drive c.selected).dataIn falconTos len io).2) := by
    unfold moves
    rw [htakes]
  unfold ideDataIn
  dsimp only
  by_cases hstate : (c.drive c.selected).state = .dataIn
  · rw [if_pos hstate]
    have hphase : (c.drive c.selected).inPhase = true := by
      unfold Drive.inPhase
      rw [hstate]
      rfl
    have hbeq : ((c.drive c.selected).state == .dataIn) = true := beq_iff_eq.mpr hstate
    rw [hbeq, Bool.true_and] at hmoves
    have htransfer := (h c.selected).inTransfer hphase
    cases hok : ((c.drive c.selected).dataIn falconTos len io).2 with
    | true =>
        rw [hok] at hmoves
        rw [if_pos rfl]
        apply Outcome.moved hissued hmoves hport hphase
        · rw [put_drive_self]
          exact dataIn_moved htransfer hok
        · intro i hi
          exact put_drive_of_ne hi _
    | false =>
        rw [hok] at hmoves
        rw [if_neg Bool.false_ne_true]
        have herror := dataIn_error hok
        have hpresent := ((h c.selected).ok.phase hphase).2
        have hset := @ideSetError_ok
          (c.put c.selected ((c.drive c.selected).dataIn falconTos len io).1) c.selected
          (by rw [put_drive_self, herror.1]; exact hpresent)
          (by rw [put_drive_self]; exact herror.2)
        apply Outcome.failed hissued hmoves hport hset.1 hset.2.1
        intro i hi
        rw [hset.2.2 i hi, put_drive_of_ne hi]
  · rw [if_neg hstate]
    have hbeq : ((c.drive c.selected).state == .dataIn) = false := beq_eq_false_iff_ne.mpr hstate
    rw [hbeq, Bool.false_and] at hmoves
    exact Outcome.quiet hissued hmoves (fun i => Kept.refl _)

theorem ideDataOut_outcome
    (h : forall i, DriveInv (c.drive i)) {a : Access} {v : Word} {io : HostIo}
    (hissued : issued c a = none) (hport : a.dataPort = true) (htakes : a.takes = none)
    (hgives : a.gives c = some (v, io)) :
    Outcome falconTos c a (ideDataOut falconTos c v io) := by
  have hmoves : moves falconTos c a =
      ((c.drive c.selected).state == .dataOut &&
        ((c.drive c.selected).dataOut falconTos v io).2) := by
    unfold moves
    rw [htakes, hgives]
  unfold ideDataOut
  dsimp only
  by_cases hstate : (c.drive c.selected).state = .dataOut
  · rw [if_neg (not_not.mpr hstate)]
    have hphase : (c.drive c.selected).inPhase = true := by
      unfold Drive.inPhase
      rw [hstate]
      rfl
    have hbeq : ((c.drive c.selected).state == .dataOut) = true := beq_iff_eq.mpr hstate
    rw [hbeq, Bool.true_and] at hmoves
    have htransfer := (h c.selected).inTransfer hphase
    have hfilling := (h c.selected).paced.filling hstate
    cases hok : ((c.drive c.selected).dataOut falconTos v io).2 with
    | true =>
        rw [hok] at hmoves
        rw [if_pos rfl]
        apply Outcome.moved hissued hmoves hport hphase
        · rw [put_drive_self]
          exact dataOut_moved htransfer hfilling hok
        · intro i hi
          exact put_drive_of_ne hi _
    | false =>
        rw [hok] at hmoves
        rw [if_neg Bool.false_ne_true]
        have herror := dataOut_error hok
        have hpresent := ((h c.selected).ok.phase hphase).2
        have hset := @ideSetError_ok
          (c.put c.selected ((c.drive c.selected).dataOut falconTos v io).1) c.selected
          (by rw [put_drive_self, herror.1]; exact hpresent)
          (by rw [put_drive_self]; exact herror.2)
        apply Outcome.failed hissued hmoves hport hset.1 hset.2.1
        intro i hi
        rw [hset.2.2 i hi, put_drive_of_ne hi]
  · rw [if_pos hstate]
    have hbeq : ((c.drive c.selected).state == .dataOut) = false :=
      beq_eq_false_iff_ne.mpr hstate
    rw [hbeq, Bool.false_and] at hmoves
    apply Outcome.quiet hissued hmoves
    exact put_kept ⟨⟨rfl, rfl, rfl, rfl, rfl⟩, rfl⟩

theorem inPhase_absurd {d : Drive} {p : Prop} (hstate : d.state = .idle)
    (hphase : d.inPhase = true) : p := by
  unfold Drive.inPhase at hphase
  rw [hstate] at hphase
  cases hphase

theorem ideIssueCommand_begun (c : Controller) (v : Byte)
    (hpresent : (c.drive c.selected).present = true)
    (hphase : ((ideIssueCommand falconTos c v).drive c.selected).inPhase = true) :
    ((ideIssueCommand falconTos c v).drive c.selected).dptr % 512 = 0 ∧
      1 ≤ ((ideIssueCommand falconTos c v).drive c.selected).length ∧
      ((ideIssueCommand falconTos c v).drive c.selected).length =
        (if decodeCommand v = .identify then 1 else requestCount (c.drive c.selected)) := by
  have hcount := one_le_requestCount (c.drive c.selected)
  unfold ideIssueCommand at hphase ⊢
  dsimp only at hphase ⊢
  cases hcommand : decodeCommand v with
  | edd =>
      rw [hcommand] at hphase
      dsimp only at hphase
      rw [cmdEddComplete_drive, put_drive_self, if_pos (show (Drive.begun _ v).present = true
        from hpresent)] at hphase
      exact inPhase_absurd rfl hphase
  | identify =>
      dsimp only
      rw [put_drive_self, if_pos rfl]
      exact ⟨rfl, Nat.le_refl 1, rfl⟩
  | read =>
      rw [hcommand] at hphase
      dsimp only at hphase ⊢
      rw [put_drive_self] at hphase ⊢
      unfold cmdReadsectorsComplete at hphase ⊢
      split at hphase
      · exact inPhase_absurd rfl hphase
      · next hgood =>
        rw [if_neg hgood, if_neg (by decide)]
        exact ⟨Nat.mod_self 512, hcount, rfl⟩
  | write =>
      rw [hcommand] at hphase
      dsimp only at hphase ⊢
      rw [put_drive_self] at hphase ⊢
      unfold cmdWritesectorsComplete at hphase ⊢
      split at hphase
      · exact inPhase_absurd rfl hphase
      · next hgood =>
        rw [if_neg hgood, if_neg (by decide)]
        exact ⟨rfl, hcount, rfl⟩
  | verify =>
      rw [hcommand] at hphase
      dsimp only at hphase
      rw [put_drive_self] at hphase
      exact inPhase_absurd (cmdVerify_stopped c _).state hphase
  | seek =>
      rw [hcommand] at hphase
      dsimp only at hphase
      rw [put_drive_self] at hphase
      exact inPhase_absurd (cmdSeek_stopped c _).state hphase
  | initparam =>
      rw [hcommand] at hphase
      dsimp only at hphase
      rw [put_drive_self] at hphase
      exact inPhase_absurd rfl hphase
  | setfeatures =>
      rw [hcommand] at hphase
      dsimp only at hphase
      rw [put_drive_self] at hphase
      exact inPhase_absurd rfl hphase
  | recalibrate =>
      rw [hcommand] at hphase
      dsimp only at hphase
      rw [put_drive_self] at hphase
      exact inPhase_absurd rfl hphase
  | unknown =>
      rw [hcommand] at hphase
      dsimp only at hphase
      rw [put_drive_self] at hphase
      exact inPhase_absurd rfl hphase

theorem ideIssueCommand_other (c : Controller) (v : Byte) {i : Fin 2} (hi : i ≠ c.selected)
    (hphase : ((ideIssueCommand falconTos c v).drive i).inPhase = true) :
    Kept (c.drive i) ((ideIssueCommand falconTos c v).drive i) := by
  have hput (d : Drive) : Kept (c.drive i) ((c.put c.selected d).drive i) := by
    rw [put_drive_of_ne hi]
    exact Kept.refl _
  unfold ideIssueCommand at hphase ⊢
  dsimp only at hphase ⊢
  cases hcommand : decodeCommand v with
  | edd =>
      rw [hcommand] at hphase
      dsimp only at hphase ⊢
      rw [cmdEddComplete_drive, put_drive_of_ne hi] at hphase ⊢
      split at hphase
      · exact inPhase_absurd rfl hphase
      · next habsent =>
        rw [if_neg habsent]
        exact Kept.refl _
  | _ => exact hput _

theorem ideIssueCommand_outcome (h : forall i, DriveInv (c.drive i)) {a : Access} {v : Byte}
    (hissued : issued c a = some v) (hpresent : (c.drive c.selected).present = true)
    (hmoves : moves falconTos c a = false) :
    Outcome falconTos c a (ideIssueCommand falconTos c v) := by
  apply Outcome.broken
  · exact Or.inr (Or.inl (by rw [hissued]; rfl))
  · exact hmoves
  · exact ideIssueCommand_phaseOk falconTos (fun i => (h i).ok) hpresent v
  · intro i hphase hnot
    rcases hnot with hnone | hi
    · rw [hissued] at hnone
      cases hnone
    · exact ideIssueCommand_other falconTos c v hi hphase
  · intro w hw hphase
    rw [hissued] at hw
    injection hw with hw
    rw [← hw]
    exact ideIssueCommand_begun falconTos c v hpresent hphase

/-!
## Resets
-/

def Drive.afterReset (d : Drive) : Drive :=
  let e := d.diagnosed
  { e with taskfile := { e.taskfile with status := ST_DRDY ||| ST_DSC }, eightbit := false }

theorem resetDrive_drive (c : Controller) (j i : Fin 2) :
    (resetDrive c j).drive i =
      if i = j ∧ (c.drive j).present = true then (c.drive j).afterReset else c.drive i := by
  unfold resetDrive
  by_cases hpresent : (c.drive j).present = true
  · rw [if_pos hpresent]
    dsimp only
    by_cases hi : i = j
    · rw [if_pos ⟨hi, hpresent⟩, hi, put_drive_self, eddSetup_drive, if_pos rfl]
      rfl
    · rw [if_neg (fun h => hi h.1), put_drive_of_ne hi, eddSetup_drive, if_neg hi]
  · rw [if_neg hpresent, if_neg (fun h => hpresent h.2)]

theorem ideReset_drive (c : Controller) (i : Fin 2) :
    (ideReset c).drive i =
      if (c.drive i).present = true then (c.drive i).afterReset else c.drive i := by
  change (resetDrive (resetDrive c 0) 1).drive i = _
  rw [resetDrive_drive, resetDrive_drive, resetDrive_drive]
  rcases Fin.exists_fin_two.mp ⟨i, rfl⟩ with hi | hi
  · simp [hi]
  · simp [hi]

theorem busyIfPresent_drive (c : Controller) (j i : Fin 2) :
    (busyIfPresent c j).drive i =
      if i = j ∧ (c.drive j).present = true then (c.drive j).setStatus 0 ST_BSY
      else c.drive i := by
  unfold busyIfPresent
  by_cases hpresent : (c.drive j).present = true
  · rw [if_pos hpresent]
    by_cases hi : i = j
    · rw [if_pos ⟨hi, hpresent⟩, hi, put_drive_self]
    · rw [if_neg (fun h => hi h.1), put_drive_of_ne hi]
  · rw [if_neg hpresent, if_neg (fun h => hpresent h.2)]

theorem busyBoth_drive (c : Controller) (i : Fin 2) :
    (busyIfPresent (busyIfPresent c 0) 1).drive i =
      if (c.drive i).present = true then (c.drive i).setStatus 0 ST_BSY else c.drive i := by
  rw [busyIfPresent_drive, busyIfPresent_drive, busyIfPresent_drive]
  rcases Fin.exists_fin_two.mp ⟨i, rfl⟩ with hi | hi
  · simp [hi]
  · simp [hi]

theorem PhaseOk.afterReset {d : Drive} (hdptr : d.dptr ≤ 512) (hpresent : d.present = true) :
    PhaseOk d.afterReset := by
  have hdrq : ((ST_DRDY ||| ST_DSC) &&& ST_DRQ != 0) = false := by decide
  exact PhaseOk.of_idle rfl hdrq hdptr hpresent

/-- A slot without a drive is idle. -/
theorem PhaseOk.idle_of_absent {d : Drive} (h : PhaseOk d) (habsent : ¬ d.present = true) :
    d.inPhase = false := by
  cases hphase : d.inPhase with
  | false => rfl
  | true => exact absurd (h.phase hphase).2 habsent

def AllIdle (c : Controller) : Prop :=
  forall i, PhaseOk (c.drive i) ∧ (c.drive i).inPhase = false

theorem ideResetBegin_idle (h : forall i, PhaseOk (c.drive i)) :
    AllIdle (ideResetBegin c) := by
  intro i
  change PhaseOk ((ideReset (busyIfPresent (busyIfPresent c 0) 1)).drive i) ∧
    ((ideReset (busyIfPresent (busyIfPresent c 0) 1)).drive i).inPhase = false
  rw [ideReset_drive, busyBoth_drive]
  by_cases hpresent : (c.drive i).present = true
  · rw [if_pos hpresent]
    have hbusy : ((c.drive i).setStatus 0 ST_BSY).present = true := hpresent
    rw [if_pos hbusy]
    exact ⟨PhaseOk.afterReset (h i).pointer hbusy, rfl⟩
  · rw [if_neg hpresent, if_neg hpresent]
    exact ⟨h i, (h i).idle_of_absent hpresent⟩

theorem ideSrstBegin_idle (h : forall i, PhaseOk (c.drive i)) :
    AllIdle (ideSrstBegin c) := by
  intro i
  change PhaseOk ((busyIfPresent (busyIfPresent (ideReset c) 0) 1).drive i) ∧
    ((busyIfPresent (busyIfPresent (ideReset c) 0) 1).drive i).inPhase = false
  rw [busyBoth_drive, ideReset_drive]
  by_cases hpresent : (c.drive i).present = true
  · rw [if_pos hpresent]
    have hreset : (c.drive i).afterReset.present = true := hpresent
    rw [if_pos hreset]
    have hdrq : ((((ST_DRDY ||| ST_DSC) &&& ~~~0) ||| ST_BSY) &&& ST_DRQ != 0) = false := by
      decide
    exact ⟨PhaseOk.of_idle rfl hdrq (h i).pointer hpresent, rfl⟩
  · rw [if_neg hpresent, if_neg hpresent]
    exact ⟨h i, (h i).idle_of_absent hpresent⟩

theorem ideSrstEnd_drive (c : Controller) (i : Fin 2) :
    (ideSrstEnd c).drive i = ready (c.drive i) := by
  unfold ideSrstEnd
  dsimp only
  rcases Fin.exists_fin_two.mp ⟨i, rfl⟩ with rfl | rfl
  · rw [put_drive_of_ne (by decide), put_drive_self]
  · rw [put_drive_self, put_drive_of_ne (by decide)]

theorem ideSrstEnd_idle (h : forall i, PhaseOk (c.drive i))
    (hattached : forall i, (c.drive i).present = true) : AllIdle (ideSrstEnd c) := by
  intro i
  rw [ideSrstEnd_drive]
  exact ⟨PhaseOk.ready (h i).pointer (hattached i), rfl⟩

def EndsReset (c : Controller) (v : Byte) : Prop :=
  (v ^^^ (c.drive c.selected).taskfile.devctrl) &&& DCL_SRST ≠ 0 ∧ v &&& DCL_SRST = 0

theorem Outcome.of_allIdle {falconTos : Bool} {c c' : Controller} {a : Access}
    (hbroken : Interrupts c a) (hissued : issued c a = none) (hmoves : moves falconTos c a = false)
    (hidle : AllIdle c') : Outcome falconTos c a c' := by
  have habsurd {i : Fin 2} {p : Prop} (hphase : (c'.drive i).inPhase = true) : p := by
    rw [(hidle i).2] at hphase
    cases hphase
  apply Outcome.broken hbroken hmoves
  · intro i
    exact (hidle i).1
  · intro i hphase
    exact habsurd hphase
  · intro v hv
    rw [hissued] at hv
    cases hv

theorem writeDevctrl_outcome
    (h : forall i, PhaseOk (c.drive i)) {a : Access} {v : Byte} (hdevctrl : a.devctrl = some v)
    (hissued : issued c a = none) (hmoves : moves falconTos c a = false)
    (hattached : EndsReset c v -> forall i, (c.drive i).present = true) :
    Outcome falconTos c a (writeDevctrl c v) := by
  have hregisters (c' : Controller) (i : Fin 2) :
      Kept (c'.drive i) { c'.drive i with
        taskfile := { (c'.drive i).taskfile with devctrl := v } } :=
    ⟨⟨rfl, rfl, rfl, rfl, rfl⟩, rfl⟩
  have hidle {c' : Controller} (hc' : AllIdle c') :
      Outcome falconTos c a { c' with drive := fun i => { c'.drive i with
        taskfile := { (c'.drive i).taskfile with devctrl := v } } } := by
    have hbroken : Interrupts c a := Or.inr (Or.inr (by rw [hdevctrl]; rfl))
    apply Outcome.of_allIdle hbroken hissued hmoves
    intro i
    exact ⟨(hregisters c' i).ok (hc' i).1, (hc' i).2⟩
  unfold writeDevctrl
  dsimp only
  by_cases hchanged : (v ^^^ (c.drive c.selected).taskfile.devctrl) &&& DCL_SRST ≠ 0
  · rw [if_pos hchanged]
    by_cases hset : v &&& DCL_SRST ≠ 0
    · rw [if_pos hset]
      exact hidle (ideSrstBegin_idle h)
    · rw [if_neg hset]
      exact hidle (ideSrstEnd_idle h (hattached ⟨hchanged, not_not.mp hset⟩))
  · rw [if_neg hchanged]
    apply Outcome.quiet hissued hmoves
    exact hregisters c

theorem moves_of_not_dataPort (c : Controller) {a : Access}
    (h : a.dataPort = false) : moves falconTos c a = false := by
  have htakes : a.takes = none := by
    cases a with
    | read8 r io => cases r <;> first | rfl | cases h
    | read16 r io => cases r <;> first | rfl | cases h
    | write8 r v io => rfl
    | write16 r v io => rfl
    | reset => rfl
  have hgives : a.gives c = none := by
    cases a with
    | read8 r io => rfl
    | read16 r io => rfl
    | write8 r v io => cases r <;> first | rfl | cases h
    | write16 r v io => cases r <;> first | rfl | cases h
    | reset => rfl
  unfold moves
  rw [htakes, hgives]

theorem issued_of_dataPort (c : Controller) {a : Access} (h : a.dataPort = true) :
    issued c a = none := by
  unfold issued
  dsimp only
  split
  · rfl
  · cases a with
    | read8 r io => rfl
    | read16 r io => rfl
    | write8 r v io => cases r <;> first | rfl | cases h
    | write16 r v io => cases r <;> first | rfl | cases h
    | reset => rfl

def ResetsAttached (c : Controller) (a : Access) : Prop :=
  forall v, a.devctrl = some v -> EndsReset c v -> forall i, (c.drive i).present = true

theorem ideRead8_outcome (h : forall i, DriveInv (c.drive i))
    {a : Access} (r : Reg) (io : HostIo) (ha : a = .read8 r io ∨ (a = .read16 r io ∧ r ≠ .data)) :
    Outcome falconTos c a (ideRead8 falconTos c r io).1 := by
  have hissued : issued c a = none := by
    unfold issued
    rcases ha with rfl | ⟨rfl, _⟩ <;> simp
  have hquiet (hr : r ≠ .data) : moves falconTos c a = false := by
    apply moves_of_not_dataPort
    rcases ha with rfl | ⟨rfl, _⟩ <;> cases r <;> first | rfl | exact absurd rfl hr
  cases r with
  | data =>
      rcases ha with rfl | ⟨_, hne⟩
      · exact ideDataIn_outcome falconTos h hissued rfl rfl
      · exact absurd rfl hne
  | statusCommand =>
      apply Outcome.quiet hissued (hquiet (by decide))
      exact put_kept ⟨⟨rfl, rfl, rfl, rfl, rfl⟩, rfl⟩
  | _ => exact Outcome.quiet hissued (hquiet (by decide)) (fun i => Kept.refl _)

theorem ideWrite8_outcome
    (h : forall i, DriveInv (c.drive i)) {a : Access} (r : Reg) (v : Byte) (io : HostIo)
    (ha : a = .write8 r v io ∨ ((exists w, a = .write16 r w io ∧ w.setWidth 8 = v) ∧ r ≠ .data))
    (hattached : ResetsAttached c a) :
    Outcome falconTos c a (ideWrite8 falconTos c r v io) := by
  have hissued : issued c a = if (c.drive c.selected).listens r then some v else none := by
    rcases ha with rfl | ⟨⟨w, rfl, hw⟩, _⟩
    · exact (issued_write c r v (v.setWidth 16) io (by simp)).1
    · exact (issued_write c r v w io hw).2
  have hquiet (hr : r ≠ .data) : moves falconTos c a = false := by
    apply moves_of_not_dataPort
    rcases ha with rfl | ⟨⟨w, rfl, _⟩, _⟩ <;> cases r <;> first | rfl | exact absurd rfl hr
  have hquiet_of (hissued : issued c a = none) (hr : r ≠ .data) (c' : Controller)
      (hkept : forall i, Kept (c.drive i) (c'.drive i)) : Outcome falconTos c a c' :=
    Outcome.quiet hissued (hquiet hr) hkept
  unfold ideWrite8
  dsimp only
  by_cases hignored : r ≠ .altstDevctrl ∧ ((c.drive c.selected).busy = true ∨
      ((c.drive c.selected).present = false ∧ r ≠ .lbaTop))
  · rw [if_pos hignored]
    have hdeaf : (c.drive c.selected).listens r = false := by
      unfold Drive.listens
      rcases hignored.2 with hbusy | habsent
      · rw [hbusy]
        simp
      · rw [habsent.1]
        simp
    rw [hdeaf, if_neg Bool.false_ne_true] at hissued
    by_cases hdata : r = .data
    · have hmoves : moves falconTos c a = false := by
        rcases ha with rfl | ⟨_, hne⟩
        · have hgives : (Access.write8 r v io).gives c = none := by
            rw [hdata]
            unfold Access.gives
            apply if_neg
            intro hheard
            rcases hignored.2 with hbusy | habsent
            · rw [hheard.1] at hbusy
              cases hbusy
            · rw [hheard.2] at habsent
              cases habsent.1
          unfold moves
          rw [hgives]
          rfl
        · exact absurd hdata hne
      exact Outcome.quiet hissued hmoves (fun i => Kept.refl _)
    · exact hquiet_of hissued hdata c (fun i => Kept.refl _)
  · rw [if_neg hignored]
    have hheard (hr : r ≠ .altstDevctrl) (htop : r ≠ .lbaTop) :
        (c.drive c.selected).busy = false ∧ (c.drive c.selected).present = true := by
      constructor
      · cases hbusy : (c.drive c.selected).busy with
        | false => rfl
        | true => exact absurd ⟨hr, Or.inl hbusy⟩ hignored
      · cases hpresent : (c.drive c.selected).present with
        | true => rfl
        | false => exact absurd ⟨hr, Or.inr ⟨hpresent, htop⟩⟩ hignored
    cases r with
    | data =>
        rcases ha with rfl | ⟨_, hne⟩
        · have hgives : (Access.write8 .data v io).gives c = some (v.setWidth 16, io) :=
            if_pos (hheard (by decide) (by decide))
          exact ideDataOut_outcome falconTos h hissued rfl rfl hgives
        · exact absurd rfl hne
    | statusCommand =>
        have hlistens : (c.drive c.selected).listens .statusCommand = true := by
          unfold Drive.listens
          have hready := hheard (by decide) (by decide)
          rw [hready.1, hready.2]
          rfl
        rw [hlistens, if_pos rfl] at hissued
        exact ideIssueCommand_outcome falconTos h hissued (hheard (by decide) (by decide)).2
          (hquiet (by decide))
    | altstDevctrl =>
        have hdevctrl : a.devctrl = some v := by
          rcases ha with rfl | ⟨⟨w, rfl, hw⟩, _⟩
          · rfl
          · exact congrArg some hw
        exact writeDevctrl_outcome falconTos (fun i => (h i).ok) hdevctrl hissued
          (hquiet (by decide)) (hattached v hdevctrl)
    | errorFeature =>
        exact hquiet_of hissued (by decide) _ (put_kept ⟨⟨rfl, rfl, rfl, rfl, rfl⟩, rfl⟩)
    | secCount =>
        exact hquiet_of hissued (by decide) _ (put_kept ⟨⟨rfl, rfl, rfl, rfl, rfl⟩, rfl⟩)
    | lbaLow => exact hquiet_of hissued (by decide) _ (fun i => Kept.refl _)
    | lbaMid => exact hquiet_of hissued (by decide) _ (fun i => Kept.refl _)
    | lbaHi => exact hquiet_of hissued (by decide) _ (fun i => Kept.refl _)
    | lbaTop => exact hquiet_of hissued (by decide) _ (fun i => Kept.refl _)
    | other => exact hquiet_of hissued (by decide) _ (fun i => Kept.refl _)

theorem access_outcome (h : forall i, DriveInv (c.drive i))
    {a : Access} (hattached : ResetsAttached c a) :
    Outcome falconTos c a (ideStep falconTos c a) := by
  cases a with
  | read8 r io => exact ideRead8_outcome falconTos h r io (Or.inl rfl)
  | read16 r io =>
      change Outcome falconTos c _ (ideRead16 falconTos c r io).1
      unfold ideRead16
      by_cases hdata : r = .data
      · rw [if_pos hdata, hdata]
        exact ideDataIn_outcome falconTos h (issued_of_dataPort c rfl) rfl rfl
      · rw [if_neg hdata]
        exact ideRead8_outcome falconTos h r io (Or.inr ⟨rfl, hdata⟩)
  | write8 r v io => exact ideWrite8_outcome falconTos h r v io (Or.inl rfl) hattached
  | write16 r v io =>
      change Outcome falconTos c _ (ideWrite16 falconTos c r v io)
      unfold ideWrite16
      by_cases hbusy : r ≠ .altstDevctrl ∧ (c.drive c.selected).busy = true
      · rw [if_pos hbusy]
        have hissued : issued c (.write16 r v io) = none := by
          unfold issued
          dsimp only
          rw [if_pos (Or.inl hbusy.2)]
        apply Outcome.quiet hissued _ (fun i => Kept.refl _)
        by_cases hdata : r = .data
        · have hgives : (Access.write16 r v io).gives c = none := by
            rw [hdata]
            unfold Access.gives
            apply if_neg
            rw [hbusy.2]
            exact Bool.true_eq_false_eq_False
          unfold moves
          rw [hgives]
          rfl
        · apply moves_of_not_dataPort
          cases r <;> first | rfl | exact absurd rfl hdata
      · rw [if_neg hbusy]
        by_cases hdata : r = .data
        · rw [if_pos hdata]
          rw [hdata] at hbusy ⊢
          have hheard : (c.drive c.selected).busy = false := by
            cases hb : (c.drive c.selected).busy with
            | false => rfl
            | true => exact absurd ⟨by decide, hb⟩ hbusy
          exact ideDataOut_outcome falconTos h (issued_of_dataPort c rfl) rfl rfl
            (if_pos hheard)
        · rw [if_neg hdata]
          exact ideWrite8_outcome falconTos h r (v.setWidth 8) io
            (Or.inr ⟨⟨v, rfl, rfl⟩, hdata⟩) hattached
  | reset =>
      apply Outcome.of_allIdle (Or.inl rfl)
      · unfold issued
        simp
      · rfl
      · exact ideResetBegin_idle (fun i => (h i).ok)

/-- A data write that the selected drive hears outside a data phase finds its value
in the data register. -/
def LatchKept (c : Controller) (a : Access) : Prop :=
  forall v io, a.gives c = some (v, io) -> (c.drive c.selected).inPhase = false ->
    (c.drive c.selected).taskfile.data = v

theorem put_self_drive (c : Controller) (i : Fin 2) : c.put i (c.drive i) = c := by
  unfold Controller.put
  rw [Function.update_eq_self]

theorem ideDataOut_unchanged (v : Word) (io : HostIo)
    (hphase : (c.drive c.selected).inPhase = false) :
    ideDataOut falconTos c v io = c <-> (c.drive c.selected).taskfile.data = v := by
  have hstate : (c.drive c.selected).state ≠ .dataOut := by
    intro hout
    unfold Drive.inPhase at hphase
    rw [hout] at hphase
    cases hphase
  unfold ideDataOut
  dsimp only
  rw [if_pos hstate]
  constructor
  · intro heq
    have hdrive := congrArg (fun c' : Controller => (c'.drive c.selected).taskfile.data) heq
    simp only [put_drive_self] at hdrive
    exact hdrive.symm
  · intro hdata
    rw [← hdata]
    exact put_self_drive c c.selected

theorem dataPort_unchanged {a : Access}
    (hport : a.dataPort = true) (hphase : (c.drive c.selected).inPhase = false) :
    ideStep falconTos c a = c <-> LatchKept c a := by
  have hidle : (c.drive c.selected).state ≠ .dataIn := by
    intro hin
    unfold Drive.inPhase at hphase
    rw [hin] at hphase
    cases hphase
  have hread (len : Nat) (io : HostIo) : (ideDataIn falconTos c len io).1 = c := by
    unfold ideDataIn
    dsimp only
    rw [if_neg hidle]
  have hunheard (hgives : a.gives c = none) (hsame : ideStep falconTos c a = c) :
      ideStep falconTos c a = c <-> LatchKept c a := by
    constructor
    · intro _ v io hv
      rw [hgives] at hv
      cases hv
    · intro _
      exact hsame
  have hheard {v : Word} {io : HostIo} (hgives : a.gives c = some (v, io))
      (hstep : ideStep falconTos c a = ideDataOut falconTos c v io) :
      ideStep falconTos c a = c <-> LatchKept c a := by
    rw [hstep, ideDataOut_unchanged falconTos v io hphase]
    constructor
    · intro hdata w io' hw _
      rw [hgives] at hw
      injection hw with hw
      injection hw with hw _
      rw [← hw]
      exact hdata
    · intro hkept
      exact hkept v io hgives hphase
  cases a with
  | read8 r io =>
      cases r <;> first | exact hunheard rfl (hread 1 io) | cases hport
  | read16 r io =>
      cases r <;> first | exact hunheard rfl (hread 2 io) | cases hport
  | write8 r v io =>
      cases r with
      | data =>
          by_cases hready : (c.drive c.selected).busy = false ∧
              (c.drive c.selected).present = true
          · apply hheard (if_pos hready)
            change ideWrite8 falconTos c .data v io = _
            unfold ideWrite8
            dsimp only
            apply if_neg
            intro hignored
            rw [hready.1, hready.2] at hignored
            rcases hignored.2 with hbusy | habsent
            · cases hbusy
            · cases habsent.1
          · apply hunheard (if_neg hready)
            change ideWrite8 falconTos c .data v io = c
            unfold ideWrite8
            dsimp only
            apply if_pos
            constructor
            · decide
            · cases hbusy : (c.drive c.selected).busy with
              | true => exact Or.inl rfl
              | false =>
                  cases hpresent : (c.drive c.selected).present with
                  | true => exact absurd ⟨hbusy, hpresent⟩ hready
                  | false => exact Or.inr ⟨rfl, by decide⟩
      | _ => cases hport
  | write16 r v io =>
      cases r with
      | data =>
          by_cases hready : (c.drive c.selected).busy = false
          · apply hheard (if_pos hready)
            change ideWrite16 falconTos c .data v io = _
            unfold ideWrite16
            rw [hready]
            rfl
          · apply hunheard (if_neg hready)
            change ideWrite16 falconTos c .data v io = c
            unfold ideWrite16
            apply if_pos
            exact ⟨by decide, Bool.eq_true_of_not_eq_false hready⟩
      | _ => cases hport
  | reset => cases hport

/-!
## Runs
-/

/-- The controller beside the bytes each drive has moved in its transfer and the
sectors it was asked for. -/
structure PhaseWatch where
  ctl : Controller
  moved : Fin 2 -> Nat
  asked : Fin 2 -> Nat

def phaseWatched (c : Controller) : PhaseWatch := ⟨c, fun _ => 0, fun _ => 0⟩

def sectorsAsked (c : Controller) (v : Byte) : Nat :=
  if decodeCommand v = .identify then 1 else requestCount (c.drive c.selected)

def phaseStep (falconTos : Bool) (x : PhaseWatch) (a : Access) : PhaseWatch :=
  let i := x.ctl.selected
  { ctl := ideStep falconTos x.ctl a
    moved :=
      match issued x.ctl a with
      | some _ => Function.update x.moved i 0
      | none =>
          if moves falconTos x.ctl a
            then Function.update x.moved i (x.moved i + (x.ctl.drive i).width) else x.moved
    asked :=
      match issued x.ctl a with
      | some v => Function.update x.asked i (sectorsAsked x.ctl v)
      | none => x.asked }

structure PhaseRules (falconTos : Bool) (x : PhaseWatch) (a : Access) : Prop where
  drq : forall i, ((ideStep falconTos x.ctl a).drive i).drq =
    ((ideStep falconTos x.ctl a).drive i).inPhase
  pointer : forall i, ((ideStep falconTos x.ctl a).drive i).dptr ≤ 512
  advance : moves falconTos x.ctl a = true ->
    ((ideStep falconTos x.ctl a).drive x.ctl.selected).dptr % 512 =
      ((x.ctl.drive x.ctl.selected).dptr + (x.ctl.drive x.ctl.selected).width) % 512
  exact : moves falconTos x.ctl a = true ->
    (((ideStep falconTos x.ctl a).drive x.ctl.selected).drq = false <->
      x.moved x.ctl.selected + (x.ctl.drive x.ctl.selected).width =
        512 * x.asked x.ctl.selected)
  dropped : forall i, (x.ctl.drive i).drq = true ->
    ((ideStep falconTos x.ctl a).drive i).drq = false ->
    (i = x.ctl.selected ∧ a.dataPort = true) ∨ Interrupts x.ctl a
  outside : a.dataPort = true -> (x.ctl.drive x.ctl.selected).inPhase = false ->
    ideStep falconTos x.ctl a = x.ctl
  absent : forall i, ((ideStep falconTos x.ctl a).drive i).present = false ->
    ((ideStep falconTos x.ctl a).drive i).drdy = false ∧
      ((ideStep falconTos x.ctl a).drive i).drq = false

/-- No software reset ends while a slot has no drive, and no data write outside a
data phase brings a new value. -/
structure PhaseCalm (x : PhaseWatch) (a : Access) : Prop where
  resets : ResetsAttached x.ctl a
  latch : a.dataPort = true -> LatchKept x.ctl a

structure PhaseInv (x : PhaseWatch) : Prop where
  drives : forall i, DriveInv (x.ctl.drive i)
  count : forall i, (x.ctl.drive i).inPhase = true ->
    x.moved i + 512 * (x.ctl.drive i).length = 512 * x.asked i + (x.ctl.drive i).dptr % 512

theorem Outcome.ok {falconTos : Bool} {c c' : Controller} {a : Access}
    (h : Outcome falconTos c a c') (hc : forall i, DriveInv (c.drive i)) (i : Fin 2) :
    PhaseOk (c'.drive i) := by
  cases h with
  | quiet _ _ hkept => exact (hkept i).ok (hc i).ok
  | moved _ _ _ _ hmoved hother =>
      by_cases hi : i = c.selected
      · rw [hi]
        exact hmoved.ok
      · rw [hother i hi]
        exact (hc i).ok
  | failed _ _ _ hok _ hother =>
      by_cases hi : i = c.selected
      · rw [hi]
        exact hok
      · rw [hother i hi]
        exact (hc i).ok
  | broken _ _ hok _ _ => exact hok i

theorem PhaseInv.kept {x : PhaseWatch} (h : PhaseInv x) {i : Fin 2} {d : Drive}
    (hkept : Kept (x.ctl.drive i) d) (hphase : d.inPhase = true) :
    1 ≤ d.length ∧ x.moved i + 512 * d.length = 512 * x.asked i + d.dptr % 512 := by
  have hbefore : (x.ctl.drive i).inPhase = true := hkept.same.inPhase.symm.trans hphase
  rw [hkept.same.length, hkept.dptr]
  exact ⟨(h.drives i).length hbefore, h.count i hbefore⟩

theorem Outcome.count {falconTos : Bool} {x : PhaseWatch} {a : Access} (h : PhaseInv x)
    (houtcome : Outcome falconTos x.ctl a (ideStep falconTos x.ctl a)) (i : Fin 2)
    (hphase : ((ideStep falconTos x.ctl a).drive i).inPhase = true) :
    1 ≤ ((ideStep falconTos x.ctl a).drive i).length ∧
      (phaseStep falconTos x a).moved i + 512 * ((ideStep falconTos x.ctl a).drive i).length =
        512 * (phaseStep falconTos x a).asked i +
          ((ideStep falconTos x.ctl a).drive i).dptr % 512 := by
  have hother (hi : i ≠ x.ctl.selected) : (phaseStep falconTos x a).moved i = x.moved i ∧
      (phaseStep falconTos x a).asked i = x.asked i := by
    unfold phaseStep
    dsimp only
    cases issued x.ctl a with
    | some v => exact ⟨Function.update_of_ne hi _ _, Function.update_of_ne hi _ _⟩
    | none =>
        dsimp only
        split
        · exact ⟨Function.update_of_ne hi _ _, rfl⟩
        · exact ⟨rfl, rfl⟩
  have hsame (hissued : issued x.ctl a = none) (hmoves : moves falconTos x.ctl a = false) :
      (phaseStep falconTos x a).moved i = x.moved i ∧
        (phaseStep falconTos x a).asked i = x.asked i := by
    unfold phaseStep
    dsimp only
    rw [hissued, hmoves]
    exact ⟨rfl, rfl⟩
  cases houtcome with
  | quiet hissued hmoves hkept =>
      rw [(hsame hissued hmoves).1, (hsame hissued hmoves).2]
      exact h.kept (hkept i) hphase
  | moved hissued hmoves _ hbefore hmoved hrest =>
      by_cases hi : i = x.ctl.selected
      · have hcounts : (phaseStep falconTos x a).moved i =
            x.moved i + (x.ctl.drive i).width ∧
            (phaseStep falconTos x a).asked i = x.asked i := by
          unfold phaseStep
          dsimp only
          rw [hissued, hmoves, hi]
          exact ⟨Function.update_self _ _ _, rfl⟩
        rw [hcounts.1, hcounts.2]
        rw [← hi] at hmoved hbefore
        have hcount := h.count i hbefore
        have hleft := hmoved.left
        constructor
        · exact hmoved.phase.mp hphase
        · lia
      · rw [(hother hi).1, (hother hi).2]
        have hkept : Kept (x.ctl.drive i) ((ideStep falconTos x.ctl a).drive i) := by
          rw [hrest i hi]
          exact Kept.refl _
        exact h.kept hkept hphase
  | failed hissued hmoves _ _ hstopped hrest =>
      rw [(hsame hissued hmoves).1, (hsame hissued hmoves).2]
      have hi : i ≠ x.ctl.selected := by
        intro hi
        rw [hi, hstopped] at hphase
        cases hphase
      have hkept : Kept (x.ctl.drive i) ((ideStep falconTos x.ctl a).drive i) := by
        rw [hrest i hi]
        exact Kept.refl _
      exact h.kept hkept hphase
  | broken _ hmoves _ hkept hbegun =>
      cases hissued : issued x.ctl a with
      | none =>
          rw [(hsame hissued hmoves).1, (hsame hissued hmoves).2]
          exact h.kept (hkept i hphase (Or.inl hissued)) hphase
      | some v =>
          by_cases hi : i = x.ctl.selected
          · rw [hi] at hphase ⊢
            rcases hbegun v hissued hphase with ⟨hdptr, hlength, hasked⟩
            have hcounts : (phaseStep falconTos x a).moved x.ctl.selected = 0 ∧
                (phaseStep falconTos x a).asked x.ctl.selected = sectorsAsked x.ctl v := by
              unfold phaseStep
              dsimp only
              rw [hissued]
              exact ⟨Function.update_self _ _ _, Function.update_self _ _ _⟩
            rw [hcounts.1, hcounts.2, hdptr, hasked]
            rw [hasked] at hlength
            exact ⟨hlength, Nat.zero_add _⟩
          · rw [(hother hi).1, (hother hi).2]
            exact h.kept (hkept i hphase (Or.inr hi)) hphase

theorem phaseStep_inv {falconTos : Bool} {x : PhaseWatch} (h : PhaseInv x) {a : Access}
    (hcalm : PhaseCalm x a) : PhaseInv (phaseStep falconTos x a) := by
  have houtcome := access_outcome falconTos h.drives hcalm.resets
  constructor
  · intro i
    constructor
    · exact houtcome.ok h.drives i
    · exact (h.drives i).paced.of_move (access_moves falconTos x.ctl a i)
    · intro hphase
      exact (houtcome.count h i hphase).1
  · intro i hphase
    exact (houtcome.count h i hphase).2

theorem phaseRules_of_calm {falconTos : Bool} {x : PhaseWatch} (h : PhaseInv x) {a : Access}
    (hcalm : PhaseCalm x a) : PhaseRules falconTos x a := by
  have houtcome := access_outcome falconTos h.drives hcalm.resets
  have hok := houtcome.ok h.drives
  have hmoved (hmoves : moves falconTos x.ctl a = true) :
      (x.ctl.drive x.ctl.selected).inPhase = true ∧
        Moved (x.ctl.drive x.ctl.selected)
          ((ideStep falconTos x.ctl a).drive x.ctl.selected) := by
    cases houtcome with
    | moved _ _ _ hphase hmoved _ => exact ⟨hphase, hmoved⟩
    | quiet _ hnot _ => exact absurd (hnot.symm.trans hmoves) Bool.false_ne_true
    | failed _ hnot _ _ _ _ => exact absurd (hnot.symm.trans hmoves) Bool.false_ne_true
    | broken _ hnot _ _ _ => exact absurd (hnot.symm.trans hmoves) Bool.false_ne_true
  constructor
  · intro i
    exact (hok i).drq
  · intro i
    exact (hok i).pointer
  · intro hmoves
    exact (hmoved hmoves).2.dptr
  · intro hmoves
    rcases hmoved hmoves with ⟨hphase, hdatum⟩
    have hfits := ((h.drives x.ctl.selected).inTransfer hphase).fits
    have hcount := h.count x.ctl.selected hphase
    have hlength := (h.drives x.ctl.selected).length hphase
    have hleft := hdatum.left
    have hnext := hdatum.dptr
    rw [(hok x.ctl.selected).drq]
    constructor
    · intro hdone
      have hnone : ¬ 1 ≤ ((ideStep falconTos x.ctl a).drive x.ctl.selected).length := by
        intro hmore
        exact absurd (hdone.symm.trans (hdatum.phase.mpr hmore)) Bool.false_ne_true
      lia
    · intro hall
      cases hmore : ((ideStep falconTos x.ctl a).drive x.ctl.selected).inPhase with
      | false => rfl
      | true =>
          have hsome := hdatum.phase.mp hmore
          lia
  · intro i hbefore hafter
    have hstands {d : Drive} (hsame : d.drq = (x.ctl.drive i).drq) (hd : d.drq = false) : False :=
      absurd (hd.symm.trans (hsame.trans hbefore)) Bool.false_ne_true
    have hkept (hi : (ideStep falconTos x.ctl a).drive i = x.ctl.drive i) : False :=
      hstands (congrArg Drive.drq hi) hafter
    cases houtcome with
    | quiet _ _ hall =>
        have hdrq : ((ideStep falconTos x.ctl a).drive i).drq = (x.ctl.drive i).drq := by
          unfold Drive.drq
          rw [(hall i).same.status]
        exact (hstands hdrq hafter).elim
    | moved _ _ hport _ _ hother =>
        by_cases hi : i = x.ctl.selected
        · exact Or.inl ⟨hi, hport⟩
        · exact (hkept (hother i hi)).elim
    | failed _ _ hport _ _ hother =>
        by_cases hi : i = x.ctl.selected
        · exact Or.inl ⟨hi, hport⟩
        · exact (hkept (hother i hi)).elim
    | broken hbroken _ _ _ _ => exact Or.inr hbroken
  · intro hport hphase
    exact (dataPort_unchanged falconTos hport hphase).mpr (hcalm.latch hport)
  · intro i habsent
    exact ⟨((hok i).absent habsent).2, ((hok i).absent habsent).1⟩

theorem ideStep_devctrl (c : Controller) {a : Access} {v : Byte}
    (h : a.devctrl = some v) : ideStep falconTos c a = writeDevctrl c v := by
  have hwrite (io : HostIo) :
      ideWrite8 falconTos c .altstDevctrl v io = writeDevctrl c v := by
    unfold ideWrite8
    dsimp only
    exact if_neg (fun hignored => hignored.1 rfl)
  cases a with
  | write8 r w io =>
      cases r with
      | altstDevctrl =>
          cases h
          exact hwrite io
      | _ => cases h
  | write16 r w io =>
      cases r with
      | altstDevctrl =>
          cases h
          change ideWrite16 falconTos c .altstDevctrl w io = _
          unfold ideWrite16
          rw [if_neg (fun hbusy => hbusy.1 rfl), if_neg (by decide)]
          exact hwrite io
      | _ => cases h
  | read8 r io => cases h
  | read16 r io => cases h
  | reset => cases h

theorem calm_of_phaseRules {falconTos : Bool} {x : PhaseWatch} {a : Access}
    (h : PhaseRules falconTos x a) : PhaseCalm x a := by
  constructor
  · intro v hv hends i
    have hready : ((ideStep falconTos x.ctl a).drive i).present = (x.ctl.drive i).present ∧
        ((ideStep falconTos x.ctl a).drive i).drdy = true := by
      rw [ideStep_devctrl falconTos x.ctl hv]
      unfold writeDevctrl
      dsimp only
      rw [if_pos hends.1, if_neg (not_not.mpr hends.2), ideSrstEnd_drive]
      constructor
      · rfl
      · have hstatus (s : Byte) :
            (((s &&& ~~~(ST_BSY ||| ST_DRQ)) ||| (ST_DRDY ||| ST_DSC)) &&& ST_DRDY != 0) = true := by
          revert s
          decide
        exact hstatus _
    cases hpresent : (x.ctl.drive i).present with
    | true => rfl
    | false =>
        have hdeaf := (h.absent i (hready.1.trans hpresent)).1
        exact absurd (hdeaf.symm.trans hready.2) Bool.false_ne_true
  · intro hport v io hgives hphase
    exact (dataPort_unchanged falconTos hport hphase).mp (h.outside hport hphase) v io hgives hphase

structure Blank (d : Drive) : Prop where
  status : d.taskfile.status = 0
  state : d.state = .idle
  dptr : d.dptr = 0

theorem Blank.ok {d : Drive} (h : Blank d) : PhaseOk d := by
  have hflags : d.drq = false ∧ d.drdy = false ∧ d.inPhase = false := by
    unfold Drive.drq Drive.drdy Drive.inPhase
    rw [h.status, h.state]
    decide
  constructor
  · rw [hflags.1, hflags.2.2]
  · rw [h.dptr]
    exact Nat.zero_le 512
  · intro hphase
    exact absurd (hflags.2.2.symm.trans hphase) Bool.false_ne_true
  · intro _
    exact ⟨hflags.1, hflags.2.1⟩

theorem attachImage_blank (h : forall i, Blank (c.drive i)) (j : Fin 2)
    (image : Option Image) (i : Fin 2) : Blank ((attachImage c j image).drive i) := by
  have hput {c' : Controller} {d : Drive} (hc' : forall i, Blank (c'.drive i)) (hd : Blank d)
      (i : Fin 2) : Blank ((c'.put j d).drive i) := by
    by_cases hi : i = j
    · rw [hi, put_drive_self]
      exact hd
    · rw [put_drive_of_ne hi]
      exact hc' i
  have hj := h j
  cases image with
  | none => exact h i
  | some image =>
      unfold attachImage
      dsimp only
      cases image.kind with
      | st =>
          dsimp only
          unfold ideAttachSt
          dsimp only
          split
          · exact h i
          · refine hput h ?_ i
            split
            · exact ⟨hj.status, hj.state, hj.dptr⟩
            · exact ⟨hj.status, hj.state, hj.dptr⟩
      | hdf =>
          have hattach (k : Fin 2) : Blank ((ideAttachHdf c j image.file).drive k) := by
            unfold ideAttachHdf
            dsimp only
            split
            · exact h k
            · refine hput h ?_ k
              exact ⟨hj.status, hj.state, hj.dptr⟩
          have hattachj := hattach j
          dsimp only
          split
          · refine hput hattach ?_ i
            exact ⟨hattachj.status, hattachj.state, hattachj.dptr⟩
          · exact hattach i

theorem initIde_phaseInv (images : Fin 2 -> Option Image) :
    PhaseInv (phaseWatched (initIde images)) := by
  have hempty (i : Fin 2) : Blank (ideAllocate.drive i) := ⟨rfl, rfl, rfl⟩
  have hattached := attachImage_blank (attachImage_blank hempty 0 (images 0)) 1 (images 1)
  have hshared (i : Fin 2) : PhaseOk ((shareOrder
      (attachImage (attachImage ideAllocate 0 (images 0)) 1 (images 1))).drive i) := by
    unfold shareOrder
    split
    · exact Blank.ok ⟨(hattached i).status, (hattached i).state, (hattached i).dptr⟩
    · exact (hattached i).ok
  have hidle : AllIdle (initIde images) := ideResetBegin_idle hshared
  constructor
  · intro i
    constructor
    · exact (hidle i).1
    · exact (initIde_fresh images i).paced
    · intro hphase
      exact absurd ((hidle i).2.symm.trans hphase) Bool.false_ne_true
  · intro i hphase
    exact absurd ((hidle i).2.symm.trans hphase) Bool.false_ne_true

/-- In a run from any images, the rules hold at every access exactly when no software
reset ends while a slot has no drive and no data write outside a data phase brings a
new value. -/
theorem phaseRules_iff_calm (falconTos : Bool) (images : Fin 2 -> Option Image)
    (ops : List Access) :
    Steps (phaseStep falconTos) (PhaseRules falconTos) (phaseWatched (initIde images)) ops <->
      Steps (phaseStep falconTos) PhaseCalm (phaseWatched (initIde images)) ops := by
  apply Steps.iff_of_invariant _ _ (initIde_phaseInv images)
  · intro x a hx hcalm
    exact phaseStep_inv hx hcalm
  · intro x a hx
    constructor
    · exact calm_of_phaseRules
    · exact phaseRules_of_calm hx

def floppyAlone (i : Fin 2) : Option Image :=
  if i.val = 0 then some ⟨.st, OpenFile.zeros (720 * 1024), .native⟩ else none

/-- The second slot, which has no drive, is ready after a software reset. -/
theorem empty_slot_ready_after_reset :
    ¬ Steps (phaseStep false) (PhaseRules false) (phaseWatched (initIde floppyAlone))
      [.write8 .altstDevctrl 4 .works, .write8 .altstDevctrl 0 .works] := by
  intro h
  have habsent := h.2.1.absent 1
  have hslot : ((ideStep false (phaseStep false (phaseWatched (initIde floppyAlone))
      (.write8 .altstDevctrl 4 .works)).ctl (.write8 .altstDevctrl 0 .works)).drive 1).present =
        false ∧
      ((ideStep false (phaseStep false (phaseWatched (initIde floppyAlone))
        (.write8 .altstDevctrl 4 .works)).ctl (.write8 .altstDevctrl 0 .works)).drive 1).drdy =
        true := by
    decide +kernel
  exact absurd ((habsent hslot.1).1.symm.trans hslot.2) Bool.false_ne_true

end Ide
end PistormAtari
