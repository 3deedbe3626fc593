import PistormAtari.Acsi.Command
import PistormAtari.Foundation.Run

/-!
# The CDB byte handshake

`acsi_cmd_byte`, `acsi_status_read` and `acsi_release`, the calls that drive
the emulated targets, and what one call can do: the framing of a CDB seen as
the list of bytes received so far.
-/

namespace PistormAtari
namespace Acsi

open Foundation

variable {φ : Type _}

def icdCdbLen (scsiOp : Byte) : Nat :=
  match (scsiOp >>> 5).toNat with
  | 0 => 1 + 6
  | 1 => 1 + 10
  | 2 => 1 + 10
  | 5 => 1 + 12
  | _ => 1 + 6

theorem icdCdbLen_bounds (op : Byte) : 7 ≤ icdCdbLen op ∧ icdCdbLen op ≤ 13 := by
  unfold icdCdbLen
  split <;> lia

def release (s : State φ) : State φ :=
  { s with owns := false, irq := false, phase := .idle }

def acceptFirst (id : BitVec 3) (v : Byte) (s : State φ) : State φ :=
  let icd := v &&& 0x1F == 0x1F#8
  { s with
    curId := some id
    owns := true
    phase := .cdb
    statusValid := false
    icd := icd
    cdbGot := 1
    cdbLen := if icd then 2 else 6
    cdb := Function.update s.cdb 0 (v &&& 0x1F)
    residual := 0
    irq := true
    trace := .accept id :: s.trace }

/-- The ID a first byte addresses, `(v >> 5) & 7`. -/
def idOf (v : Byte) : BitVec 3 :=
  (v >>> 5).setWidth 3

/-- A CDB byte stored, with the length an ICD command reveals in its second. -/
def storeByte (v : Byte) (s : State φ) : State φ :=
  { s with
    cdb := Function.update s.cdb s.cdbGot v
    cdbGot := s.cdbGot + 1
    cdbLen := if s.icd ∧ s.cdbGot + 1 = 2 then icdCdbLen v else s.cdbLen }

def cmdByte (env : Host φ) (v : Byte) (firstByte : Bool) (s : State φ) :
    Bool × State φ :=
  if nTargets s.tgt = 0 then (false, s)
  else
    let firstByte :=
      if firstByte = true ∧ s.owns = true ∧ s.phase = .cdb ∧ 0 < s.cdbGot ∧
          s.cdbGot < s.cdbLen then false
      else firstByte
    if firstByte then
      if s.attached (idOf v) then (true, acceptFirst (idOf v) v s)
      else (false, release s)
    else if s.owns = false ∨ s.phase ≠ .cdb then (false, s)
    else
      let s := storeByte v s
      if s.cdbGot < s.cdbLen then (true, { s with irq := true })
      else (true, execCommand env { s with irq := false })

/-- `acsi_status_read`: the status byte and the state after the call. -/
def statusRead (s : State φ) : Byte × State φ :=
  let s := { s with irq := false }
  if s.statusValid = false then
    let tgt :=
      match s.curId with
      | none => s.tgt
      | some id =>
          Function.update s.tgt id
            ((s.tgt id).map fun t => { t with sense := senseInvalidCdb })
    (0x02,
      { s with
        tgt := tgt, statusByte := 0x02, statusValid := true, phase := .idle
        trace := .statusRead 0x02 :: s.trace })
  else
    (s.statusByte,
      { s with
        phase := if s.phase = .status then .idle else s.phase
        trace := .statusRead s.statusByte :: s.trace })

def dmaFifoReset (s : State φ) : State φ :=
  { s with dmaFifo := [] }

/-- The calls into the target.  Between them the guest may do what it likes to
RAM and to the DMA registers. -/
inductive Op where
  | cmdByte (v : Byte) (firstByte : Bool)
  | statusRead
  | release
  | dmaFifoReset
  | guest (m : Machine)

def step (env : Host φ) (s : State φ) : Op -> State φ
  | .cmdByte v firstByte => (cmdByte env v firstByte s).2
  | .statusRead => (statusRead s).2
  | .release => release s
  | .dmaFifoReset => dmaFifoReset s
  | .guest m => { s with machine := m }

/-- The variables of `acsi.c` at start-up, with images attached. -/
def boot (tgt : Targets φ) (m : Machine) : State φ where
  tgt := tgt
  phase := .idle
  curId := none
  cdb := fun _ => 0
  cdbLen := 0
  cdbGot := 0
  icd := false
  statusByte := 0
  irq := false
  owns := false
  statusValid := false
  residual := 0
  dmaFifo := []
  machine := m
  trace := []

def Reachable (env : Host φ) (s : State φ) : Prop :=
  exists tgt m ops, s = run (step env) (boot tgt m) ops

/-!
## What a command leaves alone

Whatever its data phase does, a command touches one target, the DMA FIFO, the
machine and the residual count, and then completes once.
-/

/-- `s'` differs from `s` only in target `id`, in the FIFO, the machine and the
residual count. -/
structure DataPhase (id : BitVec 3) (s s' : State φ) : Prop where
  attachedAt : (s'.tgt id).isSome = (s.tgt id).isSome
  otherTargets : forall j, j ≠ id -> s'.tgt j = s.tgt j
  rest : s' = { s with
    tgt := s'.tgt, dmaFifo := s'.dmaFifo, machine := s'.machine, residual := s'.residual }

/-- `s'` is `s` with a data phase and exactly one completion added. -/
structure Completed (id : BitVec 3) (s s' : State φ) : Prop where
  attached_iff : forall j, s'.attached j <-> s.attached j
  otherTargets : forall j, j ≠ id -> s'.tgt j = s.tgt j
  statusByte_finish : exists sense lba, s'.trace = .finish s'.statusByte sense lba :: s.trace
  phase : s'.phase = .status
  irq : s'.irq = true
  statusValid : s'.statusValid = true
  owns : s'.owns = s.owns
  curId : s'.curId = s.curId

theorem dataPhase_refl (id : BitVec 3) (s : State φ) : DataPhase id s s where
  attachedAt := rfl
  otherTargets _ _ := rfl
  rest := rfl

variable {id : BitVec 3}

theorem completed_finish {s s1 : State φ} (h : DataPhase id s s1)
    (st sense : Byte) (lba : BitVec 32) : Completed id s (finish id st sense lba s1) := by
  have hrest := h.rest
  constructor
  · intro j
    unfold State.attached finish
    rcases eq_or_ne j id with hj | hj
    · subst hj
      simp [h.attachedAt]
    · simp [hj, h.otherTargets j hj]
  · intro j hj
    simp [finish, hj, h.otherTargets j hj]
  · refine ⟨sense, lba, ?_⟩
    rw [hrest]
    rfl
  · rfl
  · rfl
  · rfl
  · rw [hrest]
    rfl
  · rw [hrest]
    rfl

variable {s : State φ}

theorem dataPhase_setTarget (hs : s.attached id)
    (t : Target φ) (fifo : List Byte) (m : Machine) (r : BitVec 16) :
    DataPhase id s { s.setTarget id t with dmaFifo := fifo, machine := m, residual := r } where
  attachedAt := by
    rw [hs]
    simp [State.setTarget]
  otherTargets j hj := by simp [State.setTarget, hj]
  rest := rfl

theorem completed_finishTransfer (hs : s.attached id)
    (lba blocks : BitVec 32) (failed : Option Nat) (t : Target φ) (fifo : List Byte)
    (m : Machine) :
    Completed id s (finishTransfer id lba blocks failed
      { s.setTarget id t with dmaFifo := fifo, machine := m }) := by
  cases failed with
  | none => exact completed_finish (dataPhase_setTarget hs t fifo m 0) _ _ _
  | some i => exact completed_finish (dataPhase_setTarget hs t fifo m _) _ _ _

variable (env : Host φ)

theorem dataPhase_reply (id : BitVec 3) (s : State φ) (buf : List Byte)
    (r : BitVec 16) : DataPhase id s { s.reply env buf with residual := r } where
  attachedAt := rfl
  otherTargets _ _ := rfl
  rest := rfl

theorem completed_execRead (hs : s.attached id) (t : Target φ) (lba blocks : BitVec 32) :
    Completed id s (execRead env id t lba blocks s) := by
  unfold execRead
  split
  · exact completed_finish (dataPhase_refl id s) _ _ _
  · exact completed_finishTransfer hs _ _ _ _ _ _

theorem completed_execWrite (hs : s.attached id) (t : Target φ) (lba blocks : BitVec 32) :
    Completed id s (execWrite env id t lba blocks s) := by
  unfold execWrite
  split
  · exact completed_finish (dataPhase_refl id s) _ _ _
  · exact completed_finishTransfer hs _ _ _ _ s.dmaFifo _

theorem completed_execModeSense (id : BitVec 3) (s : State φ)
    (t : Target φ) (page : Byte) (alloc : Nat) :
    Completed id s (execModeSense env id t page alloc s) := by
  unfold execModeSense
  split
  · exact completed_finish (dataPhase_refl id s) _ _ _
  · exact completed_finish (dataPhase_reply env id s _ 0) _ _ _

theorem completed_icdOnly (icd : Bool) {id : BitVec 3} {s : State φ}
    {body : State φ -> State φ} (hbody : Completed id s (body s)) :
    Completed id s (icdOnly icd id body s) := by
  unfold icdOnly
  split
  · exact hbody
  · exact completed_finish (dataPhase_refl id s) _ _ _

theorem dataPhase_residual (id : BitVec 3) (s : State φ) (m : Machine) (r : BitVec 16) :
    DataPhase id s { s with machine := m, residual := r } where
  attachedAt := rfl
  otherTargets _ _ := rfl
  rest := rfl

theorem completed_ite {s a b : State φ} {c : Prop} [Decidable c]
    (ha : Completed id s a) (hb : Completed id s b) :
    Completed id s (if c then a else b) := by
  split
  · exact ha
  · exact hb

theorem completed_execSwitch
    (hs : s.attached id) (t : Target φ) (icd : Bool) (op : Byte) (c : Nat -> Byte) :
    Completed id s (execSwitch env id t icd op c s) := by
  have hgood : Completed id s (finishGood id { s with residual := 0 }) :=
    completed_finish (dataPhase_residual id s s.machine 0) _ _ _
  have hcheck : forall sense lba, Completed id s (finishCheck id sense lba s) := by
    intro sense lba
    exact completed_finish (dataPhase_refl id s) _ _ _
  have hreply : forall buf,
      Completed id s (finishGood id { s.reply env buf with residual := 0 }) := by
    intro buf
    exact completed_finish (dataPhase_reply env id s buf 0) _ _ _
  unfold execSwitch
  refine completed_ite hgood (completed_ite ?_ (completed_ite hgood ?_))
  · exact completed_finish (dataPhase_setTarget hs _ _ _ 0) _ _ _
  refine completed_ite (completed_execRead env hs t _ _)
    (completed_ite (completed_execWrite env hs t _ _) ?_)
  refine completed_ite (completed_ite hgood (hcheck _ _)) (completed_ite (hreply _) ?_)
  refine completed_ite ?_ (completed_ite (completed_execModeSense env id s t _ _) ?_)
  · exact completed_finish (dataPhase_residual id s _ 0) _ _ _
  refine completed_ite (completed_icdOnly icd (hreply _))
    (completed_ite (completed_icdOnly icd (hreply _)) ?_)
  exact completed_ite (completed_icdOnly icd (completed_execRead env hs t _ _))
    (completed_ite (completed_icdOnly icd (completed_execWrite env hs t _ _)) (hcheck _ _))

theorem completed_of_setTarget {s s' : State φ} {t : Target φ}
    (hs : s.attached id) (h : Completed id (s.setTarget id t) s') : Completed id s s' := by
  have hother : forall j, j ≠ id -> (s.setTarget id t).tgt j = s.tgt j := by
    intro j hj
    simp [State.setTarget, hj]
  constructor
  · intro j
    rw [h.attached_iff]
    rcases eq_or_ne j id with hj | hj
    · subst hj
      constructor
      · intro _
        exact hs
      · intro _
        simp [State.attached, State.setTarget]
    · unfold State.attached
      rw [hother j hj]
  · intro j hj
    rw [h.otherTargets j hj, hother j hj]
  · exact h.statusByte_finish
  · exact h.phase
  · exact h.irq
  · exact h.statusValid
  · exact h.owns
  · exact h.curId

theorem completed_execOn
    (hs : s.attached id) (t : Target φ) : Completed id s (execOn env id t s) := by
  have hs' : forall t', (s.setTarget id t').attached id := by
    intro t'
    simp [State.attached, State.setTarget]
  unfold execOn
  extract_lets c op lun t1 s1
  apply completed_of_setTarget (t := t1) hs
  refine completed_ite ?_ (completed_ite ?_ ?_)
  · exact completed_finish (dataPhase_reply env id s1 _ 0) _ _ _
  · exact completed_finish (dataPhase_refl id s1) _ _ _
  · exact completed_execSwitch env (hs' t1) t1 _ _ _

theorem execCommand_eq {t : Target φ} (hid : s.curId = some id) (ht : s.tgt id = some t) :
    execCommand env s =
      execOn env id t { s with trace := .exec s.received :: s.trace } := by
  unfold execCommand
  simp only [hid, ht]

theorem execCommand_completed (hid : s.curId = some id) (hs : s.attached id) :
    Completed id { s with trace := .exec s.received :: s.trace } (execCommand env s) := by
  rcases Option.isSome_iff_exists.mp hs with ⟨t, ht⟩
  rw [execCommand_eq env hid ht]
  apply completed_execOn
  exact hs

end Acsi
end PistormAtari
