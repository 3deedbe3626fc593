import PistormAtari.Acsi.Handshake

/-!
# What a command does to the DMA chip

The copies to and from RAM and the moves of the address counter that a command
makes, listed beside the command, and that the two agree: run on the machine the
list leaves the memory and the counter that the command leaves.
-/

namespace PistormAtari
namespace Acsi

open Foundation

variable {φ : Type _}

inductive DmaOp where
  | toRam (buf : List Byte)
  | fromRam (len : Nat)
  | advance (len : Nat)
deriving DecidableEq, Repr

def DmaOp.apply (env : Host φ) (m : Machine) : DmaOp -> Machine
  | .toRam buf => m.copyToRam env buf
  | .fromRam _ => m
  | .advance len => m.advance len

def runDma (env : Host φ) (m : Machine) (ops : List DmaOp) : Machine :=
  run (DmaOp.apply env) m ops

def DmaOp.moved : DmaOp -> Nat
  | .toRam buf => buf.length
  | .fromRam len => len
  | .advance _ => 0

def DmaOp.advanced : DmaOp -> Nat
  | .advance len => len
  | _ => 0

def bytesMoved (ops : List DmaOp) : Nat := (ops.map DmaOp.moved).sum

def bytesAdvanced (ops : List DmaOp) : Nat := (ops.map DmaOp.advanced).sum

theorem bytesMoved_append (xs ys : List DmaOp) :
    bytesMoved (xs ++ ys) = bytesMoved xs + bytesMoved ys := by
  unfold bytesMoved
  rw [List.map_append, List.sum_append]

theorem bytesAdvanced_append (xs ys : List DmaOp) :
    bytesAdvanced (xs ++ ys) = bytesAdvanced xs + bytesAdvanced ys := by
  unfold bytesAdvanced
  rw [List.map_append, List.sum_append]

variable (env : Host φ)

theorem dmaAddr_runDma (m : Machine) (ops : List DmaOp) :
    (runDma env m ops).dmaAddr = m.dmaAddr + BitVec.ofNat 32 (bytesAdvanced ops) := by
  induction ops generalizing m with
  | nil => exact (BitVec.add_zero _).symm
  | cons op rest ih =>
      have hhead : (op.apply env m).dmaAddr = m.dmaAddr + BitVec.ofNat 32 op.advanced := by
        cases op with
        | toRam buf => exact (BitVec.add_zero _).symm
        | fromRam len => exact (BitVec.add_zero _).symm
        | advance len => rfl
      have hsum : bytesAdvanced (op :: rest) = op.advanced + bytesAdvanced rest := rfl
      show (runDma env (op.apply env m) rest).dmaAddr = _
      rw [ih, hhead, hsum, BitVec.ofNat_add, BitVec.add_assoc]

def Paced (ops : List DmaOp) : Prop := bytesAdvanced ops = bytesMoved ops

theorem Paced.nil : Paced [] := rfl

theorem Paced.append (xs ys : List DmaOp) (hxs : Paced xs) (hys : Paced ys) :
    Paced (xs ++ ys) := by
  unfold Paced at hxs hys ⊢
  rw [bytesAdvanced_append, bytesMoved_append, hxs, hys]

theorem Paced.toRam {buf : List Byte} {n : Nat} (h : buf.length = n) :
    Paced [.toRam buf, .advance n] := by
  show 0 + (n + 0) = buf.length + (0 + 0)
  rw [h, Nat.zero_add]

theorem Paced.fromRam (n : Nat) : Paced [.fromRam n, .advance n] := by
  show 0 + (n + 0) = n + (0 + 0)
  rw [Nat.zero_add]

/-!
## The data helpers
-/

def dmaOutStepOps (l : DmaOut) : List DmaOp :=
  if l.fifo = [] ∧ 16 ≤ l.buf.length then
    let n := l.buf.length / 16 * 16
    [.toRam (l.buf.take n), .advance n]
  else
    let fifo := l.fifo ++ l.buf.take 1
    if fifo.length = 16 then [.toRam fifo, .advance 16] else []

def dmaOutOps (env : Host φ) (buf : List Byte) (fifo : List Byte) (m : Machine) : List DmaOp :=
  whileTrace (fun l => !l.buf.isEmpty) (dmaOutStep env) dmaOutStepOps buf.length
    { buf := buf, fifo := fifo, machine := m }

theorem dmaOut_machine (buf fifo : List Byte) (m : Machine) :
    (dmaOut env buf fifo m).machine = runDma env m (dmaOutOps env buf fifo m) := by
  unfold dmaOut dmaOutOps runDma
  refine whileFuel_eq_run_trace ?_ _ _
  intro l _
  unfold dmaOutStep dmaOutStepOps
  dsimp only
  split
  · rfl
  · split
    · rfl
    · rfl

theorem dmaOutOps_paced (buf fifo : List Byte) (m : Machine) :
    Paced (dmaOutOps env buf fifo m) := by
  apply whileTrace_all Paced.nil Paced.append
  intro l
  unfold dmaOutStepOps
  dsimp only
  split
  · apply Paced.toRam
    rw [List.length_take]
    exact Nat.min_eq_left (Nat.div_mul_le_self _ _)
  · split
    · next hfull => exact Paced.toRam hfull
    · exact Paced.nil

def dmaInOps (len : Nat) : List DmaOp :=
  if len = 0 then [] else [.fromRam len, .advance len]

theorem dmaIn_machine (buf : List Byte) (len : Nat) (m : Machine) :
    (dmaIn env buf len m).2 = runDma env m (dmaInOps len) := by
  unfold dmaIn dmaInOps
  split
  · rfl
  · rfl

theorem dmaInOps_paced (len : Nat) : Paced (dmaInOps len) := by
  unfold dmaInOps
  split
  · exact Paced.nil
  · exact Paced.fromRam len

/-!
## Commands
-/

def readLoopOps (env : Host φ) (lba : BitVec 32) :
    Nat -> Nat -> Target φ -> List Byte -> Machine -> List DmaOp
  | 0, _, _, _, _ => []
  | todo + 1, i, t, fifo, m =>
      let r := readLba env.io t (lba + BitVec.ofNat 32 i)
      match r.2 with
      | none => []
      | some buf =>
          let out := dmaOut env buf fifo m
          dmaOutOps env buf fifo m ++ readLoopOps env lba todo (i + 1) r.1 out.fifo out.machine

variable (lba : BitVec 32)

theorem readLoop_machine (todo i : Nat) (t : Target φ) (fifo : List Byte) (m : Machine) :
    (readLoop env lba todo i t fifo m).1.2.2 =
      runDma env m (readLoopOps env lba todo i t fifo m) := by
  induction todo generalizing i t fifo m with
  | zero => rfl
  | succ todo ih =>
      unfold readLoop readLoopOps
      dsimp only
      cases (readLba env.io t (lba + BitVec.ofNat 32 i)).2 with
      | none => rfl
      | some buf =>
          dsimp only
          rw [ih, dmaOut_machine]
          exact (run_append _ _ _ _).symm

theorem readLoopOps_paced (todo i : Nat) (t : Target φ)
    (fifo : List Byte) (m : Machine) : Paced (readLoopOps env lba todo i t fifo m) := by
  induction todo generalizing i t fifo m with
  | zero => exact Paced.nil
  | succ todo ih =>
      unfold readLoopOps
      dsimp only
      cases (readLba env.io t (lba + BitVec.ofNat 32 i)).2 with
      | none => exact Paced.nil
      | some buf => exact Paced.append _ _ (dmaOutOps_paced env buf fifo m) (ih _ _ _ _)

def writeLoopOps (env : Host φ) (lba : BitVec 32) :
    Nat -> Nat -> List Byte -> Target φ -> Machine -> List DmaOp
  | 0, _, _, _, _ => []
  | todo + 1, i, buf, t, m =>
      let x := dmaIn env buf 512 m
      let r := writeLba env.io t (lba + BitVec.ofNat 32 i) x.1
      dmaInOps 512 ++ (if r.2 then writeLoopOps env lba todo (i + 1) x.1 r.1 x.2 else [])

theorem writeLoop_machine (todo i : Nat) (buf : List Byte) (t : Target φ) (m : Machine) :
    (writeLoop env lba todo i buf t m).1.2 =
      runDma env m (writeLoopOps env lba todo i buf t m) := by
  induction todo generalizing i buf t m with
  | zero => rfl
  | succ todo ih =>
      unfold writeLoop writeLoopOps
      dsimp only
      have hin := dmaIn_machine env buf 512 m
      unfold runDma at hin ⊢
      rw [run_append, ← hin]
      split
      · exact ih _ _ _ _
      · rfl

theorem writeLoopOps_paced (todo i : Nat) (buf : List Byte)
    (t : Target φ) (m : Machine) : Paced (writeLoopOps env lba todo i buf t m) := by
  induction todo generalizing i buf t m with
  | zero => exact Paced.nil
  | succ todo ih =>
      unfold writeLoopOps
      dsimp only
      apply Paced.append _ _ (dmaInOps_paced 512)
      split
      · exact ih _ _ _ _
      · exact Paced.nil

def drainOps (env : Host φ) (n : Nat) (m : Machine) : List DmaOp :=
  whileTrace (fun l : Nat × List Byte × Machine => l.1 != 0)
    (fun l =>
      let chunk := min l.1 512
      let x := dmaIn env l.2.1 chunk l.2.2
      (l.1 - chunk, x.1, x.2))
    (fun l => dmaInOps (min l.1 512))
    n (n, readBlock env.stack 0 512, m)

theorem drainLoop_machine (n : Nat) (m : Machine) :
    drainLoop env n m = runDma env m (drainOps env n m) := by
  unfold drainLoop drainOps runDma
  refine whileFuel_eq_run_trace (v := fun l : Nat × List Byte × Machine => l.2.2) ?_ _ _
  intro l _
  exact dmaIn_machine env l.2.1 (min l.1 512) l.2.2

theorem drainOps_paced (n : Nat) (m : Machine) : Paced (drainOps env n m) := by
  apply whileTrace_all Paced.nil Paced.append
  intro l
  exact dmaInOps_paced _

structure SameMemory (m m' : Machine) : Prop where
  ram : m.ram = m'.ram
  bus : m.bus = m'.bus
  dmaAddr : m.dmaAddr = m'.dmaAddr

theorem SameMemory.of_eq {m m' m'' : Machine} (h : m' = m'') (hram : m.ram = m'.ram)
    (hbus : m.bus = m'.bus) (haddr : m.dmaAddr = m'.dmaAddr) : SameMemory m m'' :=
  ⟨hram.trans (congrArg Machine.ram h), hbus.trans (congrArg Machine.bus h),
    haddr.trans (congrArg Machine.dmaAddr h)⟩

def execReadOps (env : Host φ) (t : Target φ) (lba blocks : BitVec 32) (s : State φ) :
    List DmaOp :=
  if offDisk t lba blocks then []
  else readLoopOps env lba blocks.toNat 0 t s.dmaFifo s.machine

def execWriteOps (env : Host φ) (t : Target φ) (lba blocks : BitVec 32) (s : State φ) :
    List DmaOp :=
  if offDisk t lba blocks then []
  else writeLoopOps env lba blocks.toNat 0 (readBlock env.stack 0 512) t s.machine

def replyOps (env : Host φ) (s : State φ) (buf : List Byte) : List DmaOp :=
  dmaOutOps env buf s.dmaFifo s.machine

def inquiryOps (env : Host φ) (t : Target φ) (alloc : Nat) (pdt : Byte) (s : State φ) :
    List DmaOp :=
  replyOps env s ((inquiryData t.hfs pdt).take (min alloc 48))

def requestSenseOps (env : Host φ) (t : Target φ) (alloc : Nat) (s : State φ) : List DmaOp :=
  replyOps env s ((senseData t).take (min (max alloc 4) 16))

def modeSenseOps (env : Host φ) (t : Target φ) (page : Byte) (alloc : Nat) (s : State φ) :
    List DmaOp :=
  match modeSenseData t page with
  | none => []
  | some d => replyOps env s (d.take (if alloc ≠ 0 ∧ alloc < d.length then alloc else d.length))

def readCapacityOps (env : Host φ) (t : Target φ) (s : State φ) : List DmaOp :=
  let last := t.totalLba - 1
  replyOps env s
    [byteOf last 24, byteOf last 16, byteOf last 8, byteOf last 0, 0, 0, 2, 0]

def reportLunsOps (env : Host φ) (alloc : Nat) (s : State φ) : List DmaOp :=
  replyOps env s (([0, 0, 0, 8] ++ List.replicate 12 0).take (min alloc 16))

def icdOnlyOps (icd : Bool) (body : State φ -> List DmaOp) (s : State φ) : List DmaOp :=
  if icd then body s else []

def switchOps (env : Host φ) (t : Target φ) (icd : Bool) (op : Byte) (c : Nat -> Byte)
    (s : State φ) : List DmaOp :=
  if op = 0x00 ∨ op = 0x01 then []
  else if op = 0x03 then requestSenseOps env t (allocOr c 4) s
  else if op = 0x04 then []
  else if op = 0x08 then execReadOps env t (lba6 c) (len6 c) s
  else if op = 0x0A then execWriteOps env t (lba6 c) (len6 c) s
  else if op = 0x0B then []
  else if op = 0x12 then inquiryOps env t (allocOr c 5) 0x00 s
  else if op = 0x15 then drainOps env (c 4).toNat s.machine
  else if op = 0x1A then modeSenseOps env t (c 2 &&& 0x3F) (c 4).toNat s
  else if op = 0x25 then icdOnlyOps icd (readCapacityOps env t) s
  else if op = 0xA0 then icdOnlyOps icd (reportLunsOps env (be32 c 6).toNat) s
  else if op = 0x28 then icdOnlyOps icd (execReadOps env t (be32 c 2) (len10 c)) s
  else if op = 0x2A then icdOnlyOps icd (execWriteOps env t (be32 c 2) (len10 c)) s
  else []

def onOps (env : Host φ) (id : BitVec 3) (t : Target φ) (s : State φ) : List DmaOp :=
  let c : Nat -> Byte := if s.icd then fun i => s.cdb (i + 1) else s.cdb
  let op := if s.icd then c 0 else c 0 &&& 0x1F
  let lun := c 1 >>> 5
  let t := { t with probed := true }
  let s := s.setTarget id t
  if s.icd = false ∧ lun ≠ 0 ∧ op = 0x12 then inquiryOps env t (allocOr c 5) 0x7F s
  else if s.icd = false ∧ lun ≠ 0 then []
  else switchOps env t s.icd op c s

def commandOps (env : Host φ) (s : State φ) : List DmaOp :=
  match s.curId with
  | none => []
  | some id =>
      match s.tgt id with
      | none => []
      | some t => onOps env id t { s with trace := .exec s.received :: s.trace }

/-- A command and its list leave the same memory, and the list moves the counter by
what it moves. -/
structure Traced (env : Host φ) (s s' : State φ) (ops : List DmaOp) : Prop where
  memory : SameMemory s'.machine (runDma env s.machine ops)
  paced : Paced ops
  owns : s'.owns = s.owns

theorem traced_nil {env : Host φ} {s s' : State φ} (h : SameMemory s'.machine s.machine)
    (howns : s'.owns = s.owns) : Traced env s s' [] :=
  ⟨h, Paced.nil, howns⟩

theorem traced_ite {env : Host φ} {s x y : State φ} {xs ys : List DmaOp} {p : Prop} [Decidable p]
    (hx : p -> Traced env s x xs) (hy : ¬ p -> Traced env s y ys) :
    Traced env s (if p then x else y) (if p then xs else ys) := by
  split
  · next h => exact hx h
  · next h => exact hy h

variable (id : BitVec 3)

theorem traced_reply (s s' : State φ) (buf : List Byte)
    (hmachine : s'.machine = (dmaOut env buf s.dmaFifo s.machine).machine)
    (howns : s'.owns = s.owns) : Traced env s (finishGood id s') (replyOps env s buf) where
  memory := SameMemory.of_eq (hmachine.trans (dmaOut_machine env buf s.dmaFifo s.machine))
    rfl rfl rfl
  paced := dmaOutOps_paced env buf s.dmaFifo s.machine
  owns := howns

variable (t : Target φ)

theorem execRead_traced (lba blocks : BitVec 32) (s : State φ) :
    Traced env s (execRead env id t lba blocks s) (execReadOps env t lba blocks s) := by
  unfold execRead execReadOps
  split
  · exact traced_nil ⟨rfl, rfl, rfl⟩ rfl
  · have hmachine := readLoop_machine env lba blocks.toNat 0 t s.dmaFifo s.machine
    have hpaced := readLoopOps_paced env lba blocks.toNat 0 t s.dmaFifo s.machine
    dsimp only
    unfold finishTransfer
    split
    · exact ⟨SameMemory.of_eq hmachine rfl rfl rfl, hpaced, rfl⟩
    · exact ⟨SameMemory.of_eq hmachine rfl rfl rfl, hpaced, rfl⟩

theorem execWrite_traced (lba blocks : BitVec 32) (s : State φ) :
    Traced env s (execWrite env id t lba blocks s) (execWriteOps env t lba blocks s) := by
  unfold execWrite execWriteOps
  split
  · exact traced_nil ⟨rfl, rfl, rfl⟩ rfl
  · have hmachine := writeLoop_machine env lba blocks.toNat 0 (readBlock env.stack 0 512) t
      s.machine
    have hpaced := writeLoopOps_paced env lba blocks.toNat 0 (readBlock env.stack 0 512) t
      s.machine
    dsimp only
    unfold finishTransfer
    split
    · exact ⟨SameMemory.of_eq hmachine rfl rfl rfl, hpaced, rfl⟩
    · exact ⟨SameMemory.of_eq hmachine rfl rfl rfl, hpaced, rfl⟩

theorem execModeSense_traced (page : Byte) (alloc : Nat) (s : State φ) :
    Traced env s (execModeSense env id t page alloc s) (modeSenseOps env t page alloc s) := by
  unfold execModeSense modeSenseOps
  cases modeSenseData t page with
  | none => exact traced_nil ⟨rfl, rfl, rfl⟩ rfl
  | some d => exact traced_reply env id s _ _ rfl rfl

theorem icdOnly_traced {env : Host φ} {id : BitVec 3} {body : State φ -> State φ}
    {ops : State φ -> List DmaOp} {s : State φ} (icd : Bool) (h : Traced env s (body s) (ops s)) :
    Traced env s (icdOnly icd id body s) (icdOnlyOps icd ops s) := by
  unfold icdOnly icdOnlyOps
  split
  · exact h
  · exact traced_nil ⟨rfl, rfl, rfl⟩ rfl

theorem execSwitch_traced (icd : Bool) (op : Byte) (c : Nat -> Byte) (s : State φ) :
    Traced env s (execSwitch env id t icd op c s) (switchOps env t icd op c s) := by
  have hdone (s' : State φ) (hmachine : s'.machine = s.machine) (howns : s'.owns = s.owns) :
      Traced env s (finishGood id s') [] :=
    traced_nil (SameMemory.of_eq hmachine rfl rfl rfl) howns
  have hnone (s' : State φ) (hmachine : s'.machine = s.machine) (howns : s'.owns = s.owns)
      (sense : Byte) (lba : BitVec 32) : Traced env s (finishCheck id sense lba s') [] :=
    traced_nil (SameMemory.of_eq hmachine rfl rfl rfl) howns
  unfold execSwitch switchOps
  refine traced_ite (fun _ => hdone _ rfl rfl) (fun _ => ?_)
  refine traced_ite (fun _ => traced_reply env id s _ _ rfl rfl) (fun _ => ?_)
  refine traced_ite (fun _ => hdone _ rfl rfl) (fun _ => ?_)
  refine traced_ite (fun _ => execRead_traced env id t _ _ s) (fun _ => ?_)
  refine traced_ite (fun _ => execWrite_traced env id t _ _ s) (fun _ => ?_)
  refine traced_ite (fun _ => ?_) (fun _ => ?_)
  · split
    · exact hdone _ rfl rfl
    · exact hnone _ rfl rfl _ _
  refine traced_ite (fun _ => traced_reply env id s _ _ rfl rfl) (fun _ => ?_)
  refine traced_ite (fun _ => ?_) (fun _ => ?_)
  · exact ⟨SameMemory.of_eq (drainLoop_machine env _ s.machine) rfl rfl rfl,
      drainOps_paced env _ s.machine, rfl⟩
  refine traced_ite (fun _ => execModeSense_traced env id t _ _ s) (fun _ => ?_)
  refine traced_ite (fun _ => icdOnly_traced icd (traced_reply env id s _ _ rfl rfl))
    (fun _ => ?_)
  refine traced_ite (fun _ => icdOnly_traced icd (traced_reply env id s _ _ rfl rfl))
    (fun _ => ?_)
  refine traced_ite (fun _ => icdOnly_traced icd (execRead_traced env id t _ _ s)) (fun _ => ?_)
  exact traced_ite (fun _ => icdOnly_traced icd (execWrite_traced env id t _ _ s))
    (fun _ => hnone _ rfl rfl _ _)

theorem execOn_traced (s : State φ) :
    Traced env s (execOn env id t s) (onOps env id t s) := by
  have hsame (s' : State φ) (ops : List DmaOp)
      (h : Traced env (s.setTarget id { t with probed := true }) s' ops) : Traced env s s' ops :=
    ⟨h.memory, h.paced, h.owns⟩
  apply hsame
  unfold execOn onOps
  refine traced_ite (fun _ => traced_reply env id _ _ _ rfl rfl) (fun _ => ?_)
  exact traced_ite (fun _ => traced_nil ⟨rfl, rfl, rfl⟩ rfl)
    (fun _ => execSwitch_traced env id _ _ _ _ _)

theorem execCommand_traced (s : State φ) :
    Traced env s (execCommand env s) (commandOps env s) := by
  unfold execCommand commandOps
  dsimp only
  cases s.curId with
  | none => exact traced_nil ⟨rfl, rfl, rfl⟩ rfl
  | some id =>
      dsimp only
      cases s.tgt id with
      | none => exact traced_nil ⟨rfl, rfl, rfl⟩ rfl
      | some t =>
          exact ⟨(execOn_traced env id t _).memory, (execOn_traced env id t _).paced,
            (execOn_traced env id t _).owns⟩

def cmdByteOps (env : Host φ) (v : Byte) (firstByte : Bool) (s : State φ) : List DmaOp :=
  if nTargets s.tgt = 0 then []
  else
    let firstByte :=
      if firstByte = true ∧ s.owns = true ∧ s.phase = .cdb ∧ 0 < s.cdbGot ∧
          s.cdbGot < s.cdbLen then false
      else firstByte
    if firstByte then []
    else if s.owns = false ∨ s.phase ≠ .cdb then []
    else
      let s := storeByte v s
      if s.cdbGot < s.cdbLen then [] else commandOps env { s with irq := false }

theorem cmdByte_traced (v : Byte) (firstByte : Bool) (s : State φ) :
    SameMemory (cmdByte env v firstByte s).2.machine
        (runDma env s.machine (cmdByteOps env v firstByte s)) ∧
      Paced (cmdByteOps env v firstByte s) ∧
      (cmdByteOps env v firstByte s ≠ [] -> (cmdByte env v firstByte s).1 = true ∧
        (cmdByte env v firstByte s).2.owns = true) := by
  have hidle (r : Bool × State φ) (hmachine : r.2.machine = s.machine) :
      SameMemory r.2.machine (runDma env s.machine []) ∧ Paced [] ∧
        (([] : List DmaOp) ≠ [] -> r.1 = true ∧ r.2.owns = true) :=
    ⟨SameMemory.of_eq hmachine rfl rfl rfl, Paced.nil, fun h => absurd rfl h⟩
  unfold cmdByte cmdByteOps
  split
  · exact hidle _ rfl
  · dsimp only
    generalize (if firstByte = true ∧ s.owns = true ∧ s.phase = .cdb ∧ 0 < s.cdbGot ∧
      s.cdbGot < s.cdbLen then false else firstByte) = first
    cases first with
    | true =>
        rw [if_pos rfl, if_pos rfl]
        split
        · exact hidle _ rfl
        · exact hidle _ rfl
    | false =>
        rw [if_neg Bool.false_ne_true, if_neg Bool.false_ne_true]
        split
        · exact hidle _ rfl
        · next hours =>
          split
          · exact hidle _ rfl
          · have h := execCommand_traced env { storeByte v s with irq := false }
            refine ⟨h.memory, h.paced, fun _ => ⟨rfl, h.owns.trans ?_⟩⟩
            cases howns : s.owns with
            | true => exact howns
            | false => exact absurd (Or.inl howns) hours

end Acsi
end PistormAtari
