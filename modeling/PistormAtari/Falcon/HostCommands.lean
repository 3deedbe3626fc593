import PistormAtari.Falcon.HostPort
import PistormAtari.Foundation.Run

/-!
# Host commands

A host command is an interrupt at a vector of the 68k's choice.  The sources of the host port
and of the serial interface clear the vectors of their own, whoever raised them.
-/

namespace PistormAtari
namespace Falcon

open Foundation

/-!
## Steps
-/

inductive Fault where
  | stack
  | swi
  | illegal
deriving DecidableEq

def Fault.vector : Fault -> Nat
  | .stack => dspVecStackerr
  | .swi => dspVecSwi
  | .illegal => dspVecIllegal

/-- A step of the host port, or what a run of the DSP does to its interrupts besides its
accesses: it accepts one under the mask of its status register, or raises one itself. -/
inductive CommandStep where
  | host (op : HostStep)
  | service (mask : Nat)
  | fault (f : Fault)
deriving DecidableEq

def commandStep (s : HostPort) : CommandStep -> HostPort
  | .host op => hostStep s op
  | .service mask =>
      match s.core.dsp.irq.best mask with
      | some i => s.onIrqs fun t => (dsp56kIrqClear (2 * i.val) t.1, t.2)
      | none => s
  | .fault f => s.onIrqs fun t => (dsp56kIrqRaise f.vector 3 t.1, t.2)

def NoReset (s : HostPort) (op : CommandStep) : Prop :=
  op = .host .powerState -> s.core.io.resetEpoch = s.core.io.resetSeen

instance (s : HostPort) (op : CommandStep) : Decidable (NoReset s op) :=
  inferInstanceAs (Decidable (_ -> _))

def isHostWrite : HostStep -> Bool
  | .hostWrite _ _ => true
  | _ => false

def commandBit (f : Host) : Bool := decide (f.cvr &&& 0x80 ≠ 0)

def takes (i : Fin 32) (s : HostPort) (op : HostStep) : Bool :=
  !isHostWrite op && commandBit s.core.io && !commandBit (hostStep s op).core.io &&
    decide (irqSource (commandVector s.core.io) = i)

/-- A command of the vector `i` has been taken and not yet accepted. -/
def outstandingAfter (i : Fin 32) (outstanding : Bool) (s : HostPort) : CommandStep -> Bool
  | .host op => outstanding || takes i s op
  | .service mask => outstanding && decide (s.core.dsp.irq.best mask ≠ some i)
  | .fault _ => outstanding

def watchStep (i : Fin 32) (s : HostPort × Bool) (op : CommandStep) : HostPort × Bool :=
  (commandStep s.1 op, outstandingAfter i s.2 s.1 op)

/-- A command that has been taken and not yet accepted is pending. -/
def CommandKept (i : Fin 32) (s : HostPort × Bool) : Prop :=
  s.2 = true -> s.1.core.dsp.irq.pending i = true

instance (i : Fin 32) (s : HostPort × Bool) : Decidable (CommandKept i s) :=
  inferInstanceAs (Decidable (_ -> _))

/-- The vectors that the host port and the serial interface raise and clear themselves. -/
def sourceVectors : List (Fin 32) :=
  [irqSource dspVecHostRx, irqSource dspVecHostTx, irqSource dspVecSsiRx, irqSource dspVecSsiRxe,
    irqSource dspVecSsiTx, irqSource dspVecSsiTxe]

/-!
## Interrupts
-/

theorem pending_raise {i : Fin 32} {q : DspIrq} (h : q.pending i = true) (vector level : Nat) :
    (dsp56kIrqRaise vector level q).pending i = true := by
  unfold dsp56kIrqRaise
  rcases eq_or_ne i (irqSource vector) with rfl | hne
  · exact Function.update_self _ _ _
  · rw [← h]
    exact Function.update_of_ne hne _ _

theorem pending_raised (vector level : Nat) (q : DspIrq) :
    (dsp56kIrqRaise vector level q).pending (irqSource vector) = true := Function.update_self _ _ _

theorem pending_clear {i : Fin 32} {q : DspIrq} (h : q.pending i = true) {vector : Nat}
    (hne : i ≠ irqSource vector) : (dsp56kIrqClear vector q).pending i = true := by
  rw [← h]
  exact Function.update_of_ne hne _ _

theorem irqSource_double (i : Fin 32) : irqSource (2 * i.val) = i := by
  revert i
  decide

theorem pending_follow {i : Fin 32} {q : DspIrq} (h : q.pending i = true) {vector : Nat}
    (hne : i ≠ irqSource vector) (level : Nat) (on : Bool) :
    (irqFollow vector level on q).pending i = true := by
  unfold irqFollow
  split
  · exact pending_raise h vector level
  · exact pending_clear h hne

/-!
## What the DSP side does to a command
-/

/-- The vector `i` stays pending, and becomes so when its command is taken. -/
structure KeepsCommand (i : Fin 32) (s t : DspIrq × Host) : Prop where
  pending : s.1.pending i = true -> t.1.pending i = true
  vector : commandVector t.2 = commandVector s.2
  idle : commandBit s.2 = false -> commandBit t.2 = false
  taken : commandBit s.2 = true -> commandBit t.2 = false -> irqSource (commandVector s.2) = i ->
    t.1.pending i = true

section
variable {i : Fin 32}

theorem KeepsCommand.of_eq {s t : DspIrq × Host}
    (hpending : s.1.pending i = true -> t.1.pending i = true) (hcvr : t.2.cvr = s.2.cvr) :
    KeepsCommand i s t := by
  have hbit : commandBit t.2 = commandBit s.2 := by
    unfold commandBit
    rw [hcvr]
  constructor
  · exact hpending
  · unfold commandVector
    rw [hcvr]
  · rw [hbit]
    exact fun h => h
  · rw [hbit]
    intro hset hclear
    rw [hset] at hclear
    cases hclear

theorem KeepsCommand.trans {s t u : DspIrq × Host} (hst : KeepsCommand i s t)
    (htu : KeepsCommand i t u) : KeepsCommand i s u := by
  constructor
  · exact fun h => htu.pending (hst.pending h)
  · exact htu.vector.trans hst.vector
  · exact fun h => htu.idle (hst.idle h)
  · intro hset hclear hvector
    cases hmid : commandBit t.2 with
    | true => exact htu.taken hmid hclear (by rw [hst.vector]; exact hvector)
    | false => exact htu.pending (hst.taken hset hmid hvector)

theorem commandBit_taken (f : Host) : commandBit { f with cvr := f.cvr &&& 0x7F } = false := by
  unfold commandBit
  dsimp only
  rw [BitVec.and_assoc, decide_eq_false_iff_not, not_not]
  exact BitVec.and_zero

theorem commandVector_taken (f : Host) :
    commandVector { f with cvr := f.cvr &&& 0x7F } = commandVector f := by
  unfold commandVector
  dsimp only
  rw [BitVec.and_assoc]
  rfl

theorem hostIrqs_keeps (hrx : i ≠ irqSource dspVecHostRx) (htx : i ≠ irqSource dspVecHostTx)
    (s : DspIrq × Host) : KeepsCommand i s (hostIrqs s) := by
  have hfollow (h : s.1.pending i = true) :=
    pending_follow (pending_follow h hrx (hostLevel s.2) (hostRxOn s.2)) htx (hostLevel s.2)
      (hostTxOn s.2)
  unfold hostIrqs
  dsimp only
  split
  · constructor
    · intro h
      exact pending_raise (hfollow h) _ _
    · exact commandVector_taken s.2
    · intro _
      exact commandBit_taken s.2
    · rintro - - rfl
      exact pending_raised _ _ _
  · exact KeepsCommand.of_eq hfollow rfl

theorem ssiIrqs_keeps (hrx : i ≠ irqSource dspVecSsiRx) (hrxe : i ≠ irqSource dspVecSsiRxe)
    (htx : i ≠ irqSource dspVecSsiTx) (htxe : i ≠ irqSource dspVecSsiTxe) (s : DspIrq × Host) :
    KeepsCommand i s (ssiIrqs s) := by
  apply KeepsCommand.of_eq
  · intro h
    have hclear := pending_clear (pending_clear (pending_clear (pending_clear h hrx) hrxe) htx) htxe
    unfold ssiIrqs
    dsimp only
    split
    · exact hclear
    · dsimp only
      split
      · apply pending_raise
        split
        · exact pending_raise hclear _ _
        · exact hclear
      · split
        · exact pending_raise hclear _ _
        · exact hclear
  · rw [ssiIrqs_host]

theorem KeepsCommand.refl (s : DspIrq × Host) : KeepsCommand i s s :=
  KeepsCommand.of_eq (fun h => h) rfl

/-!
## Accesses of the DSP
-/

/-- Neither the host port nor the serial interface has the vector `i`. -/
def NoSource (i : Fin 32) : Prop := i ∉ sourceVectors

theorem NoSource.host (hi : NoSource i) {s : DspIrq × Host} {f : Host} (hcvr : f.cvr = s.2.cvr) :
    KeepsCommand i s (hostIrqs (s.1, f)) := by
  have hchange : KeepsCommand i s (s.1, f) := KeepsCommand.of_eq (fun h => h) hcvr
  apply hchange.trans
  apply hostIrqs_keeps
  · rintro rfl
    exact hi (by decide)
  · rintro rfl
    exact hi (by decide)

theorem NoSource.ssi (hi : NoSource i) {s : DspIrq × Host} {f : Host} (hcvr : f.cvr = s.2.cvr) :
    KeepsCommand i s (ssiIrqs (s.1, f)) := by
  have hchange : KeepsCommand i s (s.1, f) := KeepsCommand.of_eq (fun h => h) hcvr
  apply hchange.trans
  apply ssiIrqs_keeps
  all_goals
    rintro rfl
    exact hi (by decide)

theorem regRead_keeps (hi : NoSource i) (reg : PeriphReg) (s : DspIrq × Host) :
    KeepsCommand i s (regRead reg s).2 := by
  unfold regRead
  dsimp only
  split
  case h_9 => exact hi.host rfl
  case h_12 => exact KeepsCommand.of_eq (fun h => h) rfl
  case h_13 => exact hi.ssi rfl
  all_goals exact KeepsCommand.refl s

theorem regWrite_keeps (hi : NoSource i) (reg : PeriphReg) (v : Word) (s : DspIrq × Host) :
    KeepsCommand i s (regWrite reg v s) := by
  unfold regWrite
  dsimp only
  split
  case h_7 => exact hi.host rfl
  case h_9 => exact hi.host rfl
  case h_11 => exact hi.ssi rfl
  case h_13 => exact hi.ssi rfl
  case h_16 =>
    have hhost : KeepsCommand i s (hostIrqs (s.1, { s.2 with ipr := v })) := hi.host rfl
    exact hhost.trans (hi.ssi rfl)
  case h_8 => exact KeepsCommand.refl s
  case h_12 => exact KeepsCommand.refl s
  all_goals exact KeepsCommand.of_eq (fun h => h) rfl

theorem periphRead_keeps (hi : NoSource i) (space : Space) (a : BitVec 16) (s : DspIrq × Host) :
    KeepsCommand i s (periphRead space a s).2 := by
  unfold periphRead
  split
  · exact KeepsCommand.refl s
  · split
    · exact regRead_keeps hi _ s
    · exact KeepsCommand.refl s

theorem periphWrite_keeps (hi : NoSource i) (space : Space) (a : BitVec 16) (v : Word)
    (s : DspIrq × Host) : KeepsCommand i s (periphWrite space a v s).2 := by
  unfold periphWrite
  split
  · exact KeepsCommand.refl s
  · split
    · exact regWrite_keeps hi _ v s
    · exact KeepsCommand.refl s

def irqSide (s : Core Host) : DspIrq × Host := (s.dsp.irq, s.io)

theorem memRd_keeps (hi : NoSource i) (space : Space) (a : BitVec 16) (s : Core Host) :
    KeepsCommand i (irqSide s) (irqSide (memRd hostPeriph space a s).2) := by
  unfold memRd
  cases space with
  | p => exact KeepsCommand.refl _
  | x =>
      dsimp only
      split
      · exact periphRead_keeps hi .x a (irqSide s)
      · exact KeepsCommand.refl _
  | y =>
      dsimp only
      split
      · exact periphRead_keeps hi .y a (irqSide s)
      · exact KeepsCommand.refl _

theorem irq_progWrite (d : Dsp) (a : BitVec 16) (v : Word) : (d.progWrite a v).irq = d.irq := by
  unfold Dsp.progWrite
  split
  · rfl
  · rfl

theorem irq_xWrite (d : Dsp) (a : BitVec 16) (v : Word) : (d.xWrite a v).irq = d.irq := by
  unfold Dsp.xWrite
  split
  · rfl
  · split
    · rfl
    · rfl

theorem irq_yWrite (d : Dsp) (a : BitVec 16) (v : Word) : (d.yWrite a v).irq = d.irq := by
  unfold Dsp.yWrite
  split
  · rfl
  · split
    · rfl
    · rfl

theorem memWr_keeps (hi : NoSource i) (space : Space) (a : BitVec 16) (v : Word) (s : Core Host) :
    KeepsCommand i (irqSide s) (irqSide (memWr hostPeriph space a v s).2) := by
  cases space with
  | p =>
      apply KeepsCommand.of_eq
      · intro h
        show (Dsp.progWrite { s.dsp with writes := s.dsp.writes + 1 } a v).irq.pending i = true
        rw [irq_progWrite]
        exact h
      · rfl
  | x =>
      show KeepsCommand i (irqSide s) (irqSide ((if isPeriph a then
        onPeriph (hostPeriph.write .x a v) else modifyDsp fun d => d.xWrite a v)
          (countWrite s).2).2)
      split
      · exact periphWrite_keeps hi .x a v (irqSide s)
      · apply KeepsCommand.of_eq
        · intro h
          show (Dsp.xWrite { s.dsp with writes := s.dsp.writes + 1 } a v).irq.pending i = true
          rw [irq_xWrite]
          exact h
        · rfl
  | y =>
      show KeepsCommand i (irqSide s) (irqSide ((if isPeriph a then
        onPeriph (hostPeriph.write .y a v) else modifyDsp fun d => d.yWrite a v)
          (countWrite s).2).2)
      split
      · exact periphWrite_keeps hi .y a v (irqSide s)
      · apply KeepsCommand.of_eq
        · intro h
          show (Dsp.yWrite { s.dsp with writes := s.dsp.writes + 1 } a v).irq.pending i = true
          rw [irq_yWrite]
          exact h
        · rfl

theorem ssiSlot_keeps (hi : NoSource i) (slot : Nat) (word : Word) (s : DspIrq × Host) :
    KeepsCommand i s (ssiSlot slot word s).2 := by
  have hcvr : (ssiTransmit slot (ssiReceive slot word s.2)).2.cvr = s.2.cvr := by
    have hreceive : (ssiReceive slot word s.2).cvr = s.2.cvr := by
      unfold ssiReceive
      split
      · rfl
      · rfl
    rw [← hreceive]
    unfold ssiTransmit
    dsimp only
    split
    · rfl
    · rfl
  exact hi.ssi hcvr

/-!
## Steps
-/

theorem keeps_takeByte (s : HostPort) (found : Option Word) :
    KeepsCommand i (irqSide s.core) (irqSide (takeByte s found).core) := by
  apply KeepsCommand.of_eq
  · exact fun h => h
  · show (hostByte s.access.next found s.core.io).2.cvr = s.core.io.cvr
    unfold hostByte
    dsimp only
    split
    case h_7 =>
      split
      · rfl
      · rfl
    all_goals rfl

theorem keeps_hostStep (hi : NoSource i) {s : HostPort} {op : HostStep}
    (hwrite : isHostWrite op = false) (hreset : NoReset s (.host op)) :
    KeepsCommand i (irqSide s.core) (irqSide (hostStep s op).core) := by
  have hsame (c : Core Host) (hirq : c.dsp.irq = s.core.dsp.irq) (hcvr : c.io.cvr = s.core.io.cvr) :
      KeepsCommand i (irqSide s.core) (irqSide c) := by
    apply KeepsCommand.of_eq
    · intro h
      show c.dsp.irq.pending i = true
      rw [hirq]
      exact h
    · exact hcvr
  unfold hostStep
  cases op with
  | hostWrite o v => cases hwrite
  | hostIrqs => exact hi.host rfl
  | ssiSlot slot word => exact ssiSlot_keeps hi slot word (irqSide s.core)
  | lock on => exact hsame _ rfl rfl
  | burst on =>
      cases on with
      | true => exact hsame _ rfl rfl
      | false => exact hsame _ rfl rfl
  | dspRead space a =>
      dsimp only
      split
      · exact memRd_keeps hi space a s.core
      · exact KeepsCommand.refl _
  | dspWrite space a v =>
      dsimp only
      split
      · exact memWr_keeps hi space a v s.core
      · exact KeepsCommand.refl _
  | hwRead o size inlineOk =>
      dsimp only
      split
      · exact hsame _ rfl rfl
      · exact hsame _ rfl rfl
  | readByte flowing =>
      dsimp only
      split
      · exact KeepsCommand.refl _
      · unfold readByte
        dsimp only
        split
        · split
          · exact hsame _ rfl rfl
          · exact keeps_takeByte { s with access := { s.access with waited := true } } none
        · exact keeps_takeByte s _
  | rxPoll =>
      dsimp only
      split
      · split
        · exact keeps_takeByte s _
        · exact KeepsCommand.refl _
      · exact KeepsCommand.refl _
  | rxGiveUp =>
      dsimp only
      split
      · exact keeps_takeByte s none
      · exact KeepsCommand.refl _
  | porta v =>
      dsimp only
      split
      · exact hsame _ rfl rfl
      · exact KeepsCommand.refl _
  | dspExec x =>
      dsimp only
      split
      · exact hsame _ rfl rfl
      · exact KeepsCommand.refl _
  | powerState =>
      have hseen : ¬ (s.core.io.resetEpoch ≠ s.core.io.resetSeen) := not_not.mpr (hreset rfl)
      unfold dspPowerState
      dsimp only
      rw [if_neg hseen]
      apply hsame
      · rfl
      · unfold settlePower
        dsimp only
        split
        · split
          · rfl
          · rfl
        · split
          · rfl
          · rfl
  | bootWord =>
      dsimp only
      split
      · unfold bootWord
        split
        · split
          · exact hsame _ rfl rfl
          · exact KeepsCommand.refl _
        · exact KeepsCommand.refl _
      · exact KeepsCommand.refl _
  | bootStart =>
      dsimp only
      split
      · unfold bootStart
        split
        · exact hsame _ rfl rfl
        · exact KeepsCommand.refl _
      · exact KeepsCommand.refl _

theorem hostWrite_irq (s : HostPort) (o : Nat) (v : BitVec 8) :
    (hostStep s (.hostWrite o v)).core.dsp.irq = s.core.dsp.irq := by
  unfold hostStep
  dsimp only
  split
  · rfl
  · rfl

theorem commandKept_watchStep (hi : NoSource i) (s : HostPort × Bool) (op : CommandStep)
    (hreset : NoReset s.1 op) (h : CommandKept i s) : CommandKept i (watchStep i s op) := by
  cases op with
  | host op =>
      intro hout
      change (s.2 || takes i s.1 op) = true at hout
      show (hostStep s.1 op).core.dsp.irq.pending i = true
      cases hwrite : isHostWrite op with
      | true =>
          cases op with
          | hostWrite o v =>
              unfold takes at hout
              rw [hwrite, Bool.not_true, Bool.false_and, Bool.false_and, Bool.false_and,
                Bool.or_false] at hout
              rw [hostWrite_irq]
              exact h hout
          | _ => cases hwrite
      | false =>
          have hkeeps := keeps_hostStep hi hwrite hreset
          rcases Bool.or_eq_true_iff.mp hout with hold | htaken
          · exact hkeeps.pending (h hold)
          · unfold takes at htaken
            rw [Bool.and_eq_true, Bool.and_eq_true, Bool.and_eq_true, Bool.not_eq_true',
              Bool.not_eq_true', decide_eq_true_eq] at htaken
            exact hkeeps.taken htaken.1.1.2 htaken.1.2 htaken.2
  | service mask =>
      intro hout
      change (s.2 && decide (s.1.core.dsp.irq.best mask ≠ some i)) = true at hout
      rw [Bool.and_eq_true, decide_eq_true_eq] at hout
      have hpending := h hout.1
      show (commandStep s.1 (.service mask)).core.dsp.irq.pending i = true
      unfold commandStep
      dsimp only
      cases hbest : s.1.core.dsp.irq.best mask with
      | none => exact hpending
      | some j =>
          apply pending_clear hpending
          rw [irqSource_double]
          rintro rfl
          exact hout.2 hbest
  | fault f =>
      intro hout
      exact pending_raise (h hout) f.vector 3

end

/-!
## Runs
-/

/-- A command of the vector `i` is lost in no run without a reset. -/
def NeverLost (i : Fin 32) : Prop :=
  forall (s : HostPort) (ops : List CommandStep), Steps commandStep NoReset s ops ->
    CommandKept i (run (watchStep i) (s, false) ops)

theorem commandKept_run {i : Fin 32} (hi : NoSource i) {s : HostPort × Bool}
    {ops : List CommandStep} (hreset : Steps commandStep NoReset s.1 ops) (h : CommandKept i s) :
    CommandKept i (run (watchStep i) s ops) := by
  induction ops generalizing s with
  | nil => exact h
  | cons op rest ih =>
      exact ih hreset.2 (commandKept_watchStep hi s op hreset.1 h)

/-- The DSP enables host interrupts and takes a command, and the handlers of both sources run
once more. -/
def losingRun (i : Fin 32) : List CommandStep :=
  [.host (.dspWrite .x 0xFFFF 0x000400), .host (.dspWrite .x 0xFFE8 0x04),
    .host (.hostWrite 1 (0x80 ||| BitVec.ofNat 8 i.val)), .host .hostIrqs, .host .hostIrqs,
    .host (.ssiSlot 0 0)]

theorem losingRun_loses :
    forall i, i ∈ sourceVectors ->
      ¬ CommandKept i (run (watchStep i) (runningPort, false) (losingRun i)) := by
  decide +kernel

/-- In every run without a reset a command of a vector, once taken, stays pending until the
DSP accepts that vector, if and only if neither the host port nor the serial interface has
the vector for itself. -/
theorem neverLost_iff_no_source (i : Fin 32) : NeverLost i <-> i ∉ sourceVectors := by
  constructor
  · intro hnever hi
    apply losingRun_loses i hi
    exact hnever runningPort (losingRun i) ⟨nofun, nofun, nofun, nofun, nofun, nofun, trivial⟩
  · intro hi s ops hreset
    exact commandKept_run hi hreset (fun hout => absurd hout Bool.false_ne_true)

/-- The command `$90` is taken and dropped by the next look at the host port. -/
theorem command_lost : ¬ (forall i : Fin 32, NeverLost i) := by
  intro hnever
  have hkept := hnever 16 runningPort
    [.host (.dspWrite .x 0xFFFF 0x000400), .host (.dspWrite .x 0xFFE8 0x04),
      .host (.hostWrite 1 0x90), .host .hostIrqs, .host .hostIrqs]
    ⟨nofun, nofun, nofun, nofun, nofun, trivial⟩
  revert hkept
  decide +kernel

end Falcon
end PistormAtari
