import Mathlib
import PistormAtari.Dsp.DecoderRules

/-!
# The interpreter of the DSP: where loops end

The run loop looks for the end of a hardware loop by how far the program counter has
moved.  That is the end of the loop where control went on to the word after the
instruction, of one word or two.
-/

namespace PistormAtari
namespace Dsp56k

open Falcon (Space)
open Foundation (act ask look Spec Keeps)

section
variable {π : Type}

/-!
## Going on to the next word
-/

/-- Control goes on through the words fetched since the instruction began. -/
def GoesOn (spc : BitVec 16) (d : Dsp π) : Prop :=
  d.flow = .through ∧ d.pc = spc + BitVec.ofNat 16 d.words

/-- Where control was not handed on, it is after the words of the instruction. -/
def WentOn (spc : BitVec 16) (d : Dsp π) : Prop :=
  d.flow = .through -> d.pc = spc + BitVec.ofNat 16 d.words

variable {spc : BitVec 16} {d : Dsp π}

theorem wentOn_of_not_through (hflow : d.flow ≠ .through) : WentOn spc d :=
  fun h => absurd h hflow

theorem goesOn_congr {d' : Dsp π} (hd : GoesOn spc d) (hflow : d'.flow = d.flow)
    (hpc : d'.pc = d.pc) (hwords : d'.words = d.words) : GoesOn spc d' := by
  unfold GoesOn
  rw [hflow, hpc, hwords]
  exact hd

theorem goesOn_setAcc (which : Bool) (v : BitVec 64) (hd : GoesOn spc d) :
    GoesOn spc (setAcc which v d) := by
  cases which with
  | false => exact hd
  | true => exact hd

theorem aluKept_goesOn : AluKept (π := π) (GoesOn spc) fun _ => True where
  acc := fun _ _ _ => trivial
  sx56 := fun _ => trivial
  sx48 := fun _ => trivial
  accFrom24 := fun _ => trivial
  half := fun _ _ => trivial
  zero := trivial
  setSr := fun _ _ hd => hd
  setAcc := fun which v _ _ hd => goesOn_setAcc which v hd
  setR := fun _ _ _ hd => hd
  illegal := fun _ hd => hd

theorem goesOn_memRd (h : Periph π) (space : Space) (a : BitVec 16) (hd : GoesOn spc d) :
    GoesOn spc (memRd h space a d).2 := by
  unfold memRd
  cases space with
  | p => exact hd
  | x =>
      dsimp only
      repeat' split
      all_goals exact hd
  | y =>
      dsimp only
      repeat' split
      all_goals exact hd

theorem goesOn_memWr (h : Periph π) (space : Space) (a : BitVec 16) (v : BitVec 32)
    (hd : GoesOn spc d) : GoesOn spc (memWr h space a v d) := by
  unfold memWr
  cases space with
  | p => exact prop_ite hd hd
  | x => exact prop_ite hd (prop_ite hd (prop_ite hd hd))
  | y => exact prop_ite hd (prop_ite hd (prop_ite hd hd))

theorem goesOn_fetch (hd : GoesOn spc d) : GoesOn spc (fetch d).2 := by
  obtain ⟨hflow, hpc⟩ := hd
  refine ⟨hflow, ?_⟩
  show d.pc + 1 = spc + BitVec.ofNat 16 (d.words + 1)
  rw [hpc, BitVec.ofNat_add, BitVec.add_assoc]
  rfl

theorem goesOn_eaCalc (mode : Nat) (hd : GoesOn spc d) : GoesOn spc (eaCalc mode d).2 := by
  unfold eaCalc
  dsimp only
  repeat' split
  all_goals first
    | exact hd
    | exact goesOn_fetch hd

theorem goesOn_eaXy (mm : Nat) (rn : Fin 8) (hd : GoesOn spc d) : GoesOn spc (eaXy mm rn d).2 := by
  unfold eaXy
  split
  all_goals exact hd

theorem goesOn_stackUp (hd : GoesOn spc d) : GoesOn spc (stackUp d) := by
  unfold stackUp
  dsimp only
  split
  · exact hd
  · exact hd

theorem goesOn_pop (hd : GoesOn spc d) : GoesOn spc (pop d) := prop_ite hd hd

theorem goesOn_push (hi lo : BitVec 16) (hd : GoesOn spc d) : GoesOn spc (push hi lo d) :=
  goesOn_stackUp hd

theorem goesOn_pushHigh (hi : BitVec 16) (hd : GoesOn spc d) : GoesOn spc (pushHigh hi d) :=
  goesOn_stackUp hd

theorem goesOn_regRead (code : Nat) (hd : GoesOn spc d) : GoesOn spc (regRead code d).2 := by
  unfold regRead
  split
  · exact hd
  · exact hd
  · exact hd
  · exact hd
  · exact hd
  · exact hd
  · exact hd
  · exact hd
  · exact hd
  · exact hd
  · exact aluKept_goesOn.accBus24 _ hd
  · exact aluKept_goesOn.accBus24 _ hd
  · exact hd
  · exact hd
  · exact hd
  · exact goesOn_pop hd
  · exact hd
  · exact hd
  · exact hd
  · repeat' split
    all_goals exact hd

theorem goesOn_regWrite (code : Nat) (v : BitVec 32) (hd : GoesOn spc d) :
    GoesOn spc (regWrite code v d) := by
  unfold regWrite
  dsimp only
  split
  all_goals first
    | exact goesOn_congr hd rfl rfl rfl
    | exact goesOn_pushHigh _ hd
    | exact prop_ite (goesOn_congr hd rfl rfl rfl) (prop_ite (goesOn_congr hd rfl rfl rfl)
        (prop_ite (goesOn_congr hd rfl rfl rfl) hd))

theorem goesOn_pendWrite (w : Pend) (hd : GoesOn spc d) : GoesOn spc (pendWrite d w) := by
  unfold pendWrite
  cases w with
  | reg24 c v => exact goesOn_regWrite _ _ hd
  | short c v => exact prop_ite (goesOn_regWrite _ _ hd) (goesOn_regWrite _ _ hd)
  | acc48 c v => exact goesOn_setAcc _ _ hd
  | a10 c v => exact goesOn_setAcc _ _ hd

theorem goesOn_xySet (code : Nat) (v : BitVec 32) (hd : GoesOn spc d) :
    GoesOn spc (xySet code v d) := by
  unfold xySet
  split
  all_goals exact goesOn_congr hd rfl rfl rfl

theorem goesOn_closeLoop (hd : GoesOn spc d) : GoesOn spc (closeLoop d) := by
  have hfirst := goesOn_pop (aluKept_goesOn.setSr
    (d.sr &&& ~~~srLF ||| (sslTop d &&& srLF)) d hd)
  exact goesOn_pop hfirst

theorem goesOn_startDo (count : BitVec 32) (la : BitVec 16) (hd : GoesOn spc d) :
    GoesOn spc (startDo count la d) := by
  have hfirst := goesOn_push d.la d.lc hd
  have hregs : GoesOn spc { push d.la d.lc d with la := la, lc := count.setWidth 16 } := hfirst
  exact aluKept_goesOn.setSr _ _ (goesOn_push _ _ hregs)

theorem goesOn_lua (op : BitVec 32) (hd : GoesOn spc d) : GoesOn spc (lua op d) := by
  have hea := goesOn_eaCalc ((field op 11 3 <<< 3) ||| field op 8 7) hd
  unfold lua
  exact prop_ite hea hea

/-!
## Handing on control
-/

theorem wentOn_of_goesOn (hd : GoesOn spc d) : WentOn spc d := fun _ => hd.2

theorem pop_flow (d : Dsp π) : (pop d).flow = d.flow := by
  unfold pop
  dsimp only
  split
  · rfl
  · rfl

theorem closeLoop_flow (d : Dsp π) : (closeLoop d).flow = d.flow := by
  unfold closeLoop
  rw [pop_flow]
  exact pop_flow _

theorem stackUp_flow (d : Dsp π) : (stackUp d).flow = d.flow := by
  unfold stackUp
  dsimp only
  split
  · rfl
  · rfl

theorem enterSub_flow (ret target : BitVec 16) (d : Dsp π) :
    (enterSub ret target d).flow = d.flow := stackUp_flow d

theorem doJsr_flow (target : BitVec 16) (d : Dsp π) :
    (doJsr target d).flow = .called (!d.inFastIrq && callAtLa d) := by
  unfold doJsr
  cases hfast : d.inFastIrq with
  | true => exact enterSub_flow d.irqRetPc target { d with inFastIrq := false, flow := .called false }
  | false =>
      dsimp only
      rw [if_neg Bool.false_ne_true, Bool.not_false, Bool.true_and]
      split
      · split
        · rw [enterSub_flow, closeLoop_flow]
        · rw [enterSub_flow]
      · rw [enterSub_flow]

theorem wentOn_goTo (call : Bool) (target : BitVec 16) (d : Dsp π) :
    WentOn spc (goTo call target d) := by
  apply wentOn_of_not_through
  cases call with
  | false => exact Flow.noConfusion
  | true =>
      show (doJsr target d).flow ≠ .through
      rw [doJsr_flow]
      exact Flow.noConfusion

theorem wentOn_execSystem (op : BitVec 32) (hd : GoesOn spc d) : WentOn spc (execSystem op d) := by
  have hwent := wentOn_of_goesOn hd
  have hrti : WentOn spc (rti d) := by
    apply wentOn_of_not_through
    unfold rti
    rw [pop_flow]
    exact Flow.noConfusion
  have hrts : WentOn spc (rts d) := by
    apply wentOn_of_not_through
    unfold rts
    rw [pop_flow]
    exact Flow.noConfusion
  have hclose := wentOn_of_goesOn (goesOn_closeLoop hd)
  have handi : forall which imm, WentOn spc (andi which imm d) := by
    intro which imm
    unfold andi
    split
    all_goals exact hwent
  have hori : forall which imm, WentOn spc (ori which imm d) := by
    intro which imm
    unfold ori
    split
    all_goals exact hwent
  unfold execSystem
  refine prop_ite hwent (prop_ite hrti (prop_ite hwent (prop_ite hwent (prop_ite hrts ?_))))
  refine prop_ite hwent (prop_ite hwent (prop_ite hwent (prop_ite hclose ?_)))
  exact prop_ite (handi _ _) (prop_ite (hori _ _) hwent)

theorem wentOn_execShortJump (op : BitVec 32) (startPc : BitVec 16) (hd : GoesOn spc d) :
    WentOn spc (execShortJump op startPc d) := by
  have hwent := wentOn_of_goesOn hd
  have hjump : WentOn spc (jumpTo (shortTarget op) d) :=
    wentOn_goTo false (shortTarget op) d
  have hcall : WentOn spc (doJsr (shortTarget op) d) := wentOn_goTo true (shortTarget op) d
  unfold execShortJump
  split
  · exact prop_ite (prop_ite hjump hjump) hwent
  · exact prop_ite hcall hwent
  · exact prop_ite hjump hwent
  · exact prop_ite hcall hwent

theorem kept_goesOn (h : Periph π) (spc : BitVec 16) :
    Kept h (GoesOn spc) (WentOn spc) (fun _ => True) fun _ => True where
  alu := aluKept_goesOn
  weaken := fun _ hd => wentOn_of_goesOn hd
  memRd := fun space a _ hd => ⟨trivial, goesOn_memRd h space a hd⟩
  memWr := fun space a v _ hd => goesOn_memWr h space a v hd
  fetch := fun _ hd => goesOn_fetch hd
  eaCalc := fun mode _ hd => goesOn_eaCalc mode hd
  eaXy := fun mm rn _ hd => goesOn_eaXy mm rn hd
  regRead := fun code _ hd => goesOn_regRead code hd
  regWrite := fun code v _ hd => goesOn_regWrite code v hd
  pendWrite := fun w _ hd => goesOn_pendWrite w hd
  xySet := fun code v _ _ hd => goesOn_xySet code v hd
  execSystem := fun op _ hd => wentOn_execSystem op hd
  lua := fun op _ hd => goesOn_lua op hd
  startDo := fun count la _ hd => goesOn_startDo count la hd
  goTo := fun call target d _ => wentOn_goTo call target d
  waits := fun _ hd => hd
  rewind := fun _ _ hd _ => ⟨rfl, hd.2⟩
  setLc := fun _ _ hd => hd
  execShortJump := fun op startPc _ hd => wentOn_execShortJump op startPc hd

/-!
## The test
-/

theorem waitLoop_flow (tgt : BitVec 16) (d : Dsp π) :
    (waitLoop tgt d).flow = d.flow ∧ (waitLoop tgt d).pc = d.pc ∧ (waitLoop tgt d).words = d.words := by
  unfold waitLoop
  dsimp only
  split
  · exact ⟨rfl, rfl, rfl⟩
  · exact ⟨rfl, rfl, rfl⟩

theorem instruction_spec (h : Periph π) (fuel : Nat) :
    Spec (fun _ : Dsp π => True) (instruction h fuel) fun p d =>
      WentOn p.1 d ∧ d.pc = p.2 := by
  unfold instruction
  have hbegin : Spec (fun _ : Dsp π => True) (act beginInstr) fun _ d => GoesOn d.pc d :=
    Spec.act fun d _ => ⟨rfl, (BitVec.add_zero d.pc).symm⟩
  refine Spec.bind hbegin fun _ => ?_
  have hlook : Spec (fun d : Dsp π => GoesOn d.pc d) (look fun d => d.pc) fun spc d =>
      GoesOn spc d := Spec.look fun _ hd => hd
  refine Spec.bind hlook fun spc => ?_
  refine Spec.bind (kept_goesOn h spc).keepsFetch fun op => ?_
  refine Spec.bind ((kept_goesOn h spc).execute fuel op) fun _ => ?_
  have hafter : Spec (WentOn (π := π) spc) (look fun d => d.pc) fun npc d =>
      WentOn spc d ∧ d.pc = npc := Spec.look fun _ hd => ⟨hd, rfl⟩
  refine Spec.bind hafter fun npc => ?_
  refine Spec.bind (Spec.act fun d hd => ?_) fun _ => Spec.pure fun d hd => hd
  obtain ⟨hflow, hpc, hwords⟩ := waitLoop_flow npc d
  refine prop_ite (P := fun d => WentOn spc d ∧ d.pc = npc) ?_ hd
  unfold WentOn
  rw [hflow, hpc, hwords]
  exact hd

/-- The end of a loop is acted on: LC counts down and the loop goes round, or the loop is
over. -/
def endedLoop (d : Dsp π) : Dsp π :=
  if d.lc = 1 then { closeLoop d with pc := d.la + 1 }
  else { d with lc := d.lc - 1, pc := sshTop d }

def EndsLoop (spc npc : BitVec 16) (d : Dsp π) : Prop :=
  d.idleHint = false ∧ flag d srLF = true ∧ (npc - spc - 1).toNat ≤ 1 ∧ npc - 1 = d.la

theorem afterInstr_endsLoop (stop : Nat) {npc : BitVec 16} (hend : EndsLoop spc npc d) :
    afterInstr stop spc npc d = (true, endedLoop d) := by
  obtain ⟨hidle, hlf, hnear, hla⟩ := hend
  unfold afterInstr endTest loopEndCheck endedLoop
  rw [hidle, if_neg Bool.false_ne_true, if_pos ⟨hlf, hnear⟩, hla, hlf, if_neg (by simp)]

theorem afterInstr_goesOn (stop : Nat) {npc : BitVec 16} (hidle : d.idleHint = false)
    (hend : ¬ EndsLoop spc npc d) : afterInstr stop spc npc d = (true, d) := by
  unfold afterInstr endTest
  rw [hidle, if_neg Bool.false_ne_true]
  split
  · rename_i hnear
    unfold loopEndCheck
    rw [if_pos]
    right
    intro hla
    exact hend ⟨hidle, hnear.1, hnear.2, hla⟩
  · rfl

def lastWord (spc : BitVec 16) (d : Dsp π) : BitVec 16 := spc + BitVec.ofNat 16 d.words - 1

/-- Under the loop flag, the end of a loop is acted on after an instruction that goes on
to the next word if its last word is at LA and never after one that jumps, other than a
call whose last word is at LA. -/
def EndsOnlyAtLa (spc npc : BitVec 16) (d : Dsp π) : Prop :=
  flag d srLF = true ->
    match d.flow with
    | .through => EndsLoop spc npc d <-> lastWord spc d = d.la
    | .jumped => ¬ EndsLoop spc npc d
    | .called atLa => atLa = false -> ¬ EndsLoop spc npc d

/-- A jump, a return or a call leads to the address after LA, one word or two on from where
it is itself. -/
def JumpsPastLa (spc npc : BitVec 16) (d : Dsp π) : Prop :=
  (d.flow = .jumped ∨ d.flow = .called false) ∧ d.idleHint = false ∧ npc = d.la + 1 ∧
    (npc = spc + 1 ∨ npc = spc + 2)

/-- An instruction whose last word is at LA has more than two words, or leaves a hint to
skip ahead. -/
def MissesLa (spc : BitVec 16) (d : Dsp π) : Prop :=
  d.flow = .through ∧ lastWord spc d = d.la ∧
    (d.idleHint = true ∨ BitVec.ofNat 16 d.words ≠ 1 ∧ BitVec.ofNat 16 d.words ≠ 2)

theorem near_iff (x : BitVec 16) : (x - 1).toNat ≤ 1 <-> x = 1 ∨ x = 2 := by
  constructor
  · intro h
    have hx : x = x - 1 + 1 := (BitVec.sub_add_cancel x 1).symm
    have hcases : x - 1 = 0 ∨ x - 1 = 1 := by
      rcases Nat.le_one_iff_eq_zero_or_eq_one.mp h with hzero | hone
      · exact Or.inl (BitVec.eq_of_toNat_eq hzero)
      · exact Or.inr (BitVec.eq_of_toNat_eq hone)
    rcases hcases with hzero | hone
    · exact Or.inl (by rw [hx, hzero]; rfl)
    · exact Or.inr (by rw [hx, hone]; rfl)
  · rintro (rfl | rfl)
    · decide
    · decide

theorem endsLoop_iff (spc npc : BitVec 16) (hlf : flag d srLF = true) :
    EndsLoop spc npc d <->
      d.idleHint = false ∧ npc = d.la + 1 ∧ (npc = spc + 1 ∨ npc = spc + 2) := by
  have hone : npc - spc = 1 <-> npc = spc + 1 := by
    rw [BitVec.sub_eq_iff_eq_add, BitVec.add_comm]
  have htwo : npc - spc = 2 <-> npc = spc + 2 := by
    rw [BitVec.sub_eq_iff_eq_add, BitVec.add_comm]
  have hla : npc - 1 = d.la <-> npc = d.la + 1 := BitVec.sub_eq_iff_eq_add
  unfold EndsLoop
  rw [near_iff, hone, htwo, hla]
  constructor
  · rintro ⟨hidle, -, hnear, hpast⟩
    exact ⟨hidle, hpast, hnear⟩
  · rintro ⟨hidle, hpast, hnear⟩
    exact ⟨hidle, hlf, hnear, hpast⟩

theorem lastWord_eq_iff (hpc : d.pc = spc + BitVec.ofNat 16 d.words) :
    lastWord spc d = d.la <-> d.pc = d.la + 1 := by
  unfold lastWord
  rw [<- hpc]
  exact BitVec.sub_eq_iff_eq_add

theorem endsOnlyAtLa_iff (hlf : flag d srLF = true) (hwent : WentOn spc d) :
    EndsOnlyAtLa spc d.pc d <-> ¬ JumpsPastLa spc d.pc d ∧ ¬ MissesLa spc d := by
  have hends := endsLoop_iff spc d.pc hlf
  unfold EndsOnlyAtLa JumpsPastLa MissesLa
  cases hflow : d.flow with
  | through =>
      have hpc := hwent hflow
      have hwords : forall w : BitVec 16, d.pc = spc + w <-> BitVec.ofNat 16 d.words = w := by
        intro w
        rw [hpc]
        exact BitVec.add_right_inj spc
      rw [lastWord_eq_iff hpc]
      rw [hwords 1, hwords 2] at hends
      dsimp only
      rw [hends]
      cases d.idleHint with
      | false => grind
      | true => grind
  | jumped =>
      dsimp only
      rw [hends]
      grind
  | called atLa =>
      dsimp only
      rw [hends]
      cases atLa with
      | false => grind
      | true => grind

/-- After an instruction that ends with the loop flag set, the test takes the instruction
for the end of a loop exactly where it should, other than for a jump past LA over at most
one word and for an instruction of more than two words. -/
theorem loop_end_at_la_iff (h : Periph π) (fuel : Nat) (d d' : Dsp π) (spc npc : BitVec 16)
    (hrun : instruction h fuel d = some ((spc, npc), d')) (hlf : flag d' srLF = true) :
    (forall stop,
      (EndsLoop spc npc d' -> afterInstr stop spc npc d' = (true, endedLoop d')) ∧
      (¬ EndsLoop spc npc d' -> (afterInstr stop spc npc d').2.toRegs = d'.toRegs)) ∧
    (EndsOnlyAtLa spc npc d' <-> ¬ JumpsPastLa spc npc d' ∧ ¬ MissesLa spc d') := by
  obtain ⟨hwent, hpc⟩ := instruction_spec h fuel d trivial _ hrun
  dsimp only at hwent hpc
  subst hpc
  refine ⟨fun stop => ⟨afterInstr_endsLoop stop, fun hend => ?_⟩, endsOnlyAtLa_iff hlf hwent⟩
  cases hidle : d'.idleHint with
  | false => rw [afterInstr_goesOn stop hidle hend]
  | true =>
      unfold afterInstr
      rw [hidle]
      rfl

/-- The instruction at `$40` of a loop from `$30`, with five passes to go. -/
def inLoop (word : BitVec 32) (la : BitVec 16) : Dsp Unit :=
  { dsp56kInit (fun _ => 0) () with
    pc := 0x40, la := la, lc := 5, sr := 0x8300, sp := 2
    ssh := fun _ => 0x30
    pint := fun a => if a = 0x40 then word else 0 }

/-- NOP as the last word of the loop. -/
theorem loop_end_at_la_iff_nop :
    exists d', instruction noHooks 0 (inLoop 0 0x40) = some ((0x40, 0x41), d') ∧
      EndsLoop 0x40 0x41 d' ∧ EndsOnlyAtLa 0x40 0x41 d' := by
  refine ⟨_, rfl, ⟨rfl, rfl, by decide, rfl⟩, ?_⟩
  refine (loop_end_at_la_iff noHooks 0 (inLoop 0 0x40) _ 0x40 0x41 rfl rfl).2.mpr ⟨?_, ?_⟩
  · rintro ⟨hflow | hflow, -⟩
    · cases hflow
    · cases hflow
  · rintro ⟨-, -, hidle | hwords⟩
    · cases hidle
    · exact hwords.1 rfl

/-- JMP `$42` in a loop to LA = `$41` is taken for the end of a pass: the run goes on at
the start of the loop. -/
theorem not_loop_end_at_la :
    Option.map (fun r => (r.2.pc, r.2.lc)) (dsp56kRun noHooks 0 2 (inLoop 0x0C0042 0x41)) =
      some (0x30, 4) ∧
    ¬ forall (d d' : Dsp Unit) (spc npc : BitVec 16),
      instruction noHooks 0 d = some ((spc, npc), d') -> flag d' srLF = true ->
        EndsOnlyAtLa spc npc d' := by
  refine ⟨rfl, fun hall => ?_⟩
  have hjump := hall (inLoop 0x0C0042 0x41) _ 0x40 0x42 rfl rfl rfl
  exact hjump ⟨rfl, rfl, by decide, rfl⟩

end
end Dsp56k
end PistormAtari
