import Mathlib
import PistormAtari.Dsp.AluRules
import PistormAtari.Dsp.Run

/-!
# The interpreter of the DSP: what the decoder preserves

The decoder is gone through once.  A condition on the state that each part it is made of
preserves holds after every instruction; the parts that hand on control may turn it into
a weaker one.
-/

namespace PistormAtari
namespace Dsp56k

open Falcon (Space)
open Foundation (act ask look times Spec Keeps)

section
variable {π : Type}

/-- The parts of the decoder keep a condition `P`, and where they hand on control they
give `Q`.  The accumulators meet `A`, and what is read from memory meets `W`. -/
structure Kept (h : Periph π) (P Q : Dsp π -> Prop) (A : BitVec 64 -> Prop)
    (W : BitVec 32 -> Prop) : Prop where
  alu : AluKept P A
  weaken : forall d, P d -> Q d
  memRd : forall space a d, P d -> W (memRd h space a d).1 ∧ P (memRd h space a d).2
  memWr : forall space a v d, P d -> P (memWr h space a v d)
  fetch : forall d, P d -> P (fetch d).2
  eaCalc : forall mode d, P d -> P (eaCalc mode d).2
  eaXy : forall mm rn d, P d -> P (eaXy mm rn d).2
  regRead : forall code d, P d -> P (regRead code d).2
  regWrite : forall code v d, P d -> P (regWrite code v d)
  pendWrite : forall w d, P d -> P (pendWrite d w)
  xySet : forall code v d, W v -> P d -> P (xySet code v d)
  execSystem : forall op d, P d -> Q (execSystem op d)
  lua : forall op d, P d -> P (lua op d)
  startDo : forall count la d, P d -> P (startDo count la d)
  goTo : forall call target d, P d -> Q (goTo call target d)
  waits : forall d, Q d -> Q (waits d)
  rewind : forall d d', P d -> Q d' -> P (rewind d.pc d.words d')
  setLc : forall lc d, Q d -> Q { d with lc := lc }
  execShortJump : forall op startPc d, P d -> Q (execShortJump op startPc d)

variable {h : Periph π} {P Q : Dsp π -> Prop} {A : BitVec 64 -> Prop}
  {W : BitVec 32 -> Prop}

namespace Kept

section

variable (k : Kept h P Q A W)

include k

theorem rd (space : Space) (a : BitVec 16) :
    Spec P (rd h space a) fun v d => W v ∧ P d := Spec.ask (k.memRd space a)

theorem keepsRd (space : Space) (a : BitVec 16) : Keeps P (Dsp56k.rd h space a) :=
  Keeps.ask fun d hd => (k.memRd space a d hd).2

theorem keepsWr (space : Space) (a : BitVec 16) (v : BitVec 32) :
    Keeps P (wr h space a v) := Keeps.act (k.memWr space a v)

theorem keepsRegRead (code : Nat) : Keeps P (ask (Dsp56k.regRead (π := π) code)) :=
  Keeps.ask (k.regRead code)

theorem keepsRegWrite (code : Nat) (v : BitVec 32) :
    Keeps P (act (Dsp56k.regWrite (π := π) code v)) := Keeps.act (k.regWrite code v)

theorem keepsEaCalc (mode : Nat) : Keeps P (ask (Dsp56k.eaCalc (π := π) mode)) :=
  Keeps.ask (k.eaCalc mode)

theorem keepsFetch : Keeps P (ask (Dsp56k.fetch (π := π))) := Keeps.ask k.fetch

theorem keepsIllegal : Keeps P (act (Dsp56k.illegal (π := π))) :=
  Keeps.act fun _ hd => k.alu.illegal _ hd

theorem keepsBus (which : Bool) :
    Keeps P (ask fun d : Dsp π => Dsp56k.accBus24 (acc d which) d) :=
  Keeps.ask fun _ hd => k.alu.accBus24 _ hd

end

theorem toQ {α : Type} (k : Kept h P Q A W) {m : DspM π α} (hm : Keeps P m) :
    Spec P m fun _ => Q := Spec.mono hm (fun _ hd => hd) fun _ d hd => k.weaken d hd

section

variable (k : Kept h P Q A W)

include k

theorem aluThen (op : BitVec 8) {next : DspM π Unit}
    (hnext : Keeps P next) : Keeps P (aluThen op next) := by
  intro d hd r hr
  unfold Dsp56k.aluThen at hr
  cases halu : Dsp56k.aluOp op d with
  | none =>
      rw [halu] at hr
      cases hr
      exact k.alu.illegal d hd
  | some d' =>
      rw [halu] at hr
      exact hnext d' (k.alu.aluOp op hd d' halu) r hr

theorem pendCommit (p : List Pend) (d : Dsp π) (hd : P d) :
    P (pendCommit p d) := by
  unfold Dsp56k.pendCommit
  induction p generalizing d with
  | nil => exact hd
  | cons w rest ih => exact ih _ (k.pendWrite w d hd)

/-!
## Moves
-/

theorem rdEa (space : Space) (ea : Ea) : Keeps P (rdEa h space ea) := by
  unfold Dsp56k.rdEa
  cases ea.imm with
  | none => exact k.keepsRd space ea.addr
  | some immv => exact Keeps.pure

section

variable (mv : BitVec 16)

include mv

theorem moveXy : Keeps P (moveXy h mv) := by
  unfold Dsp56k.moveXy
  refine Keeps.bind (Keeps.ite Keeps.pure (k.keepsRegRead _)) fun xv => ?_
  refine Keeps.bind (Keeps.ite Keeps.pure (k.keepsRegRead _)) fun yv => ?_
  refine Keeps.bind (Keeps.ask (k.eaXy _ _)) fun xa => ?_
  refine Keeps.bind (Keeps.ask (k.eaXy _ _)) fun ya => ?_
  refine Keeps.bind (Keeps.ite ?_ ?_) fun px => Keeps.bind (Keeps.ite ?_ ?_) fun py => Keeps.pure
  · exact Keeps.bind (k.keepsRd _ _) fun v => Keeps.pure
  · exact Keeps.bind (k.keepsWr _ _ _) fun v => Keeps.pure
  · exact Keeps.bind (k.keepsRd _ _) fun v => Keeps.pure
  · exact Keeps.bind (k.keepsWr _ _ _) fun v => Keeps.pure

theorem moveL : Keeps P (moveL h mv) := by
  unfold Dsp56k.moveL
  refine Keeps.bind (Keeps.ite ?_ Keeps.pure) fun ea => Keeps.ite ?_ ?_
  · exact Keeps.bind (k.keepsEaCalc _) fun ea => Keeps.pure
  · exact Keeps.bind (k.keepsRd _ _) fun xv => Keeps.bind (k.keepsRd _ _) fun yv => Keeps.pure
  · refine Keeps.bind (Keeps.ask fun _ hd => k.alu.longStore _ hd) fun v => ?_
    exact Keeps.bind (k.keepsWr _ _ _) fun _ => Keeps.bind (k.keepsWr _ _ _) fun _ => Keeps.pure

theorem moveMem : Keeps P (moveMem h mv) := by
  unfold Dsp56k.moveMem
  refine Keeps.ite ?_ (Keeps.ite ?_ ?_)
  · refine Keeps.bind (Keeps.ite Keeps.pure (k.keepsRegRead _)) fun sv => ?_
    refine Keeps.bind (k.keepsEaCalc _) fun ea => ?_
    cases ea.imm with
    | some immv => exact Keeps.pure
    | none =>
        refine Keeps.ite ?_ ?_
        · exact Keeps.bind (k.keepsRd _ _) fun v => Keeps.pure
        · exact Keeps.bind (k.keepsWr _ _ _) fun _ => Keeps.pure
  · exact Keeps.bind (k.keepsRd _ _) fun v => Keeps.pure
  · exact Keeps.bind (k.keepsRegRead _) fun sv => Keeps.bind (k.keepsWr _ _ _) fun _ => Keeps.pure

theorem moveXR : Keeps P (moveXR h mv) := by
  unfold Dsp56k.moveXR
  refine Keeps.bind (Keeps.ite Keeps.pure (k.keepsRegRead _)) fun v1 => ?_
  refine Keeps.bind (k.keepsBus _) fun v2 => Keeps.bind (k.keepsEaCalc _) fun ea => ?_
  refine Keeps.ite ?_ ?_
  · exact Keeps.bind (k.rdEa _ _) fun v => Keeps.pure
  · exact Keeps.bind (k.keepsWr _ _ _) fun _ => Keeps.pure

theorem moveRY : Keeps P (moveRY h mv) := by
  unfold Dsp56k.moveRY
  refine Keeps.bind (k.keepsBus _) fun v1 => ?_
  refine Keeps.bind (Keeps.ite Keeps.pure (k.keepsRegRead _)) fun v2 => ?_
  refine Keeps.bind (k.keepsEaCalc _) fun ea => Keeps.ite ?_ ?_
  · exact Keeps.bind (k.rdEa _ _) fun v => Keeps.pure
  · exact Keeps.bind (k.keepsWr _ _ _) fun _ => Keeps.pure

theorem moveAcc : Keeps P (moveAcc h mv) := by
  unfold Dsp56k.moveAcc
  refine Keeps.bind (k.keepsBus _) fun v => Keeps.bind (k.keepsEaCalc _) fun ea => ?_
  exact Keeps.bind (k.keepsWr _ _ _) fun _ => Keeps.bind Keeps.look fun x => Keeps.pure

theorem moveReg : Keeps P (moveReg (π := π) mv) := by
  unfold Dsp56k.moveReg
  refine Keeps.ite (Keeps.ite Keeps.pure (Keeps.ite ?_ (Keeps.ite Keeps.pure ?_)))
    (Keeps.ite Keeps.pure Keeps.pure)
  · exact Keeps.bind (k.keepsEaCalc _) fun _ => Keeps.pure
  · exact Keeps.bind (k.keepsRegRead _) fun v => Keeps.pure

theorem parMove : Keeps P (parMove h mv) := by
  unfold Dsp56k.parMove
  refine Keeps.ite (Spec.map (k.moveXy mv)) (Keeps.ite (Keeps.ite ?_ ?_) (Keeps.ite ?_
    (Keeps.ite (Keeps.ite ?_ ?_) (Keeps.ite ?_ Keeps.pure))))
  · exact Spec.map (k.moveL mv)
  · exact Spec.map (k.moveMem mv)
  · exact k.moveReg mv
  · exact Spec.map (k.moveRY mv)
  · exact Spec.map (k.moveXR mv)
  · exact Spec.map (k.moveAcc mv)

theorem parSlow (op : BitVec 8) : Keeps P (parSlow h mv op) := by
  unfold Dsp56k.parSlow
  refine Keeps.bind (k.parMove mv) fun p => ?_
  cases p with
  | none => exact k.keepsIllegal
  | some p => exact k.aluThen op (Keeps.act (k.pendCommit p))

end

variable (op : BitVec 32)

theorem execPar : Keeps P (execPar h op) := by
  unfold Dsp56k.execPar
  refine Keeps.ite (Keeps.ite ?_ (k.parSlow _ _)) (Keeps.ite ?_ (Keeps.ite ?_ (k.parSlow _ _)))
  · refine Keeps.bind (k.moveMem _) fun v => k.aluThen _ ?_
    cases v with
    | none => exact Keeps.pure
    | some val => exact k.keepsRegWrite _ _
  · exact k.aluThen _ Keeps.pure
  · exact Keeps.bind (k.keepsEaCalc _) fun _ => k.aluThen _ Keeps.pure

theorem execXy : Keeps P (execXy h op) := by
  have hget : forall code, Keeps P (ask (Dsp56k.xyGet (π := π) code)) :=
    fun code => Keeps.ask fun _ hd => k.alu.xyGet code hd
  have hread : forall (w : Bool) space a v,
      Spec P (if w then Dsp56k.rd h space a else do wr h space a v; pure v)
        fun v d => (w = true -> W v) ∧ P d := by
    intro w space a v
    refine Spec.ite (fun _ => ?_) fun hw => ?_
    · exact Spec.mono (k.rd space a) (fun _ hd => hd) fun _ _ hd => ⟨fun _ => hd.1, hd.2⟩
    · refine Spec.bind (k.keepsWr space a v) fun _ => Spec.pure fun d hd => ?_
      exact ⟨fun htrue => absurd htrue hw, hd⟩
  have hset : forall (w : Bool) code v, (w = true -> W v) ->
      Keeps P (if w then act (Dsp56k.xySet (π := π) code v) else pure ()) := by
    intro w code v hv
    exact Spec.ite (fun hw => Keeps.act fun d hd => k.xySet code v d (hv hw) hd) fun _ => Keeps.pure
  unfold Dsp56k.execXy
  refine Spec.bind (Keeps.ite Keeps.pure (hget _)) fun xv => ?_
  refine Spec.bind (Keeps.ite Keeps.pure (hget _)) fun yv => ?_
  refine Spec.bind (Keeps.ask (k.eaXy _ _)) fun xa => ?_
  refine Spec.bind (Keeps.ask (k.eaXy _ _)) fun ya => ?_
  refine Spec.bind (hread _ _ _ _) fun xv => Spec.of_and fun hx => ?_
  refine Spec.bind (hread _ _ _ _) fun yv => Spec.of_and fun hy => ?_
  exact k.aluThen _ (Keeps.bind (hset _ _ _ hx) fun _ => hset _ _ _ hy)

/-!
## Instructions without a parallel move
-/

theorem moveEa (space : Space) (w : Bool) (reg mode : Nat) :
    Keeps P (moveEa h space w reg mode) := by
  unfold Dsp56k.moveEa
  refine Keeps.bind (Keeps.ite Keeps.pure (k.keepsRegRead _)) fun v => ?_
  refine Keeps.bind (k.keepsEaCalc _) fun ea => Keeps.ite ?_ ?_
  · exact Keeps.bind (k.rdEa _ _) fun v => k.keepsRegWrite _ _
  · cases ea.imm with
    | none => exact k.keepsWr _ _ _
    | some immv => exact Keeps.pure

theorem moveAa (space : Space) (w : Bool) (reg : Nat) (ea : BitVec 16) :
    Keeps P (moveAa h space w reg ea) := by
  unfold Dsp56k.moveAa
  refine Keeps.ite ?_ ?_
  · exact Keeps.bind (k.keepsRd _ _) fun v => k.keepsRegWrite _ _
  · exact Keeps.bind (k.keepsRegRead _) fun v => k.keepsWr _ _ _

theorem execLuaMovec : Keeps P (execLuaMovec (π := π) op) := by
  unfold Dsp56k.execLuaMovec
  refine Keeps.ite (Keeps.act (k.lua op)) (Keeps.ite (Keeps.ite ?_ ?_) k.keepsIllegal)
  · exact Keeps.bind (k.keepsRegRead _) fun v => k.keepsRegWrite _ _
  · exact Keeps.bind (k.keepsRegRead _) fun v => k.keepsRegWrite _ _

theorem execMovec : Keeps P (execMovec h op) := by
  unfold Dsp56k.execMovec
  refine Keeps.ite (k.keepsRegWrite _ _) (Keeps.ite (Keeps.ite ?_ ?_) k.keepsIllegal)
  · exact k.moveEa _ _ _ _
  · exact k.moveAa _ _ _ _

theorem execMovem : Keeps P (execMovem h op) := by
  unfold Dsp56k.execMovem
  exact Keeps.ite (k.moveEa _ _ _ _) (Keeps.ite (k.moveAa _ _ _ _) k.keepsIllegal)

theorem movepEa (ppsp easp : Space) (w : Bool) (pp : BitVec 16) (mode : Nat) :
    Keeps P (movepEa h ppsp easp w pp mode) := by
  unfold Dsp56k.movepEa
  refine Keeps.bind (k.keepsEaCalc _) fun ea => Keeps.ite ?_ ?_
  · exact Keeps.bind (k.rdEa _ _) fun v => k.keepsWr _ _ _
  · cases ea.imm with
    | none => exact Keeps.bind (k.keepsRd _ _) fun v => k.keepsWr _ _ _
    | some immv => exact Keeps.pure

theorem execMovep : Keeps P (execMovep h op) := by
  unfold Dsp56k.execMovep
  refine Keeps.ite (k.movepEa _ _ _ _ _) (Keeps.ite (k.movepEa _ _ _ _ _) (Keeps.ite ?_ ?_))
  · exact Keeps.bind (k.keepsRegRead _) fun v => k.keepsWr _ _ _
  · exact Keeps.bind (k.keepsRd _ _) fun v => k.keepsRegWrite _ _

theorem goToWaits (call : Bool) (target : BitVec 16) (c : Prop) [Decidable c]
    (d : Dsp π) (hd : P d) :
    Q (if c then Dsp56k.waits (Dsp56k.goTo call target d) else Dsp56k.goTo call target d) := by
  by_cases hc : c
  · rw [if_pos hc]
    exact k.waits _ (k.goTo call target d hd)
  · rw [if_neg hc]
    exact k.goTo call target d hd

theorem execJump (startPc : BitVec 16) :
    Spec P (execJump (π := π) op startPc) fun _ => Q := by
  unfold Dsp56k.execJump
  refine Spec.ite (fun _ => ?_) fun _ => k.toQ k.keepsIllegal
  refine Spec.bind Keeps.look fun doit => Spec.bind (k.keepsEaCalc _) fun ea => ?_
  exact Spec.ite (fun _ => Spec.act fun d hd => k.goToWaits _ _ _ d hd) fun _ =>
    k.toQ Keeps.pure

theorem jumpOnBit (call : Bool) (v : BitVec 32) (b : Nat) (kind : Bool)
    (waitsAt : Option (BitVec 16)) : Spec P (jumpOnBit (π := π) call v b kind waitsAt) fun _ => Q := by
  unfold Dsp56k.jumpOnBit
  refine Spec.bind k.keepsFetch fun tgt => ?_
  exact Spec.ite (fun _ => Spec.act fun d hd => k.goToWaits _ _ _ d hd) fun _ =>
    k.toQ Keeps.pure

theorem execBitReg :
    Spec P (execBitReg (π := π) op) fun _ => Q := by
  unfold Dsp56k.execBitReg
  refine Spec.bind (k.keepsRegRead _) fun v => Spec.ite (fun _ => k.jumpOnBit _ _ _ _ _) fun _ => ?_
  apply k.toQ
  exact Keeps.bind (Keeps.ask fun _ hd => k.alu.bitop _ _ _ hd) fun nv => Keeps.ite (k.keepsRegWrite _ _) Keeps.pure

theorem bitAddr : Keeps P (bitAddr (π := π) op) := by
  unfold Dsp56k.bitAddr
  refine Keeps.ite ?_ (Keeps.ite Keeps.pure Keeps.pure)
  exact Keeps.bind (k.keepsEaCalc _) fun ea => Keeps.pure

theorem execBitMem (startPc : BitVec 16) :
    Spec P (execBitMem h op startPc) fun _ => Q := by
  unfold Dsp56k.execBitMem
  refine Spec.bind (k.bitAddr op) fun ea => Spec.bind (k.keepsRd _ _) fun v => ?_
  refine Spec.ite (fun _ => k.jumpOnBit _ _ _ _ _) fun _ => k.toQ ?_
  exact Keeps.bind (Keeps.ask fun _ hd => k.alu.bitop _ _ _ hd) fun nv => Keeps.ite (k.keepsWr _ _ _) Keeps.pure

theorem execBits (startPc : BitVec 16) :
    Spec P (execBits h op startPc) fun _ => Q := by
  unfold Dsp56k.execBits
  refine Spec.ite (fun _ => Spec.ite (fun _ => k.execJump _ _) fun _ => k.execBitReg _) fun _ => ?_
  exact k.execBitMem _ _

theorem loopCount : Keeps P (loopCount h op) := by
  unfold Dsp56k.loopCount
  refine Keeps.ite Keeps.pure (Keeps.ite (k.keepsRegRead _) (Keeps.ite ?_ (k.keepsRd _ _)))
  exact Keeps.bind (k.keepsEaCalc _) fun ea => k.keepsRd _ _

variable {again : BitVec 32 -> DspM π Unit}

theorem repeats
    (hagain : forall op, Spec P (again op) fun _ => Q) {d₀ : Dsp π} (hd₀ : P d₀) (n : Nat) :
    Keeps Q (times n (do
      act (Dsp56k.rewind d₀.pc d₀.words)
      let iop <- ask Dsp56k.fetch
      again iop)) := by
  apply Keeps.times
  have hrewind : Spec Q (act (Dsp56k.rewind d₀.pc d₀.words)) fun _ => P :=
    Spec.act fun d hd => k.rewind d₀ d hd₀ hd
  refine Spec.bind hrewind fun _ => ?_
  exact Spec.bind k.keepsFetch fun iop => hagain iop

theorem execLoop (hagain : forall op, Spec P (again op) fun _ => Q) (op : BitVec 32) :
    Spec P (execLoop h again op) fun _ => Q := by
  unfold Dsp56k.execLoop
  refine Spec.bind (k.loopCount op) fun count => Spec.ite (fun _ => ?_) fun _ => ?_
  · intro d hd r hr
    -- The three values are read off the one state before the first round.
    have hrun := Spec.bind (k.repeats hagain hd
      (if count &&& 0xFFFF = 0 then 0x10000 else (count &&& 0xFFFF).toNat))
      fun _ => Keeps.act fun d' hd' => k.setLc d.lc d' hd'
    exact hrun d (k.weaken d hd) r hr
  · refine Spec.bind k.keepsFetch fun la => ?_
    exact k.toQ (Keeps.act (k.startDo _ _))

theorem execNonpar
    (hagain : forall op, Spec P (again op) fun _ => Q) (op : BitVec 32) (startPc : BitVec 16) :
    Spec P (execNonpar h again op startPc) fun _ => Q := by
  unfold Dsp56k.execNonpar
  split
  · exact Spec.act (k.execSystem op)
  · exact k.toQ (Keeps.act fun _ hd => k.alu.execDivNorm op hd)
  · exact k.toQ (Keeps.act fun _ hd => k.alu.tcc op hd)
  · exact k.toQ (Keeps.act fun _ hd => k.alu.tcc op hd)
  · exact k.toQ (k.execLuaMovec op)
  · exact k.toQ (k.execMovec op)
  · exact k.execLoop hagain op
  · exact k.toQ (k.execMovem op)
  · exact k.toQ (k.execMovep op)
  · exact k.toQ (k.execMovep op)
  · exact k.execBits op startPc
  · exact k.execBits op startPc
  · exact Spec.act (k.execShortJump op startPc)
  · exact Spec.act (k.execShortJump op startPc)
  · exact Spec.act (k.execShortJump op startPc)
  · exact Spec.act (k.execShortJump op startPc)
  · exact k.toQ k.keepsIllegal

theorem execute (fuel : Nat) (op : BitVec 32) :
    Spec P (execute h fuel op) fun _ => Q := by
  induction fuel generalizing op with
  | zero =>
      unfold Dsp56k.execute
      refine Spec.bind Keeps.look fun startPc => Spec.ite (fun _ => k.toQ (k.execXy op)) fun _ => ?_
      refine Spec.ite (fun _ => k.toQ (k.execPar op)) fun _ => k.execNonpar ?_ op startPc
      intro _ _ _ _ hr
      cases hr
  | succ fuel ih =>
      unfold Dsp56k.execute
      refine Spec.bind Keeps.look fun startPc => Spec.ite (fun _ => k.toQ (k.execXy op)) fun _ => ?_
      exact Spec.ite (fun _ => k.toQ (k.execPar op)) fun _ => k.execNonpar ih op startPc

end

end Kept
end
end Dsp56k
end PistormAtari
