import Mathlib
import PistormAtari.Dsp.Execute

/-!
# The interpreter of the DSP: what the data ALU preserves

The ALU and the buses change the accumulators and the status register.  A condition that
both kinds of change preserve is preserved by every operation.
-/

namespace PistormAtari
namespace Dsp56k

section
variable {π : Type}

/-!
## Optional states
-/

/-- The state after one of the encodings of a group meets a condition, if it exists. -/
def Results (P : Dsp π -> Prop) (r : Option (Dsp π)) : Prop := forall d, r = some d -> P d

variable {P : Dsp π -> Prop} {A : BitVec 64 -> Prop}

theorem results_some {d : Dsp π} (hd : P d) : Results P (some d) := by
  intro e he
  cases he
  exact hd

theorem results_none : Results P none := by
  intro e he
  cases he

theorem results_ite {c : Prop} [Decidable c] {r r' : Option (Dsp π)} (hr : Results P r)
    (hr' : Results P r') : Results P (if c then r else r') := by
  by_cases hc : c
  · rw [if_pos hc]
    exact hr
  · rw [if_neg hc]
    exact hr'

theorem prop_ite {c : Prop} [Decidable c] {d d' : Dsp π} (hd : P d) (hd' : P d') :
    P (if c then d else d') := by
  by_cases hc : c
  · rw [if_pos hc]
    exact hd
  · rw [if_neg hc]
    exact hd'

/-!
## The parts
-/

/-- The changes that the ALU is made of keep a condition, of which the accumulators meet
`A`. -/
structure AluKept (P : Dsp π -> Prop) (A : BitVec 64 -> Prop) : Prop where
  acc : forall which d, P d -> A (acc d which)
  sx56 : forall v, A (sx56 v)
  sx48 : forall v, A (sx48 v)
  accFrom24 : forall v, A (accFrom24 v)
  half : forall v, A v -> A (v.sshiftRight 1)
  zero : A 0
  setSr : forall sr d, P d -> P (setSr sr d)
  setAcc : forall which v d, A v -> P d -> P (setAcc which v d)
  setR : forall rn v d, P d -> P (setR rn v d)
  illegal : forall d, P d -> P (illegal d)

namespace AluKept

variable {d : Dsp π}

section

variable (k : AluKept P A)

include k

theorem flagsEuzn (v : BitVec 64) (hd : P d) : P (flagsEuzn v d) := by
  unfold Dsp56k.flagsEuzn
  exact prop_ite (k.setSr _ _ hd) (k.setSr _ _ hd)

theorem setV (v : Bool) (hd : P d) : P (setV v d) :=
  prop_ite (k.setSr _ _ hd) (k.setSr _ _ hd)

theorem setC (c : Bool) (hd : P d) : P (setC c d) :=
  prop_ite (k.setSr _ _ hd) (k.setSr _ _ hd)

theorem bitop (v : BitVec 32) (b kind : Nat) (hd : P d) : P (bitop v b kind d).2 :=
  k.setC _ hd

theorem accBus24 (v : BitVec 64) (hd : P d) : P (accBus24 v d).2 := by
  have hmark : P (markScaled (scaled d v) d) := k.setSr _ _ hd
  unfold Dsp56k.accBus24
  dsimp only
  split
  · exact k.setSr _ _ hmark
  · exact hmark

theorem accBus48 (v : BitVec 64) (hd : P d) : P (accBus48 v d).2 := by
  have hmark : P (markScaled (scaled d v) d) := k.setSr _ _ hd
  unfold Dsp56k.accBus48
  dsimp only
  split
  · exact k.setSr _ _ hmark
  · exact hmark

theorem xyGet (code : Nat) (hd : P d) : P (xyGet code d).2 := by
  unfold Dsp56k.xyGet
  split
  · exact hd
  · exact hd
  · exact hd
  · exact hd
  · exact k.accBus24 _ hd
  · exact k.accBus24 _ hd

end

theorem busHalves {r : BitVec 64 × Dsp π} (hr : P r.2) : P (busHalves r).2 := hr

section

variable (k : AluKept P A)

include k

theorem busPair (one two : Bool) (hd : P d) : P (busPair one two d).2 := by
  unfold Dsp56k.busPair
  dsimp only
  exact k.accBus24 _ (k.accBus24 _ hd)

theorem longStore (lll : Nat) (hd : P d) : P (longStore lll d).2 := by
  unfold Dsp56k.longStore
  split
  · exact hd
  · exact hd
  · exact hd
  · exact hd
  · exact busHalves (k.accBus48 _ hd)
  · exact busHalves (k.accBus48 _ hd)
  · exact k.busPair _ _ hd
  · exact k.busPair _ _ hd

/-!
## Arithmetic
-/

theorem aluAdd (dst src : BitVec 64) (carryIn setCarry : Bool) (hd : P d) :
    A (aluAdd dst src carryIn setCarry d).1 ∧ P (aluAdd dst src carryIn setCarry d).2 := by
  unfold Dsp56k.aluAdd
  dsimp only
  refine ⟨k.sx56 _, k.flagsEuzn _ ?_⟩
  exact prop_ite (k.setC _ (k.setV _ hd)) (k.setV _ hd)

theorem aluSub (dst src : BitVec 64) (borrowIn setCarry : Bool) (hd : P d) :
    A (aluSub dst src borrowIn setCarry d).1 ∧ P (aluSub dst src borrowIn setCarry d).2 := by
  unfold Dsp56k.aluSub
  dsimp only
  refine ⟨k.sx56 _, k.flagsEuzn _ ?_⟩
  exact prop_ite (k.setC _ (k.setV _ hd)) (k.setV _ hd)

theorem aluRound (v : BitVec 64) (hd : P d) :
    A (aluRound v d).1 ∧ P (aluRound v d).2 := by
  unfold Dsp56k.aluRound
  dsimp only
  exact ⟨k.sx56 _, k.flagsEuzn _ (k.setV _ hd)⟩

theorem keep (dbit : Bool) {r : BitVec 64 × Dsp π} (hr : A r.1 ∧ P r.2) :
    P (keep dbit r) := k.setAcc dbit _ _ hr.1 hr.2

theorem other (hd : P d) (dbit : Bool) : A (if dbit then d.a else d.b) := by
  cases dbit with
  | false => exact k.acc true d hd
  | true => exact k.acc false d hd

theorem jjjSrc (hd : P d) (jjj : Nat) (dbit : Bool) : A (jjjSrc d jjj dbit) := by
  have hother := k.other hd dbit
  unfold Dsp56k.jjjSrc
  split
  · exact hother
  · exact hother
  · exact k.sx48 _
  · exact k.sx48 _
  · exact k.accFrom24 _
  · exact k.accFrom24 _
  · exact k.accFrom24 _
  · exact k.accFrom24 _

theorem mulFast (op : BitVec 8) (dbit : Bool) (hd : P d) :
    P (mulFast op dbit d) := by
  unfold Dsp56k.mulFast
  dsimp only
  apply k.setAcc
  · repeat' split
    all_goals exact k.sx56 _
  · exact k.setSr _ _ hd

theorem mulSlow (op : BitVec 8) (dbit : Bool) (hd : P d) :
    P (mulSlow op dbit d) := by
  have hproduct : forall p,
      A (if op.getLsbD 1 then
        ((Dsp56k.aluAdd (Dsp56k.acc d dbit) p false false d).1,
          Dsp56k.setSr ((Dsp56k.aluAdd (Dsp56k.acc d dbit) p false false d).2.sr &&& ~~~srC |||
            d.sr &&& srC) (Dsp56k.aluAdd (Dsp56k.acc d dbit) p false false d).2)
      else (Dsp56k.sx56 p, Dsp56k.flagsEuzn (Dsp56k.sx56 p)
        (Dsp56k.setSr (d.sr &&& ~~~srV) d))).1 ∧
      P (if op.getLsbD 1 then
        ((Dsp56k.aluAdd (Dsp56k.acc d dbit) p false false d).1,
          Dsp56k.setSr ((Dsp56k.aluAdd (Dsp56k.acc d dbit) p false false d).2.sr &&& ~~~srC |||
            d.sr &&& srC) (Dsp56k.aluAdd (Dsp56k.acc d dbit) p false false d).2)
      else (Dsp56k.sx56 p, Dsp56k.flagsEuzn (Dsp56k.sx56 p)
        (Dsp56k.setSr (d.sr &&& ~~~srV) d))).2 := by
    intro p
    have hadd := k.aluAdd (Dsp56k.acc d dbit) p false false hd
    split
    · exact ⟨hadd.1, k.setSr _ _ hadd.2⟩
    · exact ⟨k.sx56 _, k.flagsEuzn _ (k.setSr _ _ hd)⟩
  unfold Dsp56k.mulSlow
  dsimp only
  apply k.keep
  split
  · exact k.aluRound _ (hproduct _).2
  · exact hproduct _

theorem logic (dbit : Bool) (a1 : BitVec 32) (hd : P d) : P (logic dbit a1 d) := by
  have hacc := k.setAcc dbit (withA1 (Dsp56k.acc d dbit) a1) d (k.sx56 _) hd
  exact k.setSr _ _ hacc

theorem markDoubled (u : BitVec 64) (hd : P d) : P (markDoubled u d) :=
  prop_ite (k.setSr _ _ hd) hd

theorem aluLow (low jjj : Nat) (dbit : Bool) (hd : P d) :
    Results P (aluLow low jjj dbit d) := by
  have hother := k.other hd dbit
  unfold Dsp56k.aluLow
  dsimp only
  split
  · refine results_ite results_none (results_some ?_)
    exact k.keep _ (k.aluAdd _ _ _ _ hd)
  · refine results_ite (results_some ?_) (results_ite (results_some ?_)
      (results_ite (results_some ?_) (results_some ?_)))
    · exact k.setAcc _ _ _ hother hd
    · exact k.keep _ (k.aluRound _ hd)
    · exact k.keep _ (k.aluAdd _ _ _ _ hd)
    · exact k.setAcc _ _ _ (k.jjjSrc hd _ _) hd
  · refine results_ite (results_some ?_) (results_ite (results_some ?_)
      (results_ite (results_some ?_) (results_ite (results_some ?_) (results_some ?_))))
    · exact k.keep _ (k.aluAdd _ _ _ _ hd)
    · exact k.markDoubled _ (k.keep _ (k.aluAdd _ _ _ _ hd))
    · refine k.flagsEuzn _ (k.setSr _ _ ?_)
      exact k.setAcc _ _ _ (k.half _ (k.acc dbit _ hd)) (k.setC _ hd)
    · exact k.flagsEuzn _ (k.setAcc _ _ _ (k.sx56 _) (k.setV _ (k.setC _ hd)))
    · exact k.logic _ _ hd
  · refine results_ite (results_some ?_) (results_ite (results_some ?_)
      (results_ite (results_some ?_) (results_ite (results_some ?_) (results_some ?_))))
    · exact k.flagsEuzn _ (k.setSr _ _ hd)
    · exact k.setSr _ _ (k.setAcc dbit _ _ k.zero hd)
    · exact k.logic _ _ (k.setC _ hd)
    · exact k.logic _ _ (k.setC _ hd)
    · exact k.logic _ _ hd

theorem aluHigh (low jjj : Nat) (dbit : Bool) (hd : P d) :
    Results P (aluHigh low jjj dbit d) := by
  unfold Dsp56k.aluHigh
  dsimp only
  split
  · refine results_ite results_none (results_some ?_)
    exact k.keep _ (k.aluSub _ _ _ _ hd)
  · refine results_ite (results_some ?_) (results_ite results_none
      (results_ite (results_some ?_) (results_some ?_)))
    · exact (k.aluSub _ _ _ _ hd).2
    · exact k.keep _ (k.aluSub _ _ _ _ hd)
    · exact (k.aluSub _ _ _ _ hd).2
  · refine results_ite (results_some ?_) (results_ite (results_some ?_)
      (results_ite (results_some ?_) (results_ite (results_some ?_) (results_some ?_))))
    · exact k.keep _ (k.aluSub _ _ _ _ hd)
    · exact k.markDoubled _ (k.keep _ (k.aluSub _ _ _ _ hd))
    · apply k.setSr
      split
      · exact k.keep _ (k.aluSub _ _ _ _ hd)
      · exact k.flagsEuzn _ (k.setSr _ _ hd)
    · exact k.setSr _ _ (k.keep _ (k.aluSub _ _ _ _ hd))
    · exact k.logic _ _ hd
  · refine results_ite (results_some ?_) (results_ite (results_some ?_)
      (results_ite (results_some ?_) (results_some ?_)))
    · exact k.logic _ _ hd
    · exact k.logic _ _ (k.setC _ hd)
    · exact k.logic _ _ (k.setC _ hd)
    · exact (k.aluSub _ _ _ _ hd).2

theorem aluOp (op : BitVec 8) (hd : P d) : Results P (aluOp op d) := by
  unfold Dsp56k.aluOp
  dsimp only
  refine results_ite (results_some hd) (results_ite (results_ite (results_some ?_)
    (results_some ?_)) (results_ite ?_ ?_))
  · exact k.mulFast _ _ hd
  · exact k.mulSlow _ _ hd
  · exact k.aluLow _ _ _ hd
  · exact k.aluHigh _ _ _ hd

/-!
## Division, normalization and transfer
-/

theorem div (jj : Nat) (which : Bool) (hd : P d) : P (div jj which d) := by
  have hacc := fun r => k.setAcc which _ d (k.sx56 r) hd
  unfold Dsp56k.div
  exact prop_ite (k.setSr _ _ (k.setC _ (hacc _))) (k.setSr _ _ (k.setC _ (hacc _)))

theorem norm (rn : Fin 8) (which : Bool) (hd : P d) : P (norm rn which d) := by
  unfold Dsp56k.norm
  dsimp only
  refine prop_ite (k.flagsEuzn _ ?_) (prop_ite (k.flagsEuzn _ ?_) hd)
  · exact k.setR _ _ _ (k.setAcc which _ _ (k.sx56 _) (k.setV _ hd))
  · exact k.setSr _ _ (k.setR _ _ _ (k.setAcc which _ _ (k.half _ (k.acc which _ hd)) hd))

theorem execDivNorm (op : BitVec 32) (hd : P d) : P (execDivNorm op d) := by
  unfold Dsp56k.execDivNorm
  exact prop_ite (k.div _ _ hd) (prop_ite (k.norm _ _ hd) (k.illegal _ hd))

theorem tcc (op : BitVec 32) (hd : P d) : P (tcc op d) := by
  have hsrc : A (if field op 4 7 = 0 then (if op.getLsbD 3 then d.a else d.b)
      else Dsp56k.jjjSrc d (field op 4 7) (op.getLsbD 3)) := by
    split
    · exact k.other hd _
    · exact k.jjjSrc hd _ _
  unfold Dsp56k.tcc
  dsimp only
  refine prop_ite hd (prop_ite (k.setAcc _ _ _ hsrc ?_) (k.illegal _ hd))
  exact prop_ite (k.setR _ _ _ hd) hd

end

end AluKept
end
end Dsp56k
end PistormAtari
