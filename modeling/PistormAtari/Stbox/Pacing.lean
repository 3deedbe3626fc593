import PistormAtari.Stbox.Beam

/-!
# The pace of the STBOX

{lit}`stbox_slice` turns the host time since the last slice into cycles that the guest is owed,
in a signed 32.32 word.  The time is multiplied before the debt is clamped, and it is not
looked at while the machine is halted.
-/

namespace PistormAtari
namespace Stbox

open Foundation

def maxDebtCyc : Int := cycPerVbl

def InInt64 (x : Int) : Prop := -2 ^ 63 ≤ x ∧ x < 2 ^ 63

instance (x : Int) : Decidable (InInt64 x) := inferInstanceAs (Decidable (_ ∧ _))

def toInt64 (x : Int) : Int := x.bmod (2 ^ 64)

theorem toInt64_of_fits {x : Int} (h : InInt64 x) : toInt64 x = x :=
  Int.bmod_eq_of_le (by unfold InInt64 at h; lia) (by unfold InInt64 at h; lia)

structure Budget where
  cyc : Nat
  bounded : 8 ≤ cyc ∧ cyc ≤ 4096

/-- A slice: the cycles that the guest used, an `int` that is not negative, whether it halted,
and the budget that the stop looks at. -/
structure Slice where
  ran : BitVec 31
  halts : Bool
  budget : Budget

/-- The variables of the pacing: `halted` is that {lit}`g_halted` is not 0, and `debt` is
{lit}`g_cyc_debt_fp`.  `overflowed` records that a signed value did not fit. -/
structure Pace where
  armed : Bool
  resetReq : Bool
  halted : Bool
  lastTicks : BitVec 64
  fpStep : Nat
  debt : Int
  overflowed : Bool
deriving DecidableEq, Repr

def coldPace : Pace where
  armed := false
  resetReq := false
  halted := false
  lastTicks := 0
  fpStep := 0
  debt := 0
  overflowed := false

def coreArm (now cntfrq : BitVec 64) (s : Pace) : Pace :=
  { s with
    armed := true
    lastTicks := now
    fpStep := stCpuHz * 2 ^ 32 / cntfrq.toNat
    debt := 0 }

def Pace.put (s : Pace) (x : Int) : Pace :=
  { s with debt := toInt64 x, overflowed := s.overflowed || !decide (InInt64 x) }

def accrue (now : BitVec 64) (s : Pace) : Pace :=
  let product : Nat := (now - s.lastTicks).toNat * s.fpStep
  let s :=
    { s with
      lastTicks := now
      overflowed := s.overflowed || !decide (InInt64 product) }.put (s.debt + toInt64 product)
  if maxDebtCyc < s.debt / 2 ^ 32 then { s with debt := maxDebtCyc * 2 ^ 32 } else s

/-- The slice loop: it ends with the debt, with a halt, or with the host time of the pass. -/
def burst : List Slice -> Pace -> Pace
  | [], s => s
  | slice :: more, s =>
      let s := { s.put (s.debt - slice.ran.toNat * 2 ^ 32) with halted := slice.halts }
      if s.halted then s
      else if s.debt / 2 ^ 32 < slice.budget.cyc then s
      else burst more s

def stboxSlice (now : BitVec 64) (budget : Budget) (one : Slice) (more : List Slice) (s : Pace) :
    Pace :=
  if s.armed then
    let s := if s.resetReq then { s with resetReq := false, halted := false } else s
    if s.halted then s
    else
      let s := accrue now s
      if s.debt / 2 ^ 32 < budget.cyc then s else burst (one :: more) s
  else s

inductive PaceOp where
  | arm (now cntfrq : BitVec 64)
  | disarm
  | requestReset
  | slice (now : BitVec 64) (budget : Budget) (one : Slice) (more : List Slice)

def paceStep (s : Pace) : PaceOp -> Pace
  | .arm now cntfrq => coreArm now cntfrq s
  | .disarm => { s with armed := false }
  | .requestReset => { s with resetReq := true }
  | .slice now budget one more => stboxSlice now budget one more s

/-!
## What pacing should be
-/

def PaceOp.reading : PaceOp -> Option (BitVec 64)
  | .arm now _ => some now
  | .slice now _ _ _ => some now
  | _ => none

def Nondecreasing (ops : List PaceOp) : Prop := (ops.filterMap PaceOp.reading).Pairwise (· ≤ ·)

def Pace.runs (s : Pace) : Prop := s.armed = true ∧ (s.halted = true -> s.resetReq = true)

instance (s : Pace) : Decidable s.runs := inferInstanceAs (Decidable (_ ∧ _))

/-- The ticks since the last pass that found a running machine, or since it was armed. -/
def Pace.gap (s : Pace) (now : BitVec 64) : Nat := now.toNat - s.lastTicks.toNat

/-- No signed value overflows, the debt is clamped, and a pass of a running machine owes it the
cycles of its time up to the clamp: it neither stalls nor runs away. -/
structure PacesWell (s : Pace) (op : PaceOp) : Prop where
  noOverflow : (paceStep s op).overflowed = false
  clamped : (paceStep s op).debt / 2 ^ 32 ≤ maxDebtCyc
  earned : forall now budget one more, op = .slice now budget one more -> s.runs ->
    (accrue now s).debt / 2 ^ 32 =
      min maxDebtCyc ((s.debt + (s.gap now * s.fpStep : Nat)) / 2 ^ 32)

/-- The time since the last pass has room in the word, above what is still owed. -/
def HasRoom (s : Pace) : PaceOp -> Prop
  | .slice now _ _ _ => s.runs -> s.gap now * s.fpStep + s.debt.toNat < 2 ^ 63
  | _ => True

instance : (s : Pace) -> (op : PaceOp) -> Decidable (HasRoom s op)
  | s, .slice now _ _ _ =>
      inferInstanceAs (Decidable (s.runs -> s.gap now * s.fpStep + s.debt.toNat < 2 ^ 63))
  | _, .arm _ _ => isTrue trivial
  | _, .disarm => isTrue trivial
  | _, .requestReset => isTrue trivial

/-!
## The debt
-/

structure PaceInv (s : Pace) : Prop where
  noOverflow : s.overflowed = false
  fits : InInt64 s.debt
  clamped : s.debt / 2 ^ 32 ≤ maxDebtCyc

theorem maxDebtCyc_eq : maxDebtCyc = 160256 := rfl

section
variable {s : Pace} {x : Int}

theorem put_of_fits (h : InInt64 x) : s.put x = { s with debt := x } := by
  unfold Pace.put
  rw [toInt64_of_fits h, decide_eq_true h, Bool.not_true, Bool.or_false]

theorem not_decide_eq_false_iff (p : Prop) [Decidable p] : (!decide p) = false <-> p := by
  rw [Bool.not_eq_false', decide_eq_true_iff]

theorem overflowed_put_iff (s : Pace) (x : Int) :
    (s.put x).overflowed = false <-> s.overflowed = false ∧ InInt64 x := by
  unfold Pace.put
  rw [Bool.or_eq_false_iff, not_decide_eq_false_iff]

theorem overflowed_accrue_iff (h : PaceInv s) {now : BitVec 64} (htime : s.lastTicks ≤ now) :
    (accrue now s).overflowed = false <-> s.gap now * s.fpStep + s.debt.toNat < 2 ^ 63 := by
  have hgap : (now - s.lastTicks).toNat = s.gap now := BitVec.toNat_sub_of_le htime
  have hflag : (accrue now s).overflowed =
      (!decide (InInt64 (s.gap now * s.fpStep : Nat)) ||
        !decide (InInt64 (s.debt + toInt64 (s.gap now * s.fpStep : Nat)))) := by
    unfold accrue Pace.put
    dsimp only
    rw [hgap, h.noOverflow, Bool.false_or]
    split
    · dsimp only
    · dsimp only
  have hdebt := h.fits
  rw [hflag]
  generalize s.gap now * s.fpStep = product
  rw [Bool.or_eq_false_iff, not_decide_eq_false_iff, not_decide_eq_false_iff]
  by_cases hproduct : InInt64 product
  · rw [toInt64_of_fits hproduct]
    unfold InInt64 at hdebt hproduct ⊢
    lia
  · constructor
    · exact fun hfits => absurd hfits.1 hproduct
    · intro hroom
      refine absurd ?_ hproduct
      unfold InInt64
      lia

theorem accrue_inv (h : PaceInv s) {now : BitVec 64} (htime : s.lastTicks ≤ now)
    (hroom : s.gap now * s.fpStep + s.debt.toNat < 2 ^ 63) :
    PaceInv (accrue now s) ∧
      (accrue now s).debt / 2 ^ 32 =
        min maxDebtCyc ((s.debt + (s.gap now * s.fpStep : Nat)) / 2 ^ 32) := by
  have hgap : (now - s.lastTicks).toNat = s.gap now := BitVec.toNat_sub_of_le htime
  have hflag := (overflowed_accrue_iff h htime).mpr hroom
  have hdebt := h.fits
  have hmax := maxDebtCyc_eq
  have haccrue : (accrue now s).debt =
      if maxDebtCyc < (s.debt + (s.gap now * s.fpStep : Nat)) / 2 ^ 32 then maxDebtCyc * 2 ^ 32
      else s.debt + (s.gap now * s.fpStep : Nat) := by
    have hproduct : InInt64 (s.gap now * s.fpStep : Nat) := by
      unfold InInt64
      lia
    have hsum : InInt64 (s.debt + (s.gap now * s.fpStep : Nat)) := by
      unfold InInt64 at hdebt ⊢
      lia
    unfold accrue
    dsimp only
    rw [hgap, toInt64_of_fits hproduct, put_of_fits hsum]
    split
    · rfl
    · rfl
  generalize s.gap now * s.fpStep = product at haccrue hroom ⊢
  refine ⟨⟨hflag, ?_, ?_⟩, ?_⟩
  · rw [haccrue]
    unfold InInt64 at hdebt ⊢
    split
    · lia
    · lia
  · rw [haccrue]
    split
    · lia
    · lia
  · rw [haccrue]
    split
    · lia
    · lia

theorem fits_debit (h : InInt64 s.debt) (howed : 0 ≤ s.debt) (ran : BitVec 31) :
    InInt64 (s.debt - ran.toNat * 2 ^ 32) := by
  have hran := ran.isLt
  unfold InInt64 at h ⊢
  lia

theorem burst_inv (slices : List Slice) (h : PaceInv s) (howed : 0 ≤ s.debt) :
    PaceInv (burst slices s) := by
  induction slices generalizing s with
  | nil => exact h
  | cons slice more ih =>
      have hput := put_of_fits (s := s) (fits_debit h.fits howed slice.ran)
      have hfits := fits_debit h.fits howed slice.ran
      have hclamped := h.clamped
      have hinv : PaceInv { s.put (s.debt - slice.ran.toNat * 2 ^ 32) with halted := slice.halts } := by
        rw [hput]
        exact ⟨h.noOverflow, hfits, by dsimp only; lia⟩
      unfold burst
      dsimp only
      split
      · exact hinv
      · split
        · exact hinv
        · next howed' =>
          apply ih hinv
          have hbudget := slice.budget.bounded
          dsimp only at howed' ⊢
          lia

theorem burst_overflowed (slices : List Slice) (h : (burst slices s).overflowed = false) :
    s.overflowed = false := by
  induction slices generalizing s with
  | nil => exact h
  | cons slice more ih =>
      have hput {t : Bool}
          (h : { s.put (s.debt - slice.ran.toNat * 2 ^ 32) with halted := t }.overflowed = false) :
          s.overflowed = false := ((overflowed_put_iff s _).mp h).1
      unfold burst at h
      dsimp only at h
      split at h
      · exact hput h
      · split at h
        · exact hput h
        · exact hput (ih h)

end

/-!
## A pass
-/

section
variable {s : Pace} {now : BitVec 64} {budget : Budget} {one : Slice} {more : List Slice}

theorem stboxSlice_of_not_runs (h : ¬ s.runs) : stboxSlice now budget one more s = s := by
  unfold Pace.runs at h
  unfold stboxSlice
  cases harmed : s.armed with
  | false => rfl
  | true =>
      have hhalted : ¬ (s.halted = true -> s.resetReq = true) := fun hhalted => h ⟨harmed, hhalted⟩
      rw [Classical.not_imp] at hhalted
      dsimp only
      rw [if_pos rfl, if_neg hhalted.2, if_pos hhalted.1]

theorem stboxSlice_of_runs (h : s.runs) :
    stboxSlice now budget one more s =
      if (accrue now { s with resetReq := false, halted := false }).debt / 2 ^ 32 < budget.cyc then
        accrue now { s with resetReq := false, halted := false }
      else
        burst (one :: more) (accrue now { s with resetReq := false, halted := false }) := by
  have hrevived : (if s.resetReq then { s with resetReq := false, halted := false } else s) =
      { s with resetReq := false, halted := false } := by
    cases hreset : s.resetReq with
    | true => rfl
    | false =>
        have hhalted : s.halted = false := by
          cases hhalted : s.halted with
          | false => rfl
          | true => exact absurd (h.2 hhalted) (by rw [hreset]; exact Bool.false_ne_true)
        rw [if_neg Bool.false_ne_true]
        exact congrArg₂ (fun r b => { s with resetReq := r, halted := b }) hreset hhalted
  unfold stboxSlice
  dsimp only
  rw [if_pos h.1, hrevived, if_neg Bool.false_ne_true]

theorem PaceInv.revive (h : PaceInv s) : PaceInv { s with resetReq := false, halted := false } :=
  ⟨h.noOverflow, h.fits, h.clamped⟩

theorem stboxSlice_inv (h : PaceInv s) (htime : s.lastTicks ≤ now)
    (hroom : s.runs -> s.gap now * s.fpStep + s.debt.toNat < 2 ^ 63) :
    PaceInv (stboxSlice now budget one more s) := by
  by_cases hruns : s.runs
  · have haccrue := (accrue_inv h.revive htime (hroom hruns)).1
    rw [stboxSlice_of_runs hruns]
    split
    · exact haccrue
    · next howed =>
      have hbudget := budget.bounded
      exact burst_inv _ haccrue (by lia)
  · rw [stboxSlice_of_not_runs hruns]
    exact h

theorem room_of_stboxSlice (h : PaceInv s) (hruns : s.runs) (htime : s.lastTicks ≤ now)
    (hflag : (stboxSlice now budget one more s).overflowed = false) :
    s.gap now * s.fpStep + s.debt.toNat < 2 ^ 63 := by
  rw [stboxSlice_of_runs hruns] at hflag
  apply (overflowed_accrue_iff h.revive htime).mp
  split at hflag
  · exact hflag
  · exact burst_overflowed _ hflag

end

/-!
## Runs
-/

/-- An operation's reading is not before the last one that the pacing has seen. -/
def InTime (s : Pace) (op : PaceOp) : Prop := forall now, op.reading = some now -> s.lastTicks ≤ now

theorem paceStep_inv {s : Pace} {op : PaceOp} (h : PaceInv s) (htime : InTime s op)
    (hroom : HasRoom s op) : PaceInv (paceStep s op) := by
  cases op with
  | arm now cntfrq =>
      exact ⟨h.noOverflow, show InInt64 0 by decide, show (0 : Int) / 2 ^ 32 ≤ maxDebtCyc by decide⟩
  | disarm => exact ⟨h.noOverflow, h.fits, h.clamped⟩
  | requestReset => exact ⟨h.noOverflow, h.fits, h.clamped⟩
  | slice now budget one more => exact stboxSlice_inv h (htime now rfl) hroom

theorem pacesWell_iff {s : Pace} {op : PaceOp} (h : PaceInv s) (htime : InTime s op) :
    PacesWell s op <-> HasRoom s op := by
  constructor
  · intro hwell
    cases op with
    | arm now cntfrq => trivial
    | disarm => trivial
    | requestReset => trivial
    | slice now budget one more =>
        exact fun hruns => room_of_stboxSlice h hruns (htime now rfl) hwell.noOverflow
  · intro hroom
    have hinv := paceStep_inv h htime hroom
    refine ⟨hinv.noOverflow, hinv.clamped, ?_⟩
    intro now budget one more hop hruns
    rw [hop] at htime hroom
    exact (accrue_inv h (htime now rfl) (hroom hruns)).2

theorem lastTicks_burst (slices : List Slice) (s : Pace) :
    (burst slices s).lastTicks = s.lastTicks := by
  induction slices generalizing s with
  | nil => rfl
  | cons slice more ih =>
      unfold burst
      dsimp only
      split
      · rfl
      · split
        · rfl
        · exact ih _

theorem lastTicks_accrue (now : BitVec 64) (s : Pace) : (accrue now s).lastTicks = now := by
  unfold accrue
  dsimp only
  split
  · rfl
  · rfl

theorem lastTicks_paceStep (s : Pace) (op : PaceOp) :
    (paceStep s op).lastTicks = s.lastTicks ∨ op.reading = some (paceStep s op).lastTicks := by
  cases op with
  | arm now cntfrq => exact Or.inr rfl
  | disarm => exact Or.inl rfl
  | requestReset => exact Or.inl rfl
  | slice now budget one more =>
      by_cases hruns : s.runs
      · have hlast : (stboxSlice now budget one more s).lastTicks = now := by
          rw [stboxSlice_of_runs hruns]
          split
          · exact lastTicks_accrue ..
          · rw [lastTicks_burst]
            exact lastTicks_accrue ..
        exact Or.inr (congrArg some hlast.symm)
      · exact Or.inl (congrArg Pace.lastTicks (stboxSlice_of_not_runs hruns))

theorem steps_inTime {ops : List PaceOp} (h : Nondecreasing ops) {s : Pace}
    (hs : forall now, now ∈ ops.filterMap PaceOp.reading -> s.lastTicks ≤ now) :
    Steps paceStep InTime s ops := by
  induction ops generalizing s with
  | nil => trivial
  | cons op rest ih =>
      unfold Nondecreasing at h
      cases hreading : op.reading with
      | none =>
          rw [List.filterMap_cons_none hreading] at h hs
          have hlast : (paceStep s op).lastTicks = s.lastTicks :=
            (lastTicks_paceStep s op).resolve_right (by rw [hreading]; exact nofun)
          refine ⟨fun now hnow => ?_, ih h ?_⟩
          · rw [hreading] at hnow
            cases hnow
          · rw [hlast]
            exact hs
      | some seen =>
          rw [List.filterMap_cons_some hreading] at h hs
          rw [List.pairwise_cons] at h
          have hseen : s.lastTicks ≤ seen := hs seen List.mem_cons_self
          refine ⟨fun now hnow => ?_, ih h.2 ?_⟩
          · rw [hreading] at hnow
            cases hnow
            exact hseen
          · intro now hnow
            rcases lastTicks_paceStep s op with hlast | hlast
            · rw [hlast]
              exact hs now (List.mem_cons_of_mem _ hnow)
            · rw [hreading] at hlast
              rw [← Option.some.inj hlast]
              exact h.1 now hnow

theorem paceInv_cold : PaceInv coldPace :=
  ⟨rfl, show InInt64 0 by decide, show (0 : Int) / 2 ^ 32 ≤ maxDebtCyc by decide⟩

/-- The debt is paced well in exactly the runs in which the time since the last pass of a
running machine always has room. -/
theorem paces_well_iff (ops : List PaceOp) (h : Nondecreasing ops) :
    Steps paceStep PacesWell coldPace ops <-> Steps paceStep HasRoom coldPace ops := by
  have htime : Steps paceStep InTime coldPace ops := steps_inTime h fun _ _ => Nat.zero_le _
  have hboth : Steps paceStep (fun s op => InTime s op ∧ PacesWell s op) coldPace ops <->
      Steps paceStep (fun s op => InTime s op ∧ HasRoom s op) coldPace ops :=
    Steps.iff_of_invariant (fun s op hs hok => paceStep_inv hs hok.1 hok.2)
      (fun s op hs => and_congr_right fun hin => pacesWell_iff hs hin) paceInv_cold
  rw [Steps.and_iff, Steps.and_iff] at hboth
  constructor
  · exact fun hwell => (hboth.mp ⟨htime, hwell⟩).2
  · exact fun hroom => (hboth.mpr ⟨htime, hroom⟩).2

def oneSlice (halts : Bool) : Slice where
  ran := 64
  halts := halts
  budget := ⟨64, by decide⟩

/-- Passes of a host timer of 54 MHz, the second after a minute in which the machine is halted. -/
theorem paces_well_minute :
    Steps paceStep PacesWell coldPace
      [.arm 0 54000000, .slice 5400 ⟨64, by decide⟩ (oneSlice true) [], .requestReset,
        .slice 3240000000 ⟨64, by decide⟩ (oneSlice false) [oneSlice false]] :=
  (paces_well_iff _ (by unfold Nondecreasing; decide)).mpr (by decide)

def longHalt : List PaceOp :=
  [.arm 0 54000000, .slice 5400 ⟨64, by decide⟩ (oneSlice true) [], .requestReset,
    .slice 16200000000 ⟨64, by decide⟩ (oneSlice false) []]

/-- After the reset the machine stands still: it is owed cycles below zero. -/
theorem long_halt_overflows :
    Nondecreasing longHalt ∧ ¬ Steps paceStep PacesWell coldPace longHalt ∧
      (run paceStep coldPace longHalt).debt / 2 ^ 32 = -1888592962 := by
  refine ⟨by unfold Nondecreasing; decide, fun hsteps => ?_, by decide⟩
  exact absurd hsteps.2.2.2.1.noOverflow (by decide)

end Stbox
end PistormAtari
