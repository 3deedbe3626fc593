import PistormAtari.Stbox.Timers

/-!
# The beam of the STBOX

{lit}`stbox_slice` moves the beam by the cycles that the guest has used, and at each line end
tells Timer B about the display and the CPU about the blanks.  However guest time is sliced,
lines and frames end where the cycles say.  The first line of an opened top border is missed
when it is opened in that line, and `machine_cold_reset` leaves an opened top border open for
the frame that it begins.
-/

namespace PistormAtari
namespace Stbox

open Foundation
open Mfp

def cycPerLine : Nat := 512
def linesPerVbl : Nat := 313
def cycPerVbl : Nat := cycPerLine * linesPerVbl

def deFirstLine : Nat := 63

def deFirstLine60 : Nat := 34

def deEndLine : Nat := 263

/-- What happens in a frame: a line ends and is captured, Timer B gets the display event of a
line, the top border is opened in a line.  A frame begun by a reset may find the border left
open. -/
inductive BeamEvent where
  | leftOpen
  | lineEnd (line : Nat)
  | display (line : Nat)
  | opened (line : Nat)
deriving DecidableEq, Repr

/-- The beam, the MFP that it drives, and what happened in the frame under way and in those
finished since the last reset. -/
structure Beam where
  mfp : StMfp
  frameCyc : Nat
  nextLineCyc : Nat
  line : Nat
  topOpen : Bool
  bottomOpen : Bool
  visLines : Nat
  current : List BeamEvent
  finished : List (List BeamEvent)
deriving DecidableEq, Repr

/-- `machine_cold_reset` at the begin of a slice: the beam goes to the first line, and the
borders stay as they are. -/
def machineColdReset (b : Beam) : Beam :=
  { b with
    mfp := coldReset
    frameCyc := 0
    nextLineCyc := cycPerLine
    line := 0
    visLines := 200
    current := if b.topOpen then [.leftOpen] else []
    finished := [] }

def coldBeam : Beam where
  mfp := coldReset
  frameCyc := 0
  nextLineCyc := cycPerLine
  line := 0
  topOpen := false
  bottomOpen := false
  visLines := 200
  current := []
  finished := []

def Beam.deFirst (b : Beam) : Nat := if b.topOpen then deFirstLine60 else deFirstLine

def timerbEvent (b : Beam) : Beam :=
  if b.line < b.deFirst ∨ deEndLine ≤ b.line then b
  else
    { b with
      mfp := if b.mfp.tbcr &&& 0x0F = 0x08 then countStep .b b.mfp else b.mfp
      current := b.current ++ [.display b.line] }

def lineStep (b : Beam) : Beam :=
  let b :=
    timerbEvent
      { b with
        nextLineCyc := b.nextLineCyc + cycPerLine
        line := b.line + 1
        current := b.current ++ [.lineEnd b.line] }
  if linesPerVbl ≤ b.line then
    { b with
      mfp := updateIrq { b.mfp with vblPending := true }
      line := 0
      frameCyc := b.frameCyc - cycPerVbl
      nextLineCyc := cycPerLine
      visLines := if b.bottomOpen then 232 else 200
      bottomOpen := false
      topOpen := false
      current := []
      finished := b.finished ++ [b.current] }
  else { b with mfp := updateIrq { b.mfp with hblPending := true } }

def beamAdvance (cycles : Nat) (b : Beam) : Beam :=
  let frameCyc := (b.frameCyc + cycles) % 2 ^ 32
  whileFuel (fun b => decide (b.nextLineCyc ≤ b.frameCyc)) lineStep frameCyc
    { b with frameCyc := frameCyc }

/-- A write to `$FF820A`. -/
def writeSync (b : Beam) : Beam :=
  let b := if 260 ≤ b.line ∧ b.line ≤ 266 then { b with bottomOpen := true } else b
  if 32 ≤ b.line ∧ b.line ≤ 34 then
    { b with topOpen := true, current := b.current ++ [.opened b.line] }
  else b

/-- A write to `$FF8260`. -/
def writeRes (b : Beam) : Beam :=
  if 260 ≤ b.line ∧ b.line ≤ 266 then { b with bottomOpen := true } else b

/-- What reaches the beam: the cycles of a slice, an `int` that is not negative, the guest's
writes to the synchronisation and the resolution, whatever else writes to the MFP, and a cold
reset. -/
inductive BeamOp where
  | ran (cycles : BitVec 31)
  | sync
  | res
  | registers (m : StMfp)
  | coldReset
deriving DecidableEq, Repr

def beamStep (b : Beam) : BeamOp -> Beam
  | .ran cycles => beamAdvance cycles.toNat b
  | .sync => writeSync b
  | .res => writeRes b
  | .registers m => { b with mfp := m }
  | .coldReset => machineColdReset b

/-- The cycles since the last reset, so many of them before these operations. -/
def cyclesFrom (before : Nat) : List BeamOp -> Nat
  | [] => before
  | .ran cycles :: ops => cyclesFrom (before + cycles.toNat) ops
  | .coldReset :: ops => cyclesFrom 0 ops
  | _ :: ops => cyclesFrom before ops

/-!
## What a frame should be
-/

def linesOf (events : List BeamEvent) : List Nat :=
  events.filterMap fun | .lineEnd l => some l | _ => none

def displaysOf (events : List BeamEvent) : List Nat :=
  events.filterMap fun | .display l => some l | _ => none

def openedIn (events : List BeamEvent) : Option Nat :=
  (events.filterMap fun | .opened l => some l | _ => none).head?

def visibleLines (events : List BeamEvent) : List Nat :=
  (List.range linesPerVbl).filter fun l =>
    (if openedIn events = none then deFirstLine else deFirstLine60) ≤ l ∧ l < deEndLine

/-- The border is opened in time to show all of the frame's visible lines: not first in line
34, and in every frame that finds it open. -/
def BorderKept (events : List BeamEvent) : Prop :=
  if .leftOpen ∈ events then openedIn events ≠ none else openedIn events ≠ some deFirstLine60

/-- Lines and frames end where the cycles since the reset say, and each finished frame has
ended all of its lines and told Timer B of the visible ones. -/
structure BeamExact (cycles : Nat) (b : Beam) : Prop where
  frameCyc : b.frameCyc = cycles % cycPerVbl
  line : b.line = cycles / cycPerLine % linesPerVbl
  frames : b.finished.length = cycles / cycPerVbl
  nextLineCyc : b.nextLineCyc = (b.line + 1) * cycPerLine
  lines : forall f, f ∈ b.finished -> linesOf f = List.range linesPerVbl
  displays : forall f, f ∈ b.finished -> displaysOf f = visibleLines f

/-!
## What a frame is
-/

/-- The first line whose display event Timer B gets: the event of line 34 is over when the
border is opened in that line. -/
def firstDisplay (events : List BeamEvent) : Nat :=
  if .leftOpen ∈ events then deFirstLine60
  else
    match openedIn events with
    | none => deFirstLine
    | some l => if l = deFirstLine60 then deFirstLine60 + 1 else deFirstLine60

def foundOpen (events : List BeamEvent) : Bool :=
  decide (.leftOpen ∈ events) || (openedIn events).isSome

structure FrameLog (n : Nat) (events : List BeamEvent) : Prop where
  lines : linesOf events = List.range n
  displays : displaysOf events =
    (List.range (n + 1)).filter fun l => firstDisplay events ≤ l ∧ l < deEndLine
  opened : forall l, openedIn events = some l -> l ≤ deFirstLine60 ∧ l ≤ n

section
variable (events : List BeamEvent) (l : Nat)

theorem linesOf_lineEnd : linesOf (events ++ [.lineEnd l]) = linesOf events ++ [l] := by
  unfold linesOf
  rw [List.filterMap_append]
  rfl

theorem linesOf_display : linesOf (events ++ [.display l]) = linesOf events := by
  unfold linesOf
  rw [List.filterMap_append]
  exact List.append_nil _

theorem linesOf_opened : linesOf (events ++ [.opened l]) = linesOf events := by
  unfold linesOf
  rw [List.filterMap_append]
  exact List.append_nil _

theorem displaysOf_lineEnd : displaysOf (events ++ [.lineEnd l]) = displaysOf events := by
  unfold displaysOf
  rw [List.filterMap_append]
  exact List.append_nil _

theorem displaysOf_display : displaysOf (events ++ [.display l]) = displaysOf events ++ [l] := by
  unfold displaysOf
  rw [List.filterMap_append]
  rfl

theorem displaysOf_opened : displaysOf (events ++ [.opened l]) = displaysOf events := by
  unfold displaysOf
  rw [List.filterMap_append]
  exact List.append_nil _

theorem openedIn_lineEnd : openedIn (events ++ [.lineEnd l]) = openedIn events := by
  unfold openedIn
  rw [List.filterMap_append]
  exact congrArg List.head? (List.append_nil _)

theorem openedIn_display : openedIn (events ++ [.display l]) = openedIn events := by
  unfold openedIn
  rw [List.filterMap_append]
  exact congrArg List.head? (List.append_nil _)

theorem openedIn_opened :
    openedIn (events ++ [.opened l]) = some ((openedIn events).getD l) := by
  unfold openedIn
  rw [List.filterMap_append, List.head?_append]
  cases (events.filterMap _).head? with
  | none => rfl
  | some first => rfl

theorem leftOpen_append {e : BeamEvent} (h : e ≠ .leftOpen) :
    .leftOpen ∈ events ++ [e] <-> .leftOpen ∈ events := by
  rw [List.mem_append, List.mem_singleton]
  exact or_iff_left (Ne.symm h)

end

section
variable {n l : Nat} {events : List BeamEvent}

theorem firstDisplay_of_left (h : .leftOpen ∈ events) : firstDisplay events = deFirstLine60 := by
  unfold firstDisplay
  rw [if_pos h]

theorem firstDisplay_of_none (hleft : .leftOpen ∉ events) (h : openedIn events = none) :
    firstDisplay events = deFirstLine := by
  unfold firstDisplay
  rw [if_neg hleft, h]

theorem firstDisplay_of_some (hleft : .leftOpen ∉ events) (h : openedIn events = some l) :
    firstDisplay events = if l = deFirstLine60 then deFirstLine60 + 1 else deFirstLine60 := by
  unfold firstDisplay
  rw [if_neg hleft, h]

theorem firstDisplay_append {e : BeamEvent} (hleft : e ≠ .leftOpen)
    (h : openedIn (events ++ [e]) = openedIn events) :
    firstDisplay (events ++ [e]) = firstDisplay events := by
  unfold firstDisplay
  simp only [leftOpen_append events hleft, h]

theorem foundOpen_append {e : BeamEvent} (hleft : e ≠ .leftOpen)
    (h : openedIn (events ++ [e]) = openedIn events) :
    foundOpen (events ++ [e]) = foundOpen events := by
  unfold foundOpen
  rw [decide_eq_decide.mpr (leftOpen_append events hleft), h]

theorem foundOpen_opened : foundOpen (events ++ [.opened l]) = true := by
  unfold foundOpen
  rw [openedIn_opened, Option.isSome_some, Bool.or_true]

theorem FrameLog.deFirst_le_iff (h : FrameLog n events) {b : Beam}
    (htop : b.topOpen = foundOpen events) :
    b.deFirst ≤ n + 1 <-> firstDisplay events ≤ n + 1 := by
  unfold Beam.deFirst
  rw [htop]
  unfold foundOpen
  by_cases hleft : .leftOpen ∈ events
  · rw [firstDisplay_of_left hleft, decide_eq_true hleft, Bool.true_or, if_pos rfl]
  · rw [decide_eq_false hleft, Bool.false_or]
    cases hopened : openedIn events with
    | none =>
        rw [firstDisplay_of_none hleft hopened, Option.isSome_none, if_neg Bool.false_ne_true]
    | some l =>
        have hbounds := h.opened l hopened
        rw [firstDisplay_of_some hleft hopened, Option.isSome_some, if_pos rfl]
        split
        · next hlast =>
          rw [hlast] at hbounds
          lia
        · exact Iff.rfl

theorem filter_range_succ (p : Nat -> Prop) [DecidablePred p] (n : Nat) :
    ((List.range (n + 1)).filter fun l => p l) =
      if p n then ((List.range n).filter fun l => p l) ++ [n]
      else (List.range n).filter fun l => p l := by
  rw [List.range_succ, List.filter_append, List.filter_singleton]
  split
  · next hyes => rw [decide_eq_true hyes, cond_true]
  · next hno => rw [decide_eq_false hno, cond_false, List.append_nil]

theorem FrameLog.next (h : FrameLog n events) :
    FrameLog (n + 1)
      (if firstDisplay events ≤ n + 1 ∧ n + 1 < deEndLine then
        events ++ [.lineEnd n] ++ [.display (n + 1)]
      else events ++ [.lineEnd n]) := by
  have hlines : linesOf (events ++ [.lineEnd n]) = List.range (n + 1) := by
    rw [linesOf_lineEnd, h.lines, List.range_succ]
  have hopened : openedIn (events ++ [.lineEnd n]) = openedIn events := openedIn_lineEnd _ _
  have hopened' : openedIn (events ++ [.lineEnd n] ++ [.display (n + 1)]) = openedIn events :=
    (openedIn_display _ _).trans hopened
  have hfirst : firstDisplay (events ++ [.lineEnd n]) = firstDisplay events :=
    firstDisplay_append BeamEvent.noConfusion hopened
  split
  · next hvisible =>
    have hfirst' : firstDisplay (events ++ [.lineEnd n] ++ [.display (n + 1)]) =
        firstDisplay events :=
      (firstDisplay_append BeamEvent.noConfusion (openedIn_display _ _)).trans hfirst
    refine ⟨?_, ?_, ?_⟩
    · rw [linesOf_display, hlines]
    · rw [displaysOf_display, displaysOf_lineEnd, h.displays, hfirst',
        filter_range_succ _ (n + 1), if_pos hvisible]
    · intro l hl
      rw [hopened'] at hl
      exact ⟨(h.opened l hl).1, Nat.le_succ_of_le (h.opened l hl).2⟩
  · next hhidden =>
    refine ⟨hlines, ?_, ?_⟩
    · rw [displaysOf_lineEnd, h.displays, hfirst, filter_range_succ _ (n + 1), if_neg hhidden]
    · intro l hl
      rw [hopened] at hl
      exact ⟨(h.opened l hl).1, Nat.le_succ_of_le (h.opened l hl).2⟩

theorem filter_before {first : Nat} (h : n < first) :
    ((List.range (n + 1)).filter fun l => first ≤ l ∧ l < deEndLine) = [] := by
  rw [List.filter_eq_nil_iff]
  intro l hl hvisible
  have hle := (of_decide_eq_true hvisible).1
  have hlt := List.mem_range.mp hl
  lia

theorem due_open (hline : n ≤ deFirstLine60) :
    ((List.range (n + 1)).filter fun l =>
        firstDisplay (events ++ [.opened n]) ≤ l ∧ l < deEndLine) =
      (List.range (n + 1)).filter fun l => firstDisplay events ≤ l ∧ l < deEndLine := by
  have hnew := openedIn_opened events n
  have hkept := leftOpen_append (e := .opened n) events BeamEvent.noConfusion
  by_cases hleft : .leftOpen ∈ events
  · rw [firstDisplay_of_left hleft, firstDisplay_of_left (hkept.mpr hleft)]
  · have hleft' := fun hin => hleft (hkept.mp hin)
    cases hopened : openedIn events with
    | none =>
        rw [hopened, Option.getD_none] at hnew
        rw [firstDisplay_of_none hleft hopened, firstDisplay_of_some hleft' hnew]
        have hlate : n < deFirstLine := Nat.lt_of_le_of_lt hline (by decide)
        rw [filter_before hlate]
        split
        · next hlast =>
          rw [filter_before (by rw [hlast]; exact Nat.lt_succ_self _)]
        · next hnot => rw [filter_before (Nat.lt_of_le_of_ne hline hnot)]
    | some l =>
        rw [hopened, Option.getD_some] at hnew
        rw [firstDisplay_of_some hleft hopened, firstDisplay_of_some hleft' hnew]

theorem FrameLog.open (h : FrameLog n events) (hline : n ≤ deFirstLine60) :
    FrameLog n (events ++ [.opened n]) := by
  have hnew := openedIn_opened events n
  refine ⟨?_, ?_, ?_⟩
  · rw [linesOf_opened, h.lines]
  · rw [displaysOf_opened, h.displays, due_open hline]
  · intro l hl
    rw [hnew] at hl
    cases hopened : openedIn events with
    | none =>
        rw [hopened, Option.getD_none] at hl
        cases hl
        exact ⟨hline, le_refl n⟩
    | some before =>
        rw [hopened, Option.getD_some] at hl
        rw [Option.some.inj hl] at hopened
        exact h.opened l hopened

theorem frameLog_nil : FrameLog 0 [] :=
  ⟨rfl, (filter_before (by decide)).symm, fun _ hl => (by cases hl)⟩

theorem frameLog_leftOpen : FrameLog 0 [.leftOpen] :=
  ⟨rfl, (filter_before (by decide)).symm, fun _ hl => (by cases hl)⟩

theorem FrameLog.displays_iff (h : FrameLog linesPerVbl events) :
    displaysOf events = visibleLines events <-> BorderKept events := by
  have hlast : displaysOf events =
      (List.range linesPerVbl).filter fun l => firstDisplay events ≤ l ∧ l < deEndLine := by
    rw [h.displays, filter_range_succ, if_neg (fun hin => absurd hin.2 (by decide))]
  rw [hlast]
  unfold visibleLines BorderKept
  have hopen : forall l, (if (some l : Option Nat) = none then deFirstLine else deFirstLine60) =
      deFirstLine60 := fun l => if_neg (Option.some_ne_none l)
  by_cases hleft : .leftOpen ∈ events
  · rw [firstDisplay_of_left hleft, if_pos hleft]
    cases hopened : openedIn events with
    | none =>
        rw [if_pos rfl]
        constructor
        · intro hsame
          exact absurd hsame (by decide)
        · exact fun hne => absurd rfl hne
    | some l =>
        rw [hopen l]
        exact ⟨fun _ hnone => (by cases hnone), fun _ => rfl⟩
  · rw [if_neg hleft]
    cases hopened : openedIn events with
    | none =>
        rw [firstDisplay_of_none hleft hopened, if_pos rfl]
        exact ⟨fun _ hsome => (by cases hsome), fun _ => rfl⟩
    | some l =>
        rw [firstDisplay_of_some hleft hopened, hopen l]
        by_cases hlate : l = deFirstLine60
        · rw [if_pos hlate, hlate]
          constructor
          · intro hsame
            have hmem : deFirstLine60 ∈ (List.range linesPerVbl).filter
                fun l => deFirstLine60 ≤ l ∧ l < deEndLine := by decide
            rw [← hsame, List.mem_filter] at hmem
            exact absurd (of_decide_eq_true hmem.2).1 (Nat.not_succ_le_self _)
          · exact fun hne => absurd rfl hne
        · rw [if_neg hlate]
          exact ⟨fun _ hsome => hlate (Option.some.inj hsome), fun _ => rfl⟩

end

/-!
## The line loop
-/

/-- In the line loop: the beam has come some way into the frame, and the next line ends where
it should. -/
structure BeamInv (cycles : Nat) (b : Beam) : Prop where
  total : b.finished.length * cycPerVbl + b.frameCyc = cycles
  next : b.nextLineCyc = (b.line + 1) * cycPerLine
  inFrame : b.line < linesPerVbl
  reached : b.line * cycPerLine ≤ b.frameCyc
  top : b.topOpen = foundOpen b.current
  log : FrameLog b.line b.current
  finished : forall f, f ∈ b.finished -> FrameLog linesPerVbl f

section
variable {cycles : Nat} {b : Beam}

theorem current_timerbEvent (b : Beam) :
    (timerbEvent b).current =
      if b.deFirst ≤ b.line ∧ b.line < deEndLine then b.current ++ [.display b.line]
      else b.current := by
  unfold timerbEvent
  by_cases hvisible : b.deFirst ≤ b.line ∧ b.line < deEndLine
  · rw [if_pos hvisible, if_neg (by lia)]
  · rw [if_neg hvisible, if_pos (by lia)]

theorem beam_timerbEvent (b : Beam) :
    (timerbEvent b).frameCyc = b.frameCyc ∧ (timerbEvent b).nextLineCyc = b.nextLineCyc ∧
      (timerbEvent b).line = b.line ∧ (timerbEvent b).topOpen = b.topOpen ∧
      (timerbEvent b).finished = b.finished := by
  unfold timerbEvent
  split
  · exact ⟨rfl, rfl, rfl, rfl, rfl⟩
  · exact ⟨rfl, rfl, rfl, rfl, rfl⟩

theorem BeamInv.lineEvents (h : BeamInv cycles b) (next : Nat) :
    FrameLog (b.line + 1)
        (timerbEvent
          { b with
            nextLineCyc := next
            line := b.line + 1
            current := b.current ++ [.lineEnd b.line] }).current ∧
      foundOpen
          (timerbEvent
            { b with
              nextLineCyc := next
              line := b.line + 1
              current := b.current ++ [.lineEnd b.line] }).current = foundOpen b.current := by
  have hiff := h.log.deFirst_le_iff h.top
  have hnext := h.log.next
  have hline : foundOpen (b.current ++ [.lineEnd b.line]) = foundOpen b.current :=
    foundOpen_append BeamEvent.noConfusion (openedIn_lineEnd _ _)
  have hdecided : (b.deFirst ≤ b.line + 1 ∧ b.line + 1 < deEndLine) <->
      (firstDisplay b.current ≤ b.line + 1 ∧ b.line + 1 < deEndLine) :=
    and_congr_left' hiff
  rw [current_timerbEvent]
  show FrameLog _ (if b.deFirst ≤ b.line + 1 ∧ b.line + 1 < deEndLine then _ else _) ∧
    foundOpen (if b.deFirst ≤ b.line + 1 ∧ b.line + 1 < deEndLine then _ else _) = _
  by_cases hvisible : firstDisplay b.current ≤ b.line + 1 ∧ b.line + 1 < deEndLine
  · rw [if_pos hvisible] at hnext
    rw [if_pos (hdecided.mpr hvisible)]
    refine ⟨hnext, ?_⟩
    exact (foundOpen_append BeamEvent.noConfusion (openedIn_display _ _)).trans hline
  · rw [if_neg hvisible] at hnext
    rw [if_neg (fun hshown => hvisible (hdecided.mp hshown))]
    exact ⟨hnext, hline⟩

theorem BeamInv.lineStep (h : BeamInv cycles b) (hdue : b.nextLineCyc ≤ b.frameCyc) :
    BeamInv cycles (lineStep b) := by
  have hnext := h.next
  have htotal := h.total
  have hinFrame := h.inFrame
  have hevents := h.lineEvents (b.nextLineCyc + cycPerLine)
  have hbeam := beam_timerbEvent
    { b with
      nextLineCyc := b.nextLineCyc + cycPerLine
      line := b.line + 1
      current := b.current ++ [.lineEnd b.line] }
  unfold Stbox.lineStep
  generalize timerbEvent
    { b with
      nextLineCyc := b.nextLineCyc + cycPerLine
      line := b.line + 1
      current := b.current ++ [.lineEnd b.line] } = e at hevents hbeam ⊢
  rcases hbeam with ⟨hcyc, hend, hline, htop, hfinished⟩
  rcases hevents with ⟨hlog, hopened⟩
  dsimp only at hcyc hend hline htop hfinished
  dsimp only
  rw [hnext] at hdue
  split
  · next hlast =>
    have hwhole : b.line + 1 = linesPerVbl := by lia
    have hframe : cycPerVbl ≤ b.frameCyc := by
      rw [hwhole] at hdue
      unfold cycPerVbl
      lia
    have hfirst : 0 * cycPerLine ≤ e.frameCyc - cycPerVbl := by
      rw [Nat.zero_mul]
      exact Nat.zero_le _
    refine ⟨?_, ?_, (by decide : 0 < linesPerVbl), hfirst, rfl, frameLog_nil, ?_⟩
    · dsimp only
      rw [List.length_append, List.length_singleton, hfinished, hcyc, Nat.succ_mul]
      lia
    · exact (Nat.one_mul _).symm
    · intro f hf
      rcases List.mem_append.mp hf with hold | hnew
      · rw [hfinished] at hold
        exact h.finished f hold
      · rw [List.mem_singleton.mp hnew, ← hwhole]
        exact hlog
  · next hmore =>
    refine ⟨?_, ?_, ?_, ?_, ?_, ?_, ?_⟩
    · dsimp only
      rw [hfinished, hcyc]
      exact htotal
    · dsimp only
      rw [hend, hline, hnext, Nat.succ_mul (b.line + 1)]
    · dsimp only
      lia
    · dsimp only
      rw [hline, hcyc]
      exact hdue
    · dsimp only
      rw [htop, hopened]
      exact h.top
    · dsimp only
      rw [hline]
      exact hlog
    · dsimp only
      rw [hfinished]
      exact h.finished

structure BeamRest (cycles : Nat) (b : Beam) : Prop extends BeamInv cycles b where
  inLine : b.frameCyc < b.nextLineCyc

theorem BeamRest.frameCyc_lt (h : BeamRest cycles b) : b.frameCyc < cycPerVbl := by
  have hline := h.inLine
  have hle : (b.line + 1) * cycPerLine ≤ linesPerVbl * cycPerLine :=
    Nat.mul_le_mul_right _ h.inFrame
  rw [h.next] at hline
  unfold cycPerVbl
  rw [Nat.mul_comm]
  exact Nat.lt_of_lt_of_le hline hle

theorem lineStep_lowers :
    Lowers (fun b : Beam => decide (b.nextLineCyc ≤ b.frameCyc)) lineStep (BeamInv cycles)
      (fun b => b.frameCyc - b.line * cycPerLine) := by
  intro b h hmore
  have hdue : b.nextLineCyc ≤ b.frameCyc := of_decide_eq_true hmore
  have hnext := h.next
  refine ⟨h.lineStep hdue, ?_⟩
  have hbeam := beam_timerbEvent
    { b with
      nextLineCyc := b.nextLineCyc + cycPerLine
      line := b.line + 1
      current := b.current ++ [.lineEnd b.line] }
  unfold lineStep
  dsimp only at hbeam ⊢
  rw [hnext, Nat.succ_mul] at hdue
  have hpos : 0 < cycPerLine := by decide
  split
  · next hlast =>
    dsimp only
    rw [hbeam.1, Nat.zero_mul]
    have hframe : b.line * cycPerLine < cycPerVbl := by
      have hle : b.line * cycPerLine + cycPerLine ≤ linesPerVbl * cycPerLine := by
        rw [← Nat.succ_mul]
        exact Nat.mul_le_mul_right _ h.inFrame
      unfold cycPerVbl
      rw [Nat.mul_comm cycPerLine]
      lia
    lia
  · dsimp only
    rw [hbeam.1, hbeam.2.2.1, Nat.succ_mul]
    lia

theorem BeamRest.advance (h : BeamRest cycles b) (n : BitVec 31) :
    BeamRest (cycles + n.toNat) (beamAdvance n.toNat b) := by
  have hlt := h.frameCyc_lt
  have hn := n.isLt
  have hfits : b.frameCyc + n.toNat < 2 ^ 32 := by
    unfold cycPerVbl cycPerLine linesPerVbl at hlt
    lia
  have htotal := h.total
  have hreached := h.reached
  have hstart : BeamInv (cycles + n.toNat) { b with frameCyc := b.frameCyc + n.toNat } := by
    refine ⟨?_, h.next, h.inFrame, ?_, h.top, h.log, h.finished⟩
    · dsimp only
      lia
    · dsimp only
      lia
  unfold beamAdvance
  dsimp only
  rw [Nat.mod_eq_of_lt hfits]
  have hbody : forall c : Beam, BeamInv (cycles + n.toNat) c ->
      decide (c.nextLineCyc ≤ c.frameCyc) = true -> BeamInv (cycles + n.toNat) (lineStep c) :=
    fun c hc hmore => hc.lineStep (of_decide_eq_true hmore)
  have hinv := @whileFuel_invariant _ _ _ (BeamInv (cycles + n.toNat)) hbody
    (b.frameCyc + n.toNat) _ hstart
  have hdone := whileFuel_exits lineStep_lowers hstart (n := b.frameCyc + n.toNat)
    (Nat.sub_le _ _)
  exact ⟨hinv, Nat.lt_of_not_le (of_decide_eq_false hdone)⟩

theorem BeamRest.sync (h : BeamRest cycles b) : BeamRest cycles (writeSync b) := by
  have hopen : forall c : Beam, BeamRest cycles c -> c.line ≤ deFirstLine60 ->
      BeamRest cycles { c with topOpen := true, current := c.current ++ [.opened c.line] } := by
    intro c hc hline
    refine ⟨⟨hc.total, hc.next, hc.inFrame, hc.reached, ?_, hc.log.open hline, hc.finished⟩, hc.inLine⟩
    dsimp only
    rw [foundOpen_opened]
  unfold writeSync
  dsimp only
  split
  · split
    · next hwindow =>
      exact hopen { b with bottomOpen := true }
        ⟨⟨h.total, h.next, h.inFrame, h.reached, h.top, h.log, h.finished⟩, h.inLine⟩ hwindow.2
    · exact ⟨⟨h.total, h.next, h.inFrame, h.reached, h.top, h.log, h.finished⟩, h.inLine⟩
  · split
    · next hwindow => exact hopen b h hwindow.2
    · exact h

theorem BeamRest.res (h : BeamRest cycles b) : BeamRest cycles (writeRes b) := by
  unfold writeRes
  split
  · exact ⟨⟨h.total, h.next, h.inFrame, h.reached, h.top, h.log, h.finished⟩, h.inLine⟩
  · exact h

theorem BeamRest.coldReset (h : BeamRest cycles b) : BeamRest 0 (machineColdReset b) := by
  have htop := h.top
  unfold machineColdReset
  refine ⟨⟨?_, ?_, (by decide : 0 < linesPerVbl), ?_, ?_, ?_, fun _ hf => (by cases hf)⟩,
    (by decide : 0 < cycPerLine)⟩
  · exact (Nat.add_zero _).trans (Nat.zero_mul cycPerVbl)
  · exact (Nat.one_mul cycPerLine).symm
  · exact Nat.le_of_eq (Nat.zero_mul cycPerLine)
  · dsimp only
    cases b.topOpen with
    | false => rfl
    | true => rfl
  · dsimp only
    cases b.topOpen with
    | false => exact frameLog_nil
    | true => exact frameLog_leftOpen

theorem BeamRest.run (h : BeamRest cycles b) (ops : List BeamOp) :
    BeamRest (cyclesFrom cycles ops) (run beamStep b ops) := by
  induction ops generalizing cycles b with
  | nil => exact h
  | cons op rest ih =>
      rw [run_cons]
      cases op with
      | ran n => exact ih (h.advance n)
      | sync => exact ih h.sync
      | res => exact ih h.res
      | registers m =>
          exact ih ⟨⟨h.total, h.next, h.inFrame, h.reached, h.top, h.log, h.finished⟩, h.inLine⟩
      | coldReset => exact ih h.coldReset

theorem beamRest_coldBeam : BeamRest 0 coldBeam :=
  ⟨⟨(Nat.add_zero _).trans (Nat.zero_mul cycPerVbl), (Nat.one_mul cycPerLine).symm,
    (by decide : 0 < linesPerVbl), Nat.le_of_eq (Nat.zero_mul cycPerLine), rfl, frameLog_nil,
    fun _ hf => (by cases hf)⟩, (by decide : 0 < cycPerLine)⟩

theorem BeamRest.position (h : BeamRest cycles b) :
    b.frameCyc = cycles % cycPerVbl ∧ b.line = cycles / cycPerLine % linesPerVbl ∧
      b.finished.length = cycles / cycPerVbl := by
  have hlt := h.frameCyc_lt
  have htotal := h.total
  have hline := h.inLine
  have hreached := h.reached
  have hpos : 0 < cycPerVbl := by decide
  have hinFrame := h.inFrame
  rw [h.next] at hline
  have hlineCyc : b.frameCyc / cycPerLine = b.line :=
    Nat.div_eq_of_lt_le hreached hline
  refine ⟨?_, ?_, ?_⟩
  · rw [← htotal, Nat.add_comm, Nat.mul_comm, Nat.add_mul_mod_self_left, Nat.mod_eq_of_lt hlt]
  · have hlines : cycles / cycPerLine = b.line + linesPerVbl * b.finished.length := by
      rw [← htotal]
      unfold cycPerVbl
      rw [Nat.mul_comm b.finished.length, Nat.mul_assoc, Nat.add_comm,
        Nat.add_mul_div_left _ _ (by decide : 0 < cycPerLine), hlineCyc]
    rw [hlines, Nat.add_mul_mod_self_left, Nat.mod_eq_of_lt hinFrame]
  · rw [← htotal, Nat.add_comm, Nat.mul_comm, Nat.add_mul_div_left _ _ hpos, Nat.div_eq_of_lt hlt,
      Nat.zero_add]

end

/-- A frame in slices of 1024 cycles, with a write to the synchronisation in line 34. -/
def openedLate : List BeamOp :=
  List.replicate 17 (.ran 1024#31) ++ .sync :: List.replicate 140 (.ran 1024#31)

/-- A frame that a reset begins while the top border is open: Timer B is told of 29 lines
above the visible ones. -/
example :
    ((run beamStep coldBeam
        (List.replicate 17 (.ran 1024#31) ++ .sync :: .coldReset ::
          List.replicate 157 (.ran 1024#31))).finished.map fun f => (displaysOf f).length) =
      [229] := by
  decide +kernel

end Stbox
end PistormAtari
