import Mathlib
import PistormAtari.Ikbd.MouseFlush

/-!
# The buttons of the absolute mouse

In absolute mode a report of the position carries the transitions of the two buttons since the
report before it.  A flush looks at the buttons and latches what changed since the last one, and
a report clears the latch.
-/

namespace PistormAtari
namespace Ikbd

open Foundation

structure Transitions where
  rightDown : Bool
  rightUp : Bool
  leftDown : Bool
  leftUp : Bool
deriving DecidableEq, Repr

namespace Transitions

def none : Transitions := ⟨false, false, false, false⟩

def and (t u : Transitions) : Transitions :=
  ⟨t.rightDown || u.rightDown, t.rightUp || u.rightUp, t.leftDown || u.leftDown,
    t.leftUp || u.leftUp⟩

def exchanged (t : Transitions) : Transitions :=
  ⟨t.leftDown, t.leftUp, t.rightDown, t.rightUp⟩

def flag (b : Bool) (v : BitVec 8) : BitVec 8 := if b then v else 0

def byte (t : Transitions) : BitVec 8 :=
  flag t.rightDown 0x01 ||| flag t.rightUp 0x02 ||| flag t.leftDown 0x04 ||| flag t.leftUp 0x08

/-- From one look at the buttons to the next; bit 0 is the right one and bit 1 the left one. -/
def between (before now : BitVec 8) : Transitions where
  rightDown := now.getLsbD 0 && !before.getLsbD 0
  rightUp := before.getLsbD 0 && !now.getLsbD 0
  leftDown := now.getLsbD 1 && !before.getLsbD 1
  leftUp := before.getLsbD 1 && !now.getLsbD 1

theorem byte_and (t u : Transitions) : (t.and u).byte = t.byte ||| u.byte := by
  have hflag : forall (a b : Bool) (v : BitVec 8), flag (a || b) v = flag a v ||| flag b v := by
    intro a b v
    cases a with
    | false => exact BitVec.zero_or.symm
    | true =>
        cases b with
        | false => exact BitVec.or_zero.symm
        | true => exact BitVec.or_self.symm
  unfold byte Transitions.and
  rw [hflag, hflag, hflag, hflag]
  ac_rfl

theorem byte_inj {t u : Transitions} (h : t.byte = u.byte) : t = u := by
  have hall : forall a b c d a' b' c' d' : Bool,
      byte ⟨a, b, c, d⟩ = byte ⟨a', b', c', d'⟩ -> a = a' ∧ b = b' ∧ c = c' ∧ d = d' := by
    decide
  rcases t with ⟨a, b, c, d⟩
  rcases u with ⟨a', b', c', d'⟩
  rcases hall a b c d a' b' c' d' h with ⟨ha, hb, hc, hd⟩
  rw [ha, hb, hc, hd]

theorem exchanged_and (t u : Transitions) : (t.and u).exchanged = t.exchanged.and u.exchanged := rfl

theorem exchanged_eq_iff (t : Transitions) :
    t.exchanged = t <-> t.leftDown = t.rightDown ∧ t.leftUp = t.rightUp := by
  rcases t with ⟨rd, ru, ld, lu⟩
  unfold exchanged
  rw [Transitions.mk.injEq]
  constructor
  · rintro ⟨hdown, hup, _, _⟩
    exact ⟨hdown, hup⟩
  · rintro ⟨hdown, hup⟩
    exact ⟨hdown, hup, hdown.symm, hup.symm⟩

theorem exchanged_eq_of_part {t u : Transitions} (hpart : t.and u = u) :
    t.exchanged = u <-> t = u ∧ u.exchanged = u := by
  have hall : forall a b c d a' b' c' d' : Bool,
      and ⟨a, b, c, d⟩ ⟨a', b', c', d'⟩ = ⟨a', b', c', d'⟩ ->
        (exchanged ⟨a, b, c, d⟩ = ⟨a', b', c', d'⟩ <->
          (⟨a, b, c, d⟩ : Transitions) = ⟨a', b', c', d'⟩ ∧
            exchanged ⟨a', b', c', d'⟩ = ⟨a', b', c', d'⟩) := by
    decide
  rcases t with ⟨a, b, c, d⟩
  rcases u with ⟨a', b', c', d'⟩
  exact hall a b c d a' b' c' d' hpart

theorem and_part {t u : Transitions} (hpart : t.and u = u) (v : Transitions) :
    (t.and v).and (u.and v) = u.and v := by
  rcases t with ⟨a, b, c, d⟩
  rcases u with ⟨a', b', c', d'⟩
  rcases v with ⟨p, q, r, s⟩
  unfold and at hpart ⊢
  grind

theorem none_and (t : Transitions) : none.and t = t := by
  unfold and none
  simp

theorem byte_none : none.exchanged.byte = 0 := by decide

end Transitions

theorem latchBits_between (before now : BitVec 8) :
    latchBits (now &&& ~~~before) (before &&& ~~~now) =
      (Transitions.between before now).exchanged.byte := by
  have hbit : forall (x y : BitVec 8) (i : Nat) (v : BitVec 8), i < 8 ->
      (if (x &&& ~~~y) &&& BitVec.twoPow 8 i ≠ 0 then v else 0) =
        Transitions.flag (x.getLsbD i && !y.getLsbD i) v := by
    intro x y i v hi
    have hset : BitVec.twoPow 8 i ≠ 0 := by
      intro hzero
      have hget := congrArg (fun w : BitVec 8 => w.getLsbD i) hzero
      simp [hi] at hget
    rw [BitVec.and_twoPow, BitVec.getLsbD_and, BitVec.getLsbD_not]
    unfold Transitions.flag
    rw [decide_eq_true hi, Bool.true_and]
    cases x.getLsbD i && !y.getLsbD i with
    | false => rfl
    | true => exact if_pos hset
  have hone := hbit now before 1 0x01 (by lia)
  have htwo := hbit before now 1 0x02 (by lia)
  have hthree := hbit now before 0 0x04 (by lia)
  have hfour := hbit before now 0 0x08 (by lia)
  unfold latchBits
  exact congrArg₂ (· ||| ·) (congrArg₂ (· ||| ·) (congrArg₂ (· ||| ·) hone htwo) hthree) hfour

/-!
## Runs in absolute mode
-/

/-- What happens to the mouse while the guest has it in absolute mode. -/
inductive AbsEvent where
  | input (i : MouseInput)
  | fire (down : Bool)
  | buttonAction (v : BitVec 8)
  | loadPosition (x y : BitVec 16)
  | flush (e : FlushCall)
  | interrogate (quarantined : Bool) (ringUsed : Nat)

/-- The command {lit}`$09`. -/
def setAbsolute (m : HostMouse) (maxX maxY : BitVec 16) : HostMouse :=
  { m with
    absMaxX := maxX.toNat
    absMaxY := maxY.toNat
    absX := 0
    absY := 0
    absBtnLatch := 0
    mouseMode := .abs }

def absStep (m : HostMouse) : AbsEvent -> HostMouse × List (List (BitVec 8))
  | .input i => (handleMouse m i, [])
  | .fire down => ({ m with joyRbutton := down }, [])
  | .buttonAction v => ({ m with absBtnAction := v }, [])
  | .loadPosition x y => (ikbdAbsClamp { m with absX := x.toNat, absY := y.toNat }, [])
  | .flush e =>
      let flushed := mouseFlush m
        { e with psdosWantsInput := false, stboxWantsInput := false }
      (flushed.mouse, flushed.packets)
  | .interrogate quarantined ringUsed =>
      if m.mouseMode = .abs ∧ quarantined then ikbdAbsReport m ringUsed else (m, [])

/-- A transition is a change from one flush to the next: a press and its release between
two flushes count as none. -/
def transitionsAt (m : HostMouse) : AbsEvent -> Transitions
  | .flush _ => Transitions.between m.lastSentButtons m.shownButtons
  | _ => Transitions.none

/-- The event makes a report: one that was asked for, or one that the button action calls for. -/
def reportsAt (m : HostMouse) : AbsEvent -> Bool
  | .flush e =>
      e.quarantined ∧ ((m.wentDown ≠ 0 ∧ m.absBtnAction &&& 0x01 ≠ 0) ∨
        (m.wentUp ≠ 0 ∧ m.absBtnAction &&& 0x02 ≠ 0))
  | .interrogate quarantined _ => quarantined
  | _ => false

def roomAt : AbsEvent -> Bool
  | .flush e => decide (e.ringUsed 0 + 6 ≤ RING_SIZE - 1)
  | .interrogate _ ringUsed => decide (ringUsed + 6 ≤ RING_SIZE - 1)
  | _ => true

/-- The mouse beside the transitions since the report before, and those since the last report that
was made, whether or not there was room for it. -/
structure AbsWatch where
  mouse : HostMouse
  happened : Transitions
  recent : Transitions

def AbsWatch.start (m : HostMouse) (maxX maxY : BitVec 16) : AbsWatch :=
  ⟨setAbsolute { m with paused := false } maxX maxY, Transitions.none, Transitions.none⟩

def AbsWatch.step (w : AbsWatch) (e : AbsEvent) : AbsWatch where
  mouse := (absStep w.mouse e).1
  happened :=
    if reportsAt w.mouse e ∧ roomAt e then Transitions.none
    else w.happened.and (transitionsAt w.mouse e)
  recent :=
    if reportsAt w.mouse e then Transitions.none else w.recent.and (transitionsAt w.mouse e)

/-- A report that goes into the ring carries the transitions since the one before. -/
def ReportsRight (w : AbsWatch) (e : AbsEvent) : Prop :=
  forall packet, packet ∈ (absStep w.mouse e).2 ->
    packet.getD 1 0 = (w.happened.and (transitionsAt w.mouse e)).byte

/-- Of the transitions that a report is to carry, those of the left button are those of the right
one, and all have happened since the last report for which there was no room. -/
def ButtonsAlike (w : AbsWatch) (e : AbsEvent) : Prop :=
  reportsAt w.mouse e = true -> roomAt e = true ->
    let due := w.happened.and (transitionsAt w.mouse e)
    (due.leftDown = due.rightDown ∧ due.leftUp = due.rightUp) ∧
      w.recent.and (transitionsAt w.mouse e) = due

/-- The latch holds the transitions since the last report that was made, buttons exchanged. -/
structure AbsWatch.Latched (w : AbsWatch) : Prop where
  mode : w.mouse.mouseMode = .abs
  running : w.mouse.paused = false
  latch_eq : w.mouse.absBtnLatch = w.recent.exchanged.byte
  part : w.recent.and w.happened = w.happened

structure LatchStep (m : HostMouse) (e : AbsEvent) : Prop where
  mode_eq : (absStep m e).1.mouseMode = m.mouseMode
  paused_eq : (absStep m e).1.paused = m.paused
  latch_eq : (absStep m e).1.absBtnLatch =
    if reportsAt m e then 0 else m.absBtnLatch ||| (transitionsAt m e).exchanged.byte
  reports_eq : exists packet, (absStep m e).2 = (if reportsAt m e ∧ roomAt e then [packet] else []) ∧
    packet.getD 1 0 = m.absBtnLatch ||| (transitionsAt m e).exchanged.byte

theorem LatchStep.quiet {m : HostMouse} {e : AbsEvent} (hreports : reportsAt m e = false)
    (htransitions : transitionsAt m e = Transitions.none)
    (hmode : (absStep m e).1.mouseMode = m.mouseMode) (hpaused : (absStep m e).1.paused = m.paused)
    (hlatch : (absStep m e).1.absBtnLatch = m.absBtnLatch) (hpackets : (absStep m e).2 = []) :
    LatchStep m e := by
  have hnone : m.absBtnLatch ||| (transitionsAt m e).exchanged.byte = m.absBtnLatch := by
    rw [htransitions, Transitions.byte_none]
    exact BitVec.or_zero
  refine ⟨hmode, hpaused, ?_, [0, m.absBtnLatch], ?_, hnone.symm⟩
  · rw [hreports, hnone, hlatch]
    rfl
  · rw [hreports, hpackets]
    rfl

theorem pushed_six {used : Nat} {packet : List (BitVec 8)} (hlength : packet.length = 6) :
    pushed used packet = if used + 6 ≤ RING_SIZE - 1 then [packet] else [] := by
  unfold pushed
  unfold RING_SIZE
  by_cases hroom : used + 6 ≤ 1024 - 1
  · rw [if_pos hroom, if_neg (by lia)]
  · rw [if_neg hroom, if_pos (by lia)]

theorem latchStep_interrogate {m : HostMouse} (hmode : m.mouseMode = .abs) (quarantined : Bool)
    (ringUsed : Nat) : LatchStep m (.interrogate quarantined ringUsed) := by
  cases quarantined with
  | false =>
      have hstep : absStep m (.interrogate false ringUsed) = (m, []) :=
        if_neg (fun hboth => Bool.false_ne_true hboth.2)
      exact LatchStep.quiet rfl rfl (by rw [hstep]) (by rw [hstep]) (by rw [hstep]) (by rw [hstep])
  | true =>
      have hstep : absStep m (.interrogate true ringUsed) = ikbdAbsReport m ringUsed :=
        if_pos ⟨hmode, rfl⟩
      refine ⟨by rw [hstep]; rfl, by rw [hstep]; rfl, by rw [hstep]; rfl, absPacket m, ?_, ?_⟩
      · rw [hstep]
        show pushed ringUsed (absPacket m) = _
        rw [pushed_six rfl]
        unfold reportsAt roomAt
        simp only [true_and, decide_eq_true_iff]
      · show m.absBtnLatch = m.absBtnLatch ||| Transitions.none.exchanged.byte
        rw [Transitions.byte_none]
        exact BitVec.or_zero.symm

theorem latchStep_flush {m : HostMouse} (hmode : m.mouseMode = .abs) (hrunning : m.paused = false)
    (e : FlushCall) : LatchStep m (.flush e) := by
  have hflush : absStep m (.flush e) =
      absFlush m { e with psdosWantsInput := false, stboxWantsInput := false } := by
    unfold absStep mouseFlush
    dsimp only
    rw [hmode, hrunning]
    rfl
  have hlatch : (transitionsAt m (.flush e)).exchanged.byte = latchBits m.wentDown m.wentUp :=
    (latchBits_between m.lastSentButtons m.shownButtons).symm
  have hcond : reportsAt m (.flush e) = true <->
      e.quarantined ∧ ((m.wentDown ≠ 0 ∧ m.absBtnAction &&& 0x01 ≠ 0) ∨
        (m.wentUp ≠ 0 ∧ m.absBtnAction &&& 0x02 ≠ 0)) := by
    unfold reportsAt
    exact decide_eq_true_iff
  have hmoved : (absMoved m e.div).absBtnLatch =
      m.absBtnLatch ||| (transitionsAt m (.flush e)).exchanged.byte := by
    rw [hlatch]
    rfl
  by_cases hreports : reportsAt m (.flush e) = true
  · have hcall : absStep m (.flush e) = ikbdAbsReport (absMoved m e.div) (e.ringUsed 0) := by
      rw [hflush]
      exact if_pos (hcond.mp hreports)
    refine ⟨by rw [hcall]; rfl, by rw [hcall]; rfl, ?_, absPacket (absMoved m e.div), ?_, hmoved⟩
    · rw [hcall, if_pos hreports]
      rfl
    · rw [hcall, hreports]
      show pushed (e.ringUsed 0) (absPacket (absMoved m e.div)) = _
      rw [pushed_six rfl]
      unfold roomAt
      simp only [true_and, decide_eq_true_iff]
  · have hcall : absStep m (.flush e) = (absMoved m e.div, []) := by
      rw [hflush]
      exact if_neg (mt hcond.mpr hreports)
    refine ⟨by rw [hcall]; rfl, by rw [hcall]; rfl, ?_, absPacket (absMoved m e.div), ?_, hmoved⟩
    · rw [hcall, if_neg hreports]
      exact hmoved
    · rw [hcall, if_neg (fun hboth => hreports hboth.1)]

theorem latchStep {m : HostMouse} (hmode : m.mouseMode = .abs) (hrunning : m.paused = false)
    (e : AbsEvent) : LatchStep m e := by
  cases e with
  | input i =>
      cases i with
      | relX value => exact LatchStep.quiet rfl rfl rfl rfl rfl rfl
      | relY value => exact LatchStep.quiet rfl rfl rfl rfl rfl rfl
      | left pressed => exact LatchStep.quiet rfl rfl rfl rfl rfl rfl
      | right pressed => exact LatchStep.quiet rfl rfl rfl rfl rfl rfl
  | fire down => exact LatchStep.quiet rfl rfl rfl rfl rfl rfl
  | buttonAction v => exact LatchStep.quiet rfl rfl rfl rfl rfl rfl
  | loadPosition x y => exact LatchStep.quiet rfl rfl rfl rfl rfl rfl
  | flush e => exact latchStep_flush hmode hrunning e
  | interrogate quarantined ringUsed => exact latchStep_interrogate hmode quarantined ringUsed

theorem AbsWatch.Latched.step {w : AbsWatch} (h : w.Latched) (e : AbsEvent) : (w.step e).Latched := by
  have hstep := latchStep h.mode h.running e
  refine ⟨hstep.mode_eq.trans h.mode, hstep.paused_eq.trans h.running, ?_, ?_⟩
  · show (absStep w.mouse e).1.absBtnLatch =
      (if reportsAt w.mouse e then Transitions.none
        else w.recent.and (transitionsAt w.mouse e)).exchanged.byte
    rw [hstep.latch_eq, h.latch_eq]
    cases reportsAt w.mouse e with
    | true => exact Transitions.byte_none.symm
    | false =>
        show _ = ((w.recent.and (transitionsAt w.mouse e)).exchanged).byte
        rw [Transitions.exchanged_and, Transitions.byte_and]
        rfl
  · show (if reportsAt w.mouse e then Transitions.none
        else w.recent.and (transitionsAt w.mouse e)).and
      (if reportsAt w.mouse e ∧ roomAt e then Transitions.none
        else w.happened.and (transitionsAt w.mouse e)) =
      (if reportsAt w.mouse e ∧ roomAt e then Transitions.none
        else w.happened.and (transitionsAt w.mouse e))
    cases hreports : reportsAt w.mouse e with
    | true => exact Transitions.none_and _
    | false => exact Transitions.and_part h.part _

theorem AbsWatch.Latched.reportsRight_iff {w : AbsWatch} (h : w.Latched) (e : AbsEvent) :
    ReportsRight w e <-> ButtonsAlike w e := by
  rcases (latchStep h.mode h.running e).reports_eq with ⟨packet, hpackets, hbyte⟩
  have hlatch : packet.getD 1 0 = (w.recent.and (transitionsAt w.mouse e)).exchanged.byte := by
    rw [hbyte, h.latch_eq, Transitions.exchanged_and, Transitions.byte_and]
  have hpart := Transitions.and_part h.part (transitionsAt w.mouse e)
  have hright : packet.getD 1 0 = (w.happened.and (transitionsAt w.mouse e)).byte <->
      w.recent.and (transitionsAt w.mouse e) = w.happened.and (transitionsAt w.mouse e) ∧
        (w.happened.and (transitionsAt w.mouse e)).exchanged =
          w.happened.and (transitionsAt w.mouse e) := by
    rw [hlatch, ← Transitions.exchanged_eq_of_part hpart]
    exact ⟨Transitions.byte_inj, fun heq => by rw [heq]⟩
  unfold ReportsRight ButtonsAlike
  rw [hpackets]
  by_cases hgoes : reportsAt w.mouse e = true ∧ roomAt e = true
  · rw [if_pos hgoes]
    constructor
    · intro hall _ _
      rcases hright.mp (hall packet (List.mem_singleton.mpr rfl)) with ⟨hsame, halike⟩
      exact ⟨(Transitions.exchanged_eq_iff _).mp halike, hsame⟩
    · intro hcond packet' hmem
      rcases hcond hgoes.1 hgoes.2 with ⟨halike, hsame⟩
      rw [List.mem_singleton.mp hmem]
      exact hright.mpr ⟨hsame, (Transitions.exchanged_eq_iff _).mpr halike⟩
  · rw [if_neg hgoes]
    constructor
    · intro _ hreports hroom
      exact absurd ⟨hreports, hroom⟩ hgoes
    · intro _ packet' hmem
      cases hmem

/-- Every report carries what happened to the buttons exactly if, at each of them, both buttons did
the same and no report before it was dropped with something in it. -/
theorem reports_right_iff (m : HostMouse) (maxX maxY : BitVec 16) (events : List AbsEvent) :
    Steps AbsWatch.step ReportsRight (AbsWatch.start m maxX maxY) events <->
      Steps AbsWatch.step ButtonsAlike (AbsWatch.start m maxX maxY) events :=
  @Steps.iff_of_invariant _ _ _ _ _ AbsWatch.Latched (fun _ e hw _ => hw.step e)
    (fun _ e hw => hw.reportsRight_iff e) _ ⟨rfl, rfl, Transitions.byte_none.symm, rfl⟩ events

def absCall : FlushCall := ⟨false, false, true, 1, fun _ => 0⟩

def leftPressed : List AbsEvent := [.input (.left true), .flush absCall, .interrogate true 0]

/-- The report says that the right button was pressed. -/
theorem left_press_reported_right :
    ¬ Steps AbsWatch.step ReportsRight (AbsWatch.start HostMouse.reset 639 399) leftPressed := by
  rintro ⟨_, _, hreport, _⟩
  have hbyte := hreport _ (List.mem_singleton.mpr rfl)
  revert hbyte
  decide

end Ikbd
end PistormAtari
