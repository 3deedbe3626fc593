import Mathlib
import PistormAtari.Foundation.WhileLoop
import PistormAtari.Ikbd.JoyUsb
import PistormAtari.Ikbd.Merge
import PistormAtari.Ikbd.UsbKeys

/-!
# The mouse of the host

{lit}`kbd_usb.c` adds up what the mice of the host report and turns it into packets every eight
milliseconds.  In relative mode the motion is divided down, cut into signed bytes and sent
while the ring is short; in absolute mode it moves the position the guest asks for.
-/

namespace PistormAtari
namespace Ikbd

open Foundation

def MOUSE_MAX_QUEUE : Nat := 6
def MOUSE_CARRY_CLAMP : Int := 384

/-- {lit}`in_state` and {lit}`ikbd` as far as the mouse goes, and the two statics of the flush. -/
structure HostMouse where
  dx : Int
  dy : Int
  buttons : BitVec 8
  lastSentButtons : BitVec 8
  dosLastButtons : BitVec 8
  stboxLastButtons : BitVec 8
  joyRbutton : Bool
  mouseMode : MouseMode
  y0Top : Bool
  paused : Bool
  absX : Int
  absY : Int
  absMaxX : Int
  absMaxY : Int
  absBtnAction : BitVec 8
  absBtnLatch : BitVec 8
deriving DecidableEq

def HostMouse.reset : HostMouse where
  dx := 0
  dy := 0
  buttons := 0
  lastSentButtons := 0
  dosLastButtons := 0
  stboxLastButtons := 0
  joyRbutton := false
  mouseMode := .rel
  y0Top := true
  paused := false
  absX := 0
  absY := 0
  absMaxX := 0
  absMaxY := 0
  absBtnAction := 0
  absBtnLatch := 0

/-- What a flush finds: whether the DOS window or the box wants the input, whether no real
keyboard answers, the divisor, and what each look at the ring finds in it. -/
structure FlushCall where
  psdosWantsInput : Bool
  stboxWantsInput : Bool
  quarantined : Bool
  mouseDiv : Int
  ringUsed : Nat -> Nat

def FlushCall.div (e : FlushCall) : Int := if 0 < e.mouseDiv then e.mouseDiv else 1

def pushed (used : Nat) (packet : List (BitVec 8)) : List (List (BitVec 8)) :=
  if RING_SIZE - 1 - used < packet.length then [] else [packet]

/-!
## Absolute mode
-/

def ikbdAbsClamp (m : HostMouse) : HostMouse :=
  let x := if m.absX < 0 then 0 else m.absX
  let y := if m.absY < 0 then 0 else m.absY
  { m with
    absX := if m.absMaxX < x then m.absMaxX else x
    absY := if m.absMaxY < y then m.absMaxY else y }

def absPacket (m : HostMouse) : List (BitVec 8) :=
  [0xF7, m.absBtnLatch, BitVec.ofInt 8 (m.absX / 256), BitVec.ofInt 8 m.absX,
    BitVec.ofInt 8 (m.absY / 256), BitVec.ofInt 8 m.absY]

def ikbdAbsReport (m : HostMouse) (used : Nat) : HostMouse × List (List (BitVec 8)) :=
  ({ m with absBtnLatch := 0 }, pushed used (absPacket m))

/-- The buttons the guest is to see: the fire button of pad 0 is the right one. -/
def HostMouse.shownButtons (m : HostMouse) : BitVec 8 :=
  m.buttons ||| (if m.joyRbutton then 0x01 else 0)

def latchBits (down up : BitVec 8) : BitVec 8 :=
  (if down &&& 0x02 ≠ 0 then 0x01 else 0) ||| (if up &&& 0x02 ≠ 0 then 0x02 else 0) |||
    (if down &&& 0x01 ≠ 0 then 0x04 else 0) ||| (if up &&& 0x01 ≠ 0 then 0x08 else 0)

/-- The buttons that went down, and those that went up, since the last flush. -/
def HostMouse.wentDown (m : HostMouse) : BitVec 8 := m.shownButtons &&& ~~~m.lastSentButtons
def HostMouse.wentUp (m : HostMouse) : BitVec 8 := m.lastSentButtons &&& ~~~m.shownButtons

def absMoved (m : HostMouse) (div : Int) : HostMouse :=
  let ax := m.dx.tdiv div
  let ay := m.dy.tdiv div
  let latched := m.absBtnLatch ||| latchBits m.wentDown m.wentUp
  let m := { m with
    dx := m.dx - ax * div
    dy := m.dy - ay * div
    lastSentButtons := m.shownButtons }
  let ay := if m.y0Top then ay else -ay
  { ikbdAbsClamp { m with absX := m.absX + ax, absY := m.absY + ay } with absBtnLatch := latched }

def absFlush (m : HostMouse) (e : FlushCall) : HostMouse × List (List (BitVec 8)) :=
  if e.quarantined ∧ ((m.wentDown ≠ 0 ∧ m.absBtnAction &&& 0x01 ≠ 0) ∨
      (m.wentUp ≠ 0 ∧ m.absBtnAction &&& 0x02 ≠ 0)) then
    ikbdAbsReport (absMoved m e.div) (e.ringUsed 0)
  else (absMoved m e.div, [])

/-!
## Relative mode
-/

/-- The motion and the buttons in the loop of a flush, the looks at the ring so far, and the
packets pushed. -/
structure Emission where
  dx : Int
  dy : Int
  lastSentButtons : BitVec 8
  looks : Nat
  packets : List (List (BitVec 8))

def carryClamp (d : Int) : Int :=
  let d := if MOUSE_CARRY_CLAMP < d then MOUSE_CARRY_CLAMP else d
  if d < -MOUSE_CARRY_CLAMP then -MOUSE_CARRY_CLAMP else d

def packetDelta (d div : Int) : Int :=
  let s := d.tdiv div
  let s := if 127 < s then 127 else s
  if s < -128 then -128 else s

def emitCond (e : FlushCall) (buttons : BitVec 8) (s : Emission) : Bool :=
  (s.dx.tdiv e.div ≠ 0 ∨ s.dy.tdiv e.div ≠ 0 ∨ buttons ≠ s.lastSentButtons) ∧
    ¬ MOUSE_MAX_QUEUE ≤ e.ringUsed s.looks

def relPacket (y0Top : Bool) (buttons : BitVec 8) (sx sy : Int) : List (BitVec 8) :=
  [0xF8 ||| (buttons &&& 0x03), BitVec.ofInt 8 sx, BitVec.ofInt 8 (if y0Top then sy else -sy)]

def emitBody (e : FlushCall) (y0Top : Bool) (buttons : BitVec 8) (s : Emission) : Emission :=
  let sx := packetDelta s.dx e.div
  let sy := packetDelta s.dy e.div
  { dx := s.dx - sx * e.div
    dy := s.dy - sy * e.div
    lastSentButtons := buttons
    looks := s.looks + 1
    packets := s.packets ++ pushed (e.ringUsed s.looks) (relPacket y0Top buttons sx sy) }

def emitRank (buttons : BitVec 8) (s : Emission) : Nat :=
  s.dx.natAbs + s.dy.natAbs + (if buttons = s.lastSentButtons then 0 else 1)

def emitted (e : FlushCall) (y0Top : Bool) (buttons : BitVec 8) (s : Emission) : Emission :=
  whileFuel (emitCond e buttons) (emitBody e y0Top buttons) (emitRank buttons s) s

def relFlush (m : HostMouse) (e : FlushCall) : HostMouse × List (List (BitVec 8)) :=
  let s := emitted e m.y0Top m.shownButtons
    ⟨carryClamp m.dx, carryClamp m.dy, m.lastSentButtons, 0, []⟩
  ({ m with dx := s.dx, dy := s.dy, lastSentButtons := s.lastSentButtons }, s.packets)

/-!
## The flush
-/

structure Forwarded where
  sink : Sink
  dx : Int
  dy : Int
  buttons : BitVec 8
deriving DecidableEq, Repr

structure Flushed where
  mouse : HostMouse
  packets : List (List (BitVec 8))
  forwarded : List Forwarded

def mouseFlush (m : HostMouse) (e : FlushCall) : Flushed :=
  if e.psdosWantsInput then
    if m.dx ≠ 0 ∨ m.dy ≠ 0 ∨ m.buttons ≠ m.dosLastButtons then
      ⟨{ m with dosLastButtons := m.buttons, dx := 0, dy := 0 }, [],
        [⟨.dos, m.dx, m.dy, m.buttons⟩]⟩
    else ⟨m, [], []⟩
  else if e.stboxWantsInput then
    if m.dx ≠ 0 ∨ m.dy ≠ 0 ∨ m.buttons ≠ m.stboxLastButtons then
      ⟨{ m with stboxLastButtons := m.buttons, dx := 0, dy := 0 }, [],
        [⟨.stbox, m.dx, m.dy, m.buttons⟩]⟩
    else ⟨m, [], []⟩
  else if m.paused ∨ m.mouseMode = .off ∨ m.mouseMode = .keycode then
    ⟨{ m with dx := 0, dy := 0, lastSentButtons := m.shownButtons }, [], []⟩
  else if m.mouseMode = .abs then ⟨(absFlush m e).1, (absFlush m e).2, []⟩
  else ⟨(relFlush m e).1, (relFlush m e).2, []⟩

/-- The mouse part of {lit}`handle_event`: motion along an axis, and the left and the right
button. -/
inductive MouseInput where
  | relX (value : Int)
  | relY (value : Int)
  | left (pressed : Bool)
  | right (pressed : Bool)
deriving DecidableEq, Repr

def handleMouse (m : HostMouse) : MouseInput -> HostMouse
  | .relX value => { m with dx := m.dx + value }
  | .relY value => { m with dy := m.dy + value }
  | .left pressed =>
      { m with buttons := if pressed then m.buttons ||| 0x02 else m.buttons &&& ~~~0x02 }
  | .right pressed =>
      { m with buttons := if pressed then m.buttons ||| 0x01 else m.buttons &&& ~~~0x01 }

/-!
## One packet of motion
-/

theorem FlushCall.div_pos (e : FlushCall) : 0 < e.div := by
  unfold FlushCall.div
  split
  · assumption
  · decide

theorem packetDelta_range (d div : Int) : -128 ≤ packetDelta d div ∧ packetDelta d div ≤ 127 := by
  unfold packetDelta
  lia

theorem tdiv_mul_between {d div : Int} (hdiv : 0 < div) :
    (0 ≤ d -> 0 ≤ d.tdiv div ∧ d.tdiv div * div ≤ d) ∧
      (d ≤ 0 -> d.tdiv div ≤ 0 ∧ d ≤ d.tdiv div * div) := by
  have hpos : forall n : Int, 0 ≤ n -> 0 ≤ n.tdiv div ∧ n.tdiv div * div ≤ n := by
    intro n hn
    refine ⟨Int.tdiv_nonneg hn (Int.le_of_lt hdiv), ?_⟩
    rw [Int.mul_comm]
    exact Int.mul_tdiv_self_le hn
  refine ⟨hpos d, ?_⟩
  intro hd
  have hneg := hpos (-d) (by lia)
  rw [Int.neg_tdiv, Int.neg_mul] at hneg
  lia

theorem lowest_after {d div : Int} (hdiv : 0 < div) (h : -128 < d.tdiv div) :
    -128 < packetDelta d div ∧ -128 < (d - packetDelta d div * div).tdiv div := by
  have hdelta : packetDelta d div = if 127 < d.tdiv div then 127 else d.tdiv div := by
    unfold packetDelta
    lia
  rw [hdelta]
  by_cases hhigh : 127 < d.tdiv div
  · rw [if_pos hhigh]
    have hd : 0 ≤ d := by
      by_contra hneg
      have hq := ((@tdiv_mul_between d div hdiv).2 (by lia)).1
      lia
    have hmul := ((@tdiv_mul_between d div hdiv).1 hd).2
    have hle := Int.mul_le_mul_of_nonneg_right (Int.le_of_lt hhigh) (Int.le_of_lt hdiv)
    have hrest := ((@tdiv_mul_between (d - 127 * div) div hdiv).1 (by lia)).1
    lia
  · rw [if_neg hhigh]
    have hrest : d - d.tdiv div * div = d.tmod div := by
      have hsplit := Int.mul_tdiv_add_tmod d div
      rw [Int.mul_comm] at hsplit
      lia
    rw [hrest]
    refine ⟨h, ?_⟩
    have hsmall : (d.tmod div).natAbs < div.natAbs := by
      rw [Int.natAbs_tmod]
      exact Nat.mod_lt _ (by lia)
    by_contra hlow
    have hback := (@tdiv_mul_between (d.tmod div) div hdiv).2
    have hpos := (@tdiv_mul_between (d.tmod div) div hdiv).1
    have hle : (d.tmod div).tdiv div * div ≤ -1 * div :=
      Int.mul_le_mul_of_nonneg_right (by lia) (Int.le_of_lt hdiv)
    lia

/-!
## The loop of a flush
-/

theorem pushed_short {used : Nat} (h : ¬ MOUSE_MAX_QUEUE ≤ used) {packet : List (BitVec 8)}
    (hlength : packet.length ≤ 6) : pushed used packet = [packet] := by
  unfold pushed
  unfold MOUSE_MAX_QUEUE at h
  unfold RING_SIZE
  rw [if_neg (by lia)]

theorem emitCond_iff (e : FlushCall) (buttons : BitVec 8) (s : Emission) :
    emitCond e buttons s = true <->
      (s.dx.tdiv e.div ≠ 0 ∨ s.dy.tdiv e.div ≠ 0 ∨ buttons ≠ s.lastSentButtons) ∧
        ¬ MOUSE_MAX_QUEUE ≤ e.ringUsed s.looks := by
  unfold emitCond
  exact decide_eq_true_iff

def deltaX (packet : List (BitVec 8)) : Int := (packet.getD 1 0).toInt
def deltaY (packet : List (BitVec 8)) : Int := (packet.getD 2 0).toInt

def sumX (packets : List (List (BitVec 8))) : Int := (packets.map deltaX).sum

def sumY (y0Top : Bool) (packets : List (List (BitVec 8))) : Int :=
  (packets.map fun packet => if y0Top then deltaY packet else -deltaY packet).sum

theorem toInt_ofInt_byte {s : Int} (hlow : -128 ≤ s) (hhigh : s ≤ 127) :
    (BitVec.ofInt 8 s).toInt = s := by
  rw [BitVec.toInt_ofInt]
  exact Int.bmod_eq_of_le (by lia) (by lia)

theorem deltaX_relPacket (y0Top : Bool) (buttons : BitVec 8) {sx : Int} (hlow : -128 ≤ sx)
    (hhigh : sx ≤ 127) (sy : Int) : deltaX (relPacket y0Top buttons sx sy) = sx :=
  toInt_ofInt_byte hlow hhigh

theorem deltaY_relPacket (y0Top : Bool) (buttons : BitVec 8) (sx : Int) {sy : Int}
    (hlow : -128 ≤ sy) (hhigh : sy ≤ 127) (hopen : y0Top = true ∨ -128 < sy) :
    (if y0Top then deltaY (relPacket y0Top buttons sx sy)
      else -deltaY (relPacket y0Top buttons sx sy)) = sy := by
  cases y0Top with
  | true => exact toInt_ofInt_byte hlow hhigh
  | false =>
      have hnegated : (BitVec.ofInt 8 (-sy)).toInt = -sy := by
        rcases hopen with htop | hlowest
        · cases htop
        · exact toInt_ofInt_byte (by lia) (by lia)
      show -(BitVec.ofInt 8 (-sy)).toInt = sy
      rw [hnegated, Int.neg_neg]

structure Conserved (e : FlushCall) (y0Top : Bool) (dx dy : Int) (s : Emission) : Prop where
  x_eq : sumX s.packets * e.div + s.dx = dx
  y_eq : sumY y0Top s.packets * e.div + s.dy = dy
  y_open : y0Top = true ∨ -128 < s.dy.tdiv e.div

theorem Conserved.emitBody {e : FlushCall} {y0Top : Bool} {dx dy : Int} {s : Emission}
    (h : Conserved e y0Top dx dy s) {buttons : BitVec 8} (hcond : emitCond e buttons s = true) :
    Conserved e y0Top dx dy (emitBody e y0Top buttons s) := by
  have hroom := ((emitCond_iff e buttons s).mp hcond).2
  have hpushed : (Ikbd.emitBody e y0Top buttons s).packets =
      s.packets ++ [relPacket y0Top buttons (packetDelta s.dx e.div) (packetDelta s.dy e.div)] := by
    unfold Ikbd.emitBody
    dsimp only
    rw [pushed_short hroom (by show 3 ≤ 6; decide)]
  have hopen : y0Top = true ∨ -128 < packetDelta s.dy e.div :=
    h.y_open.imp_right fun hlowest => (lowest_after e.div_pos hlowest).1
  have hx := packetDelta_range s.dx e.div
  have hy := packetDelta_range s.dy e.div
  refine ⟨?_, ?_, ?_⟩
  · unfold sumX
    rw [hpushed, List.map_append, List.map_singleton, List.sum_append, List.sum_singleton,
      deltaX_relPacket y0Top buttons hx.1 hx.2, Int.add_mul]
    have hold := h.x_eq
    unfold sumX at hold
    show _ + _ + (s.dx - packetDelta s.dx e.div * e.div) = dx
    lia
  · unfold sumY
    rw [hpushed, List.map_append, List.map_singleton, List.sum_append, List.sum_singleton,
      deltaY_relPacket y0Top buttons _ hy.1 hy.2 hopen, Int.add_mul]
    have hold := h.y_eq
    unfold sumY at hold
    show _ + _ + (s.dy - packetDelta s.dy e.div * e.div) = dy
    lia
  · exact h.y_open.imp_right fun hlowest => (lowest_after e.div_pos hlowest).2

theorem Conserved.emitted {e : FlushCall} {y0Top : Bool} {dx dy : Int} {s : Emission}
    (h : Conserved e y0Top dx dy s) (buttons : BitVec 8) :
    Conserved e y0Top dx dy (emitted e y0Top buttons s) :=
  whileFuel_invariant (fun _ hs hcond => hs.emitBody hcond) _ h

/-!
## Runs in relative mode
-/

/-- What happens to the mouse while the guest has it in relative mode. -/
inductive MotionEvent where
  | input (i : MouseInput)
  | fire (down : Bool)
  | y0 (top : Bool)
  | flush (ringUsed : Nat -> Nat)

/-- The mouse beside the motion the host reported, the motion the packets reported, both down the
screen, the motion the carry clamp cut off, and the packets. -/
structure MotionWatch where
  mouse : HostMouse
  hostX : Int
  hostY : Int
  sentX : Int
  sentY : Int
  cutX : Int
  cutY : Int
  sent : List (List (BitVec 8))

def MotionWatch.initial : MotionWatch := ⟨HostMouse.reset, 0, 0, 0, 0, 0, 0, []⟩

def relCall (mouseDiv : Int) (ringUsed : Nat -> Nat) : FlushCall :=
  ⟨false, false, false, mouseDiv, ringUsed⟩

def hostMotion : MouseInput -> Int × Int
  | .relX value => (value, 0)
  | .relY value => (0, value)
  | .left _ => (0, 0)
  | .right _ => (0, 0)

def MotionWatch.step (mouseDiv : Int) (w : MotionWatch) : MotionEvent -> MotionWatch
  | .input i =>
      { w with
        mouse := handleMouse w.mouse i
        hostX := w.hostX + (hostMotion i).1
        hostY := w.hostY + (hostMotion i).2 }
  | .fire down => { w with mouse := { w.mouse with joyRbutton := down } }
  | .y0 top => { w with mouse := { w.mouse with y0Top := top } }
  | .flush ringUsed =>
      let flushed := mouseFlush w.mouse (relCall mouseDiv ringUsed)
      { w with
        mouse := flushed.mouse
        sentX := w.sentX + sumX flushed.packets
        sentY := w.sentY + sumY w.mouse.y0Top flushed.packets
        cutX := w.cutX + (w.mouse.dx - carryClamp w.mouse.dx)
        cutY := w.cutY + (w.mouse.dy - carryClamp w.mouse.dy)
        sent := w.sent ++ flushed.packets }

/-- No flush negates the lowest delta: the origin of y is at the top, or the motion is not that far
up. -/
def LowestNotNegated (mouseDiv : Int) (w : MotionWatch) : MotionEvent -> Prop
  | .flush ringUsed =>
      w.mouse.y0Top = true ∨
        -128 < (carryClamp w.mouse.dy).tdiv (relCall mouseDiv ringUsed).div
  | _ => True

/-- The mouse is in relative mode, and no motion is lost but what the clamp cut off. -/
structure MotionWatch.Kept (div : Int) (w : MotionWatch) : Prop where
  mode : w.mouse.mouseMode = .rel
  running : w.mouse.paused = false
  x_eq : w.sentX * div + w.mouse.dx + w.cutX = w.hostX
  y_eq : w.sentY * div + w.mouse.dy + w.cutY = w.hostY

theorem relFlush_kept {m : HostMouse} {e : FlushCall}
    (hopen : m.y0Top = true ∨ -128 < (carryClamp m.dy).tdiv e.div) :
    sumX (relFlush m e).2 * e.div + (relFlush m e).1.dx = carryClamp m.dx ∧
      sumY m.y0Top (relFlush m e).2 * e.div + (relFlush m e).1.dy = carryClamp m.dy := by
  have hstart : Conserved e m.y0Top (carryClamp m.dx) (carryClamp m.dy)
      ⟨carryClamp m.dx, carryClamp m.dy, m.lastSentButtons, 0, []⟩ := by
    refine ⟨?_, ?_, hopen⟩
    · show 0 * e.div + carryClamp m.dx = carryClamp m.dx
      lia
    · show 0 * e.div + carryClamp m.dy = carryClamp m.dy
      lia
  have hend := hstart.emitted m.shownButtons
  exact ⟨hend.x_eq, hend.y_eq⟩

theorem mouseFlush_rel {m : HostMouse} (hmode : m.mouseMode = .rel) (hrunning : m.paused = false)
    (mouseDiv : Int) (ringUsed : Nat -> Nat) :
    mouseFlush m (relCall mouseDiv ringUsed) =
      ⟨(relFlush m (relCall mouseDiv ringUsed)).1, (relFlush m (relCall mouseDiv ringUsed)).2, []⟩ := by
  unfold mouseFlush relCall
  rw [hmode, hrunning]
  rfl

theorem MotionWatch.Kept.step {mouseDiv : Int} {w : MotionWatch}
    (h : w.Kept (relCall mouseDiv fun _ => 0).div) (e : MotionEvent)
    (hlowest : LowestNotNegated mouseDiv w e) :
    (w.step mouseDiv e).Kept (relCall mouseDiv fun _ => 0).div := by
  rcases h with ⟨hmode, hrunning, hx, hy⟩
  cases e with
  | input i =>
      cases i with
      | relX value =>
          refine ⟨hmode, hrunning, ?_, ?_⟩
          · show w.sentX * _ + (w.mouse.dx + value) + w.cutX = w.hostX + value
            lia
          · show w.sentY * _ + w.mouse.dy + w.cutY = w.hostY + 0
            lia
      | relY value =>
          refine ⟨hmode, hrunning, ?_, ?_⟩
          · show w.sentX * _ + w.mouse.dx + w.cutX = w.hostX + 0
            lia
          · show w.sentY * _ + (w.mouse.dy + value) + w.cutY = w.hostY + value
            lia
      | left pressed => exact ⟨hmode, hrunning, hx.trans (Int.add_zero _).symm,
          hy.trans (Int.add_zero _).symm⟩
      | right pressed => exact ⟨hmode, hrunning, hx.trans (Int.add_zero _).symm,
          hy.trans (Int.add_zero _).symm⟩
  | fire down => exact ⟨hmode, hrunning, hx, hy⟩
  | y0 top => exact ⟨hmode, hrunning, hx, hy⟩
  | flush ringUsed =>
      have hflush := mouseFlush_rel hmode hrunning mouseDiv ringUsed
      rcases @relFlush_kept w.mouse (relCall mouseDiv ringUsed) hlowest with ⟨hsentX, hsentY⟩
      have hdiv : (relCall mouseDiv ringUsed).div = (relCall mouseDiv fun _ => 0).div := rfl
      rw [hdiv] at hsentX hsentY
      unfold MotionWatch.step
      dsimp only
      rw [hflush]
      refine ⟨hmode, hrunning, ?_, ?_⟩
      · dsimp only
        rw [Int.add_mul]
        lia
      · dsimp only
        rw [Int.add_mul]
        lia

theorem delta_range (b : BitVec 8) : -128 ≤ b.toInt ∧ b.toInt ≤ 127 := by
  have hlow := b.le_toInt
  have hhigh := b.toInt_lt
  lia

/-- The deltas sent, times the divisor, the carried motion and what the clamp cut off make up the
motion of the host on both axes, and each delta is a signed byte. -/
theorem motion_conserved (mouseDiv : Int) (events : List MotionEvent)
    (h : Steps (MotionWatch.step mouseDiv) (LowestNotNegated mouseDiv) MotionWatch.initial events) :
    let w := run (MotionWatch.step mouseDiv) MotionWatch.initial events
    let div := (relCall mouseDiv fun _ => 0).div
    w.sentX * div + w.mouse.dx + w.cutX = w.hostX ∧
      w.sentY * div + w.mouse.dy + w.cutY = w.hostY ∧
      forall packet, packet ∈ w.sent ->
        (-128 ≤ deltaX packet ∧ deltaX packet ≤ 127) ∧
          (-128 ≤ deltaY packet ∧ deltaY packet ≤ 127) := by
  have hinit : MotionWatch.initial.Kept (relCall mouseDiv fun _ => 0).div :=
    ⟨rfl, rfl, by simp [MotionWatch.initial, HostMouse.reset],
      by simp [MotionWatch.initial, HostMouse.reset]⟩
  have hkept := @Steps.invariant _ _ (MotionWatch.step mouseDiv) (LowestNotNegated mouseDiv)
    (MotionWatch.Kept (relCall mouseDiv fun _ => 0).div)
    (fun _ e hw hlowest => hw.step e hlowest) _ hinit events h
  exact ⟨hkept.x_eq, hkept.y_eq, fun packet _ => ⟨delta_range _, delta_range _⟩⟩

def swipe (counts : Int) : List MotionEvent := [.input (.relX counts), .flush fun _ => 0]

theorem motion_conserved_swipe :
    let w := run (MotionWatch.step 1) MotionWatch.initial (swipe 300)
    w.sentX * 1 + w.mouse.dx + w.cutX = 300 :=
  (motion_conserved 1 (swipe 300) ⟨trivial, Or.inl rfl, trivial⟩).1

/-- Of a long swipe the clamp keeps 384 counts. -/
theorem long_swipe_clamped :
    let w := run (MotionWatch.step 1) MotionWatch.initial (swipe 1000)
    ¬ (w.sentX * 1 + w.mouse.dx = w.hostX ∧ w.sentY * 1 + w.mouse.dy = w.hostY) := by
  decide

end Ikbd
end PistormAtari
