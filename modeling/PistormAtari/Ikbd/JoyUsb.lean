import PistormAtari.Ikbd.RawDivert

/-!
# USB game controllers as joysticks

`joy_usb.c` keeps the state of two pads and hands each change to the IKBD, which
reports it to the guest or not according to its mode.  A state handed over while
the port is not reported is taken as sent.
-/

namespace PistormAtari
namespace Ikbd

open Foundation

/-!
## Pads
-/

def EV_SYN : Nat := 0x00
def EV_KEY : Nat := 0x01
def EV_ABS : Nat := 0x03

def ABS_X : Nat := 0x00
def ABS_Y : Nat := 0x01
def ABS_HAT0X : Nat := 0x10
def ABS_HAT0Y : Nat := 0x11

structure InputEvent where
  type : Nat
  code : Nat
  value : Int
deriving DecidableEq, Repr

def buttonBit : Nat -> BitVec 32
  | 0x130 => 0x00001
  | 0x131 => 0x00002
  | 0x133 => 0x00004
  | 0x134 => 0x00008
  | 0x136 => 0x00010
  | 0x137 => 0x00020
  | 0x13b => 0x00040
  | 0x13a => 0x00080
  | 0x220 => 0x00100
  | 0x221 => 0x00200
  | 0x222 => 0x00400
  | 0x223 => 0x00800
  | 0x120 => 0x01000
  | 0x13d => 0x02000
  | 0x13e => 0x04000
  | 0x138 => 0x08000
  | 0x139 => 0x10000
  | _ => 0

def B_A : BitVec 32 := 0x00001
def B_B : BitVec 32 := 0x00002
def B_X : BitVec 32 := 0x00004
def B_Y : BitVec 32 := 0x00008
def B_START : BitVec 32 := 0x00040
def B_DUP : BitVec 32 := 0x00100
def B_DDOWN : BitVec 32 := 0x00200
def B_DLEFT : BitVec 32 := 0x00400
def B_DRIGHT : BitVec 32 := 0x00800
def B_TRIG : BitVec 32 := 0x01000

def STJOY_UP : BitVec 8 := 0x01
def STJOY_DOWN : BitVec 8 := 0x02
def STJOY_LEFT : BitVec 8 := 0x04
def STJOY_RIGHT : BitVec 8 := 0x08
def STJOY_FIRE : BitVec 8 := 0x80

def STPAD_A : BitVec 8 := 0x01
def STPAD_B : BitVec 8 := 0x02
def STPAD_C : BitVec 8 := 0x04
def STPAD_OPTION : BitVec 8 := 0x08
def STPAD_PAUSE : BitVec 8 := 0x10

structure Axis where
  on : Int
  off : Int
  centre : Int
deriving DecidableEq, Repr

def axisSetup (range : Option (Int × Int)) : Axis :=
  let r := match range with
    | some (lo, hi) => if hi ≤ lo then (-32768, 32767) else (lo, hi)
    | none => (-32768, 32767)
  let half := (r.2 - r.1).tdiv 2
  { on := half.tdiv 2, off := (half * 35).tdiv 100, centre := r.1 + half }

/-- `joypad`, without what only the DOS window reads.  A `lastSent` of `none` is
the `-1` of a pad nothing was sent for. -/
structure Joypad where
  connected : Bool
  axisX : Axis
  axisY : Axis
  stickX : Int
  stickY : Int
  hatX : Int
  hatY : Int
  btn : BitVec 32
  dirty : Bool
  joy : BitVec 8
  pad : BitVec 8
  lastSent : Option (BitVec 16)
  dos : Bool
deriving DecidableEq, Repr

def Joypad.free : Joypad where
  connected := false
  axisX := ⟨0, 0, 0⟩
  axisY := ⟨0, 0, 0⟩
  stickX := 0
  stickY := 0
  hatX := 0
  hatY := 0
  btn := 0
  dirty := false
  joy := 0
  pad := 0
  lastSent := none
  dos := false

def Joypad.holds (p : Joypad) (bits : BitVec 32) : Bool := p.btn &&& bits != 0

def cancelled (joy pair : BitVec 8) : BitVec 8 :=
  if joy &&& pair = pair then joy &&& ~~~pair else joy

def Joypad.joyByte (p : Joypad) : BitVec 8 :=
  let x := if p.hatX ≠ 0 then p.hatX else p.stickX
  let y := if p.hatY ≠ 0 then p.hatY else p.stickY
  let up := if y < 0 ∨ p.holds B_DUP then STJOY_UP else 0
  let down := if y > 0 ∨ p.holds B_DDOWN then STJOY_DOWN else 0
  let left := if x < 0 ∨ p.holds B_DLEFT then STJOY_LEFT else 0
  let right := if x > 0 ∨ p.holds B_DRIGHT then STJOY_RIGHT else 0
  let dirs := up ||| down ||| left ||| right
  let dirs := cancelled (cancelled dirs (STJOY_UP ||| STJOY_DOWN)) (STJOY_LEFT ||| STJOY_RIGHT)
  dirs ||| (if p.holds (B_A ||| B_TRIG) then STJOY_FIRE else 0)

def Joypad.padByte (p : Joypad) : BitVec 8 :=
  (if p.holds (B_A ||| B_TRIG) then STPAD_A else 0) |||
  (if p.holds B_B then STPAD_B else 0) |||
  (if p.holds B_X then STPAD_C else 0) |||
  (if p.holds B_Y then STPAD_OPTION else 0) |||
  (if p.holds B_START then STPAD_PAUSE else 0)

def publish (p : Joypad) : Joypad :=
  { p with joy := p.joyByte, pad := p.padByte, dirty := false }

def Joypad.refreshed (p : Joypad) : Joypad := if p.dirty then publish p else p

def Joypad.key (p : Joypad) : BitVec 16 :=
  p.joy.setWidth 16 ||| (p.pad.setWidth 16 <<< 8)

def Joypad.idle (p : Joypad) : Bool :=
  !p.connected && (p.lastSent == none || p.lastSent == some 0) && !p.dos

def stickUpdate (a : Axis) (s value : Int) : Int :=
  let d := value - a.centre
  if s = 0 then
    if d ≥ a.on then 1 else if d ≤ -a.on then -1 else s
  else if s > 0 then
    if d < a.off then (if d ≤ -a.on then -1 else 0) else s
  else
    if d > -a.off then (if d ≥ a.on then 1 else 0) else s

def joyUsbHandleEvent (p : Joypad) (ev : InputEvent) : Joypad :=
  if p.connected = false then p
  else if ev.type = EV_ABS then
    if ev.code = ABS_X then
      let s := stickUpdate p.axisX p.stickX ev.value
      if s ≠ p.stickX then { p with stickX := s, dirty := true } else p
    else if ev.code = ABS_Y then
      let s := stickUpdate p.axisY p.stickY ev.value
      if s ≠ p.stickY then { p with stickY := s, dirty := true } else p
    else if ev.code = ABS_HAT0X then
      if p.hatX ≠ ev.value then { p with hatX := ev.value, dirty := true } else p
    else if ev.code = ABS_HAT0Y then
      if p.hatY ≠ ev.value then { p with hatY := ev.value, dirty := true } else p
    else p
  else if ev.type = EV_KEY then
    if buttonBit ev.code = 0 ∨ ev.value = 2 then p
    else
      let nb := if ev.value ≠ 0 then p.btn ||| buttonBit ev.code
        else p.btn &&& ~~~buttonBit ev.code
      if nb ≠ p.btn then { p with btn := nb, dirty := true } else p
  else if ev.type = EV_SYN ∧ p.dirty then publish p
  else p

/-!
## Modes of the IKBD
-/

inductive MouseMode where
  | rel
  | abs
  | keycode
  | off
deriving DecidableEq, Repr

structure Modes where
  mouseMode : MouseMode
  paused : Bool
  joyEvent : Bool
  resetUs : BitVec 64
  mouseTouched : Bool
  both : Bool
  mouseOffCmd : Bool
  joyOffCmd : Bool
deriving DecidableEq, Repr

def Modes.reset (now : BitVec 64) : Modes where
  mouseMode := .rel
  paused := false
  joyEvent := true
  resetUs := now
  mouseTouched := false
  both := false
  mouseOffCmd := false
  joyOffCmd := false

def IKBD_RESET_WINDOW_US : BitVec 64 := 63000

def Modes.inResetWindow (m : Modes) (now : BitVec 64) : Bool :=
  (now - m.resetUs).ult IKBD_RESET_WINDOW_US

def Modes.mouseOn (m : Modes) : Bool := m.mouseMode != .off

/-- Joystick 0 is on the mouse port, joystick 1 on the game port. -/
inductive StPort where
  | mouse
  | game
deriving DecidableEq, Repr

inductive PadSlot where
  | pad0
  | pad1
deriving DecidableEq, Repr

def PadSlot.port : PadSlot -> StPort
  | .pad0 => .game
  | .pad1 => .mouse

def StPort.slot : StPort -> PadSlot
  | .game => .pad0
  | .mouse => .pad1

@[simp] theorem PadSlot.slot_port (i : PadSlot) : i.port.slot = i := by
  cases i <;> rfl

/-- What the modes report of the state of a port, where they report it: nothing
with events off or output paused, nothing of the mouse port while the mouse has
it, and no fire on the game port while fire is the right mouse button. -/
def reported (m : Modes) (port : StPort) (state : BitVec 8) : Option (BitVec 8) :=
  if !m.joyEvent || m.paused then none
  else if port = .mouse ∧ m.mouseOn ∧ !m.both then none
  else if port = .game ∧ m.mouseOn then some (state &&& ~~~STJOY_FIRE)
  else some state

/-- The last state packed for a port, as `joy_last_pkt` has it, and the state byte
of the packet `joy_send` pushes on the ring. -/
structure JoySent where
  lastPkt : Option (BitVec 8)
  pushed : Option (BitVec 8)
deriving DecidableEq, Repr

/-- `joy_send`.  With `toBox` the STBOX gets the state; without `room` the ring
drops the packet. -/
def joySend (m : Modes) (toBox room : Bool) (lastPkt : Option (BitVec 8)) (port : StPort)
    (state : BitVec 8) : JoySent :=
  if toBox then { lastPkt := lastPkt, pushed := none }
  else match reported m port state with
    | none => { lastPkt := lastPkt, pushed := none }
    | some s =>
        if lastPkt = some s then { lastPkt := some s, pushed := none }
        else { lastPkt := some s, pushed := if room then some s else none }

/-!
## The tick
-/

inductive MonMode where
  | off
  | joy
  | fire
deriving DecidableEq, Repr

structure JoyUsb where
  pads : PadSlot -> Joypad
  resend : Bool
  mon : MonMode
  modes : Modes
  joyLastPkt : StPort -> Option (BitVec 8)

/-- What a tick finds: the windows and the routing, whether a real IKBD answers,
and whether the ring has room for the packet of each port. -/
structure Surroundings where
  windows : Windows
  route : Bool
  standalone : Bool
  room : StPort -> Bool

def Surroundings.dosOwns (e : Surroundings) : Bool := e.windows.psdosPadsWanted

def Surroundings.toBox (e : Surroundings) : Bool :=
  stboxWantsInput e.route e.windows && !e.windows.psdosPadsWanted

/-- `dos_tick` as the DOS window takes the pad: what the Atari was holding is
released. -/
def enterDos (p : Joypad) : Joypad × Option (BitVec 8) :=
  ({ p with lastSent := some 0, dos := true },
    if p.lastSent = none ∨ p.lastSent = some 0 then none else some 0)

/-- The Atari's part of a tick: the pad after it, and the state it hands to
`joy_send`, which accepts every state. -/
def atariTick (resend : Bool) (p : Joypad) : Joypad × Option (BitVec 8) :=
  let p := if p.dos then { p with dos := false, lastSent := none } else p
  let due := some p.key ≠ p.lastSent ∨ (resend ∧ p.joy ≠ 0)
  ({ p with lastSent := if p.connected then (if due then some p.key else p.lastSent) else some 0 },
    if due then some p.joy else none)

def padTick (x : JoyUsb) (e : Surroundings) (i : PadSlot) : Joypad × Option (BitVec 8) :=
  let p := x.pads i
  if x.mon ≠ .off ∧ e.standalone then (p.refreshed, none)
  else if p.idle then (p, none)
  else if e.dosOwns then (if p.refreshed.dos then (p.refreshed, none) else enterDos p.refreshed)
  else atariTick x.resend p.refreshed

def portSend (x : JoyUsb) (e : Surroundings) (port : StPort) : JoySent :=
  match (padTick x e port.slot).2 with
  | none => { lastPkt := x.joyLastPkt port, pushed := none }
  | some state => joySend x.modes e.toBox (e.room port) (x.joyLastPkt port) port state

def joyUsbTick (x : JoyUsb) (e : Surroundings) : JoyUsb :=
  { x with
    pads := fun i => (padTick x e i).1
    joyLastPkt := fun port => (portSend x e port).lastPkt
    resend := false }

/-!
## Devices and commands
-/

def joyUsbDevOpen (x : JoyUsb) (rangeX rangeY : Option (Int × Int)) : JoyUsb × Option PadSlot :=
  let p := { Joypad.free with
    connected := true, axisX := axisSetup rangeX, axisY := axisSetup rangeY }
  if (x.pads .pad0).connected = false then
    ({ x with pads := Function.update x.pads .pad0 p }, some .pad0)
  else if (x.pads .pad1).connected = false then
    ({ x with pads := Function.update x.pads .pad1 p }, some .pad1)
  else (x, none)

def Joypad.letGo (p : Joypad) : Joypad :=
  { p with btn := 0, stickX := 0, stickY := 0, hatX := 0, hatY := 0, joy := 0, pad := 0 }

def Joypad.unplugged (p : Joypad) : Joypad := { p with connected := false }

def letGoOf (x : JoyUsb) (i : PadSlot) : JoyUsb :=
  { x with pads := Function.update x.pads i (x.pads i).letGo }

def unplug (x : JoyUsb) (i : PadSlot) : JoyUsb :=
  { x with pads := Function.update x.pads i (x.pads i).unplugged }

def ikbdApply (x : JoyUsb) (cmd : BitVec 8) (now : BitVec 64) : JoyUsb :=
  let x := if cmd ≠ 0x18 ∧ cmd ≠ 0x11 ∧ cmd ≠ 0x13 then { x with mon := .off } else x
  let m := x.modes
  let window := m.inResetWindow now
  match cmd with
  | 0x18#8 =>
      { x with mon := .fire, modes := { m with joyEvent := false, mouseMode := .off } }
  | 0x08#8 =>
      { x with
        modes := { m with mouseMode := .rel, mouseTouched := m.mouseTouched || window }
        resend := true }
  | 0x09#8 => { x with modes := { m with mouseMode := .abs } }
  | 0x0A#8 => { x with modes := { m with mouseMode := .keycode } }
  | 0x12#8 =>
      let m := { m with
        mouseMode := .off, mouseOffCmd := true, mouseTouched := m.mouseTouched || window }
      let m := if window ∧ m.joyOffCmd
        then { m with mouseMode := .rel, joyEvent := true, both := true } else m
      { x with modes := m, resend := true }
  | 0x11#8 => { x with modes := { m with paused := false }, resend := true }
  | 0x13#8 => { x with modes := { m with paused := true } }
  | 0x14#8 =>
      let m := { m with joyEvent := true }
      let m := if window ∧ m.mouseTouched then { m with mouseMode := .rel, both := true }
        else { m with mouseMode := .off }
      { x with modes := m, joyLastPkt := fun _ => none, resend := true }
  | 0x15#8 => { x with modes := { m with joyEvent := false } }
  | 0x1A#8 =>
      let m := { m with joyEvent := false, joyOffCmd := true }
      let m := if window ∧ m.mouseOffCmd
        then { m with mouseMode := .rel, joyEvent := true, both := true } else m
      { x with modes := m }
  | _ => x

/-- The end of a command with parameters, as far as it reaches the modes. -/
def ikbdParams (x : JoyUsb) (cmd : BitVec 8) : JoyUsb :=
  match cmd with
  | 0x17#8 =>
      { x with mon := .joy, modes := { x.modes with joyEvent := false, mouseMode := .off } }
  | 0x09#8 => { x with modes := { x.modes with mouseMode := .abs } }
  | 0x0A#8 => { x with modes := { x.modes with mouseMode := .keycode } }
  | _ => x

/-!
## Watched runs
-/

inductive JoyEvent where
  | opened (rangeX rangeY : Option (Int × Int))
  | closed (i : PadSlot) (e : Surroundings)
  | input (i : PadSlot) (ev : InputEvent)
  | command (cmd : BitVec 8) (now : BitVec 64)
  | params (cmd : BitVec 8)
  | tick (e : Surroundings)

/-- The joystick byte of the state last taken as sent; a pad nothing was sent for
counts as released. -/
def Joypad.sentJoy (p : Joypad) : BitVec 8 :=
  match p.lastSent with
  | none => 0
  | some k => k.setWidth 8

/-- The pads beside what the guest knows: the state last sent for each port
(released before the first), and the modes under which the present one was handed
over, where they reported it. -/
structure JoyWatch where
  joy : JoyUsb
  guest : StPort -> BitVec 8
  handed : PadSlot -> Option Modes

def Modes.whole : Modes := { Modes.reset 0 with mouseMode := .off }

def JoyWatch.initial (now : BitVec 64) : JoyWatch where
  joy :=
    { pads := fun _ => Joypad.free, resend := false, mon := .off, modes := Modes.reset now,
      joyLastPkt := fun _ => none }
  guest := fun _ => 0
  handed := fun _ => some Modes.whole

/-- The modes of the hand-over of the state last taken as sent, `p` before and
`p'` after it: unknown once a state was taken that they did not report. -/
def handedAfter (m : Modes) (toBox : Bool) (port : StPort) (request : Option (BitVec 8))
    (p p' : Joypad) (before : Option Modes) : Option Modes :=
  match request with
  | some state =>
      if !toBox && (reported m port state).isSome then some m
      else if p'.sentJoy = p.sentJoy then before else none
  | none => if p'.sentJoy = p.sentJoy then before else none

def watchTick (x : JoyWatch) (e : Surroundings) : JoyWatch where
  joy := joyUsbTick x.joy e
  guest := fun port => (portSend x.joy e port).pushed.getD (x.guest port)
  handed := fun i =>
    handedAfter x.joy.modes e.toBox i.port (padTick x.joy e i).2 (x.joy.pads i)
      (padTick x.joy e i).1 (x.handed i)

/-- The slot a device takes is known to the guest as far as it is released. -/
def watchOpen (x : JoyWatch) (rangeX rangeY : Option (Int × Int)) : JoyWatch :=
  let opened := joyUsbDevOpen x.joy rangeX rangeY
  { x with
    joy := opened.1
    handed := fun i =>
      if opened.2 = some i ∧ (x.joy.pads i).sentJoy ≠ 0 then none else x.handed i }

def watchClose (x : JoyWatch) (i : PadSlot) (e : Surroundings) : JoyWatch :=
  if (x.joy.pads i).connected = false then x
  else
    let y := watchTick { x with joy := letGoOf x.joy i } e
    { y with joy := unplug y.joy i }

def joyStep (x : JoyWatch) : JoyEvent -> JoyWatch
  | .opened rangeX rangeY => watchOpen x rangeX rangeY
  | .closed i e => watchClose x i e
  | .input i ev =>
      { x with joy := { x.joy with
          pads := Function.update x.joy.pads i (joyUsbHandleEvent (x.joy.pads i) ev) } }
  | .command cmd now => { x with joy := ikbdApply x.joy cmd now }
  | .params cmd => { x with joy := ikbdParams x.joy cmd }
  | .tick e => watchTick x e

def Roomy (_ : JoyWatch) : JoyEvent -> Prop
  | .closed _ e => forall port, e.room port = true
  | .tick e => forall port, e.room port = true
  | _ => True

/-!
## One pad
-/

theorem key_low (p : Joypad) : p.key.setWidth 8 = p.joy := by
  unfold Joypad.key
  ext k hk
  simp

/-- A published pad shows its controls; a free slot has none held. -/
structure PadOk (p : Joypad) : Prop where
  clean : p.dirty = false -> p.joy = p.joyByte ∧ p.pad = p.padByte
  free : p.connected = false -> p.dirty = false ∧ p.joyByte = 0 ∧ p.padByte = 0

theorem PadOk.free_pad : PadOk Joypad.free := by
  constructor
  · intro _
    decide
  · intro _
    decide

variable {p : Joypad}

theorem publish_ok (h : PadOk p) : PadOk (publish p) := by
  constructor
  · intro _
    exact ⟨rfl, rfl⟩
  · intro hfree
    exact ⟨rfl, (h.free hfree).2⟩

theorem PadOk.refreshed (h : PadOk p) : PadOk p.refreshed := by
  unfold Joypad.refreshed
  split
  · exact publish_ok h
  · exact h

theorem refreshed_dirty (p : Joypad) : p.refreshed.dirty = false := by
  unfold Joypad.refreshed
  split
  · rfl
  · next h => exact Bool.eq_false_iff.mpr h

theorem refreshed_joy (h : PadOk p) : p.refreshed.joy = p.joyByte := by
  unfold Joypad.refreshed
  split
  · rfl
  · next hdirty => exact (h.clean (Bool.eq_false_iff.mpr hdirty)).1

theorem refreshed_lastSent (p : Joypad) : p.refreshed.lastSent = p.lastSent := by
  unfold Joypad.refreshed
  split <;> rfl

/-- The joystick byte, the extra buttons and the rest of a pad's controls are
those of another. -/
structure SameControls (p q : Joypad) : Prop where
  connected : q.connected = p.connected
  dirty : q.dirty = p.dirty
  joy : q.joy = p.joy
  pad : q.pad = p.pad
  joyByte : q.joyByte = p.joyByte
  padByte : q.padByte = p.padByte

theorem SameControls.padOk {p q : Joypad} (h : SameControls p q) (hp : PadOk p) : PadOk q := by
  constructor
  · rw [h.dirty, h.joy, h.pad, h.joyByte, h.padByte]
    exact hp.clean
  · rw [h.connected, h.dirty, h.joyByte, h.padByte]
    exact hp.free

theorem enterDos_controls (p : Joypad) : SameControls p (enterDos p).1 := by
  constructor <;> rfl

theorem atariTick_controls (resend : Bool) (p : Joypad) :
    SameControls p (atariTick resend p).1 := by
  unfold atariTick
  cases p.dos <;> constructor <;> rfl

theorem atariTick_sentJoy (hp : PadOk p) (hdirty : p.dirty = false)
    (resend : Bool) : (atariTick resend p).1.sentJoy = p.joy := by
  have hcontrols := atariTick_controls resend p
  cases hconnected : p.connected with
  | false =>
      have hzero : p.joy = 0 := by
        rw [(hp.clean hdirty).1]
        exact (hp.free hconnected).2.1
      rw [hzero]
      unfold atariTick Joypad.sentJoy
      cases p.dos <;> simp [hconnected]
  | true =>
      have hsent : (atariTick resend p).1.lastSent = some p.key := by
        unfold atariTick
        cases hdos : p.dos with
        | true =>
            simp [hconnected, Joypad.key]
        | false =>
            simp only [Bool.false_eq_true, if_false, hconnected, if_true]
            split
            · rfl
            · next hdue =>
                by_contra hne
                exact hdue (Or.inl (Ne.symm hne))
      unfold Joypad.sentJoy
      rw [hsent]
      exact key_low p

theorem atariTick_request {resend : Bool} {p : Joypad} {state : BitVec 8}
    (h : (atariTick resend p).2 = some state) : state = p.joy := by
  unfold atariTick at h
  cases hdos : p.dos with
  | true =>
      rw [hdos] at h
      simp only [if_true, Option.ite_none_right_eq_some] at h
      exact (Option.some.inj h.2).symm
  | false =>
      rw [hdos] at h
      simp only [Bool.false_eq_true, if_false, Option.ite_none_right_eq_some] at h
      exact (Option.some.inj h.2).symm

theorem idle_sentJoy (h : p.idle = true) : p.sentJoy = 0 := by
  unfold Joypad.idle at h
  simp only [Bool.and_eq_true, Bool.or_eq_true, beq_iff_eq] at h
  unfold Joypad.sentJoy
  rcases h.1.2 with hnone | hzero
  · rw [hnone]
  · rw [hzero]
    rfl

theorem padTick_ok {x : JoyUsb} {i : PadSlot} (h : PadOk (x.pads i)) (e : Surroundings) :
    PadOk (padTick x e i).1 := by
  unfold padTick
  simp only
  split
  · exact h.refreshed
  split
  · exact h
  split
  · split
    · exact h.refreshed
    · exact (enterDos_controls _).padOk h.refreshed
  · exact (atariTick_controls _ _).padOk h.refreshed

theorem padTick_request {x : JoyUsb} {i : PadSlot} (h : PadOk (x.pads i)) {e : Surroundings}
    {state : BitVec 8} (hrequest : (padTick x e i).2 = some state) :
    (padTick x e i).1.sentJoy = state := by
  unfold padTick at hrequest ⊢
  simp only at hrequest ⊢
  split at hrequest
  · cases hrequest
  next hmon =>
  rw [if_neg hmon]
  split at hrequest
  · cases hrequest
  next hidle =>
  rw [if_neg hidle]
  split at hrequest
  · next hdos =>
    rw [if_pos hdos]
    split at hrequest
    · cases hrequest
    · next hin =>
      rw [if_neg hin]
      unfold enterDos at hrequest ⊢
      simp only at hrequest
      split at hrequest
      · cases hrequest
      · injection hrequest with hrequest
  · next hdos =>
    rw [if_neg hdos, atariTick_sentJoy h.refreshed (refreshed_dirty _)]
    exact (atariTick_request hrequest).symm

/-!
## Runs
-/

structure JoyInv (x : JoyWatch) : Prop where
  pads : forall i, PadOk (x.joy.pads i)
  pkt : forall port s, x.joy.joyLastPkt port = some s -> x.guest port = s
  handed : forall i m s, x.handed i = some m ->
    reported m i.port (x.joy.pads i).sentJoy = some s -> x.guest i.port = s
  mon : x.joy.mon ≠ .off -> x.joy.modes.joyEvent = false

theorem reported_zero {m : Modes} {port : StPort} {s : BitVec 8}
    (h : reported m port 0 = some s) : s = 0 := by
  unfold reported at h
  split at h
  · cases h
  split at h
  · cases h
  split at h
  · injection h with h
    rw [← h]
    rfl
  · injection h with h
    exact h.symm

theorem JoyInv.initial (now : BitVec 64) : JoyInv (JoyWatch.initial now) := by
  constructor
  · intro _
    exact PadOk.free_pad
  · intro _ _ h
    cases h
  · intro i m s _ h
    exact (reported_zero h).symm
  · intro h
    exact absurd rfl h

/-- A state that the modes report reaches the guest, if it has not got it already. -/
theorem joySend_shown {m : Modes} {lastPkt : Option (BitVec 8)} {port : StPort}
    {state s guest : BitVec 8} (hshown : reported m port state = some s)
    (hpkt : lastPkt = some s -> guest = s) :
    (joySend m false true lastPkt port state).lastPkt = some s ∧
      (joySend m false true lastPkt port state).pushed.getD guest = s := by
  unfold joySend
  rw [if_neg Bool.false_ne_true, hshown]
  by_cases hsame : lastPkt = some s
  · simp only [if_pos hsame]
    exact ⟨trivial, hpkt hsame⟩
  · simp only [if_neg hsame]
    exact ⟨trivial, rfl⟩

theorem joySend_hidden {m : Modes} {toBox room : Bool} {lastPkt : Option (BitVec 8)}
    {port : StPort} {state : BitVec 8}
    (hhidden : ¬ (!toBox && (reported m port state).isSome) = true) :
    joySend m toBox room lastPkt port state = { lastPkt := lastPkt, pushed := none } := by
  unfold joySend
  cases toBox with
  | true => rfl
  | false =>
      cases hshown : reported m port state with
      | none => rfl
      | some s =>
          rw [hshown] at hhidden
          exact absurd rfl hhidden

structure PortTicked (x : JoyWatch) (e : Surroundings) (i : PadSlot) : Prop where
  pkt : forall s, (portSend x.joy e i.port).lastPkt = some s ->
    (watchTick x e).guest i.port = s
  handed : forall m s, (watchTick x e).handed i = some m ->
    reported m i.port (padTick x.joy e i).1.sentJoy = some s -> (watchTick x e).guest i.port = s

variable {x : JoyWatch}

theorem portTicked_of_kept (h : JoyInv x) {e : Surroundings} {i : PadSlot}
    (hsend : portSend x.joy e i.port =
      { lastPkt := x.joy.joyLastPkt i.port, pushed := none })
    (hhanded : (watchTick x e).handed i =
      if (padTick x.joy e i).1.sentJoy = (x.joy.pads i).sentJoy then x.handed i else none) :
    PortTicked x e i := by
  have hguest : (watchTick x e).guest i.port = x.guest i.port := by
    change (portSend x.joy e i.port).pushed.getD (x.guest i.port) = x.guest i.port
    rw [hsend]
    rfl
  constructor
  · intro s hs
    rw [hsend] at hs
    rw [hguest]
    exact h.pkt i.port s hs
  · intro m s hm hs
    rw [hhanded] at hm
    split at hm
    · next hsame =>
      rw [hsame] at hs
      rw [hguest]
      exact h.handed i m s hm hs
    · cases hm

theorem portTicked (h : JoyInv x) {e : Surroundings}
    (hroom : forall port, e.room port = true) (i : PadSlot) : PortTicked x e i := by
  cases hrequest : (padTick x.joy e i).2 with
  | none =>
      apply portTicked_of_kept h
      · unfold portSend
        rw [PadSlot.slot_port, hrequest]
      · change handedAfter _ _ _ _ _ _ _ = _
        rw [hrequest]
        rfl
  | some state =>
      have hsend : portSend x.joy e i.port =
          joySend x.joy.modes e.toBox true (x.joy.joyLastPkt i.port) i.port state := by
        unfold portSend
        rw [PadSlot.slot_port, hrequest, hroom]
      have hhanded : (watchTick x e).handed i =
          handedAfter x.joy.modes e.toBox i.port (some state) (x.joy.pads i)
            (padTick x.joy e i).1 (x.handed i) := by
        change handedAfter _ _ _ _ _ _ _ = _
        rw [hrequest]
      by_cases hshown : (!e.toBox && (reported x.joy.modes i.port state).isSome) = true
      · have hsome := (Bool.and_eq_true _ _ ▸ hshown).2
        have hbox : e.toBox = false := by
          have hnot := (Bool.and_eq_true _ _ ▸ hshown).1
          cases hb : e.toBox with
          | false => rfl
          | true =>
              rw [hb] at hnot
              cases hnot
        rcases Option.isSome_iff_exists.mp hsome with ⟨s, hs⟩
        rw [hbox] at hsend
        have hsent := joySend_shown hs (h.pkt i.port s)
        rw [← hsend] at hsent
        constructor
        · intro s' hs'
          rw [hsent.1] at hs'
          injection hs' with hs'
          rw [← hs']
          exact hsent.2
        · intro m s' hm hs'
          rw [hhanded] at hm
          unfold handedAfter at hm
          simp only [if_pos hshown, Option.some.injEq] at hm
          rw [← hm, padTick_request (h.pads i) hrequest, hs] at hs'
          injection hs' with hs'
          rw [← hs']
          exact hsent.2
      · apply portTicked_of_kept h
        · rw [hsend]
          exact joySend_hidden hshown
        · rw [hhanded]
          unfold handedAfter
          simp only [if_neg hshown]

theorem watchTick_inv (h : JoyInv x) {e : Surroundings}
    (hroom : forall port, e.room port = true) : JoyInv (watchTick x e) := by
  constructor
  · intro i
    exact padTick_ok (h.pads i) e
  · intro port s hs
    have hport : port.slot.port = port := by cases port <;> rfl
    have hticked := (portTicked h hroom port.slot).pkt s
    rw [hport] at hticked
    exact hticked hs
  · intro i m s hm hs
    exact (portTicked h hroom i).handed m s hm hs
  · exact h.mon

theorem JoyInv.of_pad (h : JoyInv x) {i : PadSlot} {p : Joypad} (hp : PadOk p)
    (hsent : p.sentJoy = (x.joy.pads i).sentJoy) :
    JoyInv { x with joy := { x.joy with pads := Function.update x.joy.pads i p } } := by
  constructor
  · intro j
    change PadOk (Function.update x.joy.pads i p j)
    by_cases hj : j = i
    · rw [hj, Function.update_self]
      exact hp
    · rw [Function.update_of_ne hj]
      exact h.pads j
  · exact h.pkt
  · intro j m s hm hs
    change reported m j.port (Function.update x.joy.pads i p j).sentJoy = some s at hs
    apply h.handed j m s hm
    by_cases hj : j = i
    · rw [hj, Function.update_self, hsent] at hs
      rw [hj]
      exact hs
    · rw [Function.update_of_ne hj] at hs
      exact hs
  · exact h.mon

theorem PadOk.of_dirty (hconnected : p.connected = true) (hdirty : p.dirty = true) :
    PadOk p := by
  constructor
  · intro h
    rw [hdirty] at h
    cases h
  · intro h
    rw [hconnected] at h
    cases h

theorem joyUsbHandleEvent_ok (h : PadOk p) (ev : InputEvent) :
    PadOk (joyUsbHandleEvent p ev) ∧ (joyUsbHandleEvent p ev).sentJoy = p.sentJoy := by
  cases hconnected : p.connected with
  | false =>
      unfold joyUsbHandleEvent
      rw [if_pos hconnected]
      exact ⟨h, rfl⟩
  | true =>
      have hkept : PadOk p ∧ p.sentJoy = p.sentJoy := ⟨h, rfl⟩
      have hopen : ¬ p.connected = false := ne_false_of_eq_true hconnected
      unfold joyUsbHandleEvent
      simp only [if_neg hopen]
      split
      · repeat' split
        all_goals first
          | exact hkept
          | exact ⟨PadOk.of_dirty hconnected rfl, rfl⟩
      split
      · repeat' split
        all_goals first
          | exact hkept
          | exact ⟨PadOk.of_dirty hconnected rfl, rfl⟩
      split
      · exact ⟨publish_ok h, rfl⟩
      · exact hkept

structure Commanded (x y : JoyUsb) : Prop where
  pads : y.pads = x.pads
  pkt : forall port s, y.joyLastPkt port = some s -> x.joyLastPkt port = some s
  mon : y.mon ≠ .off -> y.modes.joyEvent = false

theorem Commanded.inv (h : JoyInv x) {y : JoyUsb} (hy : Commanded x.joy y) :
    JoyInv { x with joy := y } := by
  constructor
  · intro i
    change PadOk (y.pads i)
    rw [hy.pads]
    exact h.pads i
  · intro port s hs
    exact h.pkt port s (hy.pkt port s hs)
  · intro i m s hm hs
    change reported m i.port (y.pads i).sentJoy = some s at hs
    rw [hy.pads] at hs
    exact h.handed i m s hm hs
  · exact hy.mon

theorem Commanded.of_mon_off {x y : JoyUsb} (hpads : y.pads = x.pads)
    (hpkt : y.joyLastPkt = x.joyLastPkt) (hmon : y.mon = .off) : Commanded x y := by
  constructor
  · exact hpads
  · intro port s hs
    rw [← hpkt]
    exact hs
  · intro h
    exact absurd hmon h

theorem ikbdApply_commanded {x : JoyUsb} (hmon : x.mon ≠ .off -> x.modes.joyEvent = false)
    (cmd : BitVec 8) (now : BitVec 64) : Commanded x (ikbdApply x cmd now) := by
  by_cases hkeeps : cmd = 0x18 ∨ cmd = 0x11 ∨ cmd = 0x13
  · rcases hkeeps with rfl | rfl | rfl
    · exact ⟨rfl, fun _ _ hs => hs, fun _ => rfl⟩
    · exact ⟨rfl, fun _ _ hs => hs, hmon⟩
    · exact ⟨rfl, fun _ _ hs => hs, hmon⟩
  · have hoff : cmd ≠ 0x18 ∧ cmd ≠ 0x11 ∧ cmd ≠ 0x13 := by
      simpa [not_or] using hkeeps
    unfold ikbdApply
    simp only [if_pos hoff]
    split
    · exact absurd rfl hoff.1
    all_goals first
      | exact absurd rfl hoff.2.1
      | exact absurd rfl hoff.2.2
      | exact Commanded.of_mon_off rfl rfl rfl
      | exact ⟨rfl, fun _ _ hs => absurd hs (by simp), fun h => absurd rfl h⟩

theorem ikbdParams_commanded {x : JoyUsb} (hmon : x.mon ≠ .off -> x.modes.joyEvent = false)
    (cmd : BitVec 8) : Commanded x (ikbdParams x cmd) := by
  unfold ikbdParams
  split
  · exact ⟨rfl, fun _ _ hs => hs, fun _ => rfl⟩
  · exact ⟨rfl, fun _ _ hs => hs, hmon⟩
  · exact ⟨rfl, fun _ _ hs => hs, hmon⟩
  · exact ⟨rfl, fun _ _ hs => hs, hmon⟩

theorem opened_ok (rangeX rangeY : Option (Int × Int)) :
    PadOk { Joypad.free with
      connected := true, axisX := axisSetup rangeX, axisY := axisSetup rangeY } := by
  constructor
  · intro _
    exact PadOk.free_pad.clean rfl
  · intro h
    cases h

theorem watchOpen_inv (h : JoyInv x) (rangeX rangeY : Option (Int × Int)) :
    JoyInv (watchOpen x rangeX rangeY) := by
  have htaken (j : PadSlot) : JoyInv
      { x with
        joy := { x.joy with
          pads := Function.update x.joy.pads j { Joypad.free with
            connected := true, axisX := axisSetup rangeX, axisY := axisSetup rangeY } }
        handed := fun i =>
          if some j = some i ∧ (x.joy.pads i).sentJoy ≠ 0 then none else x.handed i } := by
    constructor
    · intro i
      change PadOk (Function.update x.joy.pads j _ i)
      by_cases hi : i = j
      · rw [hi, Function.update_self]
        exact opened_ok rangeX rangeY
      · rw [Function.update_of_ne hi]
        exact h.pads i
    · exact h.pkt
    · intro i m s hm hs
      simp only at hm hs
      by_cases hi : i = j
      · rw [hi, Function.update_self] at hs
        rw [hi] at hm
        split at hm
        · cases hm
        · next hkept =>
          have hzero : (x.joy.pads j).sentJoy = 0 := by
            by_contra hne
            exact hkept ⟨rfl, hne⟩
          rw [hi]
          apply h.handed j m s hm
          rw [hzero]
          exact hs
      · rw [Function.update_of_ne hi] at hs
        rw [if_neg (fun hboth => hi (Option.some.inj hboth.1).symm)] at hm
        exact h.handed i m s hm hs
    · exact h.mon
  unfold watchOpen joyUsbDevOpen
  simp only
  split
  · exact htaken .pad0
  split
  · exact htaken .pad1
  · constructor
    · exact h.pads
    · exact h.pkt
    · intro i m s hm hs
      apply h.handed i m s _ hs
      simpa using hm
    · exact h.mon

theorem letGo_ok (h : p.connected = true) : PadOk p.letGo := by
  constructor
  · intro _
    exact PadOk.free_pad.clean rfl
  · intro hfree
    have hsame : p.letGo.connected = p.connected := rfl
    rw [hsame, h] at hfree
    cases hfree

theorem padTick_published {x : JoyUsb} {i : PadSlot} (h : (x.pads i).connected = true)
    (e : Surroundings) :
    (padTick x e i).1.dirty = false ∧ (padTick x e i).1.joyByte = (x.pads i).joyByte ∧
      (padTick x e i).1.padByte = (x.pads i).padByte := by
  have hbyte : (x.pads i).refreshed.joyByte = (x.pads i).joyByte ∧
      (x.pads i).refreshed.padByte = (x.pads i).padByte := by
    unfold Joypad.refreshed
    split <;> exact ⟨rfl, rfl⟩
  have hfresh : (x.pads i).refreshed.dirty = false ∧
      (x.pads i).refreshed.joyByte = (x.pads i).joyByte ∧
      (x.pads i).refreshed.padByte = (x.pads i).padByte := ⟨refreshed_dirty _, hbyte⟩
  have hbusy : ¬ (x.pads i).idle = true := by
    unfold Joypad.idle
    rw [h]
    exact Bool.false_ne_true
  have hcontrols {q : Joypad} (hq : SameControls (x.pads i).refreshed q) :
      q.dirty = false ∧ q.joyByte = (x.pads i).joyByte ∧ q.padByte = (x.pads i).padByte := by
    rw [hq.dirty, hq.joyByte, hq.padByte]
    exact hfresh
  unfold padTick
  simp only [if_neg hbusy]
  split
  · exact hfresh
  split
  · split
    · exact hfresh
    · exact hcontrols (enterDos_controls _)
  · exact hcontrols (atariTick_controls _ _)

theorem watchClose_inv (h : JoyInv x) (i : PadSlot) {e : Surroundings}
    (hroom : forall port, e.room port = true) : JoyInv (watchClose x i e) := by
  unfold watchClose
  split
  · exact h
  next hopen =>
  have hconnected : (x.joy.pads i).connected = true := by
    cases hc : (x.joy.pads i).connected with
    | true => rfl
    | false => exact absurd hc hopen
  have hletgo : JoyInv { x with joy := letGoOf x.joy i } := h.of_pad (letGo_ok hconnected) rfl
  have hpad : (letGoOf x.joy i).pads i = (x.joy.pads i).letGo := Function.update_self _ _ _
  have hstill : ((letGoOf x.joy i).pads i).connected = true := by
    rw [hpad]
    exact hconnected
  have hticked := watchTick_inv hletgo hroom
  apply hticked.of_pad
  · constructor
    · exact (hticked.pads i).clean
    · intro _
      have hpublished := padTick_published hstill e
      have hzero := PadOk.free_pad.free rfl
      rw [hpad] at hpublished
      exact ⟨hpublished.1, hpublished.2.1.trans hzero.2.1, hpublished.2.2.trans hzero.2.2⟩
  · rfl

theorem joyStep_inv (h : JoyInv x) {ev : JoyEvent} (hroom : Roomy x ev) :
    JoyInv (joyStep x ev) := by
  cases ev with
  | opened rangeX rangeY => exact watchOpen_inv h rangeX rangeY
  | closed i e => exact watchClose_inv h i hroom
  | input i ev =>
      have hok := joyUsbHandleEvent_ok (h.pads i) ev
      exact h.of_pad hok.1 hok.2
  | command cmd now => exact (ikbdApply_commanded h.mon cmd now).inv h
  | params cmd => exact (ikbdParams_commanded h.mon cmd).inv h
  | tick e => exact watchTick_inv h hroom

/-!
## Convergence
-/

/-- The next tick hands the state of the pad over: it has changed, the DOS window
had the pad, or it is held and a command asked for it again. -/
def Due (x : JoyUsb) (i : PadSlot) : Prop :=
  (x.pads i).idle = false ∧
    ((x.pads i).dos = true ∨ (x.pads i).lastSent ≠ some (x.pads i).refreshed.key ∨
      (x.resend = true ∧ (x.pads i).joyByte ≠ 0))

/-- The state of the pad was handed over under modes that reported it as `s`. -/
def HandedAs (x : JoyWatch) (i : PadSlot) (s : BitVec 8) : Prop :=
  exists m, x.handed i = some m ∧ reported m i.port (x.joy.pads i).joyByte = some s

theorem refreshed_dos (p : Joypad) : p.refreshed.dos = p.dos := by
  unfold Joypad.refreshed
  split <;> rfl

theorem padTick_atari {x : JoyUsb} {i : PadSlot} (h : PadOk (x.pads i)) {e : Surroundings}
    (hmon : x.mon = .off) (hdos : e.dosOwns = false) :
    (Due x i -> (padTick x e i).2 = some (x.pads i).joyByte) ∧
      (¬ Due x i -> (padTick x e i).2 = none ∧ (x.pads i).sentJoy = (x.pads i).joyByte) := by
  have hquiet : ¬ (x.mon ≠ .off ∧ e.standalone = true) := fun hboth => hboth.1 hmon
  have hatari : ¬ e.dosOwns = true := ne_true_of_eq_false hdos
  by_cases hidle : (x.pads i).idle = true
  · have hkey : padTick x e i = (x.pads i, none) := by
      unfold padTick
      simp only [if_neg hquiet, if_pos hidle]
    have hfree : (x.pads i).connected = false := by
      unfold Joypad.idle at hidle
      simp only [Bool.and_eq_true] at hidle
      exact Bool.not_eq_true' _ ▸ hidle.1.1
    rw [hkey]
    constructor
    · intro hdue
      have hbusy := hdue.1
      rw [hidle] at hbusy
      cases hbusy
    · intro _
      rw [idle_sentJoy hidle, (h.free hfree).2.1]
      exact ⟨rfl, rfl⟩
  · have hkey : padTick x e i = atariTick x.resend (x.pads i).refreshed := by
      unfold padTick
      simp only [if_neg hquiet, if_neg hidle, if_neg hatari]
    have hbusy : (x.pads i).idle = false := Bool.eq_false_iff.mpr hidle
    rw [hkey]
    cases hown : (x.pads i).dos with
    | true =>
        have hrequest : (atariTick x.resend (x.pads i).refreshed).2 =
            some (x.pads i).refreshed.joy := by
          unfold atariTick
          rw [refreshed_dos, hown]
          simp
        rw [hrequest, refreshed_joy h]
        constructor
        · intro _
          rfl
        · intro hnot
          exact absurd ⟨hbusy, Or.inl hown⟩ hnot
    | false =>
        have hrequest : (atariTick x.resend (x.pads i).refreshed).2 =
            if some (x.pads i).refreshed.key ≠ (x.pads i).lastSent ∨
                (x.resend = true ∧ (x.pads i).joyByte ≠ 0)
              then some (x.pads i).joyByte else none := by
          unfold atariTick
          rw [refreshed_dos, hown]
          simp only [Bool.false_eq_true, if_false, refreshed_lastSent, refreshed_joy h]
        rw [hrequest]
        constructor
        · intro hdue
          rcases hdue.2 with hd | hchanged | hagain
          · rw [hown] at hd
            cases hd
          · rw [if_pos (Or.inl (Ne.symm hchanged))]
          · rw [if_pos (Or.inr hagain)]
        · intro hnot
          have hsame : (x.pads i).lastSent = some (x.pads i).refreshed.key := by
            by_contra hne
            exact hnot ⟨hbusy, Or.inr (Or.inl hne)⟩
          have hstill : ¬ (some (x.pads i).refreshed.key ≠ (x.pads i).lastSent ∨
              (x.resend = true ∧ (x.pads i).joyByte ≠ 0)) := by
            intro hor
            rcases hor with hchanged | hagain
            · exact hchanged hsame.symm
            · exact hnot ⟨hbusy, Or.inr (Or.inr hagain)⟩
          rw [if_neg hstill]
          constructor
          · rfl
          · unfold Joypad.sentJoy
            rw [hsame]
            exact (key_low _).trans (refreshed_joy h)

theorem reported_joyEvent {m : Modes} {port : StPort} {state s : BitVec 8}
    (h : reported m port state = some s) : m.joyEvent = true := by
  cases hevent : m.joyEvent with
  | true => rfl
  | false =>
      unfold reported at h
      rw [hevent] at h
      cases h

/-- After a tick that the Atari gets, the guest has the state of every port that
the modes report, as they report it, if the state was due or was handed over
under modes that reported it alike. -/
theorem joystick_converges (now : BitVec 64) (events : List JoyEvent) (e : Surroundings)
    (hroom : Steps joyStep Roomy (JoyWatch.initial now) events)
    (htick : forall port, e.room port = true) (hdos : e.dosOwns = false)
    (hbox : e.toBox = false) (i : PadSlot) (s : BitVec 8)
    (hshown : reported (run joyStep (JoyWatch.initial now) events).joy.modes i.port
      ((run joyStep (JoyWatch.initial now) events).joy.pads i).joyByte = some s)
    (hknown : Due (run joyStep (JoyWatch.initial now) events).joy i ∨
      HandedAs (run joyStep (JoyWatch.initial now) events) i s) :
    (joyStep (run joyStep (JoyWatch.initial now) events) (.tick e)).guest i.port = s := by
  have hkeeps (x : JoyWatch) (ev : JoyEvent) (hx : JoyInv x) (hev : Roomy x ev) :
      JoyInv (joyStep x ev) := joyStep_inv hx hev
  have hinv : JoyInv (run joyStep (JoyWatch.initial now) events) :=
    Steps.invariant hkeeps (JoyInv.initial now) hroom
  generalize run joyStep (JoyWatch.initial now) events = x at hinv hshown hknown ⊢
  have hmon : x.joy.mon = .off := by
    by_contra hne
    have hoff := hinv.mon hne
    rw [reported_joyEvent hshown] at hoff
    cases hoff
  rcases padTick_atari (hinv.pads i) hmon hdos with ⟨hdue, hkept⟩
  change (portSend x.joy e i.port).pushed.getD (x.guest i.port) = s
  by_cases hd : Due x.joy i
  · have hsend : portSend x.joy e i.port =
        joySend x.joy.modes false true (x.joy.joyLastPkt i.port) i.port
          (x.joy.pads i).joyByte := by
      unfold portSend
      rw [PadSlot.slot_port, hdue hd, htick, hbox]
    rw [hsend]
    exact (joySend_shown hshown (hinv.pkt i.port s)).2
  · rcases hkept hd with ⟨hnone, hsent⟩
    have hsend : portSend x.joy e i.port =
        { lastPkt := x.joy.joyLastPkt i.port, pushed := none } := by
      unfold portSend
      rw [PadSlot.slot_port, hnone]
    rw [hsend]
    rcases hknown with hd' | ⟨m, hm, hs⟩
    · exact absurd hd' hd
    · rw [← hsent] at hs
      exact hinv.handed i m s hm hs

def mainTick (room : Bool) : Surroundings where
  windows := ⟨false, false, false, false, false, false⟩
  route := true
  standalone := false
  room := fun _ => room

def firePressed (i : PadSlot) : List JoyEvent :=
  [.input i ⟨EV_KEY, 0x130, 1⟩, .input i ⟨EV_SYN, 0, 0⟩]

def heldThroughPause : List JoyEvent :=
  [.opened none none, .command 0x14 1000000, .command 0x13 1000000] ++ firePressed .pad0 ++
    [.tick (mainTick true), .command 0x11 2000000]

theorem joystick_converges_after_pause :
    Due (run joyStep (JoyWatch.initial 0) heldThroughPause).joy .pad0 ∧
      (joyStep (run joyStep (JoyWatch.initial 0) heldThroughPause)
        (.tick (mainTick true))).guest .game = STJOY_FIRE := by
  have hdue : Due (run joyStep (JoyWatch.initial 0) heldThroughPause).joy .pad0 :=
    ⟨by decide, Or.inr (Or.inr ⟨by decide, by decide⟩)⟩
  have hroom : Steps joyStep Roomy (JoyWatch.initial 0) heldThroughPause :=
    ⟨trivial, trivial, trivial, trivial, trivial, fun _ => rfl, trivial, trivial⟩
  exact ⟨hdue, joystick_converges 0 heldThroughPause (mainTick true) hroom (fun _ => rfl)
    (by decide) (by decide) .pad0 STJOY_FIRE (by decide) (Or.inl hdue)⟩

/-- Both pads are plugged in after a reset, and fire is pressed on both. -/
def bothFire : List JoyEvent :=
  [.opened none none, .opened none none] ++ firePressed .pad0 ++ firePressed .pad1

/-- With the mouse on, the guest is sent neither the fire of the game port nor
anything of the mouse port; a full ring drops what it is sent. -/
theorem fire_kept_from_guest :
    (run joyStep (JoyWatch.initial 0) bothFire).joy.modes.joyEvent = true ∧
      (run joyStep (JoyWatch.initial 0) bothFire).joy.modes.paused = false ∧
      (forall i, ((run joyStep (JoyWatch.initial 0) bothFire).joy.pads i).joyByte = STJOY_FIRE) ∧
      (forall port, (joyStep (run joyStep (JoyWatch.initial 0) bothFire)
        (.tick (mainTick true))).guest port = 0) ∧
      (joyStep (run joyStep (JoyWatch.initial 0) (bothFire ++ [.command 0x14 1000000]))
        (.tick (mainTick false))).guest .game = 0 := by
  constructor
  · decide
  constructor
  · decide
  constructor
  · intro i
    cases i <;> decide
  constructor
  · intro port
    cases port <;> decide
  · decide

end Ikbd
end PistormAtari
