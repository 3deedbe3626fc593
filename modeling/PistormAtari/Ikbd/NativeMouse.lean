import Mathlib
import PistormAtari.Ikbd.CommandFraming
import PistormAtari.Ikbd.JoyUsb
import PistormAtari.Ikbd.Merge

/-!
# The native mouse

Without the USB layer {lit}`kbd_usb.c` still sets a threshold in the keyboard and scales
the deltas of its mouse packets on their way to the guest.  It follows the commands of
the guest with a tracker of its own.  A run is watched beside the tracker of the USB
layer, which follows every command, and beside the framing of the real stream.
-/

namespace PistormAtari
namespace Ikbd

open Foundation

def RESET_ANSWER_US : BitVec 64 := 400000
def IKBD_DIVERTED_BYTE : Byte := 0x80

/-- {lit}`mouse_thresh` and {lit}`mouse_scale`; at a threshold of 0 the native path does
nothing. -/
structure MouseCfg where
  mouseThresh : Int
  mouseScale : Int
deriving DecidableEq, Repr

/-- The statics of the native path; {lit}`threshTx` are the bytes of the threshold command
that are still to be sent. -/
structure NativeMouse where
  threshTx : List Byte
  threshDueUs : BitVec 64
  mousePktLeft : Nat
  natCmd : Byte
  natParams : Nat
  natMemload : Nat
  natMouseRel : Bool
  rawMainPending : Option Byte
  raw : RawDivert

def NativeMouse.initial : NativeMouse where
  threshTx := []
  threshDueUs := 0
  mousePktLeft := 0
  natCmd := 0
  natParams := 0
  natMemload := 0
  natMouseRel := true
  rawMainPending := none
  raw := RawDivert.initial

def mouseThreshArm (c : MouseCfg) (s : NativeMouse) (now delayUs : BitVec 64) : NativeMouse :=
  if c.mouseThresh ≤ 0 then s
  else
    { s with
      threshTx := [0x0B, BitVec.ofInt 8 c.mouseThresh, BitVec.ofInt 8 c.mouseThresh]
      threshDueUs := now + delayUs }

/-- {lit}`mouse_native_pump` and its tail {lit}`mouse_thresh_tx_one`: the byte sent, if the
transmitter is free. -/
def mouseNativePump (s : NativeMouse) (now : BitVec 64) (tdre : Bool) :
    NativeMouse × Option Byte :=
  match s.threshTx with
  | [] => (s, none)
  | byte :: rest =>
      if now < s.threshDueUs ∨ 0 < s.natParams ∨ 0 < s.natMemload ∨ tdre = false then (s, none)
      else ({ s with threshTx := rest }, some byte)

def scaledDelta (c : MouseCfg) (v : Byte) : Byte :=
  let d := v.toInt * c.mouseScale
  let d := if 127 < d then 127 else d
  let d := if d < -128 then -128 else d
  BitVec.ofInt 8 d

def mouseScaleByteMode (c : MouseCfg) (s : NativeMouse) (v : Byte) (relative : Bool) :
    NativeMouse × Byte :=
  if c.mouseThresh ≤ 0 ∨ c.mouseScale ≤ 1 then (s, v)
  else if 0 < s.mousePktLeft then
    ({ s with mousePktLeft := s.mousePktLeft - 1 }, scaledDelta c v)
  else if 0xF8 ≤ v ∧ v ≤ 0xFB ∧ relative then ({ s with mousePktLeft := 2 }, v)
  else (s, v)

/-!
## Both directions
-/

/-- After the reset command the keyboard is left alone until it has settled. -/
def NativeMouse.afterReset (c : MouseCfg) (s : NativeMouse) (v : Byte) (now : BitVec 64) :
    NativeMouse :=
  if s.natCmd = 0x80 ∧ v = 0x01 then
    mouseThreshArm c { s with natMouseRel := true, mousePktLeft := 0 } now
      (RESET_ANSWER_US + 200000)
  else s

def NativeMouse.afterLoad (s : NativeMouse) (v : Byte) : NativeMouse :=
  if s.natCmd = 0x20 ∧ s.natParams = 0 then { s with natMemload := v.toNat } else s

def NativeMouse.afterThresh (c : MouseCfg) (s : NativeMouse) (now : BitVec 64) : NativeMouse :=
  if s.natCmd = 0x0B then mouseThreshArm c s now 2000 else s

def nativeParam (c : MouseCfg) (s : NativeMouse) (v : Byte) (now : BitVec 64) : NativeMouse :=
  let s := { s with natParams := s.natParams - 1 }
  let s := (s.afterReset c v now).afterLoad v
  if s.natParams = 0 ∧ s.natCmd ≠ 0x20 then { s.afterThresh c now with natCmd := 0 } else s

def kbdNativeTxSnoop (c : MouseCfg) (s : NativeMouse) (v : Byte) (now : BitVec 64) :
    NativeMouse :=
  if c.mouseThresh ≤ 0 then s
  else if 0 < s.natMemload then { s with natMemload := s.natMemload - 1 }
  else if 0 < s.natParams then nativeParam c s v now
  else
    let s := { s with natParams := ikbdParamLen v }
    if 0 < s.natParams then { s with natCmd := v }
    else if v = 0x08 then { s with natMouseRel := true }
    else if v = 0x09 ∨ v = 0x0A ∨ v = 0x12 then { s with natMouseRel := false }
    else s

/-- A byte read from the real keyboard: the windows, the time, and whether the transmitter
is free. -/
structure NativeRead where
  windows : Windows
  now : BitVec 64
  tdre : Bool
deriving DecidableEq, Repr

def nativeSink (s : NativeMouse) (a : NativeRead) (v : Byte) : Option Sink :=
  match s.rawMainPending with
  | some _ => some .main
  | none => (stboxDivertRealByte s.raw a.windows a.now v).2

def nativeScaled (c : MouseCfg) (s : NativeMouse) (a : NativeRead) (v : Byte) :
    NativeMouse × Byte × Option Byte :=
  if c.mouseThresh ≤ 0 then (s, v, none)
  else
    let pumped := if s.threshTx = [] then (s, none) else mouseNativePump s a.now a.tdre
    let scaled := mouseScaleByteMode c pumped.1 v pumped.1.natMouseRel
    (scaled.1, scaled.2, pumped.2)

/-- What the guest reads, and the byte sent to the keyboard meanwhile. -/
def kbdNativeRxFilter (c : MouseCfg) (s : NativeMouse) (a : NativeRead) (v : Byte) :
    NativeMouse × Byte × Option Byte :=
  match s.rawMainPending with
  | some pending => nativeScaled c { s with rawMainPending := none } a pending
  | none =>
      let taken := stboxDivertRealByte s.raw a.windows a.now v
      if taken.2 = some .main then nativeScaled c { s with raw := taken.1 } a v
      else ({ s with raw := taken.1, mousePktLeft := 0 }, IKBD_DIVERTED_BYTE, none)

/-!
## Watched runs
-/

/-- The modes of the keyboard after a command, as the USB layer follows them. -/
def modesAfter (now : BitVec 64) (m : Modes) (e : Effect) : Modes :=
  let x : JoyUsb := ⟨fun _ => Joypad.free, false, .off, m, fun _ => none⟩
  match e with
  | .apply cmd => (ikbdApply x cmd now).modes
  | .applyParams cmd _ => (ikbdParams x cmd).modes
  | .joyMonitor _ => (ikbdParams x 0x17).modes
  | .mouseThreshArm _ => m
  | .resetState => Modes.reset now

/-- Whether the mouse is taken to report motion, for who heeds no mode command but `08`,
`12` and the reset. -/
def believedAfter (believed : Bool) : Effect -> Bool
  | .apply cmd => if cmd = 0x08 then true else if cmd = 0x12 then false else believed
  | .resetState => true
  | _ => believed

inductive NativeEvent where
  | command (v : Byte) (now : BitVec 64)
  | received (v : Byte) (a : NativeRead)
deriving DecidableEq, Repr

/-- The native path beside the commands and the modes of the keyboard, the bytes owed to the
packet of the real stream, and whether it reports motion in relative mode.  A byte `F8` to
`FB` for the guest looks like a header, unless motion is not believed in or it is one of the
two bytes behind another such byte; {lit}`behind` of the two are still to come, and
{lit}`genuine` says whether the byte was the header of a packet sent in relative mode. -/
structure NativeWatch where
  mouse : NativeMouse
  snoop : Snoop
  modes : Modes
  owed : Nat
  motion : Bool
  believed : Bool
  behind : Nat
  genuine : Bool

def NativeWatch.initial (now : BitVec 64) : NativeWatch :=
  ⟨NativeMouse.initial, snoopReset, Modes.reset now, 0, false, true, 0, false⟩

def NativeWatch.LooksHeader (x : NativeWatch) (v : Byte) : Prop :=
  0xF8 ≤ v ∧ v ≤ 0xFB ∧ x.believed = true ∧ x.behind = 0

instance (x : NativeWatch) (v : Byte) : Decidable (x.LooksHeader v) :=
  inferInstanceAs (Decidable (_ ∧ _))

def NativeWatch.sendsMotion (x : NativeWatch) (v : Byte) : Bool :=
  decide (0xF8 ≤ v ∧ v ≤ 0xFB ∧ x.modes.mouseMode = .rel)

def NativeWatch.step (c : MouseCfg) (x : NativeWatch) : NativeEvent -> NativeWatch
  | .command v now =>
      let effects := snoopEffects x.snoop v
      { x with
        mouse := kbdNativeTxSnoop c x.mouse v now
        snoop := kbdUsbTxSnoop x.snoop v
        modes := effects.foldl (modesAfter now) x.modes
        believed := effects.foldl believedAfter x.believed
        behind := if Effect.resetState ∈ effects then 0 else x.behind }
  | .received v a =>
      { x with
        mouse := (kbdNativeRxFilter c x.mouse a v).1
        owed := owedAfter x.owed v
        motion := if x.owed = 0 then x.sendsMotion v else x.motion
        behind :=
          if nativeSink x.mouse a v ≠ some .main then 0
          else if x.LooksHeader v then 2 else x.behind - 1
        genuine :=
          if x.LooksHeader v then x.owed == 0 && x.sendsMotion v else x.genuine }

/-- The next byte of the real stream is a delta of a mouse packet sent in relative mode. -/
def NativeWatch.AtDelta (x : NativeWatch) : Prop := x.owed ≠ 0 ∧ x.motion = true

instance (x : NativeWatch) : Decidable x.AtDelta := inferInstanceAs (Decidable (_ ∧ _))

/-- A byte for the guest reaches it as it was sent, or is a delta in relative mode. -/
def ScalesMotion (c : MouseCfg) (x : NativeWatch) : NativeEvent -> Prop
  | .command _ _ => True
  | .received v a =>
      nativeSink x.mouse a v = some .main ->
        (kbdNativeRxFilter c x.mouse a v).2.1 = v ∨ x.AtDelta

instance (c : MouseCfg) (x : NativeWatch) : (e : NativeEvent) -> Decidable (ScalesMotion c x e)
  | .command _ _ => isTrue trivial
  | .received v a =>
      inferInstanceAs (Decidable (nativeSink x.mouse a v = some .main ->
        (kbdNativeRxFilter c x.mouse a v).2.1 = v ∨ x.AtDelta))

/-- A byte behind what looks like a header and is none is a delta all the same, or one that
scaling leaves as it is. -/
def StrayHarmless (c : MouseCfg) (x : NativeWatch) : NativeEvent -> Prop
  | .command _ _ => True
  | .received v a =>
      nativeSink x.mouse a v = some .main -> 0 < c.mouseThresh -> 1 < c.mouseScale ->
        x.behind ≠ 0 -> x.genuine = false -> scaledDelta c v = v ∨ x.AtDelta

/-!
## What the filter does to a byte
-/

structure SameTracker (s s' : NativeMouse) : Prop where
  cmd_eq : s'.natCmd = s.natCmd
  params_eq : s'.natParams = s.natParams
  memload_eq : s'.natMemload = s.natMemload
  mouseRel_eq : s'.natMouseRel = s.natMouseRel

theorem SameTracker.trans {s s' s'' : NativeMouse} (h : SameTracker s s')
    (h' : SameTracker s' s'') : SameTracker s s'' :=
  ⟨h'.cmd_eq.trans h.cmd_eq, h'.params_eq.trans h.params_eq,
    h'.memload_eq.trans h.memload_eq, h'.mouseRel_eq.trans h.mouseRel_eq⟩

structure SameScaler (s s' : NativeMouse) : Prop extends SameTracker s s' where
  pktLeft_eq : s'.mousePktLeft = s.mousePktLeft
  pending_eq : s'.rawMainPending = s.rawMainPending

theorem SameScaler.refl (s : NativeMouse) : SameScaler s s := ⟨⟨rfl, rfl, rfl, rfl⟩, rfl, rfl⟩

theorem mouseThreshArm_scaler (c : MouseCfg) (s : NativeMouse) (now delayUs : BitVec 64) :
    SameScaler s (mouseThreshArm c s now delayUs) := by
  unfold mouseThreshArm
  split
  · exact SameScaler.refl s
  · exact ⟨⟨rfl, rfl, rfl, rfl⟩, rfl, rfl⟩

theorem mouseNativePump_scaler (s : NativeMouse) (now : BitVec 64) (tdre : Bool) :
    SameScaler s (mouseNativePump s now tdre).1 := by
  unfold mouseNativePump
  cases s.threshTx with
  | nil => exact SameScaler.refl s
  | cons byte rest =>
      dsimp only
      split
      · exact SameScaler.refl s
      · exact ⟨⟨rfl, rfl, rfl, rfl⟩, rfl, rfl⟩

theorem nativeScaled_eq (c : MouseCfg) (s : NativeMouse) (a : NativeRead) (v : Byte) :
    exists pumped, SameScaler s pumped ∧
      (nativeScaled c s a v).1 = (mouseScaleByteMode c pumped v s.natMouseRel).1 ∧
      (nativeScaled c s a v).2.1 = (mouseScaleByteMode c pumped v s.natMouseRel).2 := by
  unfold nativeScaled
  by_cases hoff : c.mouseThresh ≤ 0
  · refine ⟨s, SameScaler.refl s, ?_, ?_⟩
    · rw [if_pos hoff]
      unfold mouseScaleByteMode
      rw [if_pos (Or.inl hoff)]
    · rw [if_pos hoff]
      unfold mouseScaleByteMode
      rw [if_pos (Or.inl hoff)]
  · rw [if_neg hoff]
    dsimp only
    by_cases hidle : s.threshTx = []
    · rw [if_pos hidle]
      exact ⟨s, SameScaler.refl s, rfl, rfl⟩
    · rw [if_neg hidle]
      have hpump := mouseNativePump_scaler s a.now a.tdre
      exact ⟨_, hpump, by rw [hpump.mouseRel_eq], by rw [hpump.mouseRel_eq]⟩

theorem mouseScaleByteMode_value (c : MouseCfg) (s : NativeMouse) (v : Byte) (relative : Bool) :
    (mouseScaleByteMode c s v relative).2 =
      if 0 < c.mouseThresh ∧ 1 < c.mouseScale ∧ 0 < s.mousePktLeft then scaledDelta c v else v := by
  unfold mouseScaleByteMode
  by_cases hoff : c.mouseThresh ≤ 0 ∨ c.mouseScale ≤ 1
  · rw [if_pos hoff, if_neg (by lia)]
  · rw [if_neg hoff]
    by_cases hleft : 0 < s.mousePktLeft
    · rw [if_pos hleft, if_pos (by lia)]
    · have hidle : ¬ (0 < c.mouseThresh ∧ 1 < c.mouseScale ∧ 0 < s.mousePktLeft) :=
        fun hall => hleft hall.2.2
      rw [if_neg hleft, if_neg hidle]
      split
      · rfl
      · rfl

theorem kbdNativeRxFilter_value {c : MouseCfg} {s : NativeMouse} {a : NativeRead} {v : Byte}
    (hpending : s.rawMainPending = none) (hmain : nativeSink s a v = some .main) :
    (kbdNativeRxFilter c s a v).2.1 =
      if 0 < c.mouseThresh ∧ 1 < c.mouseScale ∧ 0 < s.mousePktLeft then scaledDelta c v else v := by
  unfold nativeSink at hmain
  unfold kbdNativeRxFilter
  rw [hpending] at hmain ⊢
  dsimp only at hmain ⊢
  rw [if_pos hmain]
  rcases nativeScaled_eq c { s with raw := (stboxDivertRealByte s.raw a.windows a.now v).1 } a v
    with ⟨pumped, hpumped, _, hvalue⟩
  rw [hpending] at hpumped hvalue
  rw [hvalue, mouseScaleByteMode_value, hpumped.pktLeft_eq]

theorem scalesMotion_iff {c : MouseCfg} {x : NativeWatch} (hpending : x.mouse.rawMainPending = none)
    (v : Byte) (a : NativeRead) :
    ScalesMotion c x (.received v a) <->
      (nativeSink x.mouse a v = some .main -> 0 < c.mouseThresh -> 1 < c.mouseScale ->
        0 < x.mouse.mousePktLeft -> scaledDelta c v = v ∨ x.AtDelta) := by
  unfold ScalesMotion
  constructor
  · intro h hmain hthresh hscale hleft
    have hvalue := h hmain
    rwa [kbdNativeRxFilter_value hpending hmain, if_pos ⟨hthresh, hscale, hleft⟩] at hvalue
  · intro h hmain
    rw [kbdNativeRxFilter_value hpending hmain]
    by_cases hcount : 0 < c.mouseThresh ∧ 1 < c.mouseScale ∧ 0 < x.mouse.mousePktLeft
    · rw [if_pos hcount]
      exact h hmain hcount.1 hcount.2.1 hcount.2.2
    · rw [if_neg hcount]
      exact Or.inl rfl

theorem mouseScaleByteMode_pktLeft {c : MouseCfg} (hthresh : 0 < c.mouseThresh)
    (hscale : 1 < c.mouseScale) (s : NativeMouse) (v : Byte) (relative : Bool) :
    (mouseScaleByteMode c s v relative).1.mousePktLeft =
      if 0 < s.mousePktLeft then s.mousePktLeft - 1
      else if 0xF8 ≤ v ∧ v ≤ 0xFB ∧ relative then 2 else s.mousePktLeft := by
  unfold mouseScaleByteMode
  rw [if_neg (by lia)]
  repeat' split
  all_goals rfl

theorem mouseScaleByteMode_tracker (c : MouseCfg) (s : NativeMouse) (v : Byte)
    (relative : Bool) : SameTracker s (mouseScaleByteMode c s v relative).1 := by
  unfold mouseScaleByteMode
  repeat' split
  all_goals exact ⟨rfl, rfl, rfl, rfl⟩

theorem kbdNativeRxFilter_tracker (c : MouseCfg) (s : NativeMouse) (a : NativeRead) (v : Byte) :
    SameTracker s (kbdNativeRxFilter c s a v).1 := by
  have hscaled : forall (s' : NativeMouse) (v : Byte), SameTracker s s' ->
      SameTracker s (nativeScaled c s' a v).1 := by
    intro s' v hsame
    rcases nativeScaled_eq c s' a v with ⟨pumped, hpumped, hstate, _⟩
    rw [hstate]
    exact (hsame.trans hpumped.toSameTracker).trans (mouseScaleByteMode_tracker c pumped v _)
  unfold kbdNativeRxFilter
  cases s.rawMainPending with
  | some pending => exact hscaled _ _ ⟨rfl, rfl, rfl, rfl⟩
  | none =>
      dsimp only
      split
      · exact hscaled _ _ ⟨rfl, rfl, rfl, rfl⟩
      · exact ⟨rfl, rfl, rfl, rfl⟩

theorem kbdNativeRxFilter_main {c : MouseCfg} (hthresh : 0 < c.mouseThresh)
    (hscale : 1 < c.mouseScale) {s : NativeMouse} {a : NativeRead} {v : Byte}
    (hpending : s.rawMainPending = none) (hmain : nativeSink s a v = some .main) :
    (kbdNativeRxFilter c s a v).1.mousePktLeft =
      if 0 < s.mousePktLeft then s.mousePktLeft - 1
      else if 0xF8 ≤ v ∧ v ≤ 0xFB ∧ s.natMouseRel then 2 else s.mousePktLeft := by
  unfold nativeSink at hmain
  unfold kbdNativeRxFilter
  rw [hpending] at hmain ⊢
  dsimp only at hmain ⊢
  rw [if_pos hmain]
  rcases nativeScaled_eq c { s with raw := (stboxDivertRealByte s.raw a.windows a.now v).1 } a v
    with ⟨pumped, hpumped, hstate, _⟩
  rw [hpending] at hpumped hstate
  rw [hstate, mouseScaleByteMode_pktLeft hthresh hscale, hpumped.pktLeft_eq]

theorem kbdNativeRxFilter_diverted {c : MouseCfg} {s : NativeMouse} {a : NativeRead} {v : Byte}
    (hpending : s.rawMainPending = none) (hdiverted : nativeSink s a v ≠ some .main) :
    (kbdNativeRxFilter c s a v).1.mousePktLeft = 0 := by
  unfold nativeSink at hdiverted
  unfold kbdNativeRxFilter
  rw [hpending] at hdiverted ⊢
  dsimp only at hdiverted ⊢
  rw [if_neg hdiverted]

/-!
## Runs
-/

def NativeMouse.resets (s : NativeMouse) (v : Byte) : Prop := s.natCmd = 0x80 ∧ v = 0x01

instance (s : NativeMouse) (v : Byte) : Decidable (s.resets v) :=
  inferInstanceAs (Decidable (_ ∧ _))

theorem afterThresh_scaler (c : MouseCfg) (s : NativeMouse) (now : BitVec 64) :
    SameScaler s (s.afterThresh c now) := by
  unfold NativeMouse.afterThresh
  split
  · exact mouseThreshArm_scaler c s now 2000
  · exact SameScaler.refl s

/-- A parameter byte: `80 01` stops the scaler, and a memory load begins with its last
parameter. -/
structure Parameter (v : Byte) (s s' : NativeMouse) : Prop where
  params_eq : s'.natParams = s.natParams - 1
  cmd_eq : s'.natParams ≠ 0 -> s'.natCmd = s.natCmd
  memload_eq : s'.natMemload =
    if s.natCmd = 0x20 ∧ s.natParams - 1 = 0 then v.toNat else s.natMemload
  mouseRel_eq : s'.natMouseRel = if s.resets v then true else s.natMouseRel
  pktLeft_eq : s'.mousePktLeft = if s.resets v then 0 else s.mousePktLeft
  pending_eq : s'.rawMainPending = s.rawMainPending

theorem afterLoad_parameter (c : MouseCfg) (s : NativeMouse) (v : Byte) (now : BitVec 64) :
    Parameter v s
      (({ s with natParams := s.natParams - 1 }.afterReset c v now).afterLoad v) := by
  by_cases hreset : s.resets v
  · have harm := mouseThreshArm_scaler c
      { s with natParams := s.natParams - 1, natMouseRel := true, mousePktLeft := 0 } now
      (RESET_ANSWER_US + 200000)
    have hcmd : s.natCmd ≠ 0x20 := by
      rw [hreset.1]
      decide
    have hafter : { s with natParams := s.natParams - 1 }.afterReset c v now =
        mouseThreshArm c
          { s with natParams := s.natParams - 1, natMouseRel := true, mousePktLeft := 0 } now
          (RESET_ANSWER_US + 200000) := if_pos hreset
    rw [hafter]
    unfold NativeMouse.afterLoad
    rw [harm.cmd_eq, if_neg (fun hload => hcmd hload.1)]
    constructor
    · exact harm.params_eq
    · exact fun _ => harm.cmd_eq
    · rw [if_neg (fun hload => hcmd hload.1)]
      exact harm.memload_eq
    · rw [if_pos hreset]
      exact harm.mouseRel_eq
    · rw [if_pos hreset]
      exact harm.pktLeft_eq
    · exact harm.pending_eq
  · have hafter : { s with natParams := s.natParams - 1 }.afterReset c v now =
        { s with natParams := s.natParams - 1 } := if_neg hreset
    rw [hafter]
    unfold NativeMouse.afterLoad
    dsimp only
    split
    · rename_i hload
      exact ⟨rfl, fun _ => rfl, (if_pos hload).symm, (if_neg hreset).symm,
        (if_neg hreset).symm, rfl⟩
    · rename_i hload
      exact ⟨rfl, fun _ => rfl, (if_neg hload).symm, (if_neg hreset).symm,
        (if_neg hreset).symm, rfl⟩

theorem nativeParam_parameter (c : MouseCfg) (s : NativeMouse) (v : Byte) (now : BitVec 64) :
    Parameter v s (nativeParam c s v now) := by
  have hload := afterLoad_parameter c s v now
  unfold nativeParam
  dsimp only
  split
  · rename_i hlast
    have harm := afterThresh_scaler c
      (({ s with natParams := s.natParams - 1 }.afterReset c v now).afterLoad v) now
    exact ⟨harm.params_eq.trans hload.params_eq,
      fun hmore => absurd (harm.params_eq.trans hlast.1) hmore,
      harm.memload_eq.trans hload.memload_eq, harm.mouseRel_eq.trans hload.mouseRel_eq,
      harm.pktLeft_eq.trans hload.pktLeft_eq, harm.pending_eq.trans hload.pending_eq⟩
  · exact hload

/-- The tracker counts the parameters and the data of a command as that of the USB layer
does. -/
structure Tracks (s : NativeMouse) (p : Snoop) : Prop where
  params_eq : s.natParams = p.pendingParams
  memload_eq : s.natMemload = p.memloadLeft
  cmd_eq : s.natParams ≠ 0 -> s.natCmd = p.pendingCmd
  reset_short : p.pendingCmd = 0x80 -> p.pendingParams ≤ 1

/-- The tracker after a byte of the guest: it goes on counting, heeds the mode commands it knows
and stops the scaler at a reset. -/
structure Snooped (p : Snoop) (v : Byte) (s s' : NativeMouse) : Prop where
  tracks : Tracks s' (kbdUsbTxSnoop p v)
  mouseRel_eq : s'.natMouseRel = (snoopEffects p v).foldl believedAfter s.natMouseRel
  pktLeft_eq : s'.mousePktLeft =
    if Effect.resetState ∈ snoopEffects p v then 0 else s.mousePktLeft
  pending_eq : s'.rawMainPending = s.rawMainPending

theorem completedEffects_plain (p : Snoop) (v : Byte) (b : Bool) :
    (completedEffects p v).foldl believedAfter b = b ∧
      Effect.resetState ∉ completedEffects p v := by
  unfold completedEffects
  split
  · split
    · exact ⟨rfl, by simp⟩
    · exact ⟨rfl, by simp⟩
  · split
    · exact ⟨rfl, by simp⟩
    · exact ⟨rfl, by simp⟩

variable {s : NativeMouse} {p : Snoop}

theorem Tracks.snooped_data (h : Tracks s p) (hdata : 0 < p.memloadLeft) (v : Byte) :
    Snooped p v s { s with natMemload := s.natMemload - 1 } := by
  have heffects : snoopEffects p v = [] := by
    unfold snoopEffects
    rw [if_pos hdata]
  have hnext : kbdUsbTxSnoop p v = { p with memloadLeft := p.memloadLeft - 1 } := by
    unfold kbdUsbTxSnoop
    rw [if_pos hdata]
  constructor
  · rw [hnext]
    exact ⟨h.params_eq, congrArg (· - 1) h.memload_eq, h.cmd_eq, h.reset_short⟩
  · rw [heffects]
    rfl
  · rw [heffects]
    rfl
  · rfl

theorem Tracks.snooped_param (h : Tracks s p) (hdata : ¬ 0 < p.memloadLeft)
    (hparam : 0 < p.pendingParams) (c : MouseCfg) (v : Byte) (now : BitVec 64) :
    Snooped p v s (nativeParam c s v now) := by
  have hspec := nativeParam_parameter c s v now
  have hcmd := h.cmd_eq (by rw [h.params_eq]; lia)
  by_cases hreset : p.pendingCmd = 0x80#8 ∧ v = 0x01#8
  · have hresets : s.resets v := ⟨hcmd.trans hreset.1, hreset.2⟩
    have hlast : p.pendingParams = 1 := by
      have hshort := h.reset_short hreset.1
      lia
    have hafter : p.afterReset v = (p.take v).resetState := if_pos hreset
    have heffects : snoopEffects p v = [Effect.resetState, Effect.applyParams 0 []] := by
      unfold snoopEffects
      rw [if_neg hdata, if_pos hparam, if_pos hreset, hafter]
      rfl
    have hnext : kbdUsbTxSnoop p v = { (p.take v).resetState with pendingCmd := 0 } := by
      unfold kbdUsbTxSnoop
      rw [if_neg hdata, if_pos hparam, hafter]
      rfl
    constructor
    · rw [hnext]
      have hnone : (nativeParam c s v now).natParams = 0 := by
        rw [hspec.params_eq, h.params_eq, hlast]
      constructor
      · exact hnone
      · rw [hspec.memload_eq, hcmd, hreset.1, if_neg (by simp), h.memload_eq]
        exact Nat.eq_zero_of_not_pos hdata
      · exact fun hmore => absurd hnone hmore
      · intro _
        exact Nat.zero_le 1
    · rw [heffects, hspec.mouseRel_eq, if_pos hresets]
      rfl
    · rw [heffects, hspec.pktLeft_eq, if_pos hresets, if_pos List.mem_cons_self]
    · exact hspec.pending_eq
  · have hresets : ¬ s.resets v := fun hr => hreset ⟨hcmd.symm.trans hr.1, hr.2⟩
    have hafter : p.afterReset v = p.take v := if_neg hreset
    have heffects : snoopEffects p v =
        if p.pendingParams - 1 = 0 ∧ p.pendingCmd ≠ 0x20 then completedEffects (p.take v) v
        else [] := by
      unfold snoopEffects
      rw [if_neg hdata, if_pos hparam, if_neg hreset, hafter]
      rfl
    have hplain := completedEffects_plain (p.take v) v s.natMouseRel
    constructor
    · unfold kbdUsbTxSnoop
      rw [if_neg hdata, if_pos hparam, hafter]
      have hshort : p.pendingCmd = 0x80 -> p.pendingParams - 1 ≤ 1 := fun hcmd =>
        (Nat.sub_le _ _).trans (h.reset_short hcmd)
      have hload := hspec.memload_eq
      rw [hcmd, h.params_eq] at hload
      have hparams := hspec.params_eq
      rw [h.params_eq] at hparams
      change Tracks _ (if p.pendingParams - 1 = 0 then
        (if p.pendingCmd = 0x20 then { p.take v with memloadLeft := v.toNat }
          else { p.take v with pendingCmd := 0 }) else p.take v)
      split
      · rename_i hlast
        split
        · rename_i hcode
          rw [if_pos ⟨hcode, hlast⟩] at hload
          exact ⟨hparams, hload, fun hmore => absurd (hparams.trans hlast) hmore, hshort⟩
        · rename_i hcode
          rw [if_neg (fun hboth => hcode hboth.1), h.memload_eq] at hload
          exact ⟨hparams, hload, fun hmore => absurd (hparams.trans hlast) hmore,
            fun _ => hlast.trans_le (Nat.zero_le 1)⟩
      · rename_i hmore
        rw [if_neg (fun hboth => hmore hboth.2), h.memload_eq] at hload
        exact ⟨hparams, hload, fun hleft => (hspec.cmd_eq hleft).trans hcmd, hshort⟩
    · rw [heffects, hspec.mouseRel_eq, if_neg hresets]
      split
      · exact hplain.1.symm
      · rfl
    · rw [heffects, hspec.pktLeft_eq, if_neg hresets]
      split
      · rw [if_neg hplain.2]
      · rfl
    · exact hspec.pending_eq

theorem Tracks.snooped_command (h : Tracks s p) (hdata : ¬ 0 < p.memloadLeft)
    (hparam : ¬ 0 < p.pendingParams) {c : MouseCfg} (hthresh : 0 < c.mouseThresh) (v : Byte)
    (now : BitVec 64) : Snooped p v s (kbdNativeTxSnoop c s v now) := by
  unfold kbdNativeTxSnoop
  rw [if_neg (by lia), if_neg (by rw [h.memload_eq]; exact hdata),
    if_neg (by rw [h.params_eq]; exact hparam)]
  dsimp only
  by_cases hlen : 0 < ikbdParamLen v
  · have heffects : snoopEffects p v = [] := by
      unfold snoopEffects
      rw [if_neg hdata, if_neg hparam, if_pos hlen]
    have hnext : kbdUsbTxSnoop p v =
        { p with pendingCmd := v, pendingParams := ikbdParamLen v, param := [] } := by
      unfold kbdUsbTxSnoop
      rw [if_neg hdata, if_neg hparam, if_pos hlen]
    rw [if_pos hlen]
    constructor
    · rw [hnext]
      refine ⟨rfl, h.memload_eq, fun _ => rfl, ?_⟩
      intro hcmd
      have hcmd : v = 0x80 := hcmd
      change ikbdParamLen v ≤ 1
      rw [hcmd]
      decide
    · rw [heffects]
      rfl
    · rw [heffects]
      rfl
    · rfl
  · have heffects : snoopEffects p v = [Effect.apply v] := by
      unfold snoopEffects
      rw [if_neg hdata, if_neg hparam, if_neg hlen]
    have hnext : kbdUsbTxSnoop p v = p := by
      unfold kbdUsbTxSnoop
      rw [if_neg hdata, if_neg hparam, if_neg hlen]
    have hnone : ikbdParamLen v = 0 := Nat.eq_zero_of_not_pos hlen
    have htracks (rel : Bool) :
        Tracks { s with natParams := ikbdParamLen v, natMouseRel := rel } p := by
      refine ⟨?_, h.memload_eq, fun hmore => absurd hnone hmore, h.reset_short⟩
      change ikbdParamLen v = p.pendingParams
      lia
    rw [if_neg hlen]
    split
    · rename_i hcmd
      exact ⟨by rw [hnext]; exact htracks true, by rw [heffects, hcmd]; rfl,
        by rw [heffects]; rfl, rfl⟩
    · rename_i hrel
      split
      · rename_i hcmd
        have hoff : v = 0x12 := by
          rcases hcmd with hcmd | hcmd | hcmd
          · rw [hcmd] at hnone
            cases hnone
          · rw [hcmd] at hnone
            cases hnone
          · exact hcmd
        exact ⟨by rw [hnext]; exact htracks false, by rw [heffects, hoff]; rfl,
          by rw [heffects]; rfl, rfl⟩
      · rename_i hcmd
        have hoff : v ≠ 0x12 := fun hoff => hcmd (Or.inr (Or.inr hoff))
        refine ⟨by rw [hnext]; exact htracks s.natMouseRel, ?_, by rw [heffects]; rfl, rfl⟩
        rw [heffects]
        change s.natMouseRel = if v = 0x08 then true else if v = 0x12 then false else _
        rw [if_neg hrel, if_neg hoff]

theorem kbdNativeTxSnoop_snooped {c : MouseCfg} (hthresh : 0 < c.mouseThresh) (h : Tracks s p)
    (v : Byte) (now : BitVec 64) : Snooped p v s (kbdNativeTxSnoop c s v now) := by
  by_cases hdata : 0 < p.memloadLeft
  · have hnext : kbdNativeTxSnoop c s v now = { s with natMemload := s.natMemload - 1 } := by
      unfold kbdNativeTxSnoop
      rw [if_neg (by lia), if_pos (by rw [h.memload_eq]; exact hdata)]
    rw [hnext]
    exact h.snooped_data hdata v
  · by_cases hparam : 0 < p.pendingParams
    · have hnext : kbdNativeTxSnoop c s v now = nativeParam c s v now := by
        unfold kbdNativeTxSnoop
        rw [if_neg (by lia), if_neg (by rw [h.memload_eq]; exact hdata),
          if_pos (by rw [h.params_eq]; exact hparam)]
      rw [hnext]
      exact h.snooped_param hdata hparam c v now
    · exact h.snooped_command hdata hparam hthresh v now

theorem kbdNativeTxSnoop_pending (c : MouseCfg) (s : NativeMouse) (v : Byte) (now : BitVec 64) :
    (kbdNativeTxSnoop c s v now).rawMainPending = s.rawMainPending := by
  unfold kbdNativeTxSnoop
  split
  · rfl
  · split
    · rfl
    · split
      · exact (nativeParam_parameter c s v now).pending_eq
      · dsimp only
        repeat' split
        all_goals rfl

theorem mouseScaleByteMode_pending (c : MouseCfg) (s : NativeMouse) (v : Byte) (relative : Bool) :
    (mouseScaleByteMode c s v relative).1.rawMainPending = s.rawMainPending := by
  unfold mouseScaleByteMode
  repeat' split
  all_goals rfl

theorem kbdNativeRxFilter_pending (c : MouseCfg) (s : NativeMouse) (a : NativeRead) (v : Byte) :
    (kbdNativeRxFilter c s a v).1.rawMainPending = none := by
  have hscaled : forall (s : NativeMouse) (v : Byte), s.rawMainPending = none ->
      (nativeScaled c s a v).1.rawMainPending = none := by
    intro s v hnone
    rcases nativeScaled_eq c s a v with ⟨pumped, hpumped, hstate, _⟩
    rw [hstate, mouseScaleByteMode_pending, hpumped.pending_eq, hnone]
  unfold kbdNativeRxFilter
  cases hpending : s.rawMainPending with
  | some pending => exact hscaled _ _ rfl
  | none =>
      dsimp only
      split
      · exact hscaled _ _ rfl
      · rfl

/-- The tracker and the scaler keep step with what is believed of the guest's commands and what
looks like a header. -/
structure NativeWatch.InStep (x : NativeWatch) : Prop where
  tracks : Tracks x.mouse x.snoop
  believed : x.mouse.natMouseRel = x.believed
  behind : x.mouse.mousePktLeft = x.behind
  genuine : x.behind ≠ 0 -> x.genuine = true -> x.owed = x.behind ∧ x.motion = true

theorem rawPktLen_mouse {v : Byte} (hlow : 0xF8 ≤ v) (hhigh : v ≤ 0xFB) : rawPktLen v = 2 := by
  have hcases : v = 0xF8 ∨ v = 0xF9 ∨ v = 0xFA ∨ v = 0xFB := by bv_omega
  rcases hcases with h | h | h | h
  · rw [h]; rfl
  · rw [h]; rfl
  · rw [h]; rfl
  · rw [h]; rfl

variable {c : MouseCfg} {x : NativeWatch}

theorem NativeWatch.InStep.command (h : x.InStep) (hthresh : 0 < c.mouseThresh) (v : Byte)
    (now : BitVec 64) : (x.step c (.command v now)).InStep := by
  have hsnooped := kbdNativeTxSnoop_snooped hthresh h.tracks v now
  constructor
  · exact hsnooped.tracks
  · exact hsnooped.mouseRel_eq.trans
      (congrArg (fun b => (snoopEffects x.snoop v).foldl believedAfter b) h.believed)
  · exact hsnooped.pktLeft_eq.trans (congrArg _ h.behind)
  · change (if Effect.resetState ∈ snoopEffects x.snoop v then 0 else x.behind) ≠ 0 ->
      x.genuine = true -> x.owed = (if Effect.resetState ∈ snoopEffects x.snoop v then 0
        else x.behind) ∧ x.motion = true
    split
    · exact fun hnone => absurd rfl hnone
    · exact h.genuine

theorem NativeWatch.InStep.received (h : x.InStep) (hpending : x.mouse.rawMainPending = none)
    (hthresh : 0 < c.mouseThresh) (hscale : 1 < c.mouseScale) (v : Byte) (a : NativeRead) :
    (x.step c (.received v a)).InStep := by
  have hsame := kbdNativeRxFilter_tracker c x.mouse a v
  have htracks : Tracks (kbdNativeRxFilter c x.mouse a v).1 x.snoop :=
    ⟨hsame.params_eq.trans h.tracks.params_eq, hsame.memload_eq.trans h.tracks.memload_eq,
      fun hmore => hsame.cmd_eq.trans (h.tracks.cmd_eq (by rwa [← hsame.params_eq])),
      h.tracks.reset_short⟩
  have hbehind : (x.step c (.received v a)).behind =
      if nativeSink x.mouse a v ≠ some .main then 0
      else if x.LooksHeader v then 2 else x.behind - 1 := rfl
  constructor
  · exact htracks
  · exact hsame.mouseRel_eq.trans h.believed
  · rw [hbehind]
    change (kbdNativeRxFilter c x.mouse a v).1.mousePktLeft = _
    by_cases hmain : nativeSink x.mouse a v = some .main
    · rw [if_neg (not_not.mpr hmain), kbdNativeRxFilter_main hthresh hscale hpending hmain,
        h.behind, h.believed]
      by_cases hlooks : x.LooksHeader v
      · rw [if_pos hlooks, if_neg (Nat.not_lt.mpr hlooks.2.2.2.le),
          if_pos ⟨hlooks.1, hlooks.2.1, hlooks.2.2.1⟩]
      · rw [if_neg hlooks]
        split
        · rfl
        · rename_i hnone
          have hnone : x.behind = 0 := Nat.eq_zero_of_not_pos hnone
          rw [if_neg (fun hall => hlooks ⟨hall.1, hall.2.1, hall.2.2, hnone⟩), hnone]
    · rw [if_pos hmain]
      exact kbdNativeRxFilter_diverted hpending hmain
  · rw [hbehind]
    change _ -> (if x.LooksHeader v then x.owed == 0 && x.sendsMotion v else x.genuine) = true ->
      owedAfter x.owed v = _ ∧ (if x.owed = 0 then x.sendsMotion v else x.motion) = true
    split
    · exact fun hnone => absurd rfl hnone
    · unfold owedAfter
      split
      · rename_i hlooks
        rw [Bool.and_eq_true, beq_iff_eq]
        rintro _ ⟨howed, hsends⟩
        rw [if_pos howed, if_pos howed, rawPktLen_mouse hlooks.1 hlooks.2.1]
        exact ⟨rfl, hsends⟩
      · intro hmore hgenuine
        rcases h.genuine (fun hnone => hmore (by rw [hnone])) hgenuine with ⟨howed, hmotion⟩
        have hrest : x.owed ≠ 0 := by
          rw [howed]
          exact fun hnone => hmore (by rw [hnone])
        rw [if_neg hrest, if_neg hrest, howed]
        exact ⟨rfl, hmotion⟩

def NativeWatch.Following (c : MouseCfg) (x : NativeWatch) : Prop :=
  x.mouse.rawMainPending = none ∧ (0 < c.mouseThresh -> 1 < c.mouseScale -> x.InStep)

theorem NativeWatch.Following.initial (c : MouseCfg) (now : BitVec 64) :
    (NativeWatch.initial now).Following c := by
  refine ⟨rfl, fun _ _ => ⟨⟨rfl, rfl, ?_, ?_⟩, rfl, rfl, ?_⟩⟩
  · exact fun hmore => absurd rfl hmore
  · exact fun _ => Nat.zero_le 1
  · exact fun hmore => absurd rfl hmore

theorem NativeWatch.Following.step (h : x.Following c) (e : NativeEvent) :
    (x.step c e).Following c := by
  cases e with
  | command v now =>
      exact ⟨(kbdNativeTxSnoop_pending c x.mouse v now).trans h.1,
        fun hthresh hscale => (h.2 hthresh hscale).command hthresh v now⟩
  | received v a =>
      exact ⟨kbdNativeRxFilter_pending c x.mouse a v,
        fun hthresh hscale => (h.2 hthresh hscale).received h.1 hthresh hscale v a⟩

theorem NativeWatch.Following.scalesMotion_iff (h : x.Following c) (e : NativeEvent) :
    ScalesMotion c x e <-> StrayHarmless c x e := by
  cases e with
  | command v now => exact Iff.rfl
  | received v a =>
      rw [Ikbd.scalesMotion_iff h.1]
      unfold StrayHarmless
      refine imp_congr_right (fun _ => imp_congr_right (fun hthresh =>
        imp_congr_right (fun hscale => ?_)))
      have hin := h.2 hthresh hscale
      rw [hin.behind]
      constructor
      · exact fun hall hbehind _ => hall (Nat.pos_of_ne_zero hbehind)
      · intro hall hbehind
        cases hgenuine : x.genuine with
        | false => exact hall hbehind.ne' hgenuine
        | true =>
            rcases hin.genuine hbehind.ne' hgenuine with ⟨howed, hmotion⟩
            exact Or.inr ⟨howed.trans_ne hbehind.ne', hmotion⟩

/-- Every byte for the guest that is not a delta in relative mode reaches it unchanged exactly if
scaling makes no difference to the bytes behind those that only look like headers. -/
theorem scaling_touches_motion_iff (c : MouseCfg) (now : BitVec 64) (events : List NativeEvent) :
    Steps (NativeWatch.step c) (ScalesMotion c) (NativeWatch.initial now) events <->
      Steps (NativeWatch.step c) (StrayHarmless c) (NativeWatch.initial now) events :=
  Steps.iff_of_invariant (fun _ e hx _ => hx.step e) (fun _ e hx => hx.scalesMotion_iff e)
    (NativeWatch.Following.initial c now)

def noWindows : Windows := ⟨false, false, false, false, false, false⟩

/-- The guest asks for absolute positions, and reads one whose low byte of x looks like the header
of a mouse packet. -/
def absoluteReport : List NativeEvent :=
  [0x09, 0x02, 0x7F, 0x01, 0x8F].map (NativeEvent.command · 0) ++
    [0xF7, 0x00, 0x01, 0xF8, 0x00, 0x64].map (NativeEvent.received · ⟨noWindows, 0, true⟩)

/-- The low byte 100 of y reaches the guest as 127. -/
theorem absolute_report_scaled :
    ¬ Steps (NativeWatch.step ⟨3, 4⟩) (ScalesMotion ⟨3, 4⟩) (NativeWatch.initial 0)
      absoluteReport := by
  decide

end Ikbd
end PistormAtari
