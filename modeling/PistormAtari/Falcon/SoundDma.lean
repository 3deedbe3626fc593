import Mathlib

/-!
# The DMA sound of the Falcon

A frame of the sample clock fetches samples for the playback and stores samples of the
recording.  The addresses of a pass are latched when it begins.
-/

namespace PistormAtari
namespace Falcon

/-!
## The state
-/

inductive SndEvent where
  | timerA
  | mfp15
deriving DecidableEq, Repr

inductive SndNote where
  | began (start fin : BitVec 32)
  | fetched (addr next : BitVec 32)
  | ended (again : Bool)
  | raised (isRec : Bool) (events : List SndEvent)
  | finished
  | stopped
deriving DecidableEq

/-- The sound part of the machine.  `guestSize` is 0 when there is no guest memory.  The notes
are the playback's and what was raised, latest first. -/
structure Snd where
  reg : Nat -> BitVec 8
  guest : Nat -> BitVec 8
  guestSize : Nat
  playStart : BitVec 32
  playEnd : BitVec 32
  playCnt : BitVec 32
  playFstart : BitVec 32
  playFend : BitVec 32
  playEvNs : BitVec 64
  playHoldUntil : BitVec 64
  playHold : Bool
  playHolds : BitVec 32
  recStart : BitVec 32
  recEnd : BitVec 32
  recCnt : BitVec 32
  recFend : BitVec 32
  playOn : Bool
  recordOn : Bool
  playRep : Bool
  recRep : Bool
  notes : List SndNote

/-- The sample clock: whether it has a rate, and half the time of a number of frames. -/
structure SndClock where
  hz : Bool
  half : BitVec 32 -> BitVec 64

def guestOk (s : Snd) (a : BitVec 32) (n : Nat) : Prop :=
  a.toNat < s.guestSize ∧ n ≤ s.guestSize - a.toNat

instance (s : Snd) (a : BitVec 32) (n : Nat) : Decidable (guestOk s a n) :=
  inferInstanceAs (Decidable (_ ∧ _))

def g16 (s : Snd) (a : BitVec 32) : BitVec 16 :=
  if guestOk s a 2 then
    (s.guest a.toNat).setWidth 16 <<< 8 ||| (s.guest (a.toNat + 1)).setWidth 16
  else 0

def g8 (s : Snd) (a : BitVec 32) : BitVec 8 := if guestOk s a 1 then s.guest a.toNat else 0

def p16 (a : BitVec 32) (v : BitVec 16) (s : Snd) : Snd :=
  if guestOk s a 2 then
    { s with
      guest := Function.update (Function.update s.guest a.toNat ((v >>> 8).setWidth 8))
        (a.toNat + 1) (v.setWidth 8) }
  else s

def enabledEvents (isRec : Bool) (c : BitVec 8) : List SndEvent :=
  (if c &&& (if isRec then 0x08 else 0x04) ≠ 0 then [.timerA] else []) ++
    (if c &&& (if isRec then 0x02 else 0x01) ≠ 0 then [.mfp15] else [])

def Snd.note (n : SndNote) (s : Snd) : Snd := { s with notes := n :: s.notes }

/-- The enabled events are raised: `isRec` tells the end of a recording from a playback's. -/
def dmaFrameEvent (isRec : Bool) (s : Snd) : Snd :=
  s.note (.raised isRec (enabledEvents isRec (s.reg 0x00)))

/-!
## Playback
-/

def playMode (s : Snd) : BitVec 8 := (s.reg 0x21 >>> 6) &&& 3

def playTracks (s : Snd) : Nat := (s.reg 0x20 &&& 3).toNat + 1

def dmaPlayBpf (s : Snd) : BitVec 32 :=
  if playMode s &&& 1 ≠ 0 then 4 * BitVec.ofNat 32 (playTracks s)
  else if playMode s = 0 then 2 else 1

def dmaPlayEnd (now : BitVec 64) (s : Snd) : Snd :=
  let s := dmaFrameEvent false ({ s with playEvNs := now }.note (.ended s.playRep))
  if s.playRep then
    { s with
      playCnt := s.playStart
      playFstart := s.playStart
      playFend := s.playEnd }.note (.began s.playStart s.playEnd)
  else
    { s with
      playOn := false
      reg := Function.update s.reg 0x01 (s.reg 0x01 &&& ~~~0x03) }.note .finished

def wide (b : BitVec 8) : BitVec 16 := b.setWidth 16 <<< 8

def playFetch (s : Snd) : (Nat -> BitVec 16) × BitVec 32 :=
  let c := s.playCnt
  if playMode s &&& 1 ≠ 0 then
    (fun i => if i < 2 * playTracks s then g16 s (c + BitVec.ofNat 32 (2 * i)) else 0,
      c + 4 * BitVec.ofNat 32 (playTracks s))
  else if playMode s = 0 then
    let v := g16 s c
    (fun i => if i = 0 then wide ((v >>> 8).setWidth 8) else if i = 1 then wide (v.setWidth 8)
      else 0, c + 2)
  else (fun i => if i < 2 then wide (g8 s c) else 0, c + 1)

/-- A frame end that comes too soon after the last is held back. -/
def TooSoon (clock : SndClock) (now : BitVec 64) (s : Snd) : Prop :=
  (s.playRep = true ∧ s.reg 0x00 &&& 0x05 ≠ 0) ∧ s.playEvNs ≠ 0 ∧ clock.hz = true ∧
    now - s.playEvNs <
      clock.half ((if s.playFstart < s.playFend then s.playFend - s.playFstart else 0) /
        dmaPlayBpf s)

instance (clock : SndClock) (now : BitVec 64) (s : Snd) : Decidable (TooSoon clock now s) :=
  inferInstanceAs (Decidable (_ ∧ _))

def playHalf (clock : SndClock) (s : Snd) : BitVec 64 :=
  clock.half ((if s.playFstart < s.playFend then s.playFend - s.playFstart else 0) / dmaPlayBpf s)

/-- The samples of a frame that is fetched, and the end of the pass when it is reached. -/
def playSample (clock : SndClock) (now : BitVec 64) (s : Snd) : Bool × (Nat -> BitVec 16) × Snd :=
  let (w, c) := playFetch s
  let s := { s with playCnt := c }.note (.fetched s.playCnt c)
  if s.playFend ≤ c then
    if TooSoon clock now s then
      (true, w, { s with
        playHold := true
        playHoldUntil := s.playEvNs + playHalf clock s
        playHolds := s.playHolds + 1 })
    else (true, w, dmaPlayEnd now s)
  else (true, w, s)

def dmaPlayFrame (clock : SndClock) (now later : BitVec 64) (s : Snd) :
    Bool × (Nat -> BitVec 16) × Snd :=
  if s.playOn = false then (false, fun _ => 0, s)
  else if s.playHold then
    if now < s.playHoldUntil then (true, fun _ => 0, s)
    else
      let s := dmaPlayEnd now { s with playHold := false }
      if s.playOn = false then (false, fun _ => 0, s) else playSample clock later s
  else playSample clock later s

/-!
## Recording
-/

def recTracks (s : Snd) : Nat := (s.reg 0x36 &&& 3).toNat + 1

/-- The pairs of samples of a frame, up to the one that reaches the end. -/
def recPairs (w : Nat -> BitVec 16) : Nat -> Nat -> Snd × BitVec 32 -> Snd × BitVec 32
  | 0, _, r => r
  | n + 1, t, (s, c) =>
      let s := p16 (c + 2) (w (2 * t + 1)) (p16 c (w (2 * t)) s)
      let c := c + 4
      if s.recFend ≤ c then (s, c) else recPairs w n (t + 1) (s, c)

def dmaRecFrame (w : Nat -> BitVec 16) (valid : Bool) (s : Snd) : Snd :=
  if s.recordOn = false ∨ valid = false then s
  else
    let (s, c) := recPairs w (recTracks s) 0 (s, s.recCnt)
    if s.recFend ≤ c then
      let s := dmaFrameEvent true s
      if s.recRep then { s with recFend := s.recEnd, recCnt := s.recStart }
      else
        { s with
          recordOn := false
          reg := Function.update s.reg 0x01 (s.reg 0x01 &&& ~~~0x30)
          recCnt := c }
    else { s with recCnt := c }

/-!
## Frames, registers and calls
-/

def recSource (s : Snd) : Nat := ((s.reg 0x33 >>> 1) &&& 3).toNat

def recInput (played : Bool × (Nat -> BitVec 16) × Snd) (dsp : Nat -> BitVec 16) (valid : Bool) :
    (Nat -> BitVec 16) × Bool :=
  match recSource played.2.2 with
  | 0 => (played.2.1, played.1)
  | 1 => (dsp, valid)
  | _ => (fun _ => 0, true)

/-- A frame: the samples of the DSP are given, with whether there are any. -/
def sndFrame (clock : SndClock) (now later : BitVec 64) (dsp : Nat -> BitVec 16) (valid : Bool)
    (s : Snd) : Snd :=
  let played := dmaPlayFrame clock now later s
  let input := recInput played dsp valid
  dmaRecFrame input.1 input.2 played.2.2

def setAddrByte (a : BitVec 32) (shift : Nat) (v : BitVec 8) : BitVec 32 :=
  let keep := ~~~((0xFF : BitVec 32) <<< shift)
  let keep := if shift = 16 then keep &&& 0x00FFFFFF else keep
  (a &&& keep) ||| (v.setWidth 32 <<< shift)

/-- Playback that is switched on begins with the addresses of the registers. -/
def playControl (on : Bool) (s : Snd) : Snd :=
  if on = true ∧ s.playOn = false then
    { s with
      playCnt := s.playStart
      playFstart := s.playStart
      playFend := s.playEnd
      playHold := false
      playEvNs := 0 }.note (.began s.playStart s.playEnd)
  else if on = false ∧ s.playOn = true then s.note .stopped
  else s

def recControl (on : Bool) (s : Snd) : Snd :=
  if on = true ∧ s.recordOn = false then { s with recCnt := s.recStart, recFend := s.recEnd } else s

def sndControl (v : BitVec 8) (s : Snd) : Snd :=
  let s := { s with
    reg := Function.update s.reg 0x01 ((s.reg 0x01 &&& 0x7F) ||| (v &&& 0x80))
    playRep := v.getLsbD 1
    recRep := v.getLsbD 5 }
  { recControl (v.getLsbD 4) (playControl (v.getLsbD 0) s) with
    playOn := v.getLsbD 0
    recordOn := v.getLsbD 4 }

def setStart (shift : Nat) (v : BitVec 8) (s : Snd) : Snd :=
  if s.reg 0x01 &&& 0x80 ≠ 0 then { s with recStart := setAddrByte s.recStart shift v }
  else { s with playStart := setAddrByte s.playStart shift v }

def setEnd (shift : Nat) (v : BitVec 8) (s : Snd) : Snd :=
  if s.reg 0x01 &&& 0x80 ≠ 0 then { s with recEnd := setAddrByte s.recEnd shift v }
  else { s with playEnd := setAddrByte s.playEnd shift v }

def sndWrite8 (o : Nat) (v : BitVec 8) (s : Snd) : Snd :=
  match o with
  | 0x01 => sndControl v s
  | 0x03 => setStart 16 v s
  | 0x05 => setStart 8 v s
  | 0x07 => setStart 0 (v &&& 0xFE) s
  | 0x0F => setEnd 16 v s
  | 0x11 => setEnd 8 v s
  | 0x13 => setEnd 0 (v &&& 0xFE) s
  | 0x09 => s
  | 0x0B => s
  | 0x0D => s
  | o => if o < 0x44 then { s with reg := Function.update s.reg o v } else s

def setbuffer (isRec : Bool) (first last : BitVec 32) (s : Snd) : Snd :=
  if isRec then { s with recStart := first &&& 0xFFFFFFFE, recEnd := last &&& 0xFFFFFFFE }
  else { s with playStart := first &&& 0xFFFFFFFE, playEnd := last &&& 0xFFFFFFFE }

def buffoperControl (m : BitVec 32) (s : Snd) : BitVec 8 :=
  ((s.reg 0x01 &&& 0x80).setWidth 32 ||| (m &&& 1) ||| (m &&& 2) ||| ((m &&& 4) <<< 2) |||
    ((m &&& 8) <<< 2)).setWidth 8

/-- The call 136, which changes nothing when its argument is negative. -/
def buffoper (m : BitVec 32) (s : Snd) : Snd :=
  if m.msb then s else sndControl (buffoperControl m s) s

def stopPlay (s : Snd) : Snd :=
  if s.playOn then { s with playOn := false }.note .stopped else s

def soundDefaults (s : Snd) : Snd :=
  { stopPlay s with
    playOn := false
    recordOn := false
    reg := fun o =>
      if o = 0x31 then 0x01 else if o = 0x37 then 0x02
      else if o ∈ [0x00, 0x01, 0x20, 0x21, 0x30, 0x32, 0x33, 0x34, 0x35, 0x36, 0x38, 0x39, 0x3A,
        0x3B] then 0
      else s.reg o }

def falconDisarm (s : Snd) : Snd := { stopPlay s with playOn := false, recordOn := false }

/-- What happens to the sound.  The other calls write plain registers. -/
inductive SndOp where
  | write (o : Nat) (v : BitVec 8)
  | setbuffer (isRec : Bool) (first last : BitVec 32)
  | buffoper (m : BitVec 32)
  | defaults
  | disarm
  | frame (now later : BitVec 64) (dsp : Nat -> BitVec 16) (valid : Bool)

def sndStep (clock : SndClock) (s : Snd) : SndOp -> Snd
  | .write o v => sndWrite8 o v s
  | .setbuffer isRec first last => setbuffer isRec first last s
  | .buffoper m => buffoper m s
  | .defaults => soundDefaults s
  | .disarm => falconDisarm s
  | .frame now later dsp valid => sndFrame clock now later dsp valid s

/-- The sound with nothing programmed, over a guest memory of a given size full of ones. -/
def quietSnd (guestSize : Nat) : Snd where
  reg := fun _ => 0
  guest := fun _ => 0xFF
  guestSize := guestSize
  playStart := 0
  playEnd := 0
  playCnt := 0
  playFstart := 0
  playFend := 0
  playEvNs := 0
  playHoldUntil := 0
  playHold := false
  playHolds := 0
  recStart := 0
  recEnd := 0
  recCnt := 0
  recFend := 0
  playOn := false
  recordOn := false
  playRep := false
  recRep := false
  notes := []

end Falcon
end PistormAtari
