import Mathlib
import PistormAtari.Foundation.BrokenDownTime

/-!
# The clock of the Falcon

The MC146818 keeps the guest's time as an offset from the host's clock.  Its fields are encoded
from the running clock, and decoded when a field is set.
-/

namespace PistormAtari
namespace Falcon

open Foundation

/-!
## Registers and modes
-/

/-- The mode bits of register B: binary data, and a 24-hour clock. -/
structure RtcMode where
  dm : Bool
  h24 : Bool
deriving DecidableEq

def rtcMode (b : BitVec 8) : RtcMode := ⟨b.getLsbD 2, b.getLsbD 1⟩

/-- The registers, the guest's time less the host's, and the fields written under SET. -/
structure Rtc where
  rtc : Nat -> BitVec 8
  offset : Int
  set : Nat -> BitVec 8

def Rtc.mode (s : Rtc) : RtcMode := rtcMode (s.rtc 11)

def Rtc.frozen (s : Rtc) : Bool := (s.rtc 11).getLsbD 7

def rtcOut (m : RtcMode) (v : Int) : BitVec 8 :=
  if m.dm then BitVec.ofInt 8 v
  else BitVec.ofInt 8 (v.tdiv 10) <<< 4 ||| BitVec.ofInt 8 (v.tmod 10)

def rtcIn (m : RtcMode) (v : BitVec 8) : Int :=
  if m.dm then v.toNat else ((v >>> 4) &&& 0x0F).toNat * 10 + (v &&& 0x0F).toNat

inductive TimeField where
  | sec
  | min
  | hour
  | wday
  | mday
  | mon
  | year
deriving DecidableEq

def TimeField.reg : TimeField -> Nat
  | .sec => 0
  | .min => 2
  | .hour => 4
  | .wday => 6
  | .mday => 7
  | .mon => 8
  | .year => 9

/-!
## Reading
-/

def twelve (hour : Int) : Int := if hour % 12 ≠ 0 then hour % 12 else 12

/-- The byte of an hour, with the bit of the afternoon on the 12-hour clock. -/
def hourOut (m : RtcMode) (hour : Int) : BitVec 8 :=
  if m.h24 then rtcOut m hour
  else rtcOut m (twelve hour) ||| (if 12 ≤ hour then 0x80 else 0)

def shown (m : RtcMode) (t : Tm) : TimeField -> BitVec 8
  | .sec => rtcOut m t.sec
  | .min => rtcOut m t.min
  | .hour => hourOut m t.hour
  | .wday => rtcOut m (t.wday + 1)
  | .mday => rtcOut m t.mday
  | .mon => rtcOut m (t.mon + 1)
  | .year => rtcOut m (t.year - 68)

section
variable (zone : Int ≃ Int) (now : Int)

def localtime (t : Int) : Tm := Tm.ofSeconds (zone t)

def mktime (t : Tm) : Int := zone.symm t.seconds

def guestTime (s : Rtc) : Int := now + s.offset

def rtcNow (s : Rtc) : Tm := localtime zone (guestTime now s)

def rtcRead (i : Nat) (s : Rtc) : BitVec 8 × Rtc :=
  match i with
  | 0 => (shown s.mode (rtcNow zone now s) .sec, s)
  | 2 => (shown s.mode (rtcNow zone now s) .min, s)
  | 4 => (shown s.mode (rtcNow zone now s) .hour, s)
  | 6 => (shown s.mode (rtcNow zone now s) .wday, s)
  | 7 => (shown s.mode (rtcNow zone now s) .mday, s)
  | 8 => (shown s.mode (rtcNow zone now s) .mon, s)
  | 9 => (shown s.mode (rtcNow zone now s) .year, s)
  | 10 =>
      let v := if s.frozen then s.rtc 10 &&& ~~~0x80 else s.rtc 10 ^^^ 0x80
      (v, { s with rtc := Function.update s.rtc 10 v })
  | 12 => (s.rtc 12, { s with rtc := Function.update s.rtc 12 0 })
  | 13 => (0x80, s)
  | i => (s.rtc (i % 64), s)

/-!
## Writing
-/

/-- The fields of the running clock, as they are put under those that are written. -/
def snapshot (m : RtcMode) (t : Tm) (set : Nat -> BitVec 8) : Nat -> BitVec 8
  | 0 => rtcOut m t.sec
  | 2 => rtcOut m t.min
  | 4 => rtcOut m t.hour
  | 7 => rtcOut m t.mday
  | 8 => rtcOut m (t.mon + 1)
  | 9 => rtcOut m (t.year - 68)
  | i => set i

def hourIn (m : RtcMode) (v : BitVec 8) : Int :=
  if m.h24 then rtcIn m (v &&& 0x7F)
  else rtcIn m (v &&& 0x7F) % 12 + (if v &&& 0x80 ≠ 0 then 12 else 0)

def setTm (m : RtcMode) (set : Nat -> BitVec 8) : Tm where
  sec := rtcIn m (set 0)
  min := rtcIn m (set 2)
  hour := hourIn m (set 4)
  mday := rtcIn m (set 7)
  mon := rtcIn m (set 8) - 1
  year := rtcIn m (set 9) + 68

def rtcCommitSet (s : Rtc) : Rtc :=
  let g := mktime zone (setTm s.mode s.set)
  if g ≠ -1 then { s with offset := g - now } else s

def rtcWrite (i : Nat) (v : BitVec 8) (s : Rtc) : Rtc :=
  let i := i % 64
  if i ≤ 9 then
    if i = 0 ∨ i = 2 ∨ i = 4 ∨ i = 6 ∨ i = 7 ∨ i = 8 ∨ i = 9 then
      if s.frozen = false then
        rtcCommitSet zone now
          { s with set := Function.update (snapshot s.mode (rtcNow zone now s) s.set) i v }
      else { s with set := Function.update s.set i v }
    else { s with rtc := Function.update s.rtc i v }
  else if i = 10 then
    { s with rtc := Function.update s.rtc 10 ((s.rtc 10 &&& 0x80) ||| (v &&& 0x7F)) }
  else if i = 11 then
    let set :=
      if v.getLsbD 7 = true ∧ s.frozen = false then snapshot s.mode (rtcNow zone now s) s.set
      else s.set
    let s' : Rtc := { s with rtc := Function.update s.rtc 11 v, set := set }
    if s.frozen = true ∧ v.getLsbD 7 = false then rtcCommitSet zone now s' else s'
  else if i = 12 ∨ i = 13 then s
  else { s with rtc := Function.update s.rtc i v }

/-!
## Setting the clock
-/

/-- The ways of setting the clock: a field at once, a field under SET, and SET alone.  Register B
is written with SET, and written again without it. -/
inductive ClockSetting where
  | atOnce (f : TimeField) (v : BitVec 8)
  | underSet (b : BitVec 8) (f : TimeField) (v : BitVec 8) (b' : BitVec 8)
  | untouched (b b' : BitVec 8)

def withSet (b : BitVec 8) : BitVec 8 := b ||| 0x80

def withoutSet (b : BitVec 8) : BitVec 8 := b &&& 0x7F

def setClock (s : Rtc) : ClockSetting -> Rtc
  | .atOnce f v => rtcWrite zone now f.reg v s
  | .underSet b f v b' =>
      rtcWrite zone now 11 (withoutSet b')
        (rtcWrite zone now f.reg v (rtcWrite zone now 11 (withSet b) s))
  | .untouched b b' =>
      rtcWrite zone now 11 (withoutSet b') (rtcWrite zone now 11 (withSet b) s)

/-- What a field is of a time.  The day of the week follows from the others. -/
def fieldOf (t : Tm) : TimeField -> Int
  | .sec => t.sec
  | .min => t.min
  | .hour => t.hour
  | .wday => 0
  | .mday => t.mday
  | .mon => t.mon
  | .year => t.year

def withField (t : Tm) (n : Int) : TimeField -> Tm
  | .sec => { t with sec := n }
  | .min => { t with min := n }
  | .hour => { t with hour := n }
  | .wday => t
  | .mday => { t with mday := n }
  | .mon => { t with mon := n }
  | .year => { t with year := n }

def OnlyField (f : TimeField) (t t' : Tm) : Prop := forall g, g ≠ f -> fieldOf t' g = fieldOf t g

/-- A setting changes its field alone, which then reads as it was written when register B has
the modes of `r` again.  SET alone leaves the time. -/
def KeepsClock (r : BitVec 8) (s : Rtc) (c : ClockSetting) : Prop :=
  let s' := setClock zone now s c
  let reads (f : TimeField) := (rtcRead zone now f.reg (rtcWrite zone now 11 (withoutSet r) s')).1
  match c with
  | .atOnce f v => OnlyField f (rtcNow zone now s) (rtcNow zone now s') ∧ reads f = v
  | .underSet _ f v _ => OnlyField f (rtcNow zone now s) (rtcNow zone now s') ∧ reads f = v
  | .untouched _ _ => guestTime now s' = guestTime now s

end

end Falcon
end PistormAtari
