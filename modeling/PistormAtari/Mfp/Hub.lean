import PistormAtari.Foundation.BitScan

/-!
# The virtual MFP hub

`mfp_hub.c`: the register shadows, the pending latches and the in-service bits
of the virtual MFP channels.  All 16-bit masks use bit N for channel N; set A
is the high byte, set B the low one.
-/

namespace PistormAtari
namespace Mfp

open Foundation

abbrev Byte := BitVec 8
abbrev Mask := BitVec 16
abbrev Long := BitVec 32

/-- The globals of `mfp_hub.c`.  `level ch` is the level source registered for
a channel with the current state of its line; an event channel has none. -/
structure Hub where
  ier : Mask
  imr : Mask
  vpend : Mask
  visr : Mask
  vr : Byte
  tacr : Byte
  tadr : Long
  tacnt : Long
  level : Fin 16 -> Option Bool
  iacks : Fin 16 -> Long

/-- The boot defaults: everything enabled and unmasked, software EOI. -/
def boot : Hub where
  ier := 0xFFFF
  imr := 0xFFFF
  vpend := 0
  visr := 0
  vr := 0x48
  tacr := 0
  tadr := 256
  tacnt := 256
  level := fun _ => none
  iacks := fun _ => 0

/-- `mfp_hub_register_level` with the line its poll function reports, or a
change of that line. -/
def registerLevel (h : Hub) (ch : Int) (poll : Option Bool) : Hub :=
  if hch : 0 ≤ ch ∧ ch < 16 then
    { h with level := Function.update h.level ⟨ch.toNat, by lia⟩ poll }
  else h

/-!
## Guest write snoop
-/

inductive Reg where
  | iera
  | ierb
  | ipra
  | iprb
  | isra
  | isrb
  | imra
  | imrb
  | vr
  | tacr
  | tadr
deriving DecidableEq, Repr

/-- The `switch (a)` of `reg_write`. -/
def regAt (a : Long) : Option Reg :=
  if a = 0x00FFFA07#32 then some Reg.iera
  else if a = 0x00FFFA09#32 then some Reg.ierb
  else if a = 0x00FFFA0B#32 then some Reg.ipra
  else if a = 0x00FFFA0D#32 then some Reg.iprb
  else if a = 0x00FFFA0F#32 then some Reg.isra
  else if a = 0x00FFFA11#32 then some Reg.isrb
  else if a = 0x00FFFA13#32 then some Reg.imra
  else if a = 0x00FFFA15#32 then some Reg.imrb
  else if a = 0x00FFFA17#32 then some Reg.vr
  else if a = 0x00FFFA19#32 then some Reg.tacr
  else if a = 0x00FFFA1F#32 then some Reg.tadr
  else none

def withA (m : Mask) (b : Byte) : Mask :=
  (m &&& 0x00FF) ||| (b.setWidth 16 <<< 8)

def withB (m : Mask) (b : Byte) : Mask :=
  (m &&& 0xFF00) ||| b.setWidth 16

def regWrite (h : Hub) (r : Reg) (b : Byte) : Hub :=
  match r with
  | Reg.iera => { h with ier := withA h.ier b, vpend := h.vpend &&& withA h.ier b }
  | Reg.ierb => { h with ier := withB h.ier b, vpend := h.vpend &&& withB h.ier b }
  | Reg.ipra => { h with vpend := h.vpend &&& ((b.setWidth 16 <<< 8) ||| 0x00FF) }
  | Reg.iprb => { h with vpend := h.vpend &&& (0xFF00 ||| b.setWidth 16) }
  | Reg.isra => { h with visr := h.visr &&& ((b.setWidth 16 <<< 8) ||| 0x00FF) }
  | Reg.isrb => { h with visr := h.visr &&& (0xFF00 ||| b.setWidth 16) }
  | Reg.imra => { h with imr := withA h.imr b }
  | Reg.imrb => { h with imr := withB h.imr b }
  | Reg.vr => { h with vr := b, visr := if b &&& 0x08 = 0 then 0 else h.visr }
  | Reg.tacr => { h with tacr := b &&& 0x0F, tacnt := h.tadr }
  | Reg.tadr =>
      let count : Long := if b = 0 then 256 else b.setWidth 32
      { h with tadr := count, tacnt := count }

def writeSnoop (h : Hub) (addr value : Long) (isWord : Bool) : Hub :=
  let a := addr &&& 0x00FFFFFF#32
  if a < 0x00FFFA00#32 ∨ a > 0x00FFFA2F#32 then h
  else
    match regAt (if isWord then a ||| 1 else a) with
    | some r => regWrite h r (value.setWidth 8)
    | none => h

/-!
## The pending picture
-/

/-- `pending_now`: the latches and the asserting level lines, where enabled. -/
def pendingNow (h : Hub) : Mask :=
  (List.finRange 16).foldl
    (fun pend ch =>
      if h.level ch = some true then pend ||| (1#16 <<< ch.val) else pend)
    h.vpend &&& h.ier

/-!
## Sources
-/

def raise (h : Hub) (ch : Int) : Hub :=
  if ch < 0 ∨ ch > 15 then h
  else
    let bit := 1#16 <<< ch.toNat
    if h.ier &&& bit ≠ 0 then { h with vpend := h.vpend ||| bit } else h

def timerAEvent (h : Hub) : Hub :=
  if h.tacr ≠ 8 then h
  else if h.tacnt ≤ 1 then raise { h with tacnt := h.tadr } 13
  else { h with tacnt := h.tacnt - 1 }

/-!
## Arbitration
-/

/-- `(uint16_t)~((1u << (top + 1)) - 1u)`: the channels strictly above `top`. -/
def aboveMask (top : Nat) : Mask :=
  (~~~((1#32 <<< (top + 1)) - 1#32)).setWidth 16

def deliverable (h : Hub) : Mask :=
  let pend := pendingNow h &&& h.imr
  if pend = 0 then 0
  else
    match scanDown h.visr 16 with
    | some top => pend &&& aboveMask top
    | none => pend

def irqWanted (h : Hub) : Bool :=
  deliverable h != 0

def topWanted (h : Hub) : Int :=
  match scanDown (deliverable h) 16 with
  | some ch => ch
  | none => -1

/-- `mfp_hub_iack`: the vector, or -1 when nothing is deliverable, and the hub
after it.  The keyboard's `kbd_usb_note_iack` call-back is the caller's next
level change. -/
def iack (h : Hub) : Int × Hub :=
  match scanDown (deliverable h) 16 with
  | none => (-1, h)
  | some ch =>
      let bit := 1#16 <<< ch
      ((((h.vr &&& 0xF0).setWidth 32 ||| BitVec.ofNat 32 ch).toNat : Int),
        { h with
          vpend := h.vpend &&& ~~~bit
          iacks := Function.update h.iacks (Fin.ofNat 16 ch)
            (h.iacks (Fin.ofNat 16 ch) + 1)
          visr := if h.vr &&& 0x08 ≠ 0 then h.visr ||| bit else h.visr })

/-- `mfp_hub_reset`; the level registrations and the IACK counts stay. -/
def reset (h : Hub) : Hub :=
  { h with
    vpend := 0, visr := 0, ier := 0xFFFF, imr := 0xFFFF, vr := 0x48,
    tacr := 0, tadr := 256, tacnt := 256 }

/-!
## Operations
-/

inductive Op where
  | writeSnoop (addr value : Long) (isWord : Bool)
  | raise (ch : Int)
  | levelChange (ch : Int) (poll : Option Bool)
  | timerAEvent
  | iack
  | reset
deriving DecidableEq, Repr

def step (h : Hub) : Op -> Hub
  | Op.writeSnoop addr value isWord => writeSnoop h addr value isWord
  | Op.raise ch => raise h ch
  | Op.levelChange ch poll => registerLevel h ch poll
  | Op.timerAEvent => timerAEvent h
  | Op.iack => (iack h).2
  | Op.reset => reset h

end Mfp
end PistormAtari
