import Mathlib
import PistormAtari.Foundation.GapRing
import PistormAtari.Foundation.Run
import PistormAtari.Ikbd.CommandFraming
import PistormAtari.Mfp.StboxMfp

/-!
# The keyboard of the STBOX

The keyboard processor puts its packets byte by byte into a ring, and {lit}`acia_pump`
presents one byte of it at a time in the receive register, at the pace of the serial line.
The time a byte is due is kept in 32 bits while the cycle counter has 64.
-/

namespace PistormAtari
namespace Stbox

open Foundation
open Mfp

/-- There are two ports. -/
local instance keyboardPorts : NeZero 2 := ⟨by decide⟩

def stjoyFire : Byte := 0x80

def ikbdByteCyc : Nat := 10267

def ikbdResetWindowCyc : Nat := 502000

/-- The `acia` structure of `stbox.c` without the control register and the joypad column,
which the keyboard does not read. -/
structure Acia where
  rx : Byte
  sr : Byte
  fifo : GapRing 8 Byte
  nextRxCyc : BitVec 32
  command : Ikbd.Acia
  mouseButtons : Byte
  mouseMode : Byte
  joyEvent : Bool
  resetCyc : Nat
  mouseTouched : Bool
  both : Bool
  mouseOffCmd : Bool
  joyOffCmd : Bool
  joy : Fin 2 -> Byte
  pad : Fin 2 -> Byte
  joySent : Fin 2 -> Byte
  joyRbutton : Byte

def coldAcia : Acia where
  rx := 0
  sr := 0x02
  fifo := { slot := fun _ => 0, head := 0, tail := 0 }
  nextRxCyc := 0
  command := Ikbd.aciaReset
  mouseButtons := 0
  mouseMode := 0
  joyEvent := true
  resetCyc := 0
  mouseTouched := false
  both := false
  mouseOffCmd := false
  joyOffCmd := false
  joy := fun _ => 0
  pad := fun _ => 0
  joySent := fun _ => 0
  joyRbutton := 0

/-!
## Packets to the guest
-/

def ikbdTx (a : Acia) (b : Byte) : Acia := { a with fifo := a.fifo.push b }

def sendPacket (a : Acia) (packet : List Byte) : Acia := packet.foldl ikbdTx a

def Acia.fireButton (a : Acia) : Byte :=
  if a.mouseMode ≠ 3 ∧ a.joy 1 &&& stjoyFire ≠ 0 then 1 else 0

def joyButton (a : Acia) : Acia :=
  if a.fireButton ≠ a.joyRbutton then
    let a' := { a with joyRbutton := a.fireButton }
    if a'.mouseMode = 0 then
      sendPacket a' [0xF8 ||| (a.mouseButtons &&& 3) ||| a.fireButton, 0, 0]
    else a'
  else a

def Acia.joyState (a : Acia) (port : Fin 2) : Byte :=
  if port = 1 ∧ a.mouseMode ≠ 3 then a.joy port &&& ~~~stjoyFire else a.joy port

def joyReport (a : Acia) (port : Fin 2) : Acia :=
  if a.joyEvent = false then a
  else if port = 0 ∧ a.mouseMode ≠ 3 ∧ a.both = false then a
  else if a.joyState port = a.joySent port then a
  else
    sendPacket { a with joySent := Function.update a.joySent port (a.joyState port) }
      [0xFE + BitVec.ofNat 8 port.val, a.joyState port]

def joyEmit (a : Acia) (port : Fin 2) : Acia :=
  if port = 1 then joyReport (joyButton a) port else joyReport a port

def joyResend (a : Acia) : Acia := joyEmit (joyEmit a 1) 0

inductive Answer where
  | silent
  | resend
  | packet (bytes : List Byte)
deriving DecidableEq, Repr

/-- The cases of `ikbd_command`: the modes a command sets, and what it answers. -/
def commandCase (total : Nat) (a : Acia) (cmd : List Byte) : Acia × Answer :=
  let inWin := decide (total - a.resetCyc < ikbdResetWindowCyc)
  match cmd.getD 0 0 with
  | 0x08#8 => ({ a with mouseMode := 0, mouseTouched := a.mouseTouched || inWin }, .resend)
  | 0x09#8 => ({ a with mouseMode := 1 }, .silent)
  | 0x0A#8 => ({ a with mouseMode := 2 }, .silent)
  | 0x12#8 =>
      let a := { a with mouseMode := 3, mouseOffCmd := true, mouseTouched := a.mouseTouched || inWin }
      (if inWin ∧ a.joyOffCmd then { a with mouseMode := 0, joyEvent := true, both := true } else a,
        .resend)
  | 0x14#8 =>
      let a := { a with joyEvent := true, joySent := fun _ => 0 }
      (if inWin ∧ a.mouseTouched then { a with mouseMode := 0, both := true }
        else { a with mouseMode := 3 }, .resend)
  | 0x15#8 => ({ a with joyEvent := false }, .silent)
  | 0x1A#8 =>
      let a := { a with joyEvent := false, joyOffCmd := true }
      (if inWin ∧ a.mouseOffCmd then { a with mouseMode := 0, joyEvent := true, both := true } else a,
        .silent)
  | 0x80#8 =>
      if cmd.getD 1 0 = 0x01 then
        ({ a with
            fifo := a.fifo.clear
            mouseButtons := 0
            mouseMode := 0
            joyEvent := true
            resetCyc := total
            mouseTouched := false
            both := false
            mouseOffCmd := false
            joyOffCmd := false
            joySent := fun _ => 0 }, .packet [0xF1])
      else (a, .silent)
  | 0x0D#8 => (a, .packet [0xF7, 0, 0, 0, 0])
  | 0x16#8 => (a, .packet [0xFD, a.joy 0, a.joy 1])
  | 0x1C#8 => (a, .packet [0xFC, 0, 0, 0, 0, 0, 0])
  | _ => (a, .silent)

def ikbdCommand (total : Nat) (a : Acia) (cmd : List Byte) : Acia :=
  match commandCase total a cmd with
  | (a, .silent) => a
  | (a, .resend) => joyResend a
  | (a, .packet bytes) => sendPacket a bytes

def ikbdRx (total : Nat) (a : Acia) (b : Byte) : Acia :=
  match Ikbd.ikbdCommands a.command b with
  | [] => { a with command := Ikbd.ikbdRx a.command b }
  | cmd :: _ => { ikbdCommand total a cmd with command := Ikbd.ikbdRx a.command b }

def inputDrain (a : Acia) (v : BitVec 32) : Acia :=
  let x : Byte := (v >>> 16).setWidth 8
  let y : Byte := (v >>> 8).setWidth 8
  let z : Byte := v.setWidth 8
  match ((v >>> 24).setWidth 8 : Byte) with
  | 0#8 => sendPacket a [x]
  | 1#8 =>
      let a := { a with mouseButtons := z &&& 3 }
      if a.mouseMode = 0 then sendPacket a [0xF8 ||| (z &&& 3) ||| a.joyRbutton, x, y] else a
  | 2#8 =>
      let port : Fin 2 := if x &&& 1 = 0 then 0 else 1
      joyEmit { a with joy := Function.update a.joy port y, pad := Function.update a.pad port z } port
  | 3#8 => sendPacket a [x]
  | _ => a

/-!
## The serial line
-/

/-- The keyboard, the MFP that its bytes interrupt, and the cycle counter.  The counter is a
natural number: its 64 bits do not wrap in the life of a machine. -/
structure Keyboard where
  acia : Acia
  mfp : StMfp
  total : Nat

/-- The keyboard after `machine_cold_reset`, with which a run begins. -/
def coldKeyboard : Keyboard where
  acia := coldAcia
  mfp := coldReset
  total := 0

/-- `acia_pump` presents a byte: the receive register is empty, the ring is not, and the
byte is due. -/
def Keyboard.presents (k : Keyboard) : Prop :=
  k.acia.sr &&& 0x01 = 0 ∧ k.acia.fifo.head ≠ k.acia.fifo.tail ∧ k.acia.nextRxCyc.toNat ≤ k.total

instance (k : Keyboard) : Decidable k.presents :=
  inferInstanceAs (Decidable (_ ∧ _ ∧ _))

def aciaPump (k : Keyboard) : Keyboard :=
  if k.presents then
    { k with
      acia :=
        { k.acia with
          rx := k.acia.fifo.front
          fifo := k.acia.fifo.pop
          sr := k.acia.sr ||| 0x81
          nextRxCyc := BitVec.ofNat 32 k.total + BitVec.ofNat 32 ikbdByteCyc }
      mfp := mfpRaise { k.mfp with gpip := k.mfp.gpip &&& ~~~0x10 } MFP_CH_ACIA }
  else k

def readData (k : Keyboard) : Keyboard :=
  { k with
    acia := { k.acia with sr := k.acia.sr &&& ~~~0x81 }
    mfp := { k.mfp with gpip := k.mfp.gpip ||| 0x10 } }

/-- What reaches the keyboard: an entry of the input ring, the pump, the guest's accesses to
the data register, guest time, and whatever else writes to the MFP. -/
inductive KeyOp where
  | drain (v : BitVec 32)
  | pump
  | read
  | write (b : Byte)
  | ran (cycles : BitVec 32)
  | mfp (m : StMfp)
deriving DecidableEq, Repr

def keyStep (k : Keyboard) : KeyOp -> Keyboard
  | .drain v => { k with acia := inputDrain k.acia v }
  | .pump => aciaPump k
  | .read => readData k
  | .write b => { k with acia := ikbdRx k.total k.acia b }
  | .ran cycles => { k with total := k.total + cycles.toNat }
  | .mfp m => { k with mfp := m }

end Stbox
end PistormAtari
