import Mathlib
import PistormAtari.Foundation.Run

/-!
# The network window

The state of `pistorm_net.c` and what its functions do to it.  Every function
holds the lock while it looks at the state or changes it, so a step of a run is
what one of them does under one hold of the lock: `pistorm_net_init` is a
shutdown, a configuration and, with a backend, a link; a transmission is a start
and an end with the backend's answer.
-/

namespace PistormAtari
namespace Network

abbrev Word32 := BitVec 32

def defaultBase : Word32 := 0x00F10000
def frameMax : Nat := 1514
def netId : Word32 := 0x504E4554
def netVersion : Word32 := 1

def regId : Word32 := 0x000
def regVersion : Word32 := 0x004
def regStatus : Word32 := 0x008
def regIrq : Word32 := 0x00C
def regMacHi : Word32 := 0x010
def regMacLo : Word32 := 0x014
def regMtu : Word32 := 0x018
def regTxLen : Word32 := 0x020
def regTxKick : Word32 := 0x024
def regRxLen : Word32 := 0x028
def regRxPop : Word32 := 0x02C
def txData : Word32 := 0x100
def rxData : Word32 := 0x800

def statusEnabled : Word32 := 1
def statusLinkUp : Word32 := 2
def statusRxReady : Word32 := 4
def statusTxBusy : Word32 := 8
def statusRxDrop : Word32 := 16

structure Mac where
  b0 : UInt8
  b1 : UInt8
  b2 : UInt8
  b3 : UInt8
  b4 : UInt8
  b5 : UInt8
deriving DecidableEq, Repr

structure NetState where
  enabled : Bool
  linkUp : Bool
  txBusy : Bool
  rxReady : Bool
  rxDropped : Bool
  base : Word32
  irqStatus : Word32
  txLen : Word32
  rxLen : Word32
  rxPackets : Word32
  txPackets : Word32
  rxDrops : Word32
  txErrors : Word32
  mac : Mac
  txFrame : List UInt8
  rxFrame : List UInt8
deriving DecidableEq, Repr

def gNet : NetState where
  enabled := false
  linkUp := false
  txBusy := false
  rxReady := false
  rxDropped := false
  base := defaultBase
  irqStatus := 0
  txLen := 0
  rxLen := 0
  rxPackets := 0
  txPackets := 0
  rxDrops := 0
  txErrors := 0
  mac := ⟨0x52, 0x54, 0x50, 0x4E, 0x45, 0x54⟩
  txFrame := List.replicate frameMax 0
  rxFrame := List.replicate frameMax 0

/-!
## Bytes
-/

def memcpy (buf src : List UInt8) : List UInt8 :=
  src ++ buf.drop src.length

def pnetLoadBe (src : List UInt8) : Word32 :=
  src.foldl (fun value b => value <<< 8 ||| b.toBitVec.setWidth 32) 0

def pnetStoreBe (value : Word32) (size : Nat) : List UInt8 :=
  (List.range size).map (fun i => UInt8.ofBitVec ((value >>> ((size - 1 - i) * 8)).setWidth 8))

def storeAt (buf : List UInt8) (at_ : Nat) (src : List UInt8) : List UInt8 :=
  buf.take at_ ++ memcpy (buf.drop at_) src

/-!
## The backend's side
-/

def Legal (frame : List UInt8) : Prop := 0 < frame.length ∧ frame.length ≤ frameMax

instance (frame : List UInt8) : Decidable (Legal frame) := inferInstanceAs (Decidable (_ ∧ _))

def pnetBackendRx (frame : List UInt8) (n : NetState) : NetState :=
  if ¬ Legal frame then n
  else if n.enabled = false then n
  else if n.rxReady then { n with rxDropped := true, rxDrops := n.rxDrops + 1 }
  else
    { n with
      rxFrame := memcpy n.rxFrame frame
      rxLen := BitVec.ofNat 32 frame.length
      rxReady := true
      irqStatus := n.irqStatus ||| 1
      rxPackets := n.rxPackets + 1 }

structure NetConfig where
  enabled : Bool
  base : Word32
  mac : Mac
deriving DecidableEq, Repr

def pistormNetShutdown (n : NetState) : NetState :=
  { n with enabled := false, linkUp := false, rxReady := false, txBusy := false }

def pistormNetConfigure (config : NetConfig) (n : NetState) : NetState :=
  { n with
    enabled := config.enabled
    base := if config.base = 0 then defaultBase else config.base
    mac := if config.mac = ⟨0, 0, 0, 0, 0, 0⟩ then n.mac else config.mac
    linkUp := false
    rxReady := false
    rxDropped := false
    txBusy := false
    txLen := 0
    rxLen := 0
    irqStatus := 0 }

def pistormNetLinked (n : NetState) : NetState := { n with linkUp := true }

def pistormNetReset (n : NetState) : NetState :=
  { n with
    rxReady := false, rxDropped := false, txBusy := false, txLen := 0, rxLen := 0
    irqStatus := 0 }

/-!
## Native features
-/

def pistormNetRxPendingMask (n : NetState) : Word32 :=
  if n.enabled && n.rxReady then 1 else 0

def pistormNetRxLength (n : NetState) : Word32 :=
  if n.enabled && n.rxReady then n.rxLen else 0

def pistormNetReadFrame (n : NetState) (maxLen : Word32) : List UInt8 :=
  if maxLen = 0 then []
  else if n.enabled = false ∨ n.rxReady = false then []
  else n.rxFrame.take (if n.rxLen > maxLen then maxLen else n.rxLen).toNat

def pistormNetAckRx (mask : Word32) (n : NetState) : NetState :=
  if mask &&& 1 ≠ 0 then
    { n with rxReady := false, rxLen := 0, irqStatus := n.irqStatus &&& ~~~1 }
  else n

def pistormNetWriteFrame (frame : List UInt8) (n : NetState) : NetState :=
  if ¬ Legal frame then n
  else if n.enabled = false then n
  else { n with txBusy := true }

def pnetSendTxFrame (n : NetState) : NetState :=
  if n.enabled = false ∨ n.txLen = 0 ∨ n.txLen.toNat > frameMax then
    { n with txErrors := n.txErrors + 1 }
  else { n with txBusy := true }

def transmitted (ok : Bool) (n : NetState) : NetState :=
  if ok then { n with txBusy := false, txPackets := n.txPackets + 1 }
  else { n with txBusy := false, txErrors := n.txErrors + 1 }

/-!
## The window
-/

def flag (b : Bool) (bit : Word32) : Word32 := if b then bit else 0

def pnetStatusLocked (n : NetState) : Word32 :=
  flag n.enabled statusEnabled ||| flag n.linkUp statusLinkUp ||| flag n.rxReady statusRxReady |||
    flag n.txBusy statusTxBusy ||| flag n.rxDropped statusRxDrop

def pnetReadRegLocked (n : NetState) (offset : Word32) : Word32 :=
  if offset = regId then netId
  else if offset = regVersion then netVersion
  else if offset = regStatus then pnetStatusLocked n
  else if offset = regIrq then n.irqStatus
  else if offset = regMacHi then pnetLoadBe [n.mac.b0, n.mac.b1, n.mac.b2, n.mac.b3]
  else if offset = regMacLo then pnetLoadBe [n.mac.b4, n.mac.b5, 0, 0]
  else if offset = regMtu then 1500
  else if offset = regTxLen then n.txLen
  else if offset = regRxLen then (if n.rxReady then n.rxLen else 0)
  else 0

def windowOffset (n : NetState) (address : Word32) : Word32 :=
  (address &&& 0x00FFFFFF) - (n.base &&& 0x00FFFFFF)

def legalSize (size : Word32) : Prop := size = 1 ∨ size = 2 ∨ size = 4

instance (size : Word32) : Decidable (legalSize size) := inferInstanceAs (Decidable (_ ∨ _))

def inBuffer (data offset size : Word32) : Prop :=
  data ≤ offset ∧ offset + size ≤ data + BitVec.ofNat 32 frameMax

instance (data offset size : Word32) : Decidable (inBuffer data offset size) :=
  inferInstanceAs (Decidable (_ ∧ _))

def pistormNetRead (n : NetState) (address size : Word32) : Word32 :=
  let offset := windowOffset n address
  let aligned := offset &&& ~~~3
  if ¬ legalSize size then 0
  else if inBuffer rxData offset size then
    let frameOff := offset - rxData
    if n.rxReady = true ∧ frameOff + size ≤ n.rxLen then
      pnetLoadBe ((n.rxFrame.drop frameOff.toNat).take size.toNat)
    else 0
  else if aligned < txData then
    let reg := pnetReadRegLocked n aligned
    let byteShift := (3 - (offset &&& 3)) * 8
    if size = 4 then reg
    else if size = 2 then (reg >>> (byteShift &&& 16).toNat) &&& 0xFFFF
    else (reg >>> byteShift.toNat) &&& 0xFF
  else 0

def pnetWriteRegLocked (offset value : Word32) (n : NetState) : NetState :=
  if offset = regIrq then { n with irqStatus := n.irqStatus &&& ~~~value }
  else if offset = regTxLen then
    if value.toNat ≤ frameMax then { n with txLen := value }
    else { n with txErrors := n.txErrors + 1 }
  else if offset = regRxPop then
    if value ≠ 0 then
      { n with
        rxReady := false, rxLen := 0, rxDropped := false
        irqStatus := n.irqStatus &&& ~~~1 }
    else n
  else n

/-- `pistorm_net_write` up to the transmission that a write of `TX_KICK` begins. -/
def pistormNetWrite (address value size : Word32) (n : NetState) : NetState :=
  let offset := windowOffset n address
  let aligned := offset &&& ~~~3
  if ¬ legalSize size then n
  else if inBuffer txData offset size then
    { n with
      txFrame := storeAt n.txFrame (offset - txData).toNat (pnetStoreBe value size.toNat) }
  else if aligned < txData then
    if aligned = regTxKick ∧ value ≠ 0 then n
    else if size = 4 then pnetWriteRegLocked aligned value n
    else n
  else n

/-!
## Runs
-/

inductive NetOp where
  | rx (frame : List UInt8)
  | read (address size : Word32)
  | write (address value size : Word32)
  | sendTx
  | readFrame (maxLen : Word32)
  | rxLength
  | rxPendingMask
  | ackRx (mask : Word32)
  | writeFrame (frame : List UInt8)
  | transmitted (ok : Bool)
  | reset
  | shutdown
  | configure (config : NetConfig)
  | linked
deriving DecidableEq, Repr

def netStep (n : NetState) : NetOp -> NetState
  | .rx frame => pnetBackendRx frame n
  | .read _ _ => n
  | .write address value size => pistormNetWrite address value size n
  | .sendTx => pnetSendTxFrame n
  | .readFrame _ => n
  | .rxLength => n
  | .rxPendingMask => n
  | .ackRx mask => pistormNetAckRx mask n
  | .writeFrame frame => pistormNetWriteFrame frame n
  | .transmitted ok => transmitted ok n
  | .reset => pistormNetReset n
  | .shutdown => pistormNetShutdown n
  | .configure config => pistormNetConfigure config n
  | .linked => pistormNetLinked n

end Network
end PistormAtari
