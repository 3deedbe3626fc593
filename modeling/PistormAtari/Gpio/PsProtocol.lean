import Mathlib

/-!
# Bus cycles through the GPIO port

An access of the guest is a transaction with the CPLD: the address and the kind of the cycle
are latched, the cycle is waited for, and the sample that ends it carries the status and the
data.  What the board does is a parameter, a function of the state of the hardware.
-/

namespace PistormAtari
namespace Gpio

/-!
## The port
-/

def regData : BitVec 32 := 0x00
def regAddrLo : BitVec 32 := 0x04
def regAddrHi : BitVec 32 := 0x08

def writeWord : BitVec 16 := 0x0000
def readByte : BitVec 16 := 0x0300
def readWord : BitVec 16 := 0x0200

structure Port (σ : Type) where
  /-- `*set` of a phase's value, then `txn_pulse`. -/
  phase : BitVec 32 -> σ -> σ
  /-- The data pins turned round, with the data register selected. -/
  busIn : σ -> σ
  /-- The sample that shows the cycle complete, a stuck cycle being restarted. -/
  finished : σ -> BitVec 32 × σ
  /-- One more sample. -/
  lev : σ -> BitVec 32 × σ
  /-- The end of a read, with the data pins turned back. -/
  busOut : σ -> σ
  /-- `ps_rd_settle`. -/
  settle : Nat

structure PsIo where
  addr : BitVec 32
  data : BitVec 16
  ioType : BitVec 16
  berr : Bool
  fc : BitVec 8

def checkBerr (status : BitVec 32) : Bool := !((status &&& 0x80) >>> 7 != 0)

structure Gpip7 where
  force : Int
  stable : Int
  run : Nat
  glitches : BitVec 32
  reads : BitVec 32

structure PsBus (σ : Type) where
  hw : σ
  gpip : Gpip7

/-!
## The transactions
-/

variable {σ : Type} (port : Port σ)

def addrHi (io : PsIo) : BitVec 32 :=
  ((io.fc.setWidth 32 <<< 13 ||| io.ioType.setWidth 32 ||| io.addr >>> 16) <<< 8) ||| regAddrHi

def addrLo (io : PsIo) : BitVec 32 := ((io.addr &&& 0xFFFF) <<< 8) ||| regAddrLo

def psWriteTxn (io : PsIo) (b : PsBus σ) : PsIo × PsBus σ :=
  let hw := port.phase ((io.data.setWidth 32 <<< 8) ||| regData) b.hw
  let hw := port.phase (addrLo io) hw
  let hw := port.phase (addrHi io) hw
  let (status, hw) := port.finished hw
  ({ io with berr := checkBerr status }, { b with hw := hw })

def ReadsGpip (io : PsIo) : Prop :=
  (io.ioType = readByte ∧ io.addr &&& 0x00FFFFFF = 0x00FFFA01) ∨
    (io.ioType = readWord ∧ io.addr &&& 0x00FFFFFF = 0x00FFFA00)

instance (io : PsIo) : Decidable (ReadsGpip io) := inferInstanceAs (Decidable (_ ∨ _))

def Gpip7.debounce (bit : Int) (g : Gpip7) : Gpip7 :=
  if g.stable < 0 then { g with stable := bit }
  else if bit ≠ g.stable then
    if 4 ≤ g.run + 1 then { g with stable := bit, run := 0 } else { g with run := g.run + 1 }
  else if g.run ≠ 0 then { g with glitches := g.glitches + 1, run := 0 }
  else g

def Gpip7.detect (data : BitVec 16) (g : Gpip7) : BitVec 16 × Gpip7 :=
  if g.force = 1 then (data &&& ~~~0x0080, g)
  else if g.force = 2 then (data ||| 0x0080, g)
  else
    let g := g.debounce (if data &&& 0x0080 ≠ 0 then 1 else 0)
    let g := { g with reads := g.reads + 1 }
    (if g.stable ≠ 0 then data ||| 0x0080 else data &&& ~~~0x0080, g)

def psReadTxn (io : PsIo) (b : PsBus σ) : PsIo × PsBus σ :=
  let hw := port.phase (addrLo io) b.hw
  let hw := port.phase (addrHi io) hw
  let hw := port.busIn hw
  let (status, hw) :=
    (List.range port.settle).foldl (fun r _ => port.lev r.2) (port.finished hw)
  let hw := port.busOut hw
  let io := { io with berr := checkBerr status, data := (status >>> 8).setWidth 16 }
  if ReadsGpip io then
    let (data, gpip) := b.gpip.detect io.data
    ({ io with data := data }, { hw := hw, gpip := gpip })
  else (io, { b with hw := hw })

/-!
## Accesses
-/

/-- The globals of the accesses.  The lock of the bus, which keeps other threads away, is not
modelled. -/
structure Ps (σ : Type) where
  bus : PsBus σ
  fc : BitVec 8
  buserr : BitVec 8
  buserrAddr : BitVec 32

def Ps.report (berr : Bool) (addr : BitVec 32) (p : Ps σ) : Ps σ :=
  if berr then { p with buserr := 1, buserrAddr := addr } else p

def Ps.withBus (p : Ps σ) (bus : PsBus σ) : Ps σ := { p with bus := bus }

def wordIo (addr : BitVec 32) (data ioType : BitVec 16) (fc : BitVec 8) : PsIo where
  addr := addr
  data := data
  ioType := ioType
  berr := false
  fc := fc

def psWrite16 (addr : BitVec 32) (data : BitVec 16) (p : Ps σ) : Ps σ :=
  let (io, bus) := psWriteTxn port (wordIo addr data writeWord p.fc) p.bus
  (p.withBus bus).report io.berr addr

def psWrite32 (addr data : BitVec 32) (p : Ps σ) : Ps σ :=
  let txn := wordIo addr ((data >>> 16).setWidth 16) writeWord p.fc
  let (txn, bus) := psWriteTxn port txn p.bus
  let txn := { txn with data := data.setWidth 16, addr := addr + 2 }
  let (txn, bus) := psWriteTxn port txn bus
  (p.withBus bus).report txn.berr (addr + 2)

def psRead16 (addr : BitVec 32) (p : Ps σ) : BitVec 16 × Ps σ :=
  let (io, bus) := psReadTxn port (wordIo addr 0 readWord p.fc) p.bus
  (io.data, (p.withBus bus).report io.berr addr)

def psRead32 (addr : BitVec 32) (p : Ps σ) : BitVec 32 × Ps σ :=
  let txn := wordIo addr 0 readWord p.fc
  let (txn, bus) := psReadTxn port txn p.bus
  let hiData := txn.data
  let txn := { txn with addr := addr + 2 }
  let (txn, bus) := psReadTxn port txn bus
  (hiData.setWidth 32 <<< 16 ||| txn.data.setWidth 32,
    (p.withBus bus).report txn.berr (addr + 2))

/-!
## A long as two words
-/

def wordsRead (addr : BitVec 32) (p : Ps σ) : BitVec 32 × Ps σ :=
  let (hi, p) := psRead16 port addr p
  let (lo, p) := psRead16 port (addr + 2) p
  (hi.setWidth 32 <<< 16 ||| lo.setWidth 32, p)

def wordsWrite (addr data : BitVec 32) (p : Ps σ) : Ps σ :=
  psWrite16 port (addr + 2) (data.setWidth 16) (psWrite16 port addr ((data >>> 16).setWidth 16) p)

/-- The outcomes of the two cycles of a long that is read: a bus error or none. -/
def readOutcomes (addr : BitVec 32) (p : Ps σ) : Bool × Bool :=
  let (hi, bus) := psReadTxn port (wordIo addr 0 readWord p.fc) p.bus
  let (lo, _) := psReadTxn port (wordIo (addr + 2) 0 readWord p.fc) bus
  (hi.berr, lo.berr)

def writeOutcomes (addr data : BitVec 32) (p : Ps σ) : Bool × Bool :=
  let (hi, bus) :=
    psWriteTxn port (wordIo addr ((data >>> 16).setWidth 16) writeWord p.fc) p.bus
  let (lo, _) := psWriteTxn port (wordIo (addr + 2) (data.setWidth 16) writeWord p.fc) bus
  (hi.berr, lo.berr)

/-- The first half has a bus error, the second has none, and the report of the first would
have changed the globals. -/
def Swallowed (outcomes : Bool × Bool) (addr : BitVec 32) (p : Ps σ) : Prop :=
  outcomes = (true, false) ∧ ¬ (p.buserr = 1 ∧ p.buserrAddr = addr)

theorem report_twice_iff (first second : Bool) (addr : BitVec 32) (p : Ps σ) :
    p.report second (addr + 2) = (p.report first addr).report second (addr + 2) <->
      ¬ Swallowed (first, second) addr p := by
  unfold Swallowed
  cases second with
  | true =>
      cases first with
      | true => exact ⟨fun _ h => (by cases h.1), fun _ => rfl⟩
      | false => exact ⟨fun _ h => (by cases h.1), fun _ => rfl⟩
  | false =>
      cases first with
      | false => exact ⟨fun _ h => (by cases h.1), fun _ => rfl⟩
      | true =>
          obtain ⟨bus, fc, buserr, buserrAddr⟩ := p
          unfold Ps.report
          simp

@[simp] theorem report_bus (berr : Bool) (addr : BitVec 32) (p : Ps σ) :
    (p.report berr addr).bus = p.bus := by
  cases berr <;> rfl

@[simp] theorem report_fc (berr : Bool) (addr : BitVec 32) (p : Ps σ) :
    (p.report berr addr).fc = p.fc := by
  cases berr <;> rfl

theorem report_withBus (berr : Bool) (addr : BitVec 32) (p : Ps σ) (old bus : PsBus σ) :
    ((p.withBus old).report berr addr).withBus bus = (p.withBus bus).report berr addr := by
  cases berr <;> rfl

theorem psReadTxn_congr {io io' : PsIo} (haddr : io.addr = io'.addr)
    (htype : io.ioType = io'.ioType) (hfc : io.fc = io'.fc) (b : PsBus σ) :
    psReadTxn port io b = psReadTxn port io' b := by
  cases io
  cases io'
  cases haddr
  cases htype
  cases hfc
  rfl

theorem psReadTxn_io (io : PsIo) (b : PsBus σ) :
    (psReadTxn port io b).1.addr = io.addr ∧ (psReadTxn port io b).1.ioType = io.ioType ∧
      (psReadTxn port io b).1.fc = io.fc := by
  unfold psReadTxn
  dsimp only
  split <;> exact ⟨rfl, rfl, rfl⟩

theorem long_read (addr : BitVec 32) (p : Ps σ) :
    exists (data : BitVec 32) (bus : PsBus σ),
      psRead32 port addr p =
          (data, (p.withBus bus).report (readOutcomes port addr p).2 (addr + 2)) ∧
        wordsRead port addr p =
          (data, ((p.withBus bus).report (readOutcomes port addr p).1 addr).report
            (readOutcomes port addr p).2 (addr + 2)) := by
  have hio := psReadTxn_io port (wordIo addr 0 readWord p.fc) p.bus
  unfold psRead32 wordsRead psRead16 readOutcomes
  dsimp only
  simp only [report_bus, report_fc, report_withBus]
  cases hfirst : psReadTxn port (wordIo addr 0 readWord p.fc) p.bus with
  | mk hi bus =>
      rw [hfirst] at hio
      have hsame : psReadTxn port { hi with addr := addr + 2 } bus =
          psReadTxn port (wordIo (addr + 2) 0 readWord p.fc) bus := by
        apply psReadTxn_congr
        · rfl
        · exact hio.2.1
        · exact hio.2.2
      dsimp only
      rw [hsame]
      exact ⟨_, _, rfl, rfl⟩

theorem long_write (addr data : BitVec 32) (p : Ps σ) :
    exists bus : PsBus σ,
      psWrite32 port addr data p =
          (p.withBus bus).report (writeOutcomes port addr data p).2 (addr + 2) ∧
        wordsWrite port addr data p =
          ((p.withBus bus).report (writeOutcomes port addr data p).1 addr).report
            (writeOutcomes port addr data p).2 (addr + 2) := by
  refine ⟨_, rfl, ?_⟩
  unfold wordsWrite psWrite16 writeOutcomes
  simp only [report_bus, report_fc, report_withBus]
  rfl

theorem psRead32_iff (addr : BitVec 32) (p : Ps σ) :
    psRead32 port addr p = wordsRead port addr p <->
      ¬ Swallowed (readOutcomes port addr p) addr p := by
  obtain ⟨value, bus, hlong, hwords⟩ := long_read port addr p
  rw [hlong, hwords, Prod.mk.injEq]
  exact (and_iff_right rfl).trans (report_twice_iff _ _ addr (p.withBus bus))

theorem psWrite32_iff (addr data : BitVec 32) (p : Ps σ) :
    psWrite32 port addr data p = wordsWrite port addr data p <->
      ¬ Swallowed (writeOutcomes port addr data p) addr p := by
  obtain ⟨bus, hlong, hwords⟩ := long_write port addr data p
  rw [hlong, hwords]
  exact report_twice_iff _ _ addr (p.withBus bus)

/-- A long access is two word accesses just if no bus error of its first half is swallowed. -/
theorem long_access_iff (addr data : BitVec 32) (p : Ps σ) :
    (psRead32 port addr p = wordsRead port addr p <->
        ¬ Swallowed (readOutcomes port addr p) addr p) ∧
      (psWrite32 port addr data p = wordsWrite port addr data p <->
        ¬ Swallowed (writeOutcomes port addr data p) addr p) :=
  ⟨psRead32_iff port addr p, psWrite32_iff port addr data p⟩

/-- A board on which the first cycle ends in a bus error and the others do not. -/
def edgeOfRom : Port Nat where
  phase := fun _ n => n
  busIn := id
  finished := fun n => (if n = 0 then 0x00 else 0x80, n + 1)
  lev := fun n => (0x80, n)
  busOut := id
  settle := 0

/-- A long read just below the ROM loses the bus error of its first half. -/
theorem not_long_access :
    ¬ forall p : Ps Nat, psRead32 edgeOfRom 0x00FBFFFE p = wordsRead edgeOfRom 0x00FBFFFE p := by
  intro hsame
  have hboth := hsame ⟨⟨0, ⟨0, 1, 0, 0, 0⟩⟩, 5, 0, 0⟩
  have hflag := congrArg (fun r => r.2.buserr) hboth
  exact absurd hflag (by decide)

end Gpio
end PistormAtari
