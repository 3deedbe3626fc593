import PistormAtari.Foundation.PacketRing
import PistormAtari.Ikbd.RawDivert

/-!
# The merged receive stream

The guest reads one ACIA, whose bytes come from the real keyboard and from the ring
of injected packets.  A packet starts only when the real stream has been quiet,
and once it has started its bytes go ahead of real ones, but only from the moment
each of them is due.
-/

namespace PistormAtari
namespace Ikbd

open Foundation

def IKBD_BYTE_US : Nat := 1280
def REAL_QUIET_US : Nat := 2560
def INJ_GRACE_US : Nat := 100
def RING_SIZE : Nat := 1024

/-- The ring with its reader, the grace clock of its head, the byte kept back for
the main guest (`raw_main_pending`) and the divert.  Times are microseconds of a
clock that does not wrap. -/
structure Merge where
  ring : List (BitVec 8 × Bool)
  ringHead : BitVec 32
  inPacket : Bool
  nextReadyUs : Nat
  realQuietUs : Nat
  injSeenHead : BitVec 32
  injReadyAt : Nat
  injIacked : Bool
  rawMainPending : Option (BitVec 8)
  raw : RawDivert

def Merge.initial : Merge where
  ring := []
  ringHead := 0
  inPacket := false
  nextReadyUs := 0
  realQuietUs := 0
  injSeenHead := BitVec.allOnes 32
  injReadyAt := 0
  injIacked := false
  rawMainPending := none
  raw := RawDivert.initial

def ringHasRoom (m : Merge) (bytes : List (BitVec 8)) : Bool :=
  !(RING_SIZE - 1 - m.ring.length < bytes.length)

def ringPushPacket (m : Merge) (bytes : List (BitVec 8)) : Merge :=
  if ringHasRoom m bytes then { m with ring := m.ring ++ marked bytes } else m

def ringFlush (m : Merge) : Merge :=
  { m with ring := [], ringHead := m.ringHead + BitVec.ofNat 32 m.ring.length, inPacket := false }

/-!
## The byte at the head
-/

def rxPriorityLevel (m : Merge) (now : Nat) : Bool :=
  m.inPacket && !m.ring.isEmpty && decide (now ≥ m.nextReadyUs)

def rxReadyLevel (m : Merge) (now : Nat) : Bool :=
  !m.ring.isEmpty && decide (now ≥ m.nextReadyUs) &&
    (m.inPacket || decide (now ≥ m.realQuietUs))

def headClock (m : Merge) (now : Nat) : Merge :=
  if m.ringHead ≠ m.injSeenHead then
    { m with injSeenHead := m.ringHead, injReadyAt := now, injIacked := false }
  else m

def headVisible (m : Merge) (now : Nat) : Merge × Bool :=
  let m := headClock m now
  (m, m.injIacked || decide (now - m.injReadyAt ≥ INJ_GRACE_US))

def kbdUsbRxPriority (m : Merge) (now : Nat) : Merge × Bool :=
  if rxPriorityLevel m now then headVisible m now else (m, false)

def kbdUsbRxReady (m : Merge) (now : Nat) : Merge × Bool :=
  if rxReadyLevel m now then headVisible m now else (m, false)

/-- What a read of the data register gives: a byte of either side, the filler for
a byte another window took, or the last byte again. -/
inductive Delivery where
  | injected (v : BitVec 8)
  | real (v : BitVec 8)
  | diverted
  | held
deriving DecidableEq, Repr

def kbdUsbRxRead (m : Merge) (now : Nat) : Merge × Delivery :=
  match m.ring with
  | [] => (m, .injected 0)
  | entry :: rest =>
      ({ m with
        ring := rest
        ringHead := m.ringHead + 1
        inPacket := midPacket rest
        nextReadyUs := now + IKBD_BYTE_US }, .injected entry.1)

/-!
## The shims
-/

/-- An access of the guest: the time, the windows, whether the real IKBD is
quarantined, and the byte in the real receiver. -/
structure Access where
  now : Nat
  windows : Windows
  quarantined : Bool
  received : Option (BitVec 8)
deriving DecidableEq, Repr

def Access.clock (a : Access) : BitVec 64 := BitVec.ofNat 64 a.now

/-- The status shim up to the byte it may pop for another window, and whether the
real receiver still shows one. -/
def popEarly (m : Merge) (a : Access) : Merge × Bool :=
  match a.received with
  | none => (m, false)
  | some v =>
      let next := stboxDivertNext m.raw m.rawMainPending.isSome a.windows a.clock
      if next.2 = .main then ({ m with raw := next.1 }, true)
      else
        let taken := stboxDivertRealByte next.1 a.windows a.clock v
        let m := { m with raw := taken.1, realQuietUs := a.now + REAL_QUIET_US }
        if taken.2 = some .main then ({ m with rawMainPending := some v }, true) else (m, false)

def statusShim (m : Merge) (a : Access) : Merge × Bool :=
  let popped := popEarly m a
  let priority := kbdUsbRxPriority popped.1 a.now
  if priority.2 then priority
  else if a.quarantined then kbdUsbRxReady priority.1 a.now
  else if popped.2 || popped.1.rawMainPending.isSome then (priority.1, true)
  else kbdUsbRxReady priority.1 a.now

def readIfReady (m : Merge) (now : Nat) (other : Delivery) : Merge × Delivery :=
  let ready := kbdUsbRxReady m now
  if ready.2 then kbdUsbRxRead ready.1 now else (ready.1, other)

def dataShim (m : Merge) (a : Access) : Merge × Delivery :=
  match m.rawMainPending with
  | some v => ({ m with rawMainPending := none }, .real v)
  | none =>
      let priority := kbdUsbRxPriority m a.now
      if priority.2 then kbdUsbRxRead priority.1 a.now
      else if a.quarantined then readIfReady priority.1 a.now .held
      else match a.received with
        | some v =>
            let taken := stboxDivertRealByte priority.1.raw a.windows a.clock v
            let m := { priority.1 with raw := taken.1, realQuietUs := a.now + REAL_QUIET_US }
            if taken.2 = some .main then (m, .real v) else readIfReady m a.now .diverted
        | none => readIfReady priority.1 a.now .held

/-!
## Watched runs
-/

/-- What happens to the merged stream; `observe` is a look at the interrupt line. -/
inductive MergeEvent where
  | push (bytes : List (BitVec 8))
  | flush
  | iack
  | observe (now : Nat)
  | status (a : Access)
  | data (a : Access)
  | toggle
deriving DecidableEq, Repr

/-- The stream beside the injected packets not yet delivered and the bytes owed to
the real packet the guest has begun to read. -/
structure MergeWatch where
  merge : Merge
  packets : Packets (BitVec 8)
  realOwed : Nat

def MergeWatch.initial : MergeWatch := ⟨Merge.initial, Packets.empty, 0⟩

def owedAfter (owed : Nat) (v : BitVec 8) : Nat :=
  if owed = 0 then rawPktLen v else owed - 1

def MergeWatch.delivered (x : MergeWatch) (m : Merge) : Delivery -> MergeWatch
  | .injected _ => { x with merge := m, packets := x.packets.pop }
  | .real v => { x with merge := m, realOwed := owedAfter x.realOwed v }
  | .diverted => { x with merge := m }
  | .held => { x with merge := m }

def observe (m : Merge) (now : Nat) : Merge :=
  if rxReadyLevel m now || rxPriorityLevel m now then headClock m now else m

def mergeStep (x : MergeWatch) : MergeEvent -> MergeWatch
  | .push bytes =>
      { x with
        merge := ringPushPacket x.merge bytes
        packets := if ringHasRoom x.merge bytes then x.packets.push bytes else x.packets }
  | .flush => { x with merge := ringFlush x.merge, packets := Packets.empty }
  | .iack => { x with merge := { x.merge with injIacked := true } }
  | .observe now => { x with merge := observe x.merge now }
  | .status a => { x with merge := (statusShim x.merge a).1 }
  | .data a => x.delivered (dataShim x.merge a).1 (dataShim x.merge a).2
  | .toggle =>
      { x with merge := { x.merge with
          raw := { x.merge.raw with route := !x.merge.raw.route } } }

/-- No real byte inside an injected packet, and no injected packet starts inside a
real one. -/
def Merged (x : MergeWatch) : MergeEvent -> Prop
  | .data a =>
      (x.packets.current ≠ [] -> forall v, (dataShim x.merge a).2 ≠ .real v) ∧
      (x.packets.current = [] -> x.realOwed ≠ 0 ->
        forall v, (dataShim x.merge a).2 ≠ .injected v)
  | _ => True

def holdsForMain (m : Merge) (a : Access) : Bool :=
  match a.received with
  | none => false
  | some v =>
      !a.quarantined &&
        decide ((stboxDivertRealByte m.raw a.windows a.clock v).2 = some .main)

/-- Inside an injected packet no byte is kept back for the main guest, and its next
byte is due and visible whenever the real receiver holds one for it.  Inside a real
packet a byte is kept back or in the real receiver, unless nothing injected is ready
to start. -/
def Spaced (x : MergeWatch) : MergeEvent -> Prop
  | .data a =>
      (x.packets.current ≠ [] -> x.merge.rawMainPending = none ∧
        ((kbdUsbRxPriority x.merge a.now).2 = true ∨ holdsForMain x.merge a = false)) ∧
      (x.packets.current = [] -> x.realOwed ≠ 0 -> x.merge.rawMainPending ≠ none ∨
        (a.quarantined = false ∧ a.received ≠ none) ∨
        (kbdUsbRxReady x.merge a.now).2 = false)
  | _ => True

/-!
## Reads
-/

structure SameStream (m m' : Merge) : Prop where
  ring : m'.ring = m.ring
  inPacket : m'.inPacket = m.inPacket
  raw : m'.raw = m.raw

variable (m : Merge)

theorem SameStream.refl : SameStream m m := ⟨rfl, rfl, rfl⟩

theorem SameStream.trans {m m' m'' : Merge} (h : SameStream m m') (h' : SameStream m' m'') :
    SameStream m m'' :=
  ⟨h'.ring.trans h.ring, h'.inPacket.trans h.inPacket, h'.raw.trans h.raw⟩

theorem headClock_same (now : Nat) : SameStream m (headClock m now) := by
  unfold headClock
  split
  · exact ⟨rfl, rfl, rfl⟩
  · exact SameStream.refl m

theorem kbdUsbRxPriority_same (now : Nat) :
    SameStream m (kbdUsbRxPriority m now).1 := by
  unfold kbdUsbRxPriority
  split
  · exact headClock_same m now
  · exact SameStream.refl m

theorem kbdUsbRxReady_same (now : Nat) :
    SameStream m (kbdUsbRxReady m now).1 := by
  unfold kbdUsbRxReady
  split
  · exact headClock_same m now
  · exact SameStream.refl m

theorem kbdUsbRxPriority_ring {m : Merge} {now : Nat}
    (h : (kbdUsbRxPriority m now).2 = true) : m.ring ≠ [] := by
  unfold kbdUsbRxPriority at h
  split at h
  · next hlevel =>
    unfold rxPriorityLevel at hlevel
    simp only [Bool.and_eq_true, Bool.not_eq_true', List.isEmpty_eq_false_iff] at hlevel
    exact hlevel.1.2
  · cases h

theorem kbdUsbRxReady_ring {m : Merge} {now : Nat}
    (h : (kbdUsbRxReady m now).2 = true) : m.ring ≠ [] := by
  unfold kbdUsbRxReady at h
  split at h
  · next hlevel =>
    unfold rxReadyLevel at hlevel
    simp only [Bool.and_eq_true, Bool.not_eq_true', List.isEmpty_eq_false_iff] at hlevel
    exact hlevel.1.1
  · cases h

/-- The ring after a read: an entry shorter for an injected byte, else as it was. -/
def RingRead (m m' : Merge) : Delivery -> Prop
  | .injected _ => exists entry rest, m.ring = entry :: rest ∧ m'.ring = rest ∧
      m'.inPacket = midPacket rest
  | _ => m'.ring = m.ring ∧ m'.inPacket = m.inPacket

theorem RingRead.of_same {m m' m'' : Merge} {d : Delivery} (hring : m'.ring = m.ring)
    (hpacket : m'.inPacket = m.inPacket) (h : RingRead m' m'' d) : RingRead m m'' d := by
  cases d with
  | injected v =>
      rcases h with ⟨entry, rest, hentries, hrest⟩
      exact ⟨entry, rest, hring.symm.trans hentries, hrest⟩
  | real v => exact ⟨h.1.trans hring, h.2.trans hpacket⟩
  | diverted => exact ⟨h.1.trans hring, h.2.trans hpacket⟩
  | held => exact ⟨h.1.trans hring, h.2.trans hpacket⟩

theorem kbdUsbRxRead_ring {m : Merge} (now : Nat) (h : m.ring ≠ []) :
    RingRead m (kbdUsbRxRead m now).1 (kbdUsbRxRead m now).2 ∧
      exists v, (kbdUsbRxRead m now).2 = .injected v := by
  unfold kbdUsbRxRead
  cases hring : m.ring with
  | nil => exact absurd hring h
  | cons entry rest => exact ⟨⟨entry, rest, hring, rfl, rfl⟩, entry.1, rfl⟩

theorem readIfReady_cases (now : Nat) {other : Delivery}
    (hother : forall v, other ≠ .injected v) :
    RingRead m (readIfReady m now other).1 (readIfReady m now other).2 ∧
      (if (kbdUsbRxReady m now).2 then exists v, (readIfReady m now other).2 = .injected v
        else (readIfReady m now other).2 = other) := by
  have hsame := kbdUsbRxReady_same m now
  unfold readIfReady
  by_cases hready : (kbdUsbRxReady m now).2 = true
  · have hring : (kbdUsbRxReady m now).1.ring ≠ [] := by
      rw [hsame.ring]
      exact kbdUsbRxReady_ring hready
    have hread := kbdUsbRxRead_ring now hring
    simp only [if_pos hready]
    exact ⟨hread.1.of_same hsame.ring hsame.inPacket, hread.2⟩
  · simp only [if_neg hready]
    constructor
    · cases other with
      | injected v => exact absurd rfl (hother v)
      | real v => exact ⟨hsame.ring, hsame.inPacket⟩
      | diverted => exact ⟨hsame.ring, hsame.inPacket⟩
      | held => exact ⟨hsame.ring, hsame.inPacket⟩
    · trivial

def realTaken (m : Merge) (a : Access) (v : BitVec 8) : Merge :=
  { (kbdUsbRxPriority m a.now).1 with
    raw := (stboxDivertRealByte (kbdUsbRxPriority m a.now).1.raw a.windows a.clock v).1
    realQuietUs := a.now + REAL_QUIET_US }

inductive DataRead (m : Merge) (a : Access) : Prop where
  | kept (v : BitVec 8) (hpending : m.rawMainPending = some v)
      (h : dataShim m a = ({ m with rawMainPending := none }, .real v))
  | priority (hpending : m.rawMainPending = none)
      (hpriority : (kbdUsbRxPriority m a.now).2 = true)
      (h : dataShim m a = kbdUsbRxRead (kbdUsbRxPriority m a.now).1 a.now)
  | main (v : BitVec 8) (hpending : m.rawMainPending = none)
      (hpriority : (kbdUsbRxPriority m a.now).2 = false) (hholds : holdsForMain m a = true)
      (h : dataShim m a = (realTaken m a v, .real v))
  | taken (v : BitVec 8) (hpending : m.rawMainPending = none)
      (hpriority : (kbdUsbRxPriority m a.now).2 = false) (hholds : holdsForMain m a = false)
      (hquarantined : a.quarantined = false) (hreceived : a.received = some v)
      (h : dataShim m a = readIfReady (realTaken m a v) a.now .diverted)
  | alone (hpending : m.rawMainPending = none)
      (hpriority : (kbdUsbRxPriority m a.now).2 = false) (hholds : holdsForMain m a = false)
      (halone : a.quarantined = true ∨ a.received = none)
      (h : dataShim m a = readIfReady (kbdUsbRxPriority m a.now).1 a.now .held)

variable (a : Access)

theorem dataRead : DataRead m a := by
  have hraw : (kbdUsbRxPriority m a.now).1.raw = m.raw := (kbdUsbRxPriority_same m a.now).raw
  cases hpending : m.rawMainPending with
  | some v =>
      apply DataRead.kept v hpending
      unfold dataShim
      rw [hpending]
  | none =>
      cases hpriority : (kbdUsbRxPriority m a.now).2 with
      | true =>
          apply DataRead.priority hpending hpriority
          unfold dataShim
          simp only [hpending, hpriority, if_true]
      | false =>
          cases hquarantined : a.quarantined with
          | true =>
              have hholds : holdsForMain m a = false := by
                unfold holdsForMain
                rw [hquarantined]
                cases a.received <;> rfl
              apply DataRead.alone hpending hpriority hholds (Or.inl hquarantined)
              unfold dataShim
              simp only [hpending, hpriority, hquarantined, Bool.false_eq_true, if_false, if_true]
          | false =>
              cases hreceived : a.received with
              | none =>
                  have hholds : holdsForMain m a = false := by
                    unfold holdsForMain
                    rw [hreceived]
                  apply DataRead.alone hpending hpriority hholds (Or.inr hreceived)
                  unfold dataShim
                  simp only [hpending, hpriority, hquarantined, hreceived, Bool.false_eq_true,
                    if_false]
              | some v =>
                  have hholds : holdsForMain m a =
                      decide ((stboxDivertRealByte (kbdUsbRxPriority m a.now).1.raw a.windows
                        a.clock v).2 = some .main) := by
                    unfold holdsForMain
                    rw [hreceived, hquarantined, hraw]
                    rfl
                  by_cases hmain : (stboxDivertRealByte (kbdUsbRxPriority m a.now).1.raw
                      a.windows a.clock v).2 = some .main
                  · rw [decide_eq_true hmain] at hholds
                    apply DataRead.main v hpending hpriority hholds
                    unfold dataShim
                    simp only [hpending, hpriority, hquarantined, hreceived, Bool.false_eq_true,
                      if_false, if_pos hmain]
                    rfl
                  · rw [decide_eq_false hmain] at hholds
                    apply DataRead.taken v hpending hpriority hholds hquarantined hreceived
                    unfold dataShim
                    simp only [hpending, hpriority, hquarantined, hreceived, Bool.false_eq_true,
                      if_false, if_neg hmain]
                    rfl

theorem realTaken_ring (v : BitVec 8) :
    (realTaken m a v).ring = m.ring ∧ (realTaken m a v).inPacket = m.inPacket :=
  ⟨(kbdUsbRxPriority_same m a.now).ring, (kbdUsbRxPriority_same m a.now).inPacket⟩

theorem dataShim_ring :
    RingRead m (dataShim m a).1 (dataShim m a).2 := by
  have hsame := kbdUsbRxPriority_same m a.now
  cases dataRead m a with
  | kept v _ h =>
      rw [h]
      exact ⟨rfl, rfl⟩
  | priority _ hpriority h =>
      have hring : (kbdUsbRxPriority m a.now).1.ring ≠ [] := by
        rw [hsame.ring]
        exact kbdUsbRxPriority_ring hpriority
      rw [h]
      exact (kbdUsbRxRead_ring a.now hring).1.of_same hsame.ring hsame.inPacket
  | main v _ _ _ h =>
      rw [h]
      exact realTaken_ring m a v
  | taken v _ _ _ _ _ h =>
      have hother (w : BitVec 8) : Delivery.diverted ≠ .injected w := by intro h; cases h
      have hring := realTaken_ring m a v
      rw [h]
      exact (readIfReady_cases (realTaken m a v) a.now hother).1.of_same hring.1 hring.2
  | alone _ _ _ _ h =>
      have hother (w : BitVec 8) : Delivery.held ≠ .injected w := by intro h; cases h
      rw [h]
      exact (readIfReady_cases (kbdUsbRxPriority m a.now).1 a.now hother).1.of_same hsame.ring
        hsame.inPacket

theorem readIfReady_not_real (now : Nat) {other : Delivery}
    (hinjected : forall v, other ≠ .injected v) (hreal : forall v, other ≠ .real v)
    (v : BitVec 8) : (readIfReady m now other).2 ≠ .real v := by
  have hcases := (readIfReady_cases m now hinjected).2
  intro h
  rw [h] at hcases
  split at hcases
  · rcases hcases with ⟨w, hw⟩
    cases hw
  · exact hreal v hcases.symm

theorem dataShim_real_iff :
    (exists v, (dataShim m a).2 = .real v) <->
      m.rawMainPending ≠ none ∨
        ((kbdUsbRxPriority m a.now).2 = false ∧ holdsForMain m a = true) := by
  cases dataRead m a with
  | kept v hpending h =>
      rw [h, hpending]
      simp
  | priority hpending hpriority h =>
      have hring : (kbdUsbRxPriority m a.now).1.ring ≠ [] := by
        rw [(kbdUsbRxPriority_same m a.now).ring]
        exact kbdUsbRxPriority_ring hpriority
      rcases (kbdUsbRxRead_ring a.now hring).2 with ⟨w, hw⟩
      rw [h, hpending, hpriority, hw]
      simp
  | main v hpending hpriority hholds h =>
      rw [h, hpending, hpriority, hholds]
      simp
  | taken v hpending hpriority hholds _ _ h =>
      have hnot (w : BitVec 8) : (dataShim m a).2 ≠ .real w := by
        rw [h]
        exact readIfReady_not_real _ _ (by simp) (by simp) w
      rw [hpending, hholds]
      simp [hnot]
  | alone hpending hpriority hholds _ h =>
      have hnot (w : BitVec 8) : (dataShim m a).2 ≠ .real w := by
        rw [h]
        exact readIfReady_not_real _ _ (by simp) (by simp) w
      rw [hpending, hholds]
      simp [hnot]

theorem kbdUsbRxPriority_outside {m : Merge} (h : m.inPacket = false) (now : Nat) :
    kbdUsbRxPriority m now = (m, false) := by
  unfold kbdUsbRxPriority rxPriorityLevel
  rw [h]
  rfl

theorem kbdUsbRxReady_realTaken {m : Merge} (h : m.inPacket = false) (a : Access)
    (v : BitVec 8) : (kbdUsbRxReady (realTaken m a v) a.now).2 = false := by
  have hlate : decide (a.now ≥ (realTaken m a v).realQuietUs) = false := by
    apply decide_eq_false
    change ¬ a.now ≥ a.now + REAL_QUIET_US
    unfold REAL_QUIET_US
    lia
  have hlevel : rxReadyLevel (realTaken m a v) a.now = false := by
    unfold rxReadyLevel
    rw [(realTaken_ring m a v).2, h, hlate]
    simp
  unfold kbdUsbRxReady
  rw [hlevel]
  rfl

theorem dataShim_injected_iff {m : Merge} (hpacket : m.inPacket = false) (a : Access) :
    (exists v, (dataShim m a).2 = .injected v) <->
      m.rawMainPending = none ∧ (a.quarantined = true ∨ a.received = none) ∧
        (kbdUsbRxReady m a.now).2 = true := by
  have houtside := kbdUsbRxPriority_outside hpacket a.now
  cases dataRead m a with
  | kept v hpending h =>
      rw [h, hpending]
      simp
  | priority hpending hpriority h =>
      rw [houtside] at hpriority
      cases hpriority
  | main v hpending hpriority hholds h =>
      have hnot : ¬ (a.quarantined = true ∨ a.received = none) := by
        intro halone
        unfold holdsForMain at hholds
        rcases halone with hq | hr
        · rw [hq] at hholds
          cases hreceived : a.received <;> rw [hreceived] at hholds <;> cases hholds
        · rw [hr] at hholds
          cases hholds
      rw [h]
      simp [hnot]
  | taken v hpending hpriority hholds hquarantined hreceived h =>
      have hcases := (readIfReady_cases (realTaken m a v) a.now
        (fun w => by simp : forall w, Delivery.diverted ≠ .injected w)).2
      rw [kbdUsbRxReady_realTaken hpacket a v, if_neg Bool.false_ne_true] at hcases
      rw [h, hcases, hquarantined, hreceived]
      simp
  | alone hpending hpriority hholds halone h =>
      have hcases := (readIfReady_cases (kbdUsbRxPriority m a.now).1 a.now
        (fun w => by simp : forall w, Delivery.held ≠ .injected w)).2
      rw [← h, houtside] at hcases
      by_cases hready : (kbdUsbRxReady m a.now).2 = true
      · rw [if_pos hready] at hcases
        exact ⟨fun _ => ⟨hpending, halone, hready⟩, fun _ => hcases⟩
      · rw [if_neg hready] at hcases
        rw [hcases]
        simp [hready]

/-!
## Runs
-/

structure MergeInv (x : MergeWatch) : Prop where
  ring : x.merge.ring = x.packets.entries
  wellFormed : x.packets.WellFormed
  inPacket : x.merge.inPacket = midPacket x.merge.ring

theorem MergeInv.initial : MergeInv MergeWatch.initial :=
  ⟨rfl, Packets.empty_wellFormed, rfl⟩

variable {x : MergeWatch}

theorem MergeInv.of_same (h : MergeInv x) {m : Merge}
    (hring : m.ring = x.merge.ring) (hpacket : m.inPacket = x.merge.inPacket) (owed : Nat) :
    MergeInv { x with merge := m, realOwed := owed } := by
  constructor
  · exact hring.trans h.ring
  · exact h.wellFormed
  · exact hpacket.trans (h.inPacket.trans (congrArg midPacket hring.symm))

theorem MergeInv.inPacket_iff (h : MergeInv x) :
    x.merge.inPacket = true <-> x.packets.current ≠ [] := by
  rw [h.inPacket, h.ring]
  exact Packets.midPacket_entries h.wellFormed

theorem popEarly_ring :
    (popEarly m a).1.ring = m.ring ∧ (popEarly m a).1.inPacket = m.inPacket := by
  unfold popEarly
  cases a.received with
  | none => exact ⟨rfl, rfl⟩
  | some v =>
      simp only
      split
      · exact ⟨rfl, rfl⟩
      · split <;> exact ⟨rfl, rfl⟩

theorem statusShim_ring :
    (statusShim m a).1.ring = m.ring ∧ (statusShim m a).1.inPacket = m.inPacket := by
  have hpopped := popEarly_ring m a
  have hpriority := kbdUsbRxPriority_same (popEarly m a).1 a.now
  have hready := hpriority.trans (kbdUsbRxReady_same _ a.now)
  have hfirst : (kbdUsbRxPriority (popEarly m a).1 a.now).1.ring = m.ring ∧
      (kbdUsbRxPriority (popEarly m a).1 a.now).1.inPacket = m.inPacket :=
    ⟨hpriority.ring.trans hpopped.1, hpriority.inPacket.trans hpopped.2⟩
  have hsecond : (kbdUsbRxReady (kbdUsbRxPriority (popEarly m a).1 a.now).1 a.now).1.ring =
        m.ring ∧
      (kbdUsbRxReady (kbdUsbRxPriority (popEarly m a).1 a.now).1 a.now).1.inPacket =
        m.inPacket :=
    ⟨hready.ring.trans hpopped.1, hready.inPacket.trans hpopped.2⟩
  unfold statusShim
  simp only
  split
  · exact hfirst
  split
  · exact hsecond
  split
  · exact hfirst
  · exact hsecond

theorem mergeStep_inv (h : MergeInv x) (e : MergeEvent) :
    MergeInv (mergeStep x e) := by
  cases e with
  | push bytes =>
      unfold mergeStep ringPushPacket
      by_cases hroom : ringHasRoom x.merge bytes = true
      · simp only [if_pos hroom]
        constructor
        · change x.merge.ring ++ marked bytes = (x.packets.push bytes).entries
          rw [Packets.entries_push, h.ring]
        · exact h.wellFormed.push bytes
        · change x.merge.inPacket = midPacket (x.merge.ring ++ marked bytes)
          rw [midPacket_append_marked]
          exact h.inPacket
      · simp only [if_neg hroom]
        exact h
  | flush => exact ⟨rfl, Packets.empty_wellFormed, rfl⟩
  | iack => exact ⟨h.ring, h.wellFormed, h.inPacket⟩
  | observe now =>
      have hsame : SameStream x.merge (observe x.merge now) := by
        unfold observe
        split
        · exact headClock_same _ _
        · exact SameStream.refl _
      exact h.of_same hsame.ring hsame.inPacket x.realOwed
  | status a =>
      have hring := statusShim_ring x.merge a
      exact h.of_same hring.1 hring.2 x.realOwed
  | toggle => exact ⟨h.ring, h.wellFormed, h.inPacket⟩
  | data a =>
      have hread := dataShim_ring x.merge a
      change MergeInv (x.delivered (dataShim x.merge a).1 (dataShim x.merge a).2)
      cases hd : (dataShim x.merge a).2 with
      | injected v =>
          rw [hd] at hread
          rcases hread with ⟨entry, rest, hentries, hring, hpacket⟩
          rw [h.ring] at hentries
          rcases Packets.entries_pop h.wellFormed hentries with ⟨hpop, hwf⟩
          constructor
          · exact hring.trans hpop.symm
          · exact hwf
          · exact hpacket.trans (congrArg midPacket hring.symm)
      | real v =>
          rw [hd] at hread
          exact h.of_same hread.1 hread.2 _
      | diverted =>
          rw [hd] at hread
          exact h.of_same hread.1 hread.2 _
      | held =>
          rw [hd] at hread
          exact h.of_same hread.1 hread.2 _

theorem merged_iff_spaced (h : MergeInv x) (e : MergeEvent) :
    Merged x e <-> Spaced x e := by
  cases e with
  | data a =>
      apply and_congr
      · apply imp_congr_right
        intro _
        have hreal := not_congr (dataShim_real_iff x.merge a)
        rw [not_exists, not_or, not_and, not_not, Bool.not_eq_true] at hreal
        rw [hreal]
        apply and_congr_right
        intro _
        cases (kbdUsbRxPriority x.merge a.now).2 <;> simp
      · apply imp_congr_right
        intro hnone
        have hpacket : x.merge.inPacket = false := by
          by_contra hmid
          exact h.inPacket_iff.mp (Bool.eq_true_of_not_eq_false hmid) hnone
        apply imp_congr_right
        intro _
        have hinjected := not_congr (dataShim_injected_iff hpacket a)
        rw [not_exists] at hinjected
        rw [hinjected]
        cases x.merge.rawMainPending <;> cases a.quarantined <;> cases a.received <;> simp
  | push bytes => exact Iff.rfl
  | flush => exact Iff.rfl
  | iack => exact Iff.rfl
  | observe now => exact Iff.rfl
  | status a => exact Iff.rfl
  | toggle => exact Iff.rfl

/-- Injected and real packets stay apart exactly along the runs in which the bytes
of each are there when the guest reads. -/
theorem merged_iff_reads_spaced (events : List MergeEvent) :
    Steps mergeStep Merged MergeWatch.initial events <->
      Steps mergeStep Spaced MergeWatch.initial events := by
  have hstep (x : MergeWatch) (e : MergeEvent) (hinv : MergeInv x) (_ : Spaced x e) :
      MergeInv (mergeStep x e) := mergeStep_inv hinv e
  have hagree (x : MergeWatch) (e : MergeEvent) (hinv : MergeInv x) :
      Merged x e <-> Spaced x e := merged_iff_spaced hinv e
  exact Steps.iff_of_invariant hstep hagree MergeInv.initial

def mainAccess (now : Nat) (received : Option (BitVec 8)) : Access :=
  ⟨now, ⟨false, false, false, false, false, false⟩, false, received⟩

/-- The header of a joystick packet is read, and 200 microseconds later the data
register is read with a key of the real keyboard in the receiver. -/
def keyInsidePacket : List MergeEvent :=
  [.push [0xFF, 0x80], .observe 10000, .iack, .data (mainAccess 10010 none),
    .data (mainAccess 10210 (some 0x1E))]

theorem real_key_inside_packet : ¬ Steps mergeStep Merged MergeWatch.initial keyInsidePacket := by
  intro h
  have hread := h.2.2.2.2.1.1
  exact hread (by decide) 0x1E (by decide)

end Ikbd
end PistormAtari
