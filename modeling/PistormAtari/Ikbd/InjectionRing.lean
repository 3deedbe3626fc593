import Mathlib
import PistormAtari.Foundation.GapRing
import PistormAtari.Foundation.PacketRing
import PistormAtari.Foundation.Run
import PistormAtari.Ikbd.Merge

/-!
# The ring of injected packets

The threads of the USB devices put packets into the ring and the guest takes bytes
out of it.  Both ends count on without bound and are masked when they index the
ring, so their distance is what is in it.
-/

namespace PistormAtari
namespace Ikbd

open Foundation

def PKT_START : BitVec 16 := 0x100

/-- The array {lit}`ring`, its ends, the flag of the reader, and the two statistics. -/
structure InjectionRing where
  ring : BitVec 10 -> BitVec 16
  ringHead : BitVec 32
  ringTail : BitVec 32
  inPacket : Bool
  statDroppedBytes : BitVec 32
  statInjectedBytes : BitVec 32

namespace InjectionRing

def initial : InjectionRing where
  ring := fun _ => 0
  ringHead := 0
  ringTail := 0
  inPacket := false
  statDroppedBytes := 0
  statInjectedBytes := 0

/-- {lit}`t & RING_MASK`. -/
def slot (t : BitVec 32) : BitVec 10 := t.setWidth 10

def ringUsed (r : InjectionRing) : Nat := (slot (r.ringTail - r.ringHead)).toNat

def ringFree (r : InjectionRing) : Nat := RING_SIZE - 1 - r.ringUsed

def entryOf (byte : BitVec 8) (start : Bool) : BitVec 16 :=
  byte.setWidth 16 ||| (if start then PKT_START else 0)

/-- The entries of the bytes from the {lit}`i`-th on, written from {lit}`t + i` on. -/
def storeFrom (ring : BitVec 10 -> BitVec 16) (t : BitVec 32) (start : Bool) :
    List (BitVec 8) -> BitVec 10 -> BitVec 16
  | [] => ring
  | byte :: rest =>
      storeFrom (Function.update ring (slot t) (entryOf byte start)) (t + 1) false rest

def ringPushPacket (r : InjectionRing) (bytes : List (BitVec 8)) : InjectionRing :=
  if r.ringFree < bytes.length then
    { r with statDroppedBytes := r.statDroppedBytes + BitVec.ofNat 32 bytes.length }
  else
    { r with
      ring := storeFrom r.ring r.ringTail true bytes
      ringTail := r.ringTail + BitVec.ofNat 32 bytes.length }

/-- The read of a byte, {lit}`none` where the ring is empty and the guest gets 0. -/
def kbdUsbRxRead (r : InjectionRing) : InjectionRing × Option (BitVec 8) :=
  if slot (r.ringTail - r.ringHead) = 0 then (r, none)
  else
    let e := r.ring (slot r.ringHead)
    let mid := slot (r.ringTail - (r.ringHead + 1)) ≠ 0 ∧
      r.ring (slot (r.ringHead + 1)) &&& PKT_START = 0
    ({ r with
      ringHead := r.ringHead + 1
      inPacket := mid
      statInjectedBytes := r.statInjectedBytes + 1 }, some (e.setWidth 8))

/-!
## The ring behind the counters
-/

def masked (r : InjectionRing) : GapRing 10 (BitVec 16) :=
  ⟨r.ring, slot r.ringHead, slot r.ringTail⟩

theorem slot_add (t t' : BitVec 32) : slot (t + t') = slot t + slot t' :=
  BitVec.setWidth_add _ _ (by lia)

theorem slot_sub (t t' : BitVec 32) : slot (t - t') = slot t - slot t' := by
  rw [eq_sub_iff_add_eq, ← slot_add, BitVec.sub_add_cancel]

theorem slot_succ (t : BitVec 32) : slot (t + 1) = slot t + 1 := slot_add t 1

theorem ringUsed_eq (r : InjectionRing) : r.ringUsed = r.masked.contents.length := by
  rw [GapRing.length_contents]
  unfold ringUsed masked
  rw [slot_sub]

theorem ringFree_eq (r : InjectionRing) : r.ringFree = r.masked.free := by
  unfold ringFree GapRing.free
  rw [ringUsed_eq]
  rfl

def encode (entry : BitVec 8 × Bool) : BitVec 16 := entryOf entry.1 entry.2

theorem byte_encode (entry : BitVec 8 × Bool) : (encode entry).setWidth 8 = entry.1 := by
  have hbyte : (entry.1.setWidth 16).setWidth 8 = entry.1 := by
    rw [BitVec.setWidth_setWidth_of_le _ (by lia), BitVec.setWidth_eq]
  unfold encode entryOf
  rw [BitVec.setWidth_or, hbyte]
  cases entry.2 with
  | false => exact BitVec.or_zero
  | true => exact BitVec.or_zero

theorem encode_unmarked_iff (entry : BitVec 8 × Bool) :
    encode entry &&& PKT_START = 0 <-> entry.2 = false := by
  have hflag : PKT_START = BitVec.twoPow 16 8 := rfl
  have hbit : (encode entry).getLsbD 8 = entry.2 := by
    unfold encode entryOf
    cases entry.2 with
    | false => simp
    | true => simp [hflag]
  rw [hflag, BitVec.and_twoPow, hbit]
  cases entry.2 with
  | false => simp
  | true =>
      have hset : BitVec.twoPow 16 8 ≠ 0 := by decide
      exact iff_of_false hset Bool.noConfusion

/-!
## One packet in, one byte out
-/

/-- The entries of the bytes of a packet, from its start or from further on. -/
def entriesFrom (start : Bool) : List (BitVec 8) -> List (BitVec 8 × Bool)
  | [] => []
  | byte :: rest => (byte, start) :: entriesFrom false rest

theorem entriesFrom_true (bytes : List (BitVec 8)) : entriesFrom true bytes = marked bytes := by
  have hrest : forall rest : List (BitVec 8),
      entriesFrom false rest = rest.map fun byte => (byte, false) := by
    intro rest
    induction rest with
    | nil => rfl
    | cons byte rest ih => exact congrArg (_ :: ·) ih
  cases bytes with
  | nil => rfl
  | cons byte rest => exact congrArg (_ :: ·) (hrest rest)

theorem pushAll_storeFrom {f : GapRing 10 (BitVec 16)} {t : BitVec 32} (htail : f.tail = slot t)
    (start : Bool) {bytes : List (BitVec 8)} (hroom : bytes.length ≤ f.free) :
    f.pushAll ((entriesFrom start bytes).map encode) =
      ⟨storeFrom f.slot t start bytes, f.head, slot (t + BitVec.ofNat 32 bytes.length)⟩ := by
  induction bytes generalizing f t start with
  | nil =>
      rw [List.length_nil, BitVec.add_zero, ← htail]
      rfl
  | cons byte rest ih =>
      rw [List.length_cons] at hroom
      have hfree : f.free ≠ 0 := by lia
      have hleft : (f.push (entryOf byte start)).free = f.free - 1 :=
        GapRing.free_pushAll f [entryOf byte start]
      have hpush : f.push (entryOf byte start) =
          ⟨Function.update f.slot (slot t) (entryOf byte start), f.head, slot (t + 1)⟩ := by
        have hnext : f.tail + 1 ≠ f.head := fun h => hfree (f.tail_succ_eq_iff.mp h)
        unfold GapRing.push
        rw [if_pos hnext, htail, slot_succ]
      have hrest := @ih (f.push (entryOf byte start)) (t + 1) (by rw [hpush]) false (by lia)
      show (f.push (entryOf byte start)).pushAll ((entriesFrom false rest).map encode) = _
      rw [hrest, hpush, List.length_cons, BitVec.ofNat_add, add_comm (BitVec.ofNat 32 rest.length),
        ← add_assoc]
      rfl

def unread (r : InjectionRing) : List (BitVec 8) := r.masked.contents.map (·.setWidth 8)

theorem length_unread (r : InjectionRing) : r.unread.length = r.ringUsed := by
  unfold unread
  rw [List.length_map, ringUsed_eq]

variable {r : InjectionRing}

theorem contents_push {bytes : List (BitVec 8)} (hroom : bytes.length ≤ r.ringFree) :
    (r.ringPushPacket bytes).masked.contents = r.masked.contents ++ (marked bytes).map encode := by
  rw [ringFree_eq] at hroom
  have hstore := pushAll_storeFrom (show r.masked.tail = slot r.ringTail from rfl) true hroom
  have hlength : ((marked bytes).map encode).length ≤ r.masked.free := by
    have hsame : (marked bytes).length = bytes.length := by
      cases bytes with
      | nil => rfl
      | cons byte rest => simp [marked]
    rwa [List.length_map, hsame]
  have hmasked : (r.ringPushPacket bytes).masked = r.masked.pushAll ((marked bytes).map encode) := by
    unfold ringPushPacket
    rw [ringFree_eq, if_neg (Nat.not_lt.mpr hroom), ← entriesFrom_true, hstore]
    rfl
  rw [hmasked, GapRing.contents_pushAll, List.take_of_length_le hlength]

theorem masked_push_of_full {bytes : List (BitVec 8)}
    (hfull : r.ringFree < bytes.length) : (r.ringPushPacket bytes).masked = r.masked := by
  unfold ringPushPacket
  rw [if_pos hfull]
  rfl

theorem inPacket_push (r : InjectionRing) (bytes : List (BitVec 8)) :
    (r.ringPushPacket bytes).inPacket = r.inPacket := by
  unfold ringPushPacket
  split
  · rfl
  · rfl

theorem kbdUsbRxRead_of_empty (h : r.masked.contents = []) :
    r.kbdUsbRxRead = (r, none) := by
  have hends : slot r.ringHead = slot r.ringTail := (r.masked.contents_eq_nil_iff).mp h
  unfold kbdUsbRxRead
  rw [if_pos (by rw [slot_sub, hends, sub_self])]

theorem kbdUsbRxRead_of_entries {entry : BitVec 8 × Bool}
    {rest : List (BitVec 8 × Bool)} (h : r.masked.contents = (entry :: rest).map encode) :
    (r.kbdUsbRxRead).2 = some entry.1 ∧
      (r.kbdUsbRxRead).1.masked.contents = rest.map encode ∧
      (r.kbdUsbRxRead).1.inPacket = midPacket rest := by
  have hends : slot r.ringHead ≠ slot r.ringTail := by
    intro heq
    rw [r.masked.contents_eq_nil_iff.mpr heq] at h
    cases h
  have hbusy : slot (r.ringTail - r.ringHead) ≠ 0 := by
    rw [slot_sub]
    exact sub_ne_zero.mpr hends.symm
  have hpop := GapRing.contents_pop (f := r.masked) hends
  have hnext : r.masked.pop = ⟨r.ring, slot (r.ringHead + 1), slot r.ringTail⟩ := by
    unfold GapRing.pop masked
    rw [slot_succ]
  rw [h, List.map_cons, List.cons.injEq] at hpop
  unfold kbdUsbRxRead
  rw [if_neg hbusy]
  refine ⟨?_, ?_, ?_⟩
  · show some ((r.ring (slot r.ringHead)).setWidth 8) = some entry.1
    rw [← byte_encode entry, hpop.1]
    rfl
  · show GapRing.contents ⟨r.ring, slot (r.ringHead + 1), slot r.ringTail⟩ = _
    rw [← hnext, ← hpop.2]
  · rw [hnext] at hpop
    dsimp only
    rw [Bool.eq_iff_iff, decide_eq_true_iff, slot_sub, sub_ne_zero]
    cases rest with
    | nil =>
        have hlast := (GapRing.contents_eq_nil_iff _).mp hpop.2.symm
        exact iff_of_false (fun hmid => hmid.1 hlast.symm) Bool.noConfusion
    | cons following behind =>
        have hmore : slot (r.ringHead + 1) ≠ slot r.ringTail := by
          intro heq
          rw [(GapRing.contents_eq_nil_iff _).mpr heq] at hpop
          cases hpop.2
        have hhead := GapRing.contents_pop
          (f := ⟨r.ring, slot (r.ringHead + 1), slot r.ringTail⟩) hmore
        rw [← hpop.2, List.map_cons, List.cons.injEq] at hhead
        have hmark := encode_unmarked_iff following
        rw [hhead.1] at hmark
        unfold midPacket
        rw [Bool.not_eq_true', ← hmark]
        exact and_iff_right hmore.symm

/-!
## The ring of the merged stream
-/

def Shows (r : InjectionRing) (m : Merge) : Prop :=
  r.masked.contents = m.ring.map encode ∧ r.inPacket = m.inPacket

theorem Shows.push {m : Merge} (h : r.Shows m) (bytes : List (BitVec 8)) :
    (r.ringPushPacket bytes).Shows (Ikbd.ringPushPacket m bytes) := by
  have hlength : r.ringFree = RING_SIZE - 1 - m.ring.length := by
    unfold ringFree
    rw [ringUsed_eq, h.1, List.length_map]
  have hfits : ringHasRoom m bytes = true <-> bytes.length ≤ r.ringFree := by
    unfold ringHasRoom
    rw [← hlength, Bool.not_eq_true', decide_eq_false_iff_not, Nat.not_lt]
  unfold Ikbd.ringPushPacket
  by_cases hroom : bytes.length ≤ r.ringFree
  · rw [if_pos (hfits.mpr hroom)]
    refine ⟨?_, ?_⟩
    · rw [contents_push hroom, h.1, List.map_append]
    · rw [inPacket_push, h.2]
  · rw [if_neg (mt hfits.mp hroom)]
    refine ⟨?_, ?_⟩
    · rw [masked_push_of_full (Nat.lt_of_not_le hroom), h.1]
    · rw [inPacket_push, h.2]

theorem Shows.read {m : Merge} (h : r.Shows m) (now : Nat) :
    r.kbdUsbRxRead.1.Shows (Ikbd.kbdUsbRxRead m now).1 ∧
      (Ikbd.kbdUsbRxRead m now).2 = .injected (r.kbdUsbRxRead.2.getD 0) := by
  rcases h with ⟨hcontents, hmid⟩
  unfold Ikbd.kbdUsbRxRead
  cases hring : m.ring with
  | nil =>
      rw [hring] at hcontents
      rw [kbdUsbRxRead_of_empty hcontents]
      exact ⟨⟨by rw [hring]; exact hcontents, hmid⟩, rfl⟩
  | cons entry rest =>
      rw [hring] at hcontents
      rcases kbdUsbRxRead_of_entries hcontents with ⟨hbyte, hrest, hflag⟩
      rw [hbyte]
      exact ⟨⟨hrest, hflag⟩, rfl⟩

/-!
## Runs
-/

def flush (r : InjectionRing) : InjectionRing :=
  { r with ringHead := r.ringTail, inPacket := false }

end InjectionRing

inductive RingOp where
  | push (bytes : List (BitVec 8))
  | read
deriving DecidableEq, Repr

/-- The ring beside the packets that found room, one without bytes being none, and the bytes
the guest has read. -/
structure RingWatch where
  ring : InjectionRing
  accepted : List (List (BitVec 8))
  popped : List (BitVec 8)

def RingWatch.start (r : InjectionRing) : RingWatch := ⟨r.flush, [], []⟩

def RingWatch.step (w : RingWatch) : RingOp -> RingWatch
  | .push bytes =>
      { w with
        ring := w.ring.ringPushPacket bytes
        accepted :=
          if w.ring.unread.length + bytes.length ≤ RING_SIZE - 1 ∧ bytes ≠ [] then
            w.accepted ++ [bytes]
          else w.accepted }
  | .read =>
      { w with
        ring := w.ring.kbdUsbRxRead.1
        popped := w.popped ++ w.ring.kbdUsbRxRead.2.toList }

/-- The ring holds the entries of the packets that are still to be read. -/
def RingWatch.Holds (w : RingWatch) : Prop :=
  exists p : Packets (BitVec 8), p.WellFormed ∧
    w.ring.masked.contents = p.entries.map InjectionRing.encode ∧
    w.ring.inPacket = midPacket p.entries ∧ p.Delivers w.accepted w.popped

theorem RingWatch.start_holds (r : InjectionRing) : (RingWatch.start r).Holds :=
  ⟨Packets.empty, Packets.empty_wellFormed, (GapRing.contents_eq_nil_iff _).mpr rfl, rfl,
    Packets.Delivers.empty⟩

theorem InjectionRing.fits_iff (r : InjectionRing) (bytes : List (BitVec 8)) :
    r.unread.length + bytes.length ≤ RING_SIZE - 1 <-> bytes.length ≤ r.ringFree := by
  have hle := r.masked.length_contents_le
  rw [← ringUsed_eq] at hle
  rw [length_unread]
  unfold ringFree
  unfold RING_SIZE
  lia

theorem RingWatch.holds_push {w : RingWatch} (h : w.Holds) (bytes : List (BitVec 8)) :
    (w.step (.push bytes)).Holds := by
  rcases h with ⟨p, hwell, hcontents, hmid, hdelivers⟩
  have hfits := w.ring.fits_iff bytes
  unfold RingWatch.step
  dsimp only
  by_cases hnil : bytes = []
  · rw [if_neg (fun hboth => hboth.2 hnil), hnil]
    refine ⟨p, hwell, ?_, ?_, hdelivers⟩
    · rw [InjectionRing.contents_push (Nat.zero_le _), hcontents]
      exact List.append_nil _
    · rw [InjectionRing.inPacket_push, hmid]
  · by_cases hroom : bytes.length ≤ w.ring.ringFree
    · rw [if_pos ⟨hfits.mpr hroom, hnil⟩]
      refine ⟨p.push bytes, hwell.push bytes, ?_, ?_, hdelivers.push hnil⟩
      · rw [InjectionRing.contents_push hroom, hcontents, Packets.entries_push, List.map_append]
      · rw [InjectionRing.inPacket_push, hmid, Packets.entries_push, midPacket_append_marked]
    · rw [if_neg (fun hboth => hroom (hfits.mp hboth.1))]
      refine ⟨p, hwell, ?_, ?_, hdelivers⟩
      · rw [InjectionRing.masked_push_of_full (Nat.lt_of_not_le hroom), hcontents]
      · rw [InjectionRing.inPacket_push, hmid]

theorem RingWatch.holds_read {w : RingWatch} (h : w.Holds) : (w.step .read).Holds := by
  rcases h with ⟨p, hwell, hcontents, hmid, hdelivers⟩
  unfold RingWatch.step
  dsimp only
  cases hentries : p.entries with
  | nil =>
      rw [hentries] at hcontents
      rw [InjectionRing.kbdUsbRxRead_of_empty hcontents, Option.toList_none, List.append_nil]
      exact ⟨p, hwell, by rw [hentries]; exact hcontents, hmid, hdelivers⟩
  | cons entry rest =>
      rw [hentries] at hcontents
      rcases InjectionRing.kbdUsbRxRead_of_entries hcontents with ⟨hbyte, hrest, hflag⟩
      rcases Packets.entries_pop hwell hentries with ⟨hpop, hwellPop⟩
      refine ⟨p.pop, hwellPop, ?_, ?_, ?_⟩
      · rw [hrest, hpop]
      · rw [hflag, hpop]
      · rw [hbyte]
        exact hdelivers.pop hentries hwell

theorem RingWatch.run_holds (r : InjectionRing) (ops : List RingOp) :
    (run RingWatch.step (RingWatch.start r) ops).Holds := by
  apply run_invariant _ (RingWatch.start_holds r)
  intro w op h
  cases op with
  | push bytes => exact RingWatch.holds_push h bytes
  | read => exact RingWatch.holds_read h

/-- What the guest has read and what it has not make up the packets that found room, in their
order and whole, the flag is set exactly within a packet, and the next packet goes in whole if it
fits and else not at all. -/
theorem ring_delivers_packets (r : InjectionRing) (ops : List RingOp) :
    let w := run RingWatch.step (RingWatch.start r) ops
    w.accepted.flatten = w.popped ++ w.ring.unread ∧
      (w.ring.inPacket = true <-> ¬ exists k, w.popped = (w.accepted.take k).flatten) ∧
      forall bytes, (w.ring.ringPushPacket bytes).unread =
        if w.ring.unread.length + bytes.length ≤ RING_SIZE - 1 then w.ring.unread ++ bytes
        else w.ring.unread := by
  intro w
  rcases RingWatch.run_holds r ops with ⟨p, hwell, hcontents, hmid, hdelivers⟩
  have hbytes : forall entries : List (BitVec 8 × Bool),
      (entries.map InjectionRing.encode).map (·.setWidth 8) = entries.map Prod.fst := by
    intro entries
    rw [List.map_map]
    exact List.map_congr_left fun entry _ => InjectionRing.byte_encode entry
  refine ⟨?_, ?_, ?_⟩
  · show w.accepted.flatten = w.popped ++ w.ring.masked.contents.map (·.setWidth 8)
    rw [hcontents, hbytes]
    exact hdelivers.flatten
  · rw [← hdelivers.whole_iff]
    show w.ring.inPacket = true <-> _
    rw [hmid]
    exact Packets.midPacket_entries hwell
  · intro bytes
    have hvalues : (marked bytes).map Prod.fst = bytes := by
      have hone := Packets.entries_values (⟨[], [bytes]⟩ : Packets (BitVec 8))
      simpa [Packets.entries] using hone
    have hfits := w.ring.fits_iff bytes
    by_cases hroom : bytes.length ≤ w.ring.ringFree
    · rw [if_pos (hfits.mpr hroom)]
      unfold InjectionRing.unread
      rw [InjectionRing.contents_push hroom, List.map_append, hbytes, hvalues]
    · rw [if_neg (mt hfits.mp hroom)]
      unfold InjectionRing.unread
      rw [InjectionRing.masked_push_of_full (Nat.lt_of_not_le hroom)]

/-!
## The ring is the list of the merged stream
-/

inductive RingUse where
  | push (bytes : List (BitVec 8))
  | read (now : Nat)
  | reset

def ringUse (s : InjectionRing × List (BitVec 8)) : RingUse -> InjectionRing × List (BitVec 8)
  | .push bytes => (s.1.ringPushPacket bytes, s.2)
  | .read _ => (s.1.kbdUsbRxRead.1, s.2 ++ [s.1.kbdUsbRxRead.2.getD 0])
  | .reset => (s.1.flush, s.2)

def listUse (s : Merge × List Delivery) : RingUse -> Merge × List Delivery
  | .push bytes => (Ikbd.ringPushPacket s.1 bytes, s.2)
  | .read now => ((Ikbd.kbdUsbRxRead s.1 now).1, s.2 ++ [(Ikbd.kbdUsbRxRead s.1 now).2])
  | .reset => (ringFlush s.1, s.2)

/-- Whatever is put in, read and reset, the ring of slots with its wrapping counters holds and
delivers what the list of the merged stream does. -/
theorem ring_refines_list (uses : List RingUse) :
    let s := run ringUse (InjectionRing.initial, []) uses
    let m := run listUse (Merge.initial, []) uses
    s.1.Shows m.1 ∧ m.2 = s.2.map Delivery.injected := by
  have hstep : forall (s : InjectionRing × List (BitVec 8)) (m : Merge × List Delivery)
      (use : RingUse), s.1.Shows m.1 ∧ m.2 = s.2.map Delivery.injected ->
      (ringUse s use).1.Shows (listUse m use).1 ∧
        (listUse m use).2 = (ringUse s use).2.map Delivery.injected := by
    rintro s m use ⟨hshows, hread⟩
    cases use with
    | push bytes => exact ⟨hshows.push bytes, hread⟩
    | read now =>
        rcases hshows.read now with ⟨hnext, hbyte⟩
        refine ⟨hnext, ?_⟩
        unfold listUse ringUse
        dsimp only
        rw [List.map_append, hread, hbyte]
        rfl
    | reset => exact ⟨⟨(GapRing.contents_eq_nil_iff _).mpr rfl, rfl⟩, hread⟩
  have hrun : forall (uses : List RingUse) (s : InjectionRing × List (BitVec 8))
      (m : Merge × List Delivery), s.1.Shows m.1 ∧ m.2 = s.2.map Delivery.injected ->
      (run ringUse s uses).1.Shows (run listUse m uses).1 ∧
        (run listUse m uses).2 = (run ringUse s uses).2.map Delivery.injected := by
    intro uses
    induction uses with
    | nil => exact fun s m h => h
    | cons use rest ih => exact fun s m h => ih _ _ (hstep s m use h)
  exact hrun uses _ _ ⟨⟨(GapRing.contents_eq_nil_iff _).mpr rfl, rfl⟩, rfl⟩

end Ikbd
end PistormAtari
