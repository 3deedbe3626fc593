import PistormAtari.Foundation.Run
import PistormAtari.Foundation.WrapRing

/-!
# Bytes rescued from the keyboard ACIA

The 6850 holds one received byte.  While the guest is held up, another thread takes the byte
out of the chip into a FIFO, which the guest's reads see before the chip.  A section under the
bus lock is one step.
-/

namespace PistormAtari
namespace Ikbd

open Foundation

structure LineByte where
  number : Nat
  byte : BitVec 8

/-- The receiver of a 6850; a master reset holds it until the next control word. -/
structure Acia6850 where
  rdr : LineByte
  rdrf : Bool
  held : Bool

inductive AciaReg where
  | ctrl
  | data

def ACIA_KQ_SIZE : Nat := 1024

def masterReset (cr : BitVec 8) : Bool := cr &&& 3 == 3

/-- Where the guest is between two sections: past the status half of a long read, or about to
write the control register. -/
inductive GuestAt where
  | idle
  | longRead (hi : BitVec 16)
  | writing (cr : BitVec 8)

/-- A value that a data read returned, for the byte of this number; `resetAt` is how many bytes
had come when the last master reset took effect. -/
structure ReadByte where
  number : Nat
  value : BitVec 8
  resetAt : Nat

/-- The chip, the FIFO and the guest; then what has come over the line and what became of it. -/
structure AciaRescue where
  chip : Acia6850
  kq : WrapRing LineByte
  kbdRescued : BitVec 32
  kbdDropped : BitVec 32
  guest : GuestAt
  line : List (BitVec 8)
  delivered : List ReadByte
  overrun : List Nat
  dropped : List Nat
  discarded : List Nat
  resetAt : Nat

def arrives (s : AciaRescue) (b : BitVec 8) : AciaRescue :=
  let n := s.line.length
  let s := { s with line := s.line ++ [b] }
  if s.chip.held then { s with discarded := s.discarded ++ [n] }
  else if s.chip.rdrf then { s with overrun := s.overrun ++ [n] }
  else
    { s with
      chip :=
        { s.chip with
          rdr := { number := n, byte := b }
          rdrf := true } }

def Acia6850.status (c : Acia6850) (other : BitVec 8) : BitVec 8 :=
  (other &&& 0xFE) ||| (if c.rdrf then 1 else 0)

def AciaRescue.deliver (s : AciaRescue) (b : LineByte) (v : BitVec 8) : AciaRescue :=
  { s with
    delivered := s.delivered ++ [{ number := b.number, value := v, resetAt := s.resetAt }] }

/-- The chip's registers on the bus.  A data read without RDRF gives the old byte again. -/
def chipRead (s : AciaRescue) (other : BitVec 8) : AciaReg -> BitVec 8 × AciaRescue
  | .ctrl => (s.chip.status other, s)
  | .data =>
      let v := s.chip.rdr.byte
      if s.chip.rdrf then
        (v, { s with chip := { s.chip with rdrf := false } }.deliver s.chip.rdr v)
      else (v, s)

def psAciaKbdPending (s : AciaRescue) : Bool := decide (s.kq.tail ≠ s.kq.head)

def psAciaKbdRead8 (s : AciaRescue) (other : BitVec 8) : AciaReg -> BitVec 8 × AciaRescue
  | .data =>
      match s.kq.peek ACIA_KQ_SIZE with
      | some b => (b.byte, { s with kq := s.kq.pop }.deliver b b.byte)
      | none => chipRead s other .data
  | .ctrl =>
      let (v, s) := chipRead s other .ctrl
      (if psAciaKbdPending s then v ||| 0x81 else v, s)

/-- The chip is on the high byte; `low` is what the low byte of the bus reads. -/
def psAciaKbdRead16 (s : AciaRescue) (other low : BitVec 8) :
    AciaReg -> BitVec 16 × AciaRescue
  | .data =>
      match s.kq.peek ACIA_KQ_SIZE with
      | some b => (b.byte ++ 0xFF#8, { s with kq := s.kq.pop }.deliver b b.byte)
      | none =>
          let (v, s) := chipRead s other .data
          (v ++ low, s)
  | .ctrl =>
      let (v, s) := chipRead s other .ctrl
      (if psAciaKbdPending s then (v ++ low) ||| 0x8100 else v ++ low, s)

def psAciaKbdCtrlWritten (s : AciaRescue) (cr : BitVec 8) : AciaRescue :=
  if masterReset cr then
    { s with
      kq := { s.kq with tail := s.kq.head }
      discarded := s.discarded ++ (s.kq.contents ACIA_KQ_SIZE).map (·.number) }
  else s

def chipWrite (s : AciaRescue) (cr : BitVec 8) : AciaRescue :=
  if masterReset cr then
    { s with
      chip := { s.chip with rdrf := false, held := true }
      discarded := if s.chip.rdrf then s.discarded ++ [s.chip.rdr.number] else s.discarded
      resetAt := s.line.length }
  else { s with chip := { s.chip with held := false } }

def psAciaKbdRescue (s : AciaRescue) (gotBus : Bool) : AciaRescue :=
  if gotBus && s.chip.rdrf then
    let b := s.chip.rdr
    let s := { s with chip := { s.chip with rdrf := false } }
    match s.kq.push ACIA_KQ_SIZE b with
    | some kq => { s with kq := kq, kbdRescued := s.kbdRescued + 1 }
    | none => { s with kbdDropped := s.kbdDropped + 1, dropped := s.dropped ++ [b.number] }
  else s

inductive AccessWidth where
  | byte
  | word
  | long

def ctrlByte (v : BitVec 32) : AccessWidth -> BitVec 8
  | .byte => v.setWidth 8
  | .word => (v >>> 8).setWidth 8
  | .long => (v >>> 24).setWidth 8

/-- `read` and `write` begin a guest access, and `goOn` takes the section that it has left.
The rest of a long read of the data register is at the MIDI ACIA. -/
inductive AciaEvent where
  | arrives (b : BitVec 8)
  | rescue (gotBus : Bool)
  | read (width : AccessWidth) (reg : AciaReg) (other low : BitVec 8)
  | write (width : AccessWidth) (v : BitVec 32)
  | goOn (other low : BitVec 8)

def guestRead (s : AciaRescue) (other low : BitVec 8) :
    AccessWidth -> AciaReg -> AciaRescue
  | .byte, reg => (psAciaKbdRead8 s other reg).2
  | .word, reg => (psAciaKbdRead16 s other low reg).2
  | .long, .data => (psAciaKbdRead16 s other low .data).2
  | .long, .ctrl =>
      let (hi, s) := psAciaKbdRead16 s other low .ctrl
      { s with guest := .longRead hi }

def aciaStep (s : AciaRescue) : AciaEvent -> AciaRescue
  | .arrives b => arrives s b
  | .rescue gotBus => psAciaKbdRescue s gotBus
  | .read width reg other low =>
      match s.guest with
      | .idle => guestRead s other low width reg
      | _ => s
  | .write width v =>
      match s.guest with
      | .idle =>
          { psAciaKbdCtrlWritten s (ctrlByte v width) with guest := .writing (ctrlByte v width) }
      | _ => s
  | .goOn other low =>
      match s.guest with
      | .idle => s
      | .longRead _ => { (psAciaKbdRead16 s other low .data).2 with guest := .idle }
      | .writing cr => { chipWrite s cr with guest := .idle }

def aciaStart (w : Nat -> LineByte) (rdr : LineByte) : AciaRescue :=
  { chip := { rdr := rdr, rdrf := false, held := false }
    kq := { w := w, head := 0, tail := 0 }
    kbdRescued := 0
    kbdDropped := 0
    guest := .idle
    line := []
    delivered := []
    overrun := []
    dropped := []
    discarded := []
    resetAt := 0 }

/-!
## What became of the bytes
-/

def Acia6850.unread (c : Acia6850) : List LineByte := if c.rdrf then [c.rdr] else []

def AciaRescue.waiting (s : AciaRescue) : List LineByte :=
  s.kq.contents ACIA_KQ_SIZE ++ s.chip.unread

/-- The bytes that the guest was given and those it will be, by their numbers. -/
def AciaRescue.received (s : AciaRescue) : List Nat :=
  s.delivered.map (·.number) ++ s.waiting.map (·.number)

def AciaRescue.lost (s : AciaRescue) : List Nat := s.overrun ++ s.dropped ++ s.discarded

/-- Every byte of the line has one fate, and the guest reads in the order of the line. -/
structure AciaOk (s : AciaRescue) : Prop where
  ring : s.kq.Holds ACIA_KQ_SIZE (s.kq.contents ACIA_KQ_SIZE)
  fates : (s.received ++ s.lost).Perm (List.range s.line.length)
  order : s.received.Pairwise (· < ·)
  values : forall d, d ∈ s.delivered -> s.line[d.number]? = some d.value
  waiting : forall b, b ∈ s.waiting -> s.line[b.number]? = some b.byte
  dropped : s.kbdDropped = BitVec.ofNat 32 s.dropped.length
  held : s.chip.held = true -> s.chip.rdrf = false

theorem kqSize_lt : ACIA_KQ_SIZE < 2 ^ 32 := by decide

theorem kqSize_dvd : ACIA_KQ_SIZE ∣ 2 ^ 32 := by decide

structure AciaMoves (s s' : AciaRescue) : Prop where
  line : s'.line = s.line
  ring : s'.kq.Holds ACIA_KQ_SIZE (s'.kq.contents ACIA_KQ_SIZE)
  fates : (s'.received ++ s'.lost).Perm (s.received ++ s.lost)
  order : s'.received.Sublist s.received
  values : forall d, d ∈ s'.delivered ->
    d ∈ s.delivered ∨ exists b, b ∈ s.waiting ∧ d.number = b.number ∧ d.value = b.byte
  waiting : forall b, b ∈ s'.waiting -> b ∈ s.waiting
  dropped : s.kbdDropped = BitVec.ofNat 32 s.dropped.length ->
    s'.kbdDropped = BitVec.ofNat 32 s'.dropped.length
  held : (s.chip.held = true -> s.chip.rdrf = false) -> s'.chip.held = true ->
    s'.chip.rdrf = false

theorem AciaMoves.ok {s s' : AciaRescue} (h : AciaMoves s s') (hok : AciaOk s) : AciaOk s' := by
  constructor
  · exact h.ring
  · rw [h.line]
    exact h.fates.trans hok.fates
  · exact hok.order.sublist h.order
  · intro d hd
    rw [h.line]
    rcases h.values d hd with hold | ⟨b, hb, hnumber, hvalue⟩
    · exact hok.values d hold
    · rw [hnumber, hvalue]
      exact hok.waiting b hb
  · intro b hb
    rw [h.line]
    exact hok.waiting b (h.waiting b hb)
  · exact h.dropped hok.dropped
  · exact h.held hok.held

variable {s : AciaRescue}

theorem AciaMoves.refl (h : AciaOk s) : AciaMoves s s :=
  { line := rfl
    ring := h.ring
    fates := List.Perm.refl _
    order := List.Sublist.refl _
    values := fun _ hd => Or.inl hd
    waiting := fun _ hb => hb
    dropped := id
    held := id }

theorem AciaMoves.guest {s s' : AciaRescue} (h : AciaMoves s s') (at' : GuestAt) :
    AciaMoves s { s' with guest := at' } :=
  { line := h.line
    ring := h.ring
    fates := h.fates
    order := h.order
    values := h.values
    waiting := h.waiting
    dropped := h.dropped
    held := h.held }

theorem contents_of_holds {f : WrapRing LineByte} {q : List LineByte}
    (h : f.Holds ACIA_KQ_SIZE q) :
    f.Holds ACIA_KQ_SIZE (f.contents ACIA_KQ_SIZE) ∧ f.contents ACIA_KQ_SIZE = q := by
  have heq := h.contents kqSize_lt
  exact ⟨by rw [heq]; exact h, heq⟩

/-!
## The guest's reads
-/

theorem dataRead_cases (hok : AciaOk s) (other : BitVec 8) :
    (s.waiting = [] ∧ (psAciaKbdRead8 s other .data).2 = s) ∨
      exists b rest kq chip, s.waiting = b :: rest ∧
        (psAciaKbdRead8 s other .data).2 = AciaRescue.deliver { s with kq := kq, chip := chip } b b.byte ∧
        (psAciaKbdRead8 s other .data).1 = b.byte ∧
        AciaRescue.waiting { s with kq := kq, chip := chip } = rest ∧
        kq.Holds ACIA_KQ_SIZE (kq.contents ACIA_KQ_SIZE) ∧
        (chip.rdrf = true -> s.chip.rdrf = true) ∧ chip.held = s.chip.held := by
  have hpeek := hok.ring.peek kqSize_lt
  have hpop := contents_of_holds (hok.ring.pop kqSize_lt kqSize_dvd)
  unfold psAciaKbdRead8
  dsimp only
  rw [hpeek]
  unfold AciaRescue.waiting
  cases hq : s.kq.contents ACIA_KQ_SIZE with
  | nil =>
      rw [List.head?_nil]
      unfold chipRead Acia6850.unread
      dsimp only
      cases hfull : s.chip.rdrf with
      | false => exact Or.inl ⟨rfl, rfl⟩
      | true =>
          right
          refine ⟨s.chip.rdr, [], s.kq, { s.chip with rdrf := false }, rfl, rfl, rfl, ?_, hok.ring,
            fun hfalse => Bool.noConfusion hfalse, rfl⟩
          dsimp only
          rw [hq]
          rfl
  | cons b rest =>
      rw [List.head?_cons]
      right
      rw [hq, List.tail_cons] at hpop
      refine ⟨b, rest ++ s.chip.unread, s.kq.pop, s.chip, rfl, rfl, rfl, ?_, ?_, id, rfl⟩
      · dsimp only
        rw [hpop.2]
      · rw [hpop.2]
        rw [hpop.2] at hpop
        exact hpop.1

theorem moves_dataRead (hok : AciaOk s) (other : BitVec 8) :
    AciaMoves s (psAciaKbdRead8 s other .data).2 := by
  rcases dataRead_cases hok other with ⟨_, hsame⟩ |
    ⟨b, rest, kq, chip, hwaiting, hread, _, hrest, hring, hfull, hheld⟩
  · rw [hsame]
    exact AciaMoves.refl hok
  · rw [hread]
    have hreceived :
        (AciaRescue.deliver { s with kq := kq, chip := chip } b b.byte).received = s.received := by
      have hleft : (AciaRescue.deliver { s with kq := kq, chip := chip } b b.byte).waiting = rest :=
        hrest
      unfold AciaRescue.received
      rw [hleft, hwaiting]
      unfold AciaRescue.deliver
      rw [List.map_append, List.append_assoc]
      rfl
    constructor
    · rfl
    · exact hring
    · rw [hreceived]
      exact List.Perm.refl _
    · rw [hreceived]
    · intro d hd
      rcases List.mem_append.mp hd with hold | hnew
      · exact Or.inl hold
      · right
        rw [List.mem_singleton.mp hnew]
        refine ⟨b, ?_, rfl, rfl⟩
        rw [hwaiting]
        exact List.mem_cons_self
    · intro b' hb'
      have hmem : b' ∈ rest := by
        rw [← hrest]
        exact hb'
      rw [hwaiting]
      exact List.mem_cons_of_mem _ hmem
    · exact id
    · intro hold hhold
      have hempty := hold (hheld.symm.trans hhold)
      rw [← Bool.not_eq_true]
      intro hrdrf
      rw [hfull hrdrf] at hempty
      cases hempty

theorem read16_data (s : AciaRescue) (other low : BitVec 8) :
    (psAciaKbdRead16 s other low .data).2 = (psAciaKbdRead8 s other .data).2 := by
  unfold psAciaKbdRead16 psAciaKbdRead8
  dsimp only
  split
  · rfl
  · rfl

theorem moves_read8 (hok : AciaOk s) (other : BitVec 8) (reg : AciaReg) :
    AciaMoves s (psAciaKbdRead8 s other reg).2 := by
  cases reg with
  | ctrl => exact AciaMoves.refl hok
  | data => exact moves_dataRead hok other

theorem moves_read16 (hok : AciaOk s) (other low : BitVec 8) (reg : AciaReg) :
    AciaMoves s (psAciaKbdRead16 s other low reg).2 := by
  cases reg with
  | ctrl => exact AciaMoves.refl hok
  | data =>
      rw [read16_data]
      exact moves_dataRead hok other

theorem moves_guestRead (hok : AciaOk s) (other low : BitVec 8)
    (width : AccessWidth) (reg : AciaReg) : AciaMoves s (guestRead s other low width reg) := by
  cases width with
  | byte => exact moves_read8 hok other reg
  | word => exact moves_read16 hok other low reg
  | long =>
      cases reg with
      | ctrl => exact (AciaMoves.refl hok).guest _
      | data => exact moves_read16 hok other low .data

theorem or_and_of_and {w : Nat} (v : BitVec w) {m b : BitVec w} (h : m &&& b = b) :
    (v ||| m) &&& b = b := by
  rw [BitVec.and_or_distrib_right, h]
  apply BitVec.eq_of_getLsbD_eq
  intro i _
  rw [BitVec.getLsbD_or, BitVec.getLsbD_and]
  cases b.getLsbD i with
  | true => rw [Bool.or_true]
  | false => rw [Bool.and_false, Bool.or_false]

theorem append_and_high {v : BitVec 8} (h : v &&& 1 = 1) (low : BitVec 8) :
    (v ++ low : BitVec 16) &&& 0x100 = 0x100 := by
  have hmask : (0x100 : BitVec 16) = ((1#8) ++ (0#8) : BitVec 16) := rfl
  have hand := @BitVec.and_append 8 8 v (1#8) low (0#8)
  have hhigh : v &&& (1#8) = (1#8) := h
  rw [hhigh, BitVec.and_zero] at hand
  rw [hmask]
  exact hand

theorem status_rdrf (hok : AciaOk s) (other low : BitVec 8) (hwaiting : s.waiting ≠ []) :
    (psAciaKbdRead8 s other .ctrl).1 &&& 1 = 1 ∧
      (psAciaKbdRead16 s other low .ctrl).1 &&& 0x100 = 0x100 := by
  have hempty := hok.ring.empty_iff kqSize_lt
  unfold AciaRescue.waiting at hwaiting
  unfold psAciaKbdRead8 psAciaKbdRead16 chipRead psAciaKbdPending Acia6850.status
  dsimp only
  rcases Classical.em (s.kq.tail = s.kq.head) with hnone | hsome
  · rw [hempty.mp hnone, List.nil_append] at hwaiting
    have hfull : s.chip.rdrf = true := by
      rw [← Bool.not_eq_false]
      intro hfull
      unfold Acia6850.unread at hwaiting
      rw [hfull] at hwaiting
      exact hwaiting rfl
    rw [hfull, hnone]
    have hbit : ((other &&& 0xFE) ||| 1) &&& 1 = 1 := or_and_of_and _ rfl
    simp only [ne_eq, not_true_eq_false, decide_false, Bool.false_eq_true, if_false, if_true]
    exact ⟨hbit, append_and_high hbit low⟩
  · simp only [ne_eq, hsome, not_false_eq_true, decide_true, if_true]
    exact ⟨or_and_of_and _ rfl, or_and_of_and _ rfl⟩

/-!
## The other sections
-/

theorem moves_rescue (hok : AciaOk s) (gotBus : Bool) :
    AciaMoves s (psAciaKbdRescue s gotBus) := by
  unfold psAciaKbdRescue
  split
  · next htakes =>
    have hfull : s.chip.rdrf = true := (Bool.and_eq_true_iff.mp htakes).2
    have hwaiting : s.waiting = s.kq.contents ACIA_KQ_SIZE ++ [s.chip.rdr] := by
      unfold AciaRescue.waiting Acia6850.unread
      rw [if_pos hfull]
    dsimp only
    cases hpush : s.kq.push ACIA_KQ_SIZE s.chip.rdr with
    | some kq =>
        have hring := contents_of_holds (hok.ring.push kqSize_lt kqSize_dvd hpush)
        have hsame : AciaRescue.waiting
            { s with
              chip := { s.chip with rdrf := false }
              kq := kq
              kbdRescued := s.kbdRescued + 1 } = s.waiting := by
          rw [hwaiting]
          change kq.contents ACIA_KQ_SIZE ++ [] = _
          rw [hring.2, List.append_nil]
        constructor
        · rfl
        · rw [hring.2]
          rw [hring.2] at hring
          exact hring.1
        · unfold AciaRescue.received AciaRescue.lost
          rw [hsame]
        · unfold AciaRescue.received
          rw [hsame]
        · exact fun d hd => Or.inl hd
        · rw [hsame]
          exact fun b hb => hb
        · exact id
        · exact fun _ _ => rfl
    | none =>
        have hleft : AciaRescue.waiting
            { s with
              chip := { s.chip with rdrf := false }
              kbdDropped := s.kbdDropped + 1
              dropped := s.dropped ++ [s.chip.rdr.number] } = s.kq.contents ACIA_KQ_SIZE :=
          List.append_nil _
        constructor
        · rfl
        · exact hok.ring
        · unfold AciaRescue.received AciaRescue.lost
          rw [hleft, hwaiting]
          apply List.perm_iff_count.mpr
          intro n
          simp only [List.count_append, List.map_append, List.map_cons, List.map_nil]
          lia
        · unfold AciaRescue.received
          rw [hleft, hwaiting, List.map_append, ← List.append_assoc]
          exact List.sublist_append_left _ _
        · exact fun d hd => Or.inl hd
        · rw [hleft, hwaiting]
          exact fun b hb => List.mem_append_left _ hb
        · intro hcount
          dsimp only
          rw [hcount, List.length_append, List.length_singleton, BitVec.ofNat_add]
          rfl
        · exact fun _ _ => rfl
  · exact AciaMoves.refl hok

theorem moves_ctrlWritten (hok : AciaOk s) (cr : BitVec 8) :
    AciaMoves s (psAciaKbdCtrlWritten s cr) := by
  unfold psAciaKbdCtrlWritten
  split
  · have hring := contents_of_holds (WrapRing.holds_nil ACIA_KQ_SIZE s.kq.w s.kq.head)
    have hleft : AciaRescue.waiting
        { s with
          kq := { s.kq with tail := s.kq.head }
          discarded := s.discarded ++ (s.kq.contents ACIA_KQ_SIZE).map (·.number) } =
        s.chip.unread := by
      change WrapRing.contents ACIA_KQ_SIZE _ ++ s.chip.unread = _
      rw [hring.2, List.nil_append]
    constructor
    · rfl
    · rw [hring.2]
      exact WrapRing.holds_nil ACIA_KQ_SIZE s.kq.w s.kq.head
    · unfold AciaRescue.received AciaRescue.lost
      rw [hleft]
      apply List.perm_iff_count.mpr
      intro n
      unfold AciaRescue.waiting
      simp only [List.count_append, List.map_append]
      lia
    · unfold AciaRescue.received
      rw [hleft]
      unfold AciaRescue.waiting
      rw [List.map_append]
      exact List.Sublist.append (List.Sublist.refl _) (List.sublist_append_right _ _)
    · exact fun d hd => Or.inl hd
    · rw [hleft]
      exact fun b hb => List.mem_append_right _ hb
    · exact id
    · exact id
  · exact AciaMoves.refl hok

theorem moves_chipWrite (hok : AciaOk s) (cr : BitVec 8) :
    AciaMoves s (chipWrite s cr) := by
  unfold chipWrite
  split
  · have hleft : AciaRescue.waiting
        { s with
          chip := { s.chip with rdrf := false, held := true }
          discarded :=
            if s.chip.rdrf then s.discarded ++ [s.chip.rdr.number] else s.discarded
          resetAt := s.line.length } = s.kq.contents ACIA_KQ_SIZE := List.append_nil _
    constructor
    · rfl
    · exact hok.ring
    · unfold AciaRescue.received AciaRescue.lost
      rw [hleft]
      unfold AciaRescue.waiting Acia6850.unread
      apply List.perm_iff_count.mpr
      intro n
      dsimp only
      split
      · simp only [List.count_append, List.map_append, List.map_cons, List.map_nil]
        lia
      · simp only [List.count_append, List.map_append, List.map_nil, List.count_nil]
        lia
    · unfold AciaRescue.received
      rw [hleft]
      unfold AciaRescue.waiting
      rw [List.map_append]
      exact List.Sublist.append (List.Sublist.refl _) (List.sublist_append_left _ _)
    · exact fun d hd => Or.inl hd
    · rw [hleft]
      exact fun b hb => List.mem_append_left _ hb
    · exact id
    · exact fun _ _ => rfl
  · exact
      { line := rfl
        ring := hok.ring
        fates := List.Perm.refl _
        order := List.Sublist.refl _
        values := fun _ hd => Or.inl hd
        waiting := fun _ hb => hb
        dropped := id
        held := fun _ hheld => Bool.noConfusion hheld }

theorem number_lt (hok : AciaOk s) {n : Nat} (hn : n ∈ s.received) :
    n < s.line.length :=
  List.mem_range.mp (hok.fates.mem_iff.mp (List.mem_append_left _ hn))

theorem line_kept {bytes : List (BitVec 8)} {n : Nat} {v : BitVec 8}
    (h : bytes[n]? = some v) (b : BitVec 8) : (bytes ++ [b])[n]? = some v := by
  rw [List.getElem?_append_left (List.getElem?_eq_some_iff.mp h).1]
  exact h

theorem aciaOk_arrives (hok : AciaOk s) (b : BitVec 8) :
    AciaOk (arrives s b) := by
  have hlost : forall extra rest,
      (rest : List Nat).Perm (s.received ++ s.lost ++ extra) -> extra = [s.line.length] ->
      rest.Perm (List.range (s.line ++ [b]).length) := by
    rintro extra rest hperm rfl
    rw [List.length_append, List.length_singleton, List.range_succ]
    exact hperm.trans (List.Perm.append_right _ hok.fates)
  unfold arrives
  dsimp only
  split
  · constructor
    · exact hok.ring
    · apply hlost [s.line.length] _ _ rfl
      unfold AciaRescue.lost
      rw [← List.append_assoc, ← List.append_assoc, ← List.append_assoc, ← List.append_assoc,
        ← List.append_assoc]
      exact List.Perm.refl _
    · exact hok.order
    · exact fun d hd => line_kept (hok.values d hd) b
    · exact fun w hw => line_kept (hok.waiting w hw) b
    · exact hok.dropped
    · exact hok.held
  · split
    · constructor
      · exact hok.ring
      · apply hlost [s.line.length] _ _ rfl
        apply List.perm_iff_count.mpr
        intro n
        unfold AciaRescue.lost
        simp only [List.count_append]
        have hsame : List.count n (AciaRescue.received
            { s with line := s.line ++ [b], overrun := s.overrun ++ [s.line.length] }) =
          List.count n s.received := rfl
        lia
      · exact hok.order
      · exact fun d hd => line_kept (hok.values d hd) b
      · exact fun w hw => line_kept (hok.waiting w hw) b
      · exact hok.dropped
      · exact hok.held
    · next hheld hfull =>
      have hempty : s.chip.unread = [] := if_neg hfull
      have hwaiting : AciaRescue.waiting
          { s with
            line := s.line ++ [b]
            chip := { s.chip with rdr := { number := s.line.length, byte := b }, rdrf := true } } =
          s.waiting ++ [{ number := s.line.length, byte := b }] := by
        unfold AciaRescue.waiting
        rw [hempty, List.append_nil]
        rfl
      have hreceived : AciaRescue.received
          { s with
            line := s.line ++ [b]
            chip := { s.chip with rdr := { number := s.line.length, byte := b }, rdrf := true } } =
          s.received ++ [s.line.length] := by
        unfold AciaRescue.received
        rw [hwaiting, List.map_append, List.append_assoc]
        rfl
      constructor
      · exact hok.ring
      · apply hlost [s.line.length] _ _ rfl
        rw [hreceived]
        apply List.perm_iff_count.mpr
        intro n
        simp only [List.count_append]
        have hsame : List.count n (AciaRescue.lost
            { s with
              line := s.line ++ [b]
              chip :=
                { s.chip with rdr := { number := s.line.length, byte := b }, rdrf := true } }) =
          List.count n s.lost := rfl
        lia
      · rw [hreceived, List.pairwise_append]
        refine ⟨hok.order, List.pairwise_singleton _ _, ?_⟩
        intro n hn m hm
        rw [List.mem_singleton.mp hm]
        exact number_lt hok hn
      · exact fun d hd => line_kept (hok.values d hd) b
      · rw [hwaiting]
        intro w hw
        rcases List.mem_append.mp hw with hold | hnew
        · exact line_kept (hok.waiting w hold) b
        · rw [List.mem_singleton.mp hnew]
          exact List.getElem?_concat_length
      · exact hok.dropped
      · exact fun hheld' => absurd hheld' hheld

theorem AciaOk.guest (hok : AciaOk s) (at' : GuestAt) :
    AciaOk { s with guest := at' } :=
  ((AciaMoves.refl hok).guest at').ok hok

theorem aciaOk_step (e : AciaEvent) (hok : AciaOk s) : AciaOk (aciaStep s e) := by
  unfold aciaStep
  cases e with
  | arrives b => exact aciaOk_arrives hok b
  | rescue gotBus => exact (moves_rescue hok gotBus).ok hok
  | read width reg other low =>
      dsimp only
      split
      · exact (moves_guestRead hok other low width reg).ok hok
      · exact hok
  | write width v =>
      dsimp only
      split
      · exact ((moves_ctrlWritten hok _).ok hok).guest _
      · exact hok
  | goOn other low =>
      dsimp only
      split
      · exact hok
      · exact ((moves_read16 hok other low .data).ok hok).guest _
      · exact ((moves_chipWrite hok _).ok hok).guest _

theorem aciaOk_start (w : Nat -> LineByte) (rdr : LineByte) : AciaOk (aciaStart w rdr) := by
  have hring : (aciaStart w rdr).kq.Holds ACIA_KQ_SIZE
      ((aciaStart w rdr).kq.contents ACIA_KQ_SIZE) ∧
        (aciaStart w rdr).kq.contents ACIA_KQ_SIZE = [] :=
    contents_of_holds (WrapRing.holds_nil ACIA_KQ_SIZE w 0)
  have hwaiting : (aciaStart w rdr).waiting = [] := by
    unfold AciaRescue.waiting
    rw [hring.2]
    rfl
  have hreceived : (aciaStart w rdr).received = [] := by
    unfold AciaRescue.received
    rw [hwaiting]
    rfl
  constructor
  · exact hring.1
  · rw [hreceived]
    exact List.Perm.refl _
  · rw [hreceived]
    exact List.Pairwise.nil
  · exact fun d hd => absurd hd List.not_mem_nil
  · rw [hwaiting]
    exact fun b hb => absurd hb List.not_mem_nil
  · rfl
  · exact fun _ => rfl

/-!
## Nothing from before a reset
-/

/-- The guest has emptied the FIFO for a master reset that has not reached the chip. -/
def AciaRescue.resetting (s : AciaRescue) : Bool :=
  match s.guest with
  | .writing cr => masterReset cr
  | _ => false

/-- A rescue between the two steps of a master reset finds the receiver empty. -/
def RescueClear (s : AciaRescue) : AciaEvent -> Prop
  | .rescue gotBus => (gotBus && s.chip.rdrf && s.resetting) = false
  | _ => True

instance (s : AciaRescue) : (e : AciaEvent) -> Decidable (RescueClear s e)
  | .rescue _ => inferInstanceAs (Decidable (_ = _))
  | .arrives _ | .read _ _ _ _ | .write _ _ | .goOn _ _ => isTrue trivial

/-- What waits, and what was delivered, came after the last master reset. -/
structure AciaFresh (s : AciaRescue) : Prop where
  waiting : forall b, b ∈ s.waiting -> s.resetAt ≤ b.number
  delivered : forall d, d ∈ s.delivered -> d.resetAt ≤ d.number
  reset : s.resetAt ≤ s.line.length
  emptied : s.resetting = true -> s.kq.contents ACIA_KQ_SIZE = []

theorem AciaFresh.idle (h : AciaFresh s) : AciaFresh { s with guest := .idle } :=
  { waiting := h.waiting
    delivered := h.delivered
    reset := h.reset
    emptied := fun hresetting => Bool.noConfusion hresetting }

theorem fresh_dataRead (hok : AciaOk s) (h : AciaFresh s) (other : BitVec 8)
    (hresetting : s.resetting = false) : AciaFresh (psAciaKbdRead8 s other .data).2 := by
  rcases dataRead_cases hok other with ⟨_, hsame⟩ |
    ⟨b, rest, kq, chip, hwaiting, hread, _, hrest, _, _, _⟩
  · rw [hsame]
    exact h
  · rw [hread]
    have hfirst : s.resetAt ≤ b.number := h.waiting b (by
      rw [hwaiting]
      exact List.mem_cons_self)
    constructor
    · intro w hw
      have hmem : w ∈ rest := by
        rw [← hrest]
        exact hw
      apply h.waiting w
      rw [hwaiting]
      exact List.mem_cons_of_mem _ hmem
    · intro d hd
      rcases List.mem_append.mp hd with hold | hnew
      · exact h.delivered d hold
      · rw [List.mem_singleton.mp hnew]
        exact hfirst
    · exact h.reset
    · intro hnow
      exact absurd (hresetting.symm.trans hnow) Bool.false_ne_true

theorem fresh_guestRead (hok : AciaOk s) (h : AciaFresh s)
    (hidle : s.guest = .idle) (other low : BitVec 8) (width : AccessWidth) (reg : AciaReg) :
    AciaFresh (guestRead s other low width reg) := by
  have hresetting : s.resetting = false := by
    unfold AciaRescue.resetting
    rw [hidle]
  have hdata := fresh_dataRead hok h other hresetting
  cases width with
  | byte =>
      cases reg with
      | ctrl => exact h
      | data => exact hdata
  | word =>
      cases reg with
      | ctrl => exact h
      | data =>
          unfold guestRead
          dsimp only
          rw [read16_data]
          exact hdata
  | long =>
      cases reg with
      | ctrl =>
          exact
            { waiting := h.waiting
              delivered := h.delivered
              reset := h.reset
              emptied := fun hnow => Bool.noConfusion hnow }
      | data =>
          unfold guestRead
          dsimp only
          rw [read16_data]
          exact hdata

theorem fresh_arrives (h : AciaFresh s) (b : BitVec 8) :
    AciaFresh (arrives s b) := by
  have hreset : s.resetAt ≤ (s.line ++ [b]).length := by
    rw [List.length_append]
    exact Nat.le_add_right_of_le h.reset
  unfold arrives
  dsimp only
  split
  · exact
      { waiting := h.waiting
        delivered := h.delivered
        reset := hreset
        emptied := h.emptied }
  · split
    · exact
        { waiting := h.waiting
          delivered := h.delivered
          reset := hreset
          emptied := h.emptied }
    · constructor
      · intro w hw
        rcases List.mem_append.mp hw with hold | hnew
        · exact h.waiting w (List.mem_append_left _ hold)
        · rw [List.mem_singleton.mp hnew]
          exact h.reset
      · exact h.delivered
      · exact hreset
      · exact h.emptied

theorem fresh_rescue (hok : AciaOk s) (h : AciaFresh s) {gotBus : Bool}
    (hclear : RescueClear s (.rescue gotBus)) : AciaFresh (psAciaKbdRescue s gotBus) := by
  have hmoves := moves_rescue hok gotBus
  have hkept : (psAciaKbdRescue s gotBus).delivered = s.delivered ∧
      (psAciaKbdRescue s gotBus).resetAt = s.resetAt ∧
      (psAciaKbdRescue s gotBus).guest = s.guest := by
    unfold psAciaKbdRescue
    split
    · dsimp only
      split
      · exact ⟨rfl, rfl, rfl⟩
      · exact ⟨rfl, rfl, rfl⟩
    · exact ⟨rfl, rfl, rfl⟩
  constructor
  · rw [hkept.2.1]
    exact fun b hb => h.waiting b (hmoves.waiting b hb)
  · rw [hkept.1]
    exact h.delivered
  · rw [hkept.2.1, hmoves.line]
    exact h.reset
  · intro hnow
    have hresetting : s.resetting = true := by
      unfold AciaRescue.resetting at hnow ⊢
      rw [hkept.2.2] at hnow
      exact hnow
    have hidle : (gotBus && s.chip.rdrf) = false := by
      have hclear' : (gotBus && s.chip.rdrf && s.resetting) = false := hclear
      rw [hresetting, Bool.and_true] at hclear'
      exact hclear'
    unfold psAciaKbdRescue
    rw [hidle]
    exact h.emptied hresetting

theorem fresh_ctrlWritten (hok : AciaOk s) (h : AciaFresh s) (cr : BitVec 8) :
    AciaFresh { psAciaKbdCtrlWritten s cr with guest := .writing cr } := by
  have hmoves := moves_ctrlWritten hok cr
  have hkept : (psAciaKbdCtrlWritten s cr).delivered = s.delivered ∧
      (psAciaKbdCtrlWritten s cr).resetAt = s.resetAt := by
    unfold psAciaKbdCtrlWritten
    split
    · exact ⟨rfl, rfl⟩
    · exact ⟨rfl, rfl⟩
  constructor
  · intro b hb
    dsimp only
    rw [hkept.2]
    exact h.waiting b (hmoves.waiting b hb)
  · dsimp only
    rw [hkept.1]
    exact h.delivered
  · dsimp only
    rw [hkept.2, hmoves.line]
    exact h.reset
  · intro hnow
    have hreset : masterReset cr = true := hnow
    unfold psAciaKbdCtrlWritten
    rw [if_pos hreset]
    exact (contents_of_holds (WrapRing.holds_nil ACIA_KQ_SIZE s.kq.w s.kq.head)).2

theorem fresh_chipWrite (h : AciaFresh s) {cr : BitVec 8} (hwriting : s.guest = .writing cr) :
    AciaFresh { chipWrite s cr with guest := .idle } := by
  cases hreset : masterReset cr with
  | true =>
      have hresetting : s.resetting = true := by
        unfold AciaRescue.resetting
        rw [hwriting]
        exact hreset
      have hempty := h.emptied hresetting
      unfold chipWrite
      rw [if_pos hreset]
      constructor
      · intro b hb
        have hmem : b ∈ s.kq.contents ACIA_KQ_SIZE ++ [] := hb
        rw [hempty] at hmem
        exact absurd hmem List.not_mem_nil
      · exact h.delivered
      · exact le_refl _
      · exact fun hnow => Bool.noConfusion hnow
  | false =>
      unfold chipWrite
      rw [if_neg (by rw [hreset]; exact Bool.false_ne_true)]
      exact
        { waiting := h.waiting
          delivered := h.delivered
          reset := h.reset
          emptied := fun hnow => Bool.noConfusion hnow }

theorem fresh_step {e : AciaEvent} (h : AciaOk s ∧ AciaFresh s)
    (hclear : RescueClear s e) : AciaOk (aciaStep s e) ∧ AciaFresh (aciaStep s e) := by
  refine ⟨aciaOk_step e h.1, ?_⟩
  unfold aciaStep
  cases e with
  | arrives b => exact fresh_arrives h.2 b
  | rescue gotBus => exact fresh_rescue h.1 h.2 hclear
  | read width reg other low =>
      dsimp only
      split
      · next hidle => exact fresh_guestRead h.1 h.2 hidle other low width reg
      · exact h.2
  | write width v =>
      dsimp only
      split
      · exact fresh_ctrlWritten h.1 h.2 _
      · exact h.2
  | goOn other low =>
      dsimp only
      split
      · exact h.2
      · next hlong =>
        have hresetting : s.resetting = false := by
          unfold AciaRescue.resetting
          rw [hlong]
        rw [read16_data]
        exact (fresh_dataRead h.1 h.2 other hresetting).idle
      · next hwriting => exact fresh_chipWrite h.2 hwriting

/-- The guest is given the bytes of the line, in order and each once, but for those that were
lost in the chip, dropped or discarded; the status shows a byte that waits; and nothing is
delivered after a master reset that came before it, when no rescue takes a byte between the
two steps of the reset. -/
theorem delivered_in_order (w : Nat -> LineByte) (rdr : LineByte) (events : List AciaEvent) :
    let s := run aciaStep (aciaStart w rdr) events
    (s.received ++ s.lost).Perm (List.range s.line.length) ∧
      s.received.Pairwise (· < ·) ∧
      (forall d, d ∈ s.delivered -> s.line[d.number]? = some d.value) ∧
      s.kbdDropped = BitVec.ofNat 32 s.dropped.length ∧
      (s.waiting ≠ [] -> forall other low,
        (psAciaKbdRead8 s other .ctrl).1 &&& 1 = 1 ∧
          (psAciaKbdRead16 s other low .ctrl).1 &&& 0x100 = 0x100) ∧
      (Steps aciaStep RescueClear (aciaStart w rdr) events ->
        forall d, d ∈ s.delivered -> d.resetAt ≤ d.number) := by
  intro s
  have hstart := aciaOk_start w rdr
  have hok : AciaOk s := run_invariant (fun _ e h => aciaOk_step e h) hstart events
  refine ⟨hok.fates, hok.order, hok.values, hok.dropped, ?_, ?_⟩
  · exact fun hwaiting other low => status_rdrf hok other low hwaiting
  · intro hclear
    have hfresh : AciaOk (aciaStart w rdr) ∧ AciaFresh (aciaStart w rdr) := by
      refine ⟨hstart, ?_⟩
      constructor
      · exact fun _ _ => Nat.zero_le _
      · exact fun d hd => absurd hd List.not_mem_nil
      · exact Nat.zero_le _
      · exact fun hnow => Bool.noConfusion hnow
    have hstep : forall s e, AciaOk s ∧ AciaFresh s -> RescueClear s e ->
        AciaOk (aciaStep s e) ∧ AciaFresh (aciaStep s e) :=
      fun _ _ h hc => fresh_step h hc
    exact (Steps.invariant hstep hfresh hclear).2.delivered

/-- A byte comes, the guest begins a master reset, the byte is rescued, the reset reaches the
chip, and the guest reads. -/
def rescueInReset : List AciaEvent :=
  [.arrives 0xF8, .write .byte 3, .rescue true, .goOn 0 0, .read .byte .data 0 0]

/-- The byte from before the reset is delivered after it. -/
theorem delivered_after_reset :
    ¬ forall (w : Nat -> LineByte) (rdr : LineByte) (events : List AciaEvent),
      forall d, d ∈ (run aciaStep (aciaStart w rdr) events).delivered -> d.resetAt ≤ d.number := by
  intro hall
  have hrun := hall (fun _ => { number := 0, byte := 0 }) { number := 0, byte := 0 } rescueInReset
    { number := 0, value := 0xF8, resetAt := 1 } (List.mem_singleton.mpr rfl)
  revert hrun
  decide

end Ikbd
end PistormAtari
