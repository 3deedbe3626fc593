import Mathlib
import PistormAtari.Blitter.StBlitter
import PistormAtari.Natmem.ShadowScreen

/-!
# What a blit writes

Every word a blit visits is put together of the masked bits of the operation's result
and the other bits of the old word, whether or not the old word was read.  The blit
is then a fold of its visits over the memory behind the blitter's hooks.
-/

namespace PistormAtari
namespace Blitter

open Foundation Natmem

/-!
## A visit
-/

def mergeBits (mask new old : Word) : Word := (new &&& mask) ||| (old &&& ~~~mask)

/-- A word the blit visits: its address, the end mask that applies, the operation and
the data it combines with the old word. -/
structure Visit where
  dst : Long
  mask : Word
  op : Byte
  data : Word
deriving DecidableEq, Repr

def Visit.result (v : Visit) (old : Word) : Word := StBlitter.blitOp v.op v.data old

variable {μ : Type _}

def applyVisit (bus : BlitBus μ) (mem : μ) (v : Visit) : μ :=
  bus.write16 mem v.dst
    (mergeBits v.mask (v.result (bus.read16 mem v.dst)) (bus.read16 mem v.dst))

/-- The first mask on the first word of a line, the third one on its last word, the second
one between. -/
def endMask (c : RunConsts) (l : RunLocals μ) : Word :=
  if l.x == c.xc || c.xc == 1 then c.em1 else if l.x == 1 then c.em3 else c.em2

def readDst (bus : BlitBus μ) (c : RunConsts) (l : RunLocals μ) : Word :=
  if lopDst c.op || endMask c l != 0xFFFF then bus.read16 l.mem l.dst else 0

/-- The source word as the FIFO has it after the fetches of a visit, shifted by the
skew. -/
def shiftedSource (bus : BlitBus μ) (c : RunConsts) (l : RunLocals μ) : Word :=
  let needDst := lopDst c.op || endMask c l != 0xFFFF
  let stNfsr := if l.x == c.xc then false else l.stNfsr
  let stFxsr := if l.x == c.xc then c.fxsr else l.stFxsr
  let needSrc := lopSrc c.op && (c.hop &&& 2 != 0 || (c.hop == 1 && c.smudge))
  let force := stFxsr && !l.haveFxsr && needSrc
  let word1 := if force then bus.read16 l.mem l.src else l.busWord
  let buf1 := if force then fifoPush c.desc l.buf word1 else l.buf
  let src1 := if force then (l.src + c.sxi) &&& c.smask else l.src
  let fetchSrc := needSrc && !stNfsr
  let word2 := if fetchSrc then bus.read16 l.mem src1 else word1
  let buf2 := if fetchSrc then fifoPush c.desc buf1 word2 else buf1
  let word3 := if needDst then readDst bus c l else word2
  let buf3 := if c.nfsr && l.x == 1 && needSrc then fifoPush c.desc buf2 word3 else buf2
  (buf3 >>> c.skew).setWidth 16

def halftone (R : RegisterFile) (c : RunConsts) (l : RunLocals μ) (sw : Word) : Word :=
  rd16 R (BitVec.ofNat 6 ((if c.smudge then (sw &&& 0xF).toNat else l.line.toNat) * 2))

def hopData (hop : Byte) (sw ht : Word) : Word :=
  match hop.toNat with
  | 0 => 0xFFFF
  | 1 => ht
  | 2 => sw
  | _ => sw &&& ht

def visit (bus : BlitBus μ) (R : RegisterFile) (c : RunConsts) (l : RunLocals μ) : Visit where
  dst := l.dst
  mask := endMask c l
  op := c.op
  data := hopData c.hop (shiftedSource bus c l) (halftone R c l (shiftedSource bus c l))

theorem blitOp_of_not_lopDst {op : Byte} (h : lopDst op = false) (hop : op.toNat < 16)
    (s d d' : Word) : StBlitter.blitOp op s d = StBlitter.blitOp op s d' := by
  have hall : forall op : Byte, op.toNat < 16 -> lopDst op = false ->
      op = 0 ∨ op = 3 ∨ op = 12 ∨ op = 15 := by decide
  rcases hall op hop h with rfl | rfl | rfl | rfl
  · rfl
  · rfl
  · rfl
  · rfl

theorem mergeBits_full (new old : Word) : mergeBits 0xFFFF new old = new := by
  unfold mergeBits
  rw [show (0xFFFF : Word) = BitVec.allOnes 16 by decide, BitVec.not_allOnes, BitVec.and_allOnes,
    BitVec.and_zero, BitVec.or_zero]

/-- The table of the operations that read the destination agrees with the operations: the
word that is put together with the destination as far as it is read is the merged one. -/
theorem merged_as_read {op : Byte} (hop : op.toNat < 16) (mask data old : Word) :
    (if mask != 0xFFFF then
      (StBlitter.blitOp op data (if lopDst op || mask != 0xFFFF then old else 0) &&& mask) |||
        ((if lopDst op || mask != 0xFFFF then old else 0) &&& ~~~mask)
    else StBlitter.blitOp op data (if lopDst op || mask != 0xFFFF then old else 0)) =
      mergeBits mask (StBlitter.blitOp op data old) old := by
  cases hpart : mask != 0xFFFF with
  | true =>
      rw [Bool.or_true, if_pos rfl, if_pos rfl]
      rfl
  | false =>
      rw [if_neg (by decide), bne_eq_false_iff_eq.mp hpart, mergeBits_full, Bool.or_false]
      cases hreads : lopDst op with
      | true => rw [if_pos rfl]
      | false => exact blitOp_of_not_lopDst hreads hop _ _ _

theorem processWord_mem (bus : BlitBus μ) (R : RegisterFile) {c : RunConsts}
    (hop : c.op.toNat < 16) (l : RunLocals μ) :
    (StBlitter.processWord bus R c l).mem = applyVisit bus l.mem (visit bus R c l) := by
  unfold StBlitter.processWord
  extract_lets firstWord mask stNfsr stFxsr needSrc needDst force word1 buf1 src1 haveFxsr acc1
    fetchSrc word2 buf2 acc2 dstWord word3 acc3 suppress buf3 sw ht sdata out mem
  have hmask : mask = endMask c l := rfl
  have hdst : dstWord = readDst bus c l := rfl
  have hsw : sw = shiftedSource bus c l := rfl
  have hdata : sdata = (visit bus R c l).data := by
    rw [show (visit bus R c l).data = hopData c.hop (shiftedSource bus c l)
      (halftone R c l (shiftedSource bus c l)) from rfl, ← hsw]
    rfl
  have hout : out = mergeBits mask (StBlitter.blitOp c.op sdata (bus.read16 l.mem l.dst))
      (bus.read16 l.mem l.dst) := merged_as_read hop mask sdata (bus.read16 l.mem l.dst)
  have hmem : mem = applyVisit bus l.mem (visit bus R c l) := by
    show bus.write16 l.mem l.dst out = _
    rw [hout, hmask, hdata]
    rfl
  split
  · exact hmem
  · exact hmem

/-!
## A whole blit
-/

def visits (bus : BlitBus μ) (cfg : StConfig) (s : StBlitter μ) : List Visit :=
  let c := StBlitter.runConsts cfg s.R
  let l := StBlitter.runLocals cfg s
  if (rd16 s.R 0x38#6).toNat = 0 then []
  else
    whileTrace StBlitter.linesLeft (StBlitter.processWord bus s.R c)
      (fun l => [visit bus s.R c l]) (StBlitter.wordsLeft c l) l

theorem runConsts_op (cfg : StConfig) (R : RegisterFile) :
    (StBlitter.runConsts cfg R).op.toNat < 16 := by
  show (R 0x3B#6 &&& 0xF).toNat < 16
  rw [BitVec.toNat_and]
  exact Nat.lt_of_le_of_lt Nat.and_le_right (by decide)

theorem blitRun_mem (bus : BlitBus μ) (cfg : StConfig) (now : BitVec 64) (s : StBlitter μ) :
    (StBlitter.blitRun bus cfg now s).mem = run (applyVisit bus) s.mem (visits bus cfg s) := by
  unfold StBlitter.blitRun visits
  dsimp only
  split
  · rfl
  · have hbody : forall l : RunLocals μ, StBlitter.linesLeft l = true ->
        (StBlitter.processWord bus s.R (StBlitter.runConsts cfg s.R) l).mem =
          run (applyVisit bus) l.mem [visit bus s.R (StBlitter.runConsts cfg s.R) l] :=
      fun l _ => processWord_mem bus s.R (runConsts_op cfg s.R) l
    exact whileFuel_eq_run_trace (v := fun l : RunLocals μ => l.mem) hbody _ _

/-!
## The memory behind the hooks
-/

def wordAt (natmem : Nat -> Byte) (p : Nat) : Word := natmem p ++ natmem (p + 1)

variable (m : NatmemMachine)

def readPlace (a : Long) : Nat :=
  if StRam.blitTt m a.toNat then a.toNat / 2 * 2 else a.toNat % 0x01000000 / 2 * 2

/-- Where a word written at an address lands: TT-RAM or ST-RAM, else nowhere. -/
def writePlace (a : Long) : Option Nat :=
  if StRam.blitTt m a.toNat then some (a.toNat / 2 * 2)
  else if m.jit.stramTop ≤ a.toNat % 0x01000000 / 2 * 2 then none
  else some (a.toNat % 0x01000000 / 2 * 2)

def natmemBus : BlitBus StRam where
  read16 s a := wordAt s.natmem (readPlace m a)
  write16 s a v := (s.pistormBlitWrite16 m a.toNat v).getD s

def HasTtRam : Prop := m.jit.tt_ram_available = true -> 0 < m.jit.tt_ram_size

variable {m}

theorem readPlace_of_writePlace {a : Long} {t : Nat} (h : writePlace m a = some t) :
    readPlace m a = t := by
  unfold writePlace at h
  unfold readPlace
  split
  · next htt =>
    rw [if_pos htt] at h
    exact Option.some.inj h
  · next htt =>
    rw [if_neg htt] at h
    split at h
    · cases h
    · exact Option.some.inj h

variable (natmem : Nat -> Byte)

theorem wordAt_pair (t : Nat) (x y : Byte) :
    wordAt (writeBlock natmem t [x, y]) t = x ++ y := by
  have hhigh : writeBlock natmem t [x, y] (t + 0) = x :=
    writeBlock_of_inside (show 0 < [x, y].length from Nat.zero_lt_succ 1)
  have hlow : writeBlock natmem t [x, y] (t + 1) = y :=
    writeBlock_of_inside (show 1 < [x, y].length from Nat.lt_succ_self 1)
  unfold wordAt
  rw [hlow]
  exact congrArg (fun z => z ++ y) hhigh

theorem wordAt_writeBlock (t : Nat) (v : Word) :
    wordAt (writeBlock natmem t (Width.word.bytes (v.setWidth 32))) t = v := by
  have hpair := wordAt_pair natmem t ((v.setWidth 32).extractLsb' 8 8)
    ((v.setWidth 32).extractLsb' 0 8)
  refine hpair.trans ?_
  apply BitVec.eq_of_getLsbD_eq
  intro i hi
  rw [BitVec.getLsbD_append]
  rcases Nat.lt_or_ge i 8 with hlt | hge
  · simp [hlt, hi, show i < 32 by lia]
  · simp [show ¬ i < 8 by lia, show i - 8 < 8 by lia, show 8 + (i - 8) = i by lia, hi,
      show i < 32 by lia]

theorem natmem_writeThrough (s : StRam) (a : Nat) (w : Width) (v : BitVec 32) :
    (s.writeThrough m a w v).natmem = writeBlock s.natmem a (w.bytes v) := by
  unfold StRam.writeThrough
  dsimp only
  split
  · rfl
  · rfl

theorem write16_natmem (hm : HasTtRam m) (s : StRam) (a : Long) (v : Word) :
    ((natmemBus m).write16 s a v).natmem =
      match writePlace m a with
      | some t => writeBlock s.natmem t (Width.word.bytes (v.setWidth 32))
      | none => s.natmem := by
  unfold natmemBus writePlace StRam.pistormBlitWrite16
  dsimp only
  cases htt : StRam.blitTt m a.toNat with
  | true =>
      rw [if_pos rfl, if_pos rfl]
      have hrange := htt
      unfold StRam.blitTt at hrange
      simp only [Bool.and_eq_true, decide_eq_true_eq] at hrange
      have hsize := hm hrange.1.1
      have hbound := m.jit.tt_ram_bound
      unfold ttRamSize at hbound
      unfold ttRamBase at hrange
      have hstore : exists pages,
          s.pages.store m.jit.tt_ram_size (a.toNat / 2 * 2) Width.word.size = some pages := by
        apply s.pages.store_isSome
        · decide
        · unfold ttRamBase
          lia
        · have htwo : Width.word.size = 2 := rfl
          unfold ttRamBase
          lia
      rcases hstore with ⟨pages, hstore⟩
      unfold StRam.ttPut
      rw [hstore]
      rfl
  | false =>
      have hno : ¬ (false = true) := by decide
      rw [if_neg hno, if_neg hno]
      rcases Nat.lt_or_ge (a.toNat % 0x01000000 / 2 * 2) m.jit.stramTop with hin | hout
      · rw [if_neg (Nat.not_le.mpr hin), if_neg (Nat.not_le.mpr hin)]
        exact natmem_writeThrough s _ _ _
      · rw [if_pos hout, if_pos hout]
        rfl

/-!
## What a visit changes
-/

/-- The visit may change bit `i` of the byte at `p`: it lies in the word that is written,
and its bit of the mask is set. -/
def Visit.Sets (m : NatmemMachine) (v : Visit) (p i : Nat) : Prop :=
  exists t, writePlace m v.dst = some t ∧
    ((p = t ∧ v.mask.getLsbD (8 + i) = true) ∨ (p = t + 1 ∧ v.mask.getLsbD i = true))

theorem wordAt_high (t : Nat) {i : Nat} :
    (wordAt natmem t).getLsbD (8 + i) = (natmem t).getLsbD i := by
  unfold wordAt
  rw [BitVec.getLsbD_append, if_neg (by lia), Nat.add_sub_cancel_left]

theorem wordAt_low (t : Nat) {i : Nat} (hi : i < 8) :
    (wordAt natmem t).getLsbD i = (natmem (t + 1)).getLsbD i := by
  unfold wordAt
  rw [BitVec.getLsbD_append, if_pos hi]

theorem mergeBits_clear {mask new old : Word} {i : Nat} (hi : i < 16)
    (h : mask.getLsbD i = false) : (mergeBits mask new old).getLsbD i = old.getLsbD i := by
  unfold mergeBits
  rw [BitVec.getLsbD_or, BitVec.getLsbD_and, BitVec.getLsbD_and, BitVec.getLsbD_not, h]
  simp [hi]

theorem applyVisit_word (hm : HasTtRam m) (s : StRam) {v : Visit} {t : Nat}
    (h : writePlace m v.dst = some t) :
    wordAt (applyVisit (natmemBus m) s v).natmem t =
      mergeBits v.mask (v.result (wordAt s.natmem t)) (wordAt s.natmem t) := by
  have hread : (natmemBus m).read16 s v.dst = wordAt s.natmem t :=
    congrArg (wordAt s.natmem) (readPlace_of_writePlace h)
  unfold applyVisit
  rw [hread, write16_natmem hm, h]
  exact wordAt_writeBlock _ _ _

theorem applyVisit_other (hm : HasTtRam m) (s : StRam) {v : Visit} {p : Nat}
    (h : forall t, writePlace m v.dst = some t -> p ≠ t ∧ p ≠ t + 1) :
    (applyVisit (natmemBus m) s v).natmem p = s.natmem p := by
  unfold applyVisit
  rw [write16_natmem hm]
  cases hplace : writePlace m v.dst with
  | none => rfl
  | some t =>
      have hp := h t hplace
      have hlen := Width.word.length_bytes ((mergeBits v.mask
        (v.result ((natmemBus m).read16 s v.dst)) ((natmemBus m).read16 s v.dst)).setWidth 32)
      have htwo : Width.word.size = 2 := rfl
      exact writeBlock_of_outside (by rw [hlen, htwo]; lia)

theorem applyVisit_bit (hm : HasTtRam m) (s : StRam) {v : Visit} {p i : Nat} (hi : i < 8)
    (h : ¬ v.Sets m p i) :
    ((applyVisit (natmemBus m) s v).natmem p).getLsbD i = (s.natmem p).getLsbD i := by
  rcases Classical.em (exists t, writePlace m v.dst = some t ∧ (p = t ∨ p = t + 1)) with
    ⟨t, hplace, hp⟩ | hother
  · have hword := applyVisit_word hm s hplace
    rcases hp with rfl | rfl
    · have hclear : v.mask.getLsbD (8 + i) = false := by
        rw [Bool.eq_false_iff]
        exact fun hset => h ⟨p, hplace, Or.inl ⟨rfl, hset⟩⟩
      rw [← wordAt_high, ← wordAt_high, hword]
      exact mergeBits_clear (by lia) hclear
    · have hclear : v.mask.getLsbD i = false := by
        rw [Bool.eq_false_iff]
        exact fun hset => h ⟨t, hplace, Or.inr ⟨rfl, hset⟩⟩
      rw [← wordAt_low _ _ hi, ← wordAt_low _ _ hi, hword]
      exact mergeBits_clear (by lia) hclear
  · rw [applyVisit_other hm s]
    intro t hplace
    exact ⟨fun hp => hother ⟨t, hplace, Or.inl hp⟩, fun hp => hother ⟨t, hplace, Or.inr hp⟩⟩

theorem run_applyVisit_bit (hm : HasTtRam m) (s : StRam) {vs : List Visit} {p i : Nat} (hi : i < 8)
    (h : forall v, v ∈ vs -> ¬ v.Sets m p i) :
    ((run (applyVisit (natmemBus m)) s vs).natmem p).getLsbD i = (s.natmem p).getLsbD i := by
  induction vs generalizing s with
  | nil => rfl
  | cons v rest ih =>
      rw [run_cons, ih _ fun v' hv' => h v' (List.mem_cons_of_mem _ hv')]
      exact applyVisit_bit hm s hi (h v List.mem_cons_self)

def fillRegs (dst : Long) : RegisterFile :=
  wr16 (wr16 (wr32 (wr16 (fun o => if o = 0x3B#6 then 15 else 0) 0x28#6 0x00F0) 0x32#6 dst)
    0x36#6 1) 0x38#6 1

def fillBlit (dst : Long) : StBlitter StRam where
  R := fillRegs dst
  fifo := 0
  busWord := 0
  busyUntil := 0
  accesses := 0
  mem := StRam.blank

def fillVisit (dst : Long) : Visit where
  dst := dst
  mask := 0x00F0
  op := 15
  data := 0xFFFF

def noTtRam : StConfig where
  ttRamAvailable := false
  ttRamSize := 0
  blitTimedNs := 0

theorem smallBoard_hasTtRam : HasTtRam StRam.smallBoard := fun h => (by cases h)

/-- A line of three words, each the inverse of the word before it, with three masks. -/
def smearRegs : RegisterFile :=
  let masks := wr16 (wr16 (wr16 (fun _ => 0) 0x28#6 0x00FF) 0x2A#6 0xFFFF) 0x2C#6 0xFF00
  let source := wr32 (wr16 masks 0x20#6 2) 0x24#6 0x20000
  let dest := wr32 (wr16 source 0x2E#6 2) 0x32#6 0x20002
  wr16 (wr16 (wr16 dest 0x36#6 3) 0x38#6 1) 0x3A#6 0x020C

def smearBlit : StBlitter StRam := { fillBlit 0x20002 with R := smearRegs }

def smearVisit (dst : Long) (mask data : Word) : Visit where
  dst := dst
  mask := mask
  op := 12
  data := data

end Blitter
end PistormAtari
