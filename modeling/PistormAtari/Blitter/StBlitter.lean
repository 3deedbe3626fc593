import PistormAtari.Blitter.RegisterFile
import PistormAtari.Foundation.WhileLoop

/-!
# The run-to-completion blitter

`st_blitter.c`: the whole blit runs inside the register write that sets BUSY.
The locals of `blit_run` that its loop never assigns are `RunConsts`, the
others together with the globals the loop touches are `RunLocals`.
-/

namespace PistormAtari
namespace Blitter

open Foundation

/-!
## State
-/

/-- What `blit_run` reads of the rest of the emulator: the TT-RAM mapping and
the live `blit_timed_ns` tunable. -/
structure StConfig where
  ttRamAvailable : Bool
  ttRamSize : Long
  blitTimedNs : Int

/-- The globals of `st_blitter.c` together with the memory it works on. -/
structure StBlitter (μ : Type _) where
  R : RegisterFile
  fifo : Long
  busWord : Word
  busyUntil : BitVec 64
  accesses : Long
  mem : μ

def blitIsTt (cfg : StConfig) (a : Long) : Bool :=
  cfg.ttRamAvailable && decide (0x01000000#32 ≤ a) &&
    decide (a - 0x01000000#32 < cfg.ttRamSize)

def blitAddrMask (cfg : StConfig) (a : Long) : Long :=
  if blitIsTt cfg a then 0xFFFFFFFE#32 else 0x00FFFFFE#32

theorem blitIsTt_of_no_tt {cfg : StConfig} (h : cfg.ttRamAvailable = false)
    (a : Long) : blitIsTt cfg a = false := by
  simp [blitIsTt, h]

theorem blitAddrMask_of_no_tt {cfg : StConfig} (h : cfg.ttRamAvailable = false)
    (a : Long) : blitAddrMask cfg a = 0x00FFFFFE#32 := by
  simp [blitAddrMask, blitIsTt_of_no_tt h]

/-- `blit_timing_cfg`: 0 is instant, else nanoseconds per bus access. -/
def blitTimingCfg (cfg : StConfig) : Int :=
  if cfg.blitTimedNs < 0 ∨ cfg.blitTimedNs > 100000 then 0 else cfg.blitTimedNs

namespace StBlitter

/-- `sanitize` of `st_blitter.c`: the top address bytes are kept as written. -/
def sanitize (R : RegisterFile) : RegisterFile := fun o =>
  if o = 0x21#6 ∨ o = 0x23#6 ∨ o = 0x2F#6 ∨ o = 0x31#6 ∨ o = 0x27#6 ∨ o = 0x35#6 then
    R o &&& 0xFE
  else if o = 0x3A#6 then R o &&& 0x03
  else if o = 0x3B#6 then R o &&& 0x0F
  else if o = 0x3C#6 then R o &&& 0xEF
  else if o = 0x3D#6 then R o &&& 0xCF
  else R o

def blitOp (op : Byte) (s d : Word) : Word :=
  match (op &&& 0xF).toNat with
  | 0 => 0x0000
  | 1 => s &&& d
  | 2 => s &&& ~~~d
  | 3 => s
  | 4 => ~~~s &&& d
  | 5 => d
  | 6 => s ^^^ d
  | 7 => s ||| d
  | 8 => ~~~s &&& ~~~d
  | 9 => ~~~(s ^^^ d)
  | 10 => ~~~d
  | 11 => s ||| ~~~d
  | 12 => ~~~s
  | 13 => ~~~s ||| d
  | 14 => ~~~s ||| ~~~d
  | _ => 0xFFFF

end StBlitter

/-!
## The blit engine
-/

structure RunConsts where
  smask : Long
  dmask : Long
  sxi : Long
  syi : Long
  dxi : Long
  dyi : Long
  em1 : Word
  em2 : Word
  em3 : Word
  xc : Nat
  hop : Byte
  op : Byte
  smudge : Bool
  fxsr : Bool
  nfsr : Bool
  skew : Nat
  desc : Bool

structure RunLocals (μ : Type _) where
  src : Long
  dst : Long
  yc : Nat
  x : Nat
  line : Long
  haveFxsr : Bool
  stFxsr : Bool
  stNfsr : Bool
  buf : Long
  busWord : Word
  accesses : Long
  mem : μ

namespace StBlitter

variable {μ : Type _}

def runConsts (cfg : StConfig) (R : RegisterFile) : RunConsts where
  smask := blitAddrMask cfg (rd32 R 0x24#6)
  dmask := blitAddrMask cfg (rd32 R 0x32#6)
  sxi := (rd16 R 0x20#6).signExtend 32
  syi := (rd16 R 0x22#6).signExtend 32
  dxi := (rd16 R 0x2E#6).signExtend 32
  dyi := (rd16 R 0x30#6).signExtend 32
  em1 := rd16 R 0x28#6
  em2 := rd16 R 0x2A#6
  em3 := rd16 R 0x2C#6
  -- an X count of 0 stands for 65536 words
  xc := if (rd16 R 0x36#6).toNat = 0 then 65536 else (rd16 R 0x36#6).toNat
  hop := R 0x3A#6 &&& 3
  op := R 0x3B#6 &&& 0xF
  smudge := R 0x3C#6 &&& 0x20 != 0
  fxsr := R 0x3D#6 &&& 0x80 != 0
  nfsr := R 0x3D#6 &&& 0x40 != 0
  skew := (R 0x3D#6 &&& 0xF).toNat
  desc := ((rd16 R 0x20#6).signExtend 32).slt 0

def runLocals (cfg : StConfig) (s : StBlitter μ) : RunLocals μ where
  src := rd32 s.R 0x24#6 &&& blitAddrMask cfg (rd32 s.R 0x24#6)
  dst := rd32 s.R 0x32#6 &&& blitAddrMask cfg (rd32 s.R 0x32#6)
  yc := (rd16 s.R 0x38#6).toNat
  x := (runConsts cfg s.R).xc
  line := (s.R 0x3C#6 &&& 0xF).setWidth 32
  haveFxsr := false
  stFxsr := false
  stNfsr := false
  buf := s.fifo
  busWord := s.busWord
  accesses := 0
  mem := s.mem

/-- The body of the `while (yc)` loop of `blit_run`: one word, hardware order. -/
def processWord (bus : BlitBus μ) (R : RegisterFile) (c : RunConsts)
    (l : RunLocals μ) : RunLocals μ :=
  let firstWord := l.x == c.xc
  let mask :=
    if firstWord || c.xc == 1 then c.em1 else if l.x == 1 then c.em3 else c.em2
  let stNfsr := if firstWord then false else l.stNfsr
  let stFxsr := if firstWord then c.fxsr else l.stFxsr
  let needSrc := lopSrc c.op && (c.hop &&& 2 != 0 || (c.hop == 1 && c.smudge))
  let needDst := lopDst c.op || mask != 0xFFFF
  -- FXSR: one extra source word before the first word of a line
  let force := stFxsr && !l.haveFxsr && needSrc
  let word1 := if force then bus.read16 l.mem l.src else l.busWord
  let buf1 := if force then fifoPush c.desc l.buf word1 else l.buf
  let src1 := if force then (l.src + c.sxi) &&& c.smask else l.src
  let haveFxsr := l.haveFxsr || force
  let acc1 := if force then l.accesses + 1 else l.accesses
  let fetchSrc := needSrc && !stNfsr
  let word2 := if fetchSrc then bus.read16 l.mem src1 else word1
  let buf2 := if fetchSrc then fifoPush c.desc buf1 word2 else buf1
  let acc2 := if fetchSrc then acc1 + 1 else acc1
  let dstWord := if needDst then bus.read16 l.mem l.dst else 0
  let word3 := if needDst then dstWord else word2
  let acc3 := if needDst then acc2 + 1 else acc2
  -- NFSR: the last word of a line re-inserts the bus latch
  let suppress := c.nfsr && l.x == 1 && needSrc
  let buf3 := if suppress then fifoPush c.desc buf2 word3 else buf2
  let sw : Word := (buf3 >>> c.skew).setWidth 16
  let ht := rd16 R
    (BitVec.ofNat 6 ((if c.smudge then (sw &&& 0xF).toNat else l.line.toNat) * 2))
  let sdata : Word :=
    match c.hop.toNat with
    | 0 => 0xFFFF
    | 1 => ht
    | 2 => sw
    | _ => sw &&& ht
  let out :=
    if mask != 0xFFFF then
      (blitOp c.op sdata dstWord &&& mask) ||| (dstWord &&& ~~~mask)
    else blitOp c.op sdata dstWord
  let mem := bus.write16 l.mem l.dst out
  let buf4 := if suppress then fifoPush c.desc buf3 out else buf3
  let stNfsr' := if l.x == 2 && c.nfsr then true else stNfsr
  let src2 :=
    if fetchSrc then
      (src1 + (if l.x == 1 || stNfsr' then c.syi else c.sxi)) &&& c.smask
    else src1
  if l.x == 1 then
    { src := src2
      dst := (l.dst + c.dyi) &&& c.dmask
      yc := l.yc - 1
      x := c.xc
      line := nextLine l.line c.dyi
      haveFxsr := false
      stFxsr := stFxsr
      stNfsr := stNfsr'
      buf := buf4
      busWord := out
      accesses := acc3 + 1
      mem := mem }
  else
    { src := src2
      dst := (l.dst + c.dxi) &&& c.dmask
      yc := l.yc
      x := l.x - 1
      line := l.line
      haveFxsr := haveFxsr
      stFxsr := stFxsr
      stNfsr := stNfsr'
      buf := buf4
      busWord := out
      accesses := acc3 + 1
      mem := mem }

/-- `while (yc)`. -/
def linesLeft (l : RunLocals μ) : Bool :=
  l.yc != 0

def wordsLeft (c : RunConsts) (l : RunLocals μ) : Nat :=
  if l.yc = 0 then 0 else (l.yc - 1) * c.xc + l.x

/-- The loop of `blit_run`, with as much fuel as there are words. -/
def runLoop (bus : BlitBus μ) (R : RegisterFile) (c : RunConsts)
    (l : RunLocals μ) : RunLocals μ :=
  whileFuel linesLeft (processWord bus R c) (wordsLeft c l) l

variable (bus : BlitBus μ) (R : RegisterFile)

theorem processWord_counters (c : RunConsts) (l : RunLocals μ) :
    ((processWord bus R c l).x = if l.x = 1 then c.xc else l.x - 1) ∧
      ((processWord bus R c l).yc = if l.x = 1 then l.yc - 1 else l.yc) := by
  unfold processWord
  extract_lets
  by_cases hx : l.x = 1
  · simp [hx]
  · simp [hx]

theorem processWord_line (c : RunConsts) (l : RunLocals μ) : (processWord bus R c l).line =
      if l.x = 1 then nextLine l.line c.dyi else l.line := by
  unfold processWord
  extract_lets
  by_cases hx : l.x = 1
  · simp [hx]
  · simp [hx]

/-- The column counter stays between 1 and the words of a line. -/
def InLine (c : RunConsts) (l : RunLocals μ) : Prop :=
  1 ≤ l.x ∧ l.x ≤ c.xc

theorem processWord_inLine {c : RunConsts}
    {l : RunLocals μ} (h : InLine c l) : InLine c (processWord bus R c l) := by
  obtain ⟨hx, _⟩ := processWord_counters bus R c l
  unfold InLine at *
  rw [hx]
  split <;> lia

theorem processWord_wordsLeft {c : RunConsts}
    {l : RunLocals μ} (h : InLine c l) (hy : l.yc ≠ 0) :
    wordsLeft c (processWord bus R c l) < wordsLeft c l := by
  obtain ⟨hx, hyc⟩ := processWord_counters bus R c l
  unfold wordsLeft InLine at *
  rw [hx, hyc]
  obtain ⟨k, hk⟩ := Nat.exists_eq_succ_of_ne_zero hy
  by_cases h1 : l.x = 1
  · cases k with
    | zero => simp [hk, h1]
    | succ k =>
        simp only [hk, h1, if_true]
        simp [Nat.succ_mul]
  · simp only [h1, if_false, hy]
    lia

theorem runLoop_yc {c : RunConsts}
    {l : RunLocals μ} (h : InLine c l) : (runLoop bus R c l).yc = 0 := by
  have hlow : Lowers linesLeft (processWord bus R c) (InLine c) (wordsLeft c) := by
    intro l' hl' hcond
    have hy : l'.yc ≠ 0 := by simpa [linesLeft] using hcond
    exact ⟨processWord_inLine bus R hl', processWord_wordsLeft bus R hl' hy⟩
  have hexit : linesLeft (runLoop bus R c l) = false :=
    whileFuel_exits hlow h (Nat.le_refl (wordsLeft c l))
  simpa [linesLeft] using hexit

def writeBack (cfg : StConfig) (now : BitVec 64) (s : StBlitter μ) (c : RunConsts)
    (l : RunLocals μ) : StBlitter μ :=
  let ns := blitTimingCfg cfg
  -- shared mode owns every other 64-access slot only
  let dur := (l.accesses.setWidth 64 * BitVec.ofInt 64 ns) *
    (if s.R 0x3C#6 &&& 0x40 != 0 then 1 else 2)
  let R1 := wr32 s.R 0x24#6 (l.src &&& c.smask)
  let R2 := wr32 R1 0x32#6 (l.dst &&& c.dmask)
  let R3 := wr16 R2 0x38#6 0
  { R := Function.update R3 0x3C#6 ((R3 0x3C#6 &&& 0x60) ||| l.line.setWidth 8)
    fifo := l.buf
    busWord := l.busWord
    busyUntil := if ns = 0 then s.busyUntil else now + dur
    accesses := l.accesses
    mem := l.mem }

def blitRun (bus : BlitBus μ) (cfg : StConfig) (now : BitVec 64)
    (s : StBlitter μ) : StBlitter μ :=
  if (rd16 s.R 0x38#6).toNat = 0 then
    -- an exhausted Y count: the hardware does not start
    { s with R := Function.update s.R 0x3C#6 (s.R 0x3C#6 &&& 0x7F) }
  else
    let c := runConsts cfg s.R
    writeBack cfg now s c (runLoop bus s.R c (runLocals cfg s))

theorem runLoop_line {c : RunConsts} {l : RunLocals μ} (h : l.line.toNat < 16) :
    (runLoop bus R c l).line.toNat < 16 := by
  have hbody : forall l' : RunLocals μ, l'.line.toNat < 16 -> linesLeft l' = true ->
      (processWord bus R c l').line.toNat < 16 := by
    intro l' hl' _
    rw [processWord_line]
    split
    · exact nextLine_lt _ _
    · exact hl'
  exact @whileFuel_invariant _ _ _ (fun l : RunLocals μ => l.line.toNat < 16) hbody _ _ h

theorem runLocals_line (cfg : StConfig) (s : StBlitter μ) :
    (runLocals cfg s).line.toNat < 16 := by
  show ((s.R 0x3C#6 &&& 0xF).setWidth 32).toNat < 16
  rw [BitVec.toNat_setWidth, BitVec.toNat_and]
  have hle : (s.R 0x3C#6).toNat &&& (0xF : Byte).toNat ≤ (0xF : Byte).toNat :=
    Nat.and_le_right
  have hnum : (0xF : Byte).toNat = 15 := rfl
  lia

theorem control_nibble_low (b : Byte) {line : Long} (h : line.toNat < 16) :
    ((b &&& 0x60) ||| line.setWidth 8) &&& 0x7F = (b &&& 0x60) ||| line.setWidth 8 := by
  have hhigh : (line.setWidth 8 : Byte).getLsbD 7 = false := by
    rw [BitVec.getLsbD_setWidth]
    have hlt : line.toNat < 2 ^ 7 := by lia
    simp [BitVec.getLsbD, Nat.testBit_lt_two_pow hlt]
  apply BitVec.eq_of_getLsbD_eq
  intro i hi
  by_cases h7 : i = 7
  · subst h7
    simp only [BitVec.getLsbD_and, BitVec.getLsbD_or, hhigh]
    simp
  · have hone : (0x7F : Byte).getLsbD i = true := by
      interval_cases i
      all_goals first | rfl | exact absurd rfl h7
    rw [BitVec.getLsbD_and, hone, Bool.and_true]

theorem blitRun_busy_clear (cfg : StConfig) (now : BitVec 64)
    (s : StBlitter μ) : (blitRun bus cfg now s).R 0x3C#6 &&& 0x7F =
      (blitRun bus cfg now s).R 0x3C#6 := by
  unfold blitRun
  split
  · dsimp only
    rw [Function.update_self, BitVec.and_assoc, BitVec.and_self]
  · unfold writeBack
    dsimp only
    rw [Function.update_self]
    exact control_nibble_low _ (runLoop_line bus s.R (runLocals_line cfg s))

/-!
## Guest-visible register access
-/

/-- The BUSY bit is still shown for the time the real chip would need. -/
def BusyWindow (s : StBlitter μ) (now : BitVec 64) : Prop :=
  s.busyUntil ≠ 0 ∧ now < s.busyUntil

instance (s : StBlitter μ) (now : BitVec 64) : Decidable (s.BusyWindow now) :=
  inferInstanceAs (Decidable (_ ∧ _))

def readByte (cfg : StConfig) (now : BitVec 64) (s : StBlitter μ)
    (o : BitVec 6) : Byte :=
  let b :=
    if (o = 0x24#6 ∧ blitIsTt cfg (rd32 s.R 0x24#6) = false) ∨
        (o = 0x32#6 ∧ blitIsTt cfg (rd32 s.R 0x32#6) = false) then 0
    else s.R o
  if o = 0x3C#6 ∧ s.BusyWindow now then b ||| 0x80 else b

def regRead (cfg : StConfig) (now : BitVec 64) (s : StBlitter μ) (addr : Long)
    (size : Nat) : Long :=
  peekBytes (readByte cfg now s) (regOffset addr) size

def regWrite (bus : BlitBus μ) (cfg : StConfig) (now : BitVec 64)
    (s : StBlitter μ) (addr val : Long) (size : Nat) : StBlitter μ :=
  let off := regOffset addr
  let s' := { s with R := sanitize (pokeBytes s.R off val size) }
  if off.toNat ≤ 0x3C ∧ 0x3C < off.toNat + size ∧ s'.R 0x3C#6 &&& 0x80 ≠ 0 then
    blitRun bus cfg now s'
  else s'

def reset (s : StBlitter μ) : StBlitter μ :=
  { s with R := fun _ => 0, fifo := 0, busWord := 0, busyUntil := 0 }

end StBlitter

end Blitter
end PistormAtari
