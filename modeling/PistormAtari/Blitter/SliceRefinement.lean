import PistormAtari.Blitter.StBlitter
import PistormAtari.Blitter.StboxBlit

/-!
# The resumable blitter refines the run-to-completion blitter

The loop of `blit_run` and the calls of `stbox_blit_step` are both iterations
of one word.  The two word functions move related states to related states, and
both engines stand still once the last line is done, so the state in which the
resumable engine goes idle does not depend on how its words were sliced.
-/

namespace PistormAtari
namespace Blitter

open Foundation

variable {μ : Type _}

theorem blitOp_agree (op : Byte) (s d : Word) :
    StboxBlit.blitOp op s d = StBlitter.blitOp op s d := by
  unfold StboxBlit.blitOp StBlitter.blitOp
  rewrite [BitVec.not_or, BitVec.not_and]
  rfl

/-!
## Frame facts of the register file
-/

theorem wr16_apply_of_ne {R : RegisterFile} {off o : BitVec 6} (v : Word)
    (h0 : o ≠ off) (h1 : o ≠ off + 1#6) : wr16 R off v o = R o := by
  simp [wr16, h0, h1]

theorem wr32_apply_of_ne {R : RegisterFile} {off o : BitVec 6} (v : Long)
    (h0 : o ≠ off) (h1 : o ≠ off + 1#6) (h2 : o ≠ off + 2#6) (h3 : o ≠ off + 2#6 + 1#6) :
    wr32 R off v o = R o := by
  unfold wr32
  rw [wr16_apply_of_ne _ h2 h3, wr16_apply_of_ne _ h0 h1]

variable {R R' : RegisterFile}

theorem wr16_agree {off o : BitVec 6} (v : Word)
    (h : o ≠ off -> o ≠ off + 1#6 -> R o = R' o) : wr16 R off v o = wr16 R' off v o := by
  unfold wr16
  by_cases h1 : o = off + 1#6
  · simp [h1]
  · by_cases h0 : o = off
    · subst h0
      rw [Function.update_of_ne h1, Function.update_of_ne h1, Function.update_self,
        Function.update_self]
    · simp [h0, h1, h h0 h1]

theorem wr32_agree {off o : BitVec 6} (v : Long)
    (h : o ≠ off -> R o = R' o) : wr32 R off v o = wr32 R' off v o := by
  unfold wr32
  apply wr16_agree
  intro _ _
  apply wr16_agree
  intro h0 _
  exact h h0

/-- A register the resumable engine keeps in step only at the end of a blit:
the top address bytes, the Y count and the control byte. -/
def Scratch (o : BitVec 6) : Prop :=
  o = 0x24#6 ∨ o = 0x32#6 ∨ o = 0x38#6 ∨ o = 0x39#6 ∨ o = 0x3C#6

theorem halftone_not_scratch {k : Nat} (hk : k < 16) :
    ¬ Scratch (BitVec.ofNat 6 (k * 2)) ∧ ¬ Scratch (BitVec.ofNat 6 (k * 2) + 1#6) := by
  unfold Scratch
  interval_cases k <;> decide

/-!
## One word
-/

def InFlight.ofRun (c : RunConsts) (l : RunLocals μ) : InFlight where
  src := l.src
  dst := l.dst
  sxi := c.sxi
  syi := c.syi
  dxi := c.dxi
  dyi := c.dyi
  em1 := c.em1
  em2 := c.em2
  em3 := c.em3
  xc := c.xc
  yc := l.yc
  x := l.x
  hop := c.hop
  op := c.op
  line := l.line
  smudge := c.smudge
  fxsr := c.fxsr
  nfsr := c.nfsr
  skew := c.skew
  desc := c.desc
  haveFxsr := l.haveFxsr
  stFxsr := l.stFxsr
  stNfsr := l.stNfsr

/-- The resumable engine holds the loop state of a `blit_run` that was started
on the register file `R`. -/
structure Carries (R : RegisterFile) (c : RunConsts) (l : RunLocals μ)
    (s : StboxBlit μ) : Prop where
  flight : s.B = InFlight.ofRun c l
  fifo : s.fifo = l.buf
  busWord : s.busWord = l.busWord
  mem : s.mem = l.mem
  line : l.line.toNat < 16
  regs : forall o, ¬ Scratch o -> s.R o = R o
  control : s.R 0x3C#6 &&& 0x60 = R 0x3C#6 &&& 0x60

theorem halftone_agree {R : RegisterFile} {c : RunConsts} {l : RunLocals μ}
    {s : StboxBlit μ} (h : Carries R c l s) (sw : Word) :
    rd16 s.R (BitVec.ofNat 6
        ((if c.smudge then (sw &&& 0xF).toNat else l.line.toNat) * 2)) =
      rd16 R (BitVec.ofNat 6
        ((if c.smudge then (sw &&& 0xF).toNat else l.line.toNat) * 2)) := by
  have hlt : (if c.smudge then (sw &&& 0xF).toNat else l.line.toNat) < 16 := by
    split
    · rw [BitVec.toNat_and]
      exact Nat.lt_of_le_of_lt Nat.and_le_right (by decide)
    · exact h.line
  have hnot := halftone_not_scratch hlt
  exact rd16_congr (h.regs _ hnot.1) (h.regs _ hnot.2)

theorem control_line_end (b line : Byte) (hline : line &&& 0xE0 = 0) :
    ((b &&& 0xE0) ||| line) &&& 0x60 = b &&& 0x60 := by
  have hlow : line &&& 0x60 = 0 := by
    have hsplit : line &&& 0x60 = (line &&& 0xE0) &&& 0x60 := by
      rw [BitVec.and_assoc]
      rfl
    rw [hsplit, hline]
    rfl
  calc
    ((b &&& 0xE0) ||| line) &&& 0x60 =
        ((b &&& 0xE0) &&& 0x60) ||| (line &&& 0x60) := by
      ext i
      simp [Bool.and_or_distrib_right]
    _ = b &&& 0x60 := by
      rw [hlow, BitVec.and_assoc]
      simp

theorem nextLine_high (line dyi : Long) :
    (nextLine line dyi).setWidth 8 &&& 0xE0 = (0 : Byte) := by
  unfold nextLine
  ext i hi
  interval_cases i <;> simp

theorem showLine_apply {o : BitVec 6} (R : RegisterFile) (yc : Nat) (line : Long)
    (ho : ¬ Scratch o) : StboxBlit.showLine R yc line o = R o := by
  have hne : o ≠ 0x3C#6 ∧ o ≠ 0x38#6 ∧ o ≠ 0x38#6 + 1#6 := by
    unfold Scratch at ho
    refine ⟨?_, ?_, ?_⟩
    all_goals
      intro h
      exact ho (by simp [h])
  unfold StboxBlit.showLine
  rw [Function.update_of_ne hne.1, wr16_apply_of_ne _ hne.2.1 hne.2.2]

theorem showLine_control (R : RegisterFile) (yc : Nat) (line dyi : Long) :
    StboxBlit.showLine R yc (nextLine line dyi) 0x3C#6 &&& 0x60 = R 0x3C#6 &&& 0x60 := by
  unfold StboxBlit.showLine
  rw [Function.update_self, wr16_apply_of_ne _ (by decide) (by decide)]
  exact control_line_end _ _ (nextLine_high line dyi)

variable (bus : BlitBus μ)

theorem blitWord_carries {R : RegisterFile} {c : RunConsts} {l : RunLocals μ} {s : StboxBlit μ}
    (hs : c.smask = 0x00FFFFFE#32) (hd : c.dmask = 0x00FFFFFE#32)
    (h : Carries R c l s) :
    Carries R c (StBlitter.processWord bus R c l) (StboxBlit.blitWord bus s).2 := by
  have hht := halftone_agree h
  obtain ⟨hflight, hfifo, hbus, hmem, hline, hregs, hctl⟩ := h
  unfold StBlitter.processWord StboxBlit.blitWord
  simp only [hflight, hfifo, hbus, hmem, hs, hd, InFlight.ofRun, blitOp_agree, hht]
  cases hx : l.x == 1 with
  | true =>
      simp only [if_true]
      refine ⟨rfl, rfl, rfl, rfl, nextLine_lt _ _, ?_, ?_⟩
      · intro o ho
        exact (showLine_apply _ _ _ ho).trans (hregs o ho)
      · exact (showLine_control _ _ _ _).trans hctl
  | false =>
      simp only [Bool.false_eq_true, if_false]
      exact ⟨rfl, rfl, rfl, rfl, hline, hregs, hctl⟩

/-!
## Iterations of a word
-/

/-- The two engines after the same number of words: in flight together, or
finished together. -/
def InStep (R : RegisterFile) (c : RunConsts) (l : RunLocals μ) (s : StboxBlit μ) :
    Prop :=
  (l.yc ≠ 0 ∧ s.busy = true ∧ Carries R c l s) ∨
    (l.yc = 0 ∧ exists s0, Carries R c l s0 ∧ s = StboxBlit.blitEnd s0)

theorem inStep_idle_iff {R : RegisterFile} {c : RunConsts} {l : RunLocals μ}
    {s : StboxBlit μ} (h : InStep R c l s) : s.busy = false <-> l.yc = 0 := by
  rcases h with ⟨hy, hbusy, _⟩ | ⟨hy, s0, _, hend⟩
  · simp [hy, hbusy]
  · simp [hy, hend, StboxBlit.blitEnd]

theorem inStep_tick {R : RegisterFile} {c : RunConsts}
    (hs : c.smask = 0x00FFFFFE#32) (hd : c.dmask = 0x00FFFFFE#32)
    (l : RunLocals μ) (s : StboxBlit μ) (h : InStep R c l s) :
    InStep R c (guarded StBlitter.linesLeft (StBlitter.processWord bus R c) l)
      (StboxBlit.tick bus s) := by
  have hidle := inStep_idle_iff h
  rcases h with ⟨hy, hbusy, hcar⟩ | ⟨hy, hend⟩
  · rw [StboxBlit.tick_of_busy bus hbusy,
      guarded_of_cond (by simp [StBlitter.linesLeft, hy])]
    have hcar' := blitWord_carries bus hs hd hcar
    have hyc : (StboxBlit.blitWord bus s).2.B.yc =
        (StBlitter.processWord bus R c l).yc := by
      rw [hcar'.flight]
      rfl
    unfold StboxBlit.advance
    by_cases hz : (StBlitter.processWord bus R c l).yc = 0
    · rw [if_pos (hyc.trans hz)]
      exact Or.inr ⟨hz, _, hcar', rfl⟩
    · rw [if_neg (fun h0 => hz (hyc.symm.trans h0))]
      exact Or.inl ⟨hz, (StboxBlit.blitWord_busy bus s).trans hbusy, hcar'⟩
  · rw [StboxBlit.tick_of_idle bus (hidle.mpr hy),
      guarded_of_not_cond (by simp [StBlitter.linesLeft, hy])]
    exact Or.inr ⟨hy, hend⟩

/-!
## The write-back
-/

/-- The engines hold the same blitter: the register files differ at most in the
two top address bytes, which neither engine lets the guest see. -/
structure Agree (st : StBlitter μ) (sb : StboxBlit μ) : Prop where
  regs : forall o, o ≠ 0x24#6 -> o ≠ 0x32#6 -> sb.R o = st.R o
  fifo : sb.fifo = st.fifo
  busWord : sb.busWord = st.busWord
  mem : sb.mem = st.mem

theorem blitEnd_agree (cfg : StConfig) (now : BitVec 64) {st : StBlitter μ}
    {c : RunConsts} {l : RunLocals μ} {s : StboxBlit μ}
    (hs : c.smask = 0x00FFFFFE#32) (hd : c.dmask = 0x00FFFFFE#32)
    (h : Carries st.R c l s) :
    Agree (StBlitter.writeBack cfg now st c l) (StboxBlit.blitEnd s) := by
  obtain ⟨hflight, hfifo, hbus, hmem, hline, hregs, hctl⟩ := h
  refine ⟨?_, hfifo, hbus, hmem⟩
  intro o h24 h32
  simp only [StBlitter.writeBack, StboxBlit.blitEnd, hflight, InFlight.ofRun, hs, hd]
  by_cases hc : o = 0x3C#6
  · subst hc
    rw [Function.update_self, Function.update_self]
    rw [wr16_apply_of_ne _ (by decide) (by decide),
      wr32_apply_of_ne _ (by decide) (by decide) (by decide) (by decide),
      wr32_apply_of_ne _ (by decide) (by decide) (by decide) (by decide),
      wr16_apply_of_ne _ (by decide) (by decide),
      wr32_apply_of_ne _ (by decide) (by decide) (by decide) (by decide),
      wr32_apply_of_ne _ (by decide) (by decide) (by decide) (by decide), hctl]
  · rw [Function.update_of_ne hc, Function.update_of_ne hc]
    apply wr16_agree
    intro h38 h39
    apply wr32_agree
    intro _
    apply wr32_agree
    intro _
    apply hregs
    unfold Scratch
    rintro (h | h | h | h | h)
    · exact h24 h
    · exact h32 h
    · exact h38 h
    · exact h39 h
    · exact hc h

/-!
## The start of a blit
-/

theorem addressMask_top (i : Nat) (h24 : 24 ≤ i) (h32 : i < 32) :
    (0x00FFFFFE#32).getLsbD i = false := by
  interval_cases i <;> rfl

theorem top_byte_masked (x : Byte) (y : Word) (z : Long) :
    (((x.setWidth 16 <<< 8) ||| y).setWidth 32 <<< 16 ||| z) &&& 0x00FFFFFE#32 =
      (y.setWidth 32 <<< 16 ||| z) &&& 0x00FFFFFE#32 := by
  apply BitVec.eq_of_getLsbD_eq
  intro i hi
  rw [BitVec.getLsbD_and, BitVec.getLsbD_and]
  by_cases h : i < 24
  · have hshift : ¬ i < 16 -> i - 16 < 8 := by lia
    simp only [BitVec.getLsbD_or, BitVec.getLsbD_shiftLeft, BitVec.getLsbD_setWidth]
    by_cases h16 : i < 16
    · simp only [h16, decide_true, Bool.not_true, Bool.and_false, Bool.false_and]
    · simp only [hshift h16, decide_true, Bool.not_true, Bool.and_false,
        Bool.false_and, Bool.false_or]
  · rw [addressMask_top i (by lia) hi, Bool.and_false, Bool.and_false]

theorem rd32_masked_agree (off : BitVec 6)
    (h1 : R (off + 1#6) = R' (off + 1#6)) (h2 : R (off + 2#6) = R' (off + 2#6))
    (h3 : R (off + 2#6 + 1#6) = R' (off + 2#6 + 1#6)) :
    rd32 R off &&& 0x00FFFFFE#32 = rd32 R' off &&& 0x00FFFFFE#32 := by
  unfold rd32 rd16
  rw [top_byte_masked, top_byte_masked, h1, h2, h3]

theorem pokeBytes_agree {o : BitVec 6} (h : R o = R' o)
    (off : BitVec 6) (val : Long) (size : Nat) :
    pokeBytes R off val size o = pokeBytes R' off val size o := by
  unfold pokeBytes
  generalize List.range size = is
  induction is generalizing R R' with
  | nil => exact h
  | cons i rest ih =>
      rw [List.foldl_cons, List.foldl_cons]
      apply ih
      by_cases ho : o = off + BitVec.ofNat 6 i
      · rw [ho, Function.update_self, Function.update_self]
      · rw [Function.update_of_ne ho, Function.update_of_ne ho]
        exact h

theorem sanitize_agree {o : BitVec 6} (h24 : o ≠ 0x24#6) (h32 : o ≠ 0x32#6) (h : R o = R' o) :
    StboxBlit.sanitize R o = StBlitter.sanitize R' o := by
  unfold StboxBlit.sanitize StBlitter.sanitize
  simp [h24, h32, h]

theorem carries_begin {cfg : StConfig} (htt : cfg.ttRamAvailable = false)
    {st : StBlitter μ} {sb : StboxBlit μ} (h : Agree st sb) :
    Carries st.R (StBlitter.runConsts cfg st.R) (StBlitter.runLocals cfg st)
      { sb with B := StboxBlit.beginState sb.R, busy := true } := by
  have hreg : forall o, o ≠ 0x24#6 -> o ≠ 0x32#6 -> sb.R o = st.R o := h.regs
  have hword : forall off : BitVec 6, off ≠ 0x24#6 -> off ≠ 0x32#6 ->
      off + 1#6 ≠ 0x24#6 -> off + 1#6 ≠ 0x32#6 -> rd16 sb.R off = rd16 st.R off := by
    intro off h0 h1 h2 h3
    exact rd16_congr (hreg _ h0 h1) (hreg _ h2 h3)
  have hflight : StboxBlit.beginState sb.R =
      InFlight.ofRun (StBlitter.runConsts cfg st.R) (StBlitter.runLocals cfg st) := by
    unfold StboxBlit.beginState InFlight.ofRun StBlitter.runConsts StBlitter.runLocals
    simp only [blitAddrMask_of_no_tt htt]
    rw [rd32_masked_agree 0x24#6 (hreg _ (by decide) (by decide))
        (hreg _ (by decide) (by decide)) (hreg _ (by decide) (by decide)),
      rd32_masked_agree 0x32#6 (hreg _ (by decide) (by decide))
        (hreg _ (by decide) (by decide)) (hreg _ (by decide) (by decide)),
      hword 0x20#6 (by decide) (by decide) (by decide) (by decide),
      hword 0x22#6 (by decide) (by decide) (by decide) (by decide),
      hword 0x2E#6 (by decide) (by decide) (by decide) (by decide),
      hword 0x30#6 (by decide) (by decide) (by decide) (by decide),
      hword 0x28#6 (by decide) (by decide) (by decide) (by decide),
      hword 0x2A#6 (by decide) (by decide) (by decide) (by decide),
      hword 0x2C#6 (by decide) (by decide) (by decide) (by decide),
      hword 0x36#6 (by decide) (by decide) (by decide) (by decide),
      hword 0x38#6 (by decide) (by decide) (by decide) (by decide),
      hreg 0x3A#6 (by decide) (by decide), hreg 0x3B#6 (by decide) (by decide),
      hreg 0x3C#6 (by decide) (by decide), hreg 0x3D#6 (by decide) (by decide)]
    rfl
  refine ⟨hflight, h.fifo, h.busWord, h.mem, ?_, ?_, ?_⟩
  · exact StBlitter.runLocals_line cfg st
  · intro o ho
    unfold Scratch at ho
    exact hreg o (fun h0 => ho (by simp [h0])) (fun h0 => ho (by simp [h0]))
  · show sb.R 0x3C#6 &&& 0x60 = st.R 0x3C#6 &&& 0x60
    rw [hreg 0x3C#6 (by decide) (by decide)]

/-!
## Slicing never matters
-/

theorem drive_blitBegin_agree {cfg : StConfig}
    (htt : cfg.ttRamAvailable = false) (now : BitVec 64) {st : StBlitter μ}
    {sb : StboxBlit μ} (h : Agree st sb) {ns : List Int}
    (hns : forall n, n ∈ ns -> 1 ≤ n)
    (hidle : (StboxBlit.drive bus (StboxBlit.blitBegin sb) ns).busy = false) :
    Agree (StBlitter.blitRun bus cfg now st)
      (StboxBlit.drive bus (StboxBlit.blitBegin sb) ns) := by
  have hyc : (rd16 sb.R 0x38#6).toNat = (rd16 st.R 0x38#6).toNat := by
    rw [rd16_congr (h.regs _ (by decide) (by decide)) (h.regs _ (by decide) (by decide))]
  obtain ⟨k, hk⟩ := StboxBlit.drive_eq_tick bus hns (StboxBlit.blitBegin sb)
  rw [hk] at hidle ⊢
  by_cases hz : (rd16 st.R 0x38#6).toNat = 0
  · have hoff : (StboxBlit.blitBegin sb).busy = false := by
      simp [StboxBlit.blitBegin, StboxBlit.beginState, hyc, hz]
    rw [Function.iterate_fixed (StboxBlit.tick_of_idle bus hoff)]
    simp only [StBlitter.blitRun, StboxBlit.blitBegin, StboxBlit.beginState, hyc, hz,
      if_true]
    refine ⟨?_, h.fifo, h.busWord, h.mem⟩
    intro o h24 h32
    by_cases hc : o = 0x3C#6
    · subst hc
      simp [h.regs 0x3C#6 (by decide) (by decide)]
    · simp [hc, h.regs o h24 h32]
  · have hcar := carries_begin htt h
    have hbegin : StboxBlit.blitBegin sb =
        { sb with B := StboxBlit.beginState sb.R, busy := true } := by
      simp [StboxBlit.blitBegin, StboxBlit.beginState, hyc, hz]
    have hstart : InStep st.R (StBlitter.runConsts cfg st.R)
        (StBlitter.runLocals cfg st) (StboxBlit.blitBegin sb) := by
      rw [hbegin]
      exact Or.inl ⟨hz, rfl, hcar⟩
    have hmask := blitAddrMask_of_no_tt htt
    have hsteps := iterate_simulates
      (inStep_tick bus (hmask (rd32 st.R 0x24#6)) (hmask (rd32 st.R 0x32#6)))
      (StBlitter.wordsLeft (StBlitter.runConsts cfg st.R)
        (StBlitter.runLocals cfg st)) hstart
    rw [← whileFuel_eq_iterate] at hsteps
    have hline : StBlitter.InLine (StBlitter.runConsts cfg st.R)
        (StBlitter.runLocals cfg st) := by
      refine ⟨?_, Nat.le_refl _⟩
      show 1 ≤ (StBlitter.runConsts cfg st.R).xc
      unfold StBlitter.runConsts
      dsimp only
      split <;> lia
    have hdone := StBlitter.runLoop_yc bus st.R hline
    have hfix := (inStep_idle_iff hsteps).mpr hdone
    rw [iterate_eq_of_fixed (StboxBlit.tick_of_idle bus hidle)
      (StboxBlit.tick_of_idle bus hfix)]
    rcases hsteps with ⟨hy, _⟩ | ⟨_, s0, hcar0, hend⟩
    · exact absurd hdone hy
    · rw [hend]
      simp only [StBlitter.blitRun, hz, if_false]
      exact blitEnd_agree cfg now (hmask _) (hmask _) hcar0

/-!
## Guest-visible registers at the end of a blit
-/

def TopClear (R : RegisterFile) : Prop :=
  R 0x24#6 = 0 ∧ R 0x32#6 = 0

theorem wr32_masked_top (R : RegisterFile) (off : BitVec 6) (v : Long)
    (h1 : off ≠ off + 1#6) (h2 : off ≠ off + 2#6) (h3 : off ≠ off + 2#6 + 1#6) :
    wr32 R off (v &&& 0x00FFFFFE#32) off = 0 := by
  unfold wr32
  rw [wr16_apply_of_ne _ h2 h3]
  unfold wr16
  rw [Function.update_of_ne h1, Function.update_self]
  apply BitVec.eq_of_getLsbD_eq
  intro i hi
  have hbit := addressMask_top (16 + (8 + i)) (by lia) (by lia)
  simp [hbit]

theorem topClear_blitEnd (s : StboxBlit μ) : TopClear (StboxBlit.blitEnd s).R := by
  unfold TopClear StboxBlit.blitEnd
  constructor
  · dsimp only
    rw [Function.update_of_ne (by decide), wr16_apply_of_ne _ (by decide) (by decide),
      wr32_apply_of_ne _ (by decide) (by decide) (by decide) (by decide)]
    exact wr32_masked_top _ _ _ (by decide) (by decide) (by decide)
  · dsimp only
    rw [Function.update_of_ne (by decide), wr16_apply_of_ne _ (by decide) (by decide)]
    exact wr32_masked_top _ _ _ (by decide) (by decide) (by decide)

theorem topClear_showLine {R : RegisterFile} (yc : Nat) (line : Long)
    (h : TopClear R) : TopClear (StboxBlit.showLine R yc line) := by
  unfold TopClear StboxBlit.showLine
  constructor
  · rw [Function.update_of_ne (by decide), wr16_apply_of_ne _ (by decide) (by decide)]
    exact h.1
  · rw [Function.update_of_ne (by decide), wr16_apply_of_ne _ (by decide) (by decide)]
    exact h.2

theorem topClear_blitWord {s : StboxBlit μ} (h : TopClear s.R) :
    TopClear (StboxBlit.blitWord bus s).2.R := by
  unfold StboxBlit.blitWord
  extract_lets
  split
  · exact topClear_showLine _ _ h
  · exact h

theorem topClear_iterate_tick (k : Nat) {s : StboxBlit μ}
    (h : TopClear s.R) : TopClear ((StboxBlit.tick bus)^[k] s).R := by
  induction k generalizing s with
  | zero => exact h
  | succ k ih =>
      rw [Function.iterate_succ_apply]
      apply ih
      cases hbusy : s.busy with
      | false =>
          rw [StboxBlit.tick_of_idle bus hbusy]
          exact h
      | true =>
          rw [StboxBlit.tick_of_busy bus hbusy]
          unfold StboxBlit.advance
          extract_lets s'
          split
          · exact topClear_blitEnd s'
          · exact topClear_blitWord bus h

theorem topClear_sanitize (R : RegisterFile) : TopClear (StboxBlit.sanitize R) := by
  constructor <;> rfl

theorem topClear_blitBegin {s : StboxBlit μ} (h : TopClear s.R) :
    TopClear (StboxBlit.blitBegin s).R := by
  have hcontrol : forall v, TopClear (Function.update s.R 0x3C#6 v) := by
    intro v
    constructor
    · rw [Function.update_of_ne (by decide)]
      exact h.1
    · rw [Function.update_of_ne (by decide)]
      exact h.2
  unfold StboxBlit.blitBegin
  dsimp only
  split
  · exact hcontrol _
  · exact h

/-- What a guest and the next blit can tell of a finished blit.  The register
reads of `st_blitter.c` show BUSY for the time the real chip would have needed;
apart from that bit, and once the time is over without exception, they return
what the resumable engine returns. -/
structure SameOutcome (cfg : StConfig) (st : StBlitter μ) (sb : StboxBlit μ) :
    Prop where
  mem : sb.mem = st.mem
  fifo : sb.fifo = st.fifo
  busWord : sb.busWord = st.busWord
  readByte : forall now o, st.readByte cfg now o =
    sb.readByte o ||| (if o = 0x3C#6 ∧ st.BusyWindow now then 0x80 else 0)
  regRead : forall now addr size, ¬ st.BusyWindow now ->
    st.regRead cfg now addr size = sb.regRead addr size

theorem sameOutcome_of_agree {cfg : StConfig} (htt : cfg.ttRamAvailable = false)
    {st : StBlitter μ} {sb : StboxBlit μ} (h : Agree st sb)
    (hclear : st.R 0x3C#6 &&& 0x7F = st.R 0x3C#6) (htop : TopClear sb.R)
    (hidle : sb.busy = false) : SameOutcome cfg st sb := by
  have hbyte : forall now o, st.readByte cfg now o =
      sb.readByte o ||| (if o = 0x3C#6 ∧ st.BusyWindow now then 0x80 else 0) := by
    intro now o
    unfold StBlitter.readByte StboxBlit.readByte
    simp only [blitIsTt_of_no_tt htt]
    by_cases h24 : o = 0x24#6
    · subst h24
      simp [htop.1]
    · by_cases h32 : o = 0x32#6
      · subst h32
        simp [htop.2]
      · by_cases hc : o = 0x3C#6
        · subst hc
          simp only [hidle, h.regs 0x3C#6 h24 h32, hclear]
          by_cases hwin : st.BusyWindow now
          · simp [hwin]
          · simp [hwin]
        · simp [h24, h32, hc, h.regs o h24 h32]
  refine ⟨h.mem, h.fifo, h.busWord, hbyte, ?_⟩
  intro now addr size hwin
  unfold StBlitter.regRead StboxBlit.regRead
  apply peekBytes_congr
  intro o
  rw [hbyte now o]
  simp [hwin]

/-!
## The BUSY write
-/

/-- A guest write that spans the control byte and leaves BUSY set in it. -/
def BusyWrite (R : RegisterFile) (addr val : Long) (size : Nat) : Prop :=
  (regOffset addr).toNat ≤ 0x3C ∧ 0x3C < (regOffset addr).toNat + size ∧
    StBlitter.sanitize (pokeBytes R (regOffset addr) val size) 0x3C#6 &&& 0x80 ≠ 0

/-- However the words of a blit are sliced into `stbox_blit_step` calls, the
blit started by a BUSY write ends as one `blit_run` does; and calls enough to
make it end are any as many as there are words. -/
theorem blitStep_slices_refine_blitRun (bus : BlitBus μ) {cfg : StConfig}
    (htt : cfg.ttRamAvailable = false) (now : BitVec 64) {st : StBlitter μ}
    {sb : StboxBlit μ} (h : Agree st sb) (hoff : sb.busy = false)
    {addr val : Long} {size : Nat} (hwrite : BusyWrite st.R addr val size)
    {ns : List Int} (hns : forall n, n ∈ ns -> 1 ≤ n) :
    ((StboxBlit.drive bus (sb.regWrite addr val size) ns).busy = false ->
      SameOutcome cfg (st.regWrite bus cfg now addr val size)
        (StboxBlit.drive bus (sb.regWrite addr val size) ns)) ∧
    ((sb.regWrite addr val size).wordsLeft ≤ ns.length ->
      (StboxBlit.drive bus (sb.regWrite addr val size) ns).busy = false) := by
  obtain ⟨hlo, hhi, hbusy⟩ := hwrite
  have hagree : Agree
      { st with R := StBlitter.sanitize (pokeBytes st.R (regOffset addr) val size) }
      { sb with R := StboxBlit.sanitize (pokeBytes sb.R (regOffset addr) val size) } := by
    refine ⟨?_, h.fifo, h.busWord, h.mem⟩
    intro o h24 h32
    exact sanitize_agree h24 h32 (pokeBytes_agree (h.regs o h24 h32) _ _ _)
  have hsbBusy : StboxBlit.sanitize (pokeBytes sb.R (regOffset addr) val size) 0x3C#6
      &&& 0x80 ≠ 0 := by
    have hsame := hagree.regs 0x3C#6 (by decide) (by decide)
    dsimp only at hsame
    rw [hsame]
    exact hbusy
  have hst : st.regWrite bus cfg now addr val size =
      StBlitter.blitRun bus cfg now
        { st with R := StBlitter.sanitize (pokeBytes st.R (regOffset addr) val size) } := by
    unfold StBlitter.regWrite
    exact if_pos ⟨hlo, hhi, hbusy⟩
  have hsb : sb.regWrite addr val size = StboxBlit.blitBegin
      { sb with R := StboxBlit.sanitize (pokeBytes sb.R (regOffset addr) val size) } := by
    unfold StboxBlit.regWrite
    dsimp only
    rw [if_pos ⟨hlo, hhi⟩, if_pos hsbBusy, hoff]
    rfl
  rw [hst, hsb]
  constructor
  · intro hidle
    obtain ⟨k, hk⟩ := StboxBlit.drive_eq_tick bus hns (StboxBlit.blitBegin
      { sb with R := StboxBlit.sanitize (pokeBytes sb.R (regOffset addr) val size) })
    have htop : TopClear (StboxBlit.drive bus (StboxBlit.blitBegin
        { sb with
          R := StboxBlit.sanitize (pokeBytes sb.R (regOffset addr) val size) }) ns).R := by
      rw [hk]
      exact topClear_iterate_tick bus k (topClear_blitBegin (topClear_sanitize _))
    exact sameOutcome_of_agree htt (drive_blitBegin_agree bus htt now hagree hns hidle)
      (StBlitter.blitRun_busy_clear bus cfg now _) htop hidle
  · exact StboxBlit.drive_idle bus hns (StboxBlit.countersOk_blitBegin _)

/-- The registers of a copy of two lines of two words, from `$100` to `$200`. -/
def copyRegs : RegisterFile :=
  let masks := wr16 (wr16 (wr16 (fun _ => 0) 0x28#6 0xFFFF) 0x2A#6 0xFFFF) 0x2C#6 0xFFFF
  let source := wr32 (wr16 (wr16 masks 0x20#6 2) 0x22#6 2) 0x24#6 0x100
  let dest := wr32 (wr16 (wr16 source 0x2E#6 2) 0x30#6 6) 0x32#6 0x200
  wr16 (wr16 (wr16 dest 0x36#6 2) 0x38#6 2) 0x3A#6 0x0203

def ascending (a : BitVec 24) : Byte := a.setWidth 8

def copySt : StBlitter (BitVec 24 -> Byte) :=
  ⟨copyRegs, 0, 0, 0, 0, ascending⟩

def copyStbox : StboxBlit (BitVec 24 -> Byte) :=
  ⟨copyRegs, 0, 0, StboxBlit.beginState copyRegs, false, ascending⟩

/-- Slices of one, three and one words. -/
theorem blitStep_slices_refine_blitRun_copy :
    SameOutcome ⟨false, 0, 0⟩
      (StBlitter.regWrite flatBus ⟨false, 0, 0⟩ 7 copySt 0xFF8A3C 0x80 1)
      (StboxBlit.drive flatBus (StboxBlit.regWrite copyStbox 0xFF8A3C 0x80 1) [1, 3, 1]) ∧
    (StboxBlit.drive flatBus (StboxBlit.regWrite copyStbox 0xFF8A3C 0x80 1) [1]).busy = true := by
  have hagree : Agree copySt copyStbox := ⟨fun _ _ _ => rfl, rfl, rfl, rfl⟩
  have hwrite : BusyWrite copySt.R 0xFF8A3C 0x80 1 := by
    refine ⟨by decide, by decide, by decide⟩
  have hns : forall n : Int, n ∈ [1, 3, 1] -> 1 ≤ n := by decide
  have hrefine := @blitStep_slices_refine_blitRun _ flatBus ⟨false, 0, 0⟩ rfl 7 copySt copyStbox
    hagree rfl 0xFF8A3C 0x80 1 hwrite [1, 3, 1] hns
  exact ⟨hrefine.1 (by decide +kernel), by decide +kernel⟩

end Blitter
end PistormAtari
