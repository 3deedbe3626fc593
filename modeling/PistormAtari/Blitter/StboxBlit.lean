import PistormAtari.Blitter.StBlitter

/-!
# The resumable blitter

`stbox_blit.c`: the loop state of a blit lives in the struct `B`, and
`stbox_blit_step` executes a bounded number of bus accesses per call.
-/

namespace PistormAtari
namespace Blitter

open Foundation

structure InFlight where
  src : Long
  dst : Long
  sxi : Long
  syi : Long
  dxi : Long
  dyi : Long
  em1 : Word
  em2 : Word
  em3 : Word
  xc : Nat
  yc : Nat
  x : Nat
  hop : Byte
  op : Byte
  line : Long
  smudge : Bool
  fxsr : Bool
  nfsr : Bool
  skew : Nat
  desc : Bool
  haveFxsr : Bool
  stFxsr : Bool
  stNfsr : Bool

/-- The globals of `stbox_blit.c` together with the memory it works on. -/
structure StboxBlit (μ : Type _) where
  R : RegisterFile
  fifo : Long
  busWord : Word
  B : InFlight
  busy : Bool
  mem : μ

namespace StboxBlit

variable {μ : Type _}

/-- `sanitize` of `stbox_blit.c`: addresses are 24-bit in the file itself. -/
def sanitize (R : RegisterFile) : RegisterFile := fun o =>
  if o = 0x21#6 ∨ o = 0x23#6 ∨ o = 0x2F#6 ∨ o = 0x31#6 ∨ o = 0x27#6 ∨ o = 0x35#6 then
    R o &&& 0xFE
  else if o = 0x24#6 ∨ o = 0x32#6 then 0
  else if o = 0x3A#6 then R o &&& 0x03
  else if o = 0x3B#6 then R o &&& 0x0F
  else if o = 0x3C#6 then R o &&& 0xEF
  else if o = 0x3D#6 then R o &&& 0xCF
  else R o

def blitOp (op : Byte) (s d : Word) : Word :=
  match (op &&& 0xF).toNat with
  | 0 => 0
  | 1 => s &&& d
  | 2 => s &&& ~~~d
  | 3 => s
  | 4 => ~~~s &&& d
  | 5 => d
  | 6 => s ^^^ d
  | 7 => s ||| d
  | 8 => ~~~(s ||| d)
  | 9 => ~~~(s ^^^ d)
  | 10 => ~~~d
  | 11 => s ||| ~~~d
  | 12 => ~~~s
  | 13 => ~~~s ||| d
  | 14 => ~~~(s &&& d)
  | _ => 0xFFFF

/-!
## Start and end of a blit
-/

def beginState (R : RegisterFile) : InFlight where
  src := rd32 R 0x24#6 &&& 0x00FFFFFE#32
  dst := rd32 R 0x32#6 &&& 0x00FFFFFE#32
  sxi := (rd16 R 0x20#6).signExtend 32
  syi := (rd16 R 0x22#6).signExtend 32
  dxi := (rd16 R 0x2E#6).signExtend 32
  dyi := (rd16 R 0x30#6).signExtend 32
  em1 := rd16 R 0x28#6
  em2 := rd16 R 0x2A#6
  em3 := rd16 R 0x2C#6
  xc := if (rd16 R 0x36#6).toNat = 0 then 65536 else (rd16 R 0x36#6).toNat
  yc := (rd16 R 0x38#6).toNat
  x := if (rd16 R 0x36#6).toNat = 0 then 65536 else (rd16 R 0x36#6).toNat
  hop := R 0x3A#6 &&& 3
  op := R 0x3B#6 &&& 0xF
  line := (R 0x3C#6 &&& 0xF).setWidth 32
  smudge := R 0x3C#6 &&& 0x20 != 0
  fxsr := R 0x3D#6 &&& 0x80 != 0
  nfsr := R 0x3D#6 &&& 0x40 != 0
  skew := (R 0x3D#6 &&& 0xF).toNat
  desc := ((rd16 R 0x20#6).signExtend 32).slt 0
  haveFxsr := false
  stFxsr := false
  stNfsr := false

/-- `blit_begin`; its early return on an exhausted Y count leaves the raw X
count and the old `x` in `B`. -/
def blitBegin (s : StboxBlit μ) : StboxBlit μ :=
  let B := beginState s.R
  if B.yc = 0 then
    { s with
      B := { B with xc := (rd16 s.R 0x36#6).toNat, x := s.B.x }
      R := Function.update s.R 0x3C#6 (s.R 0x3C#6 &&& 0x7F)
      busy := false }
  else { s with B := B, busy := true }

def blitEnd (s : StboxBlit μ) : StboxBlit μ :=
  let R1 := wr32 s.R 0x24#6 (s.B.src &&& 0x00FFFFFE#32)
  let R2 := wr32 R1 0x32#6 (s.B.dst &&& 0x00FFFFFE#32)
  let R3 := wr16 R2 0x38#6 0
  { s with
    R := Function.update R3 0x3C#6 ((R3 0x3C#6 &&& 0x60) ||| s.B.line.setWidth 8)
    busy := false }

/-!
## One word of the blit
-/

/-- The Y count and the halftone line as `blit_word` shows them mid-blit. -/
def showLine (R : RegisterFile) (yc : Nat) (line : Long) : RegisterFile :=
  let R1 := wr16 R 0x38#6 (BitVec.ofNat 16 yc)
  Function.update R1 0x3C#6 ((R1 0x3C#6 &&& 0xE0) ||| line.setWidth 8)

def blitWord (bus : BlitBus μ) (s : StboxBlit μ) : Int × StboxBlit μ :=
  let B := s.B
  let firstWord := B.x == B.xc
  let mask :=
    if firstWord || B.xc == 1 then B.em1 else if B.x == 1 then B.em3 else B.em2
  let stNfsr := if firstWord then false else B.stNfsr
  let stFxsr := if firstWord then B.fxsr else B.stFxsr
  let needSrc := lopSrc B.op && (B.hop &&& 2 != 0 || (B.hop == 1 && B.smudge))
  let needDst := lopDst B.op || mask != 0xFFFF
  let force := stFxsr && !B.haveFxsr && needSrc
  let word1 := if force then bus.read16 s.mem B.src else s.busWord
  let buf1 := if force then fifoPush B.desc s.fifo word1 else s.fifo
  let src1 := if force then (B.src + B.sxi) &&& 0x00FFFFFE#32 else B.src
  let haveFxsr := B.haveFxsr || force
  let acc1 : Int := if force then 1 else 0
  let fetchSrc := needSrc && !stNfsr
  let word2 := if fetchSrc then bus.read16 s.mem src1 else word1
  let buf2 := if fetchSrc then fifoPush B.desc buf1 word2 else buf1
  let acc2 := if fetchSrc then acc1 + 1 else acc1
  let dstWord := if needDst then bus.read16 s.mem B.dst else 0
  let word3 := if needDst then dstWord else word2
  let acc3 := if needDst then acc2 + 1 else acc2
  let suppress := B.nfsr && B.x == 1 && needSrc
  let buf3 := if suppress then fifoPush B.desc buf2 word3 else buf2
  let sw : Word := (buf3 >>> B.skew).setWidth 16
  let ht := rd16 s.R
    (BitVec.ofNat 6 ((if B.smudge then (sw &&& 0xF).toNat else B.line.toNat) * 2))
  let sdata : Word :=
    match B.hop.toNat with
    | 0 => 0xFFFF
    | 1 => ht
    | 2 => sw
    | _ => sw &&& ht
  let out :=
    if mask != 0xFFFF then
      (blitOp B.op sdata dstWord &&& mask) ||| (dstWord &&& ~~~mask)
    else blitOp B.op sdata dstWord
  let buf4 := if suppress then fifoPush B.desc buf3 out else buf3
  let stNfsr' := if B.x == 2 && B.nfsr then true else stNfsr
  let src2 :=
    if fetchSrc then
      (src1 + (if B.x == 1 || stNfsr' then B.syi else B.sxi)) &&& 0x00FFFFFE#32
    else src1
  let s' := { s with
    fifo := buf4
    busWord := out
    mem := bus.write16 s.mem B.dst out }
  if B.x == 1 then
    let line := nextLine B.line B.dyi
    (acc3 + 1, { s' with
      R := showLine s.R (B.yc - 1) line
      B := { B with
        src := src2
        dst := (B.dst + B.dyi) &&& 0x00FFFFFE#32
        yc := B.yc - 1
        x := B.xc
        line := line
        haveFxsr := false
        stFxsr := stFxsr
        stNfsr := stNfsr' } })
  else
    (acc3 + 1, { s' with
      B := { B with
        src := src2
        dst := (B.dst + B.dxi) &&& 0x00FFFFFE#32
        x := B.x - 1
        haveFxsr := haveFxsr
        stFxsr := stFxsr
        stNfsr := stNfsr' } })

/-!
## Stepping
-/

/-- The words of the blit in flight that are still to be processed. -/
def wordsLeft (s : StboxBlit μ) : Nat :=
  if s.busy then (s.B.yc - 1) * s.B.xc + s.B.x else 0

/-- One iteration of `stbox_blit_step`: a word, and the end of the blit when
the last line is done. -/
def advance (bus : BlitBus μ) (s : StboxBlit μ) : StboxBlit μ :=
  let s' := (blitWord bus s).2
  if s'.B.yc = 0 then blitEnd s' else s'

/-- `while (g_busy && used < max_accesses)` on the pair of `used` and the
globals. -/
def stepLoop (bus : BlitBus μ) (maxAccesses : Int) :
    Nat -> Int × StboxBlit μ -> Int × StboxBlit μ :=
  whileFuel (fun p => p.2.busy && decide (p.1 < maxAccesses))
    (fun p => (p.1 + (blitWord bus p.2).1, advance bus p.2))

/-- `stbox_blit_step`: the accesses used and the state after the call. -/
def blitStep (bus : BlitBus μ) (maxAccesses : Int) (s : StboxBlit μ) :
    Int × StboxBlit μ :=
  stepLoop bus maxAccesses s.wordsLeft (0, s)

def drive (bus : BlitBus μ) (s : StboxBlit μ) (ns : List Int) : StboxBlit μ :=
  ns.foldl (fun s n => (blitStep bus n s).2) s

/-!
## What a step does

Every call of `stbox_blit_step` is some number of iterations of one word, and
a call on a blit in flight is at least one.
-/

/-- The iteration of `stbox_blit_step`: nothing once the engine is idle. -/
def tick (bus : BlitBus μ) : StboxBlit μ -> StboxBlit μ :=
  guarded StboxBlit.busy (advance bus)

variable (bus : BlitBus μ)

theorem tick_of_idle {s : StboxBlit μ} (h : s.busy = false) :
    tick bus s = s :=
  guarded_of_not_cond h

theorem tick_of_busy {s : StboxBlit μ} (h : s.busy = true) :
    tick bus s = advance bus s :=
  guarded_of_cond h

theorem blitWord_busy (s : StboxBlit μ) :
    (blitWord bus s).2.busy = s.busy := by
  unfold blitWord
  extract_lets
  split <;> rfl

theorem blitWord_counters (s : StboxBlit μ) :
    (blitWord bus s).2.B.x = (if s.B.x = 1 then s.B.xc else s.B.x - 1) ∧
      (blitWord bus s).2.B.yc = (if s.B.x = 1 then s.B.yc - 1 else s.B.yc) ∧
      (blitWord bus s).2.B.xc = s.B.xc := by
  unfold blitWord
  extract_lets
  split
  · rename_i h
    have hx : s.B.x = 1 := by simpa using h
    rw [if_pos hx, if_pos hx]
    exact ⟨rfl, rfl, rfl⟩
  · rename_i h
    have hx : ¬ s.B.x = 1 := by simpa using h
    rw [if_neg hx, if_neg hx]
    exact ⟨rfl, rfl, rfl⟩

/-- The counters of a blit in flight: lines are left, and the column counter
is between 1 and the words of a line. -/
def CountersOk (s : StboxBlit μ) : Prop :=
  s.busy = true -> 1 ≤ s.B.yc ∧ 1 ≤ s.B.x ∧ s.B.x ≤ s.B.xc

theorem countersOk_blitBegin (s : StboxBlit μ) : CountersOk (blitBegin s) := by
  intro hbusy
  unfold blitBegin at *
  dsimp only at *
  split at hbusy
  · cases hbusy
  · rename_i hyc
    rw [if_neg hyc]
    unfold beginState at *
    dsimp only at *
    refine ⟨by lia, ?_, Nat.le_refl _⟩
    split <;> lia

theorem advance_counters {s : StboxBlit μ} (hs : CountersOk s) (hbusy : s.busy = true) :
    CountersOk (advance bus s) ∧ wordsLeft (advance bus s) < wordsLeft s := by
  obtain ⟨hy, hx1, hxc⟩ := hs hbusy
  obtain ⟨hx', hy', hxc'⟩ := blitWord_counters bus s
  have hbusy' : (blitWord bus s).2.busy = true := (blitWord_busy bus s).trans hbusy
  unfold advance
  by_cases hend : (blitWord bus s).2.B.yc = 0
  · simp only [hend, if_true]
    constructor
    · intro h
      cases h
    · simp only [wordsLeft, blitEnd, hbusy, if_true]
      simp
      lia
  · simp only [hend, if_false]
    constructor
    · intro _
      rw [hx', hxc']
      refine ⟨by lia, ?_⟩
      split <;> lia
    · simp only [wordsLeft, hbusy, hbusy', if_true, hx', hxc', hy']
      rw [hy'] at hend
      by_cases h1 : s.B.x = 1
      · simp only [h1, if_true] at hend ⊢
        obtain ⟨k, hk⟩ : exists k, s.B.yc = k + 2 := ⟨s.B.yc - 2, by lia⟩
        simp [hk, Nat.succ_mul]
      · simp only [h1, if_false]
        lia

theorem stepLoop_eq_tick (n : Int) (fuel : Nat) (p : Int × StboxBlit μ) :
    exists k, (stepLoop bus n fuel p).2 = (tick bus)^[k] p.2 := by
  induction fuel generalizing p with
  | zero => exact ⟨0, rfl⟩
  | succ fuel ih =>
      by_cases h : (p.2.busy && decide (p.1 < n)) = true
      · obtain ⟨k, hk⟩ := ih (p.1 + (blitWord bus p.2).1, advance bus p.2)
        refine ⟨k + 1, ?_⟩
        have hbusy : p.2.busy = true := by
          simp only [Bool.and_eq_true] at h
          exact h.1
        rw [Function.iterate_succ_apply, tick_of_busy bus hbusy, ← hk]
        simp [stepLoop, whileFuel, h]
      · refine ⟨0, ?_⟩
        simp [stepLoop, whileFuel, h]

theorem blitStep_eq_tick (n : Int) (s : StboxBlit μ) :
    exists k, (blitStep bus n s).2 = (tick bus)^[k] s :=
  stepLoop_eq_tick bus n s.wordsLeft (0, s)

theorem iterate_tick_counters (k : Nat) {s : StboxBlit μ} (hs : CountersOk s) :
    CountersOk ((tick bus)^[k] s) ∧ wordsLeft ((tick bus)^[k] s) ≤ wordsLeft s := by
  induction k generalizing s with
  | zero => exact ⟨hs, Nat.le_refl _⟩
  | succ k ih =>
      rw [Function.iterate_succ_apply]
      cases hbusy : s.busy with
      | true =>
          rw [tick_of_busy bus hbusy]
          obtain ⟨hok, hlt⟩ := advance_counters bus hs hbusy
          obtain ⟨hok', hle⟩ := ih hok
          exact ⟨hok', by lia⟩
      | false =>
          rw [tick_of_idle bus hbusy]
          exact ih hs

theorem blitStep_progress {n : Int} (hn : 1 ≤ n) {s : StboxBlit μ} (hs : CountersOk s) :
    CountersOk (blitStep bus n s).2 ∧
      wordsLeft (blitStep bus n s).2 ≤ wordsLeft s - 1 := by
  cases hbusy : s.busy with
  | false =>
      have hzero : wordsLeft s = 0 := by simp [wordsLeft, hbusy]
      have hsame : (blitStep bus n s).2 = s := by
        simp [blitStep, hzero, stepLoop, whileFuel]
      rw [hsame]
      exact ⟨hs, by lia⟩
  | true =>
      obtain ⟨hok, hlt⟩ := advance_counters bus hs hbusy
      obtain ⟨fuel, hfuel⟩ : exists fuel, wordsLeft s = fuel + 1 :=
        ⟨wordsLeft s - 1, by lia⟩
      have hfirst : (blitStep bus n s).2 =
          (stepLoop bus n fuel (0 + (blitWord bus s).1, advance bus s)).2 := by
        have hlt : (0 : Int) < n := by lia
        simp [blitStep, stepLoop, hfuel, whileFuel, hbusy, hlt]
      obtain ⟨k, hk⟩ := stepLoop_eq_tick bus n fuel
        (0 + (blitWord bus s).1, advance bus s)
      rw [hfirst, hk]
      obtain ⟨hok', hle⟩ := iterate_tick_counters bus k hok
      exact ⟨hok', by lia⟩

theorem drive_eq_tick {ns : List Int} (hns : forall n, n ∈ ns -> 1 ≤ n) (s : StboxBlit μ) :
    exists k, drive bus s ns = (tick bus)^[k] s :=
  foldl_slices_eq_iterate (fun s n _ => blitStep_eq_tick bus n s) hns s

theorem drive_idle {ns : List Int}
    (hns : forall n, n ∈ ns -> 1 ≤ n) {s : StboxBlit μ} (hs : CountersOk s)
    (hlen : wordsLeft s ≤ ns.length) : (drive bus s ns).busy = false := by
  have hstep : forall (s : StboxBlit μ) (n : Int), CountersOk s -> 1 ≤ n ->
      CountersOk (blitStep bus n s).2 ∧
        wordsLeft (blitStep bus n s).2 ≤ wordsLeft s - 1 := by
    intro s n hs hn
    exact blitStep_progress bus hn hs
  have hzero := foldl_slices_finish hstep hns hs hlen
  obtain ⟨k, hk⟩ := drive_eq_tick bus hns s
  have hok := (iterate_tick_counters bus k hs).1
  rw [← hk] at hok
  cases hbusy : (drive bus s ns).busy with
  | false => rfl
  | true =>
      have hleft : wordsLeft (drive bus s ns) = 0 := hzero
      have hcount := hok hbusy
      rw [wordsLeft, hbusy] at hleft
      simp only [if_true] at hleft
      lia

/-!
## Guest-visible register access
-/

def readByte (s : StboxBlit μ) (o : BitVec 6) : Byte :=
  if o = 0x3C#6 then (s.R o &&& 0x7F) ||| (if s.busy then 0x80 else 0) else s.R o

def regRead (s : StboxBlit μ) (addr : Long) (size : Nat) : Long :=
  peekBytes (readByte s) (regOffset addr) size

def regWrite (s : StboxBlit μ) (addr val : Long) (size : Nat) : StboxBlit μ :=
  let off := regOffset addr
  let s' := { s with R := sanitize (pokeBytes s.R off val size) }
  if off.toNat ≤ 0x3C ∧ 0x3C < off.toNat + size then
    if s'.R 0x3C#6 &&& 0x80 ≠ 0 then
      if s'.busy then s' else blitBegin s'
    else if s'.busy then blitEnd s' else s'
  else s'

def reset (s : StboxBlit μ) : StboxBlit μ :=
  { s with
    R := fun _ => 0
    fifo := 0
    busWord := 0
    B := ⟨0, 0, 0, 0, 0, 0, 0, 0, 0, 0, 0, 0, 0, 0, 0, false, false, false, 0,
      false, false, false, false⟩
    busy := false }

end StboxBlit

end Blitter
end PistormAtari
