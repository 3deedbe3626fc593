import PistormAtari.Setup.TextCells

/-!
# The setup page: what is sent to the board

The page remembers in `shown` what the board holds, and `ss_flush` sends the longs in which
the shadow differs from it.  What the board holds after bring-up is a guess.
-/

namespace PistormAtari
namespace Setup

open Foundation

/-!
## The screen and the board
-/

def ssScreenBase : Nat := 0x10000

structure SsBoard where
  ss : SsScreen
  board : Bytes

/-- The tail of `ss_bringup`, when the banks are probed and the mode is chosen. -/
def ssBringup (mode : SsMode) (shifter : Bool) : SsScreen where
  mode := mode
  shifter := shifter
  shadow := fun _ => 0
  shown := fun _ => 0xA5

def psWrite8 (a : Nat) (v : BitVec 8) (board : Bytes) : Bytes := Function.update board a v

def psWrite16 (a : Nat) (v : BitVec 16) (board : Bytes) : Bytes :=
  psWrite8 (a + 1) (v.setWidth 8) (psWrite8 a ((v >>> 8).setWidth 8) board)

def psWrite32 (a : Nat) (v : BitVec 32) (board : Bytes) : Bytes :=
  psWrite16 (a + 2) (v.setWidth 16) (psWrite16 a ((v >>> 16).setWidth 16) board)

def wordAt (p : Bytes) (i : Nat) : BitVec 16 := (p i).setWidth 16 <<< 8 ||| (p (i + 1)).setWidth 16

def longAt (p : Bytes) (i : Nat) : BitVec 32 :=
  (p i).setWidth 32 <<< 24 ||| (p (i + 1)).setWidth 32 <<< 16 |||
    (p (i + 2)).setWidth 32 <<< 8 ||| (p (i + 3)).setWidth 32

def memcpy (dst src : Bytes) (start n : Nat) : Bytes :=
  fun k => if start ≤ k ∧ k < start + n then src k else dst k

def SameLong (a b : Bytes) (i : Nat) : Prop := forall k, k < 4 -> a (i + k) = b (i + k)

instance (a b : Bytes) (i : Nat) : Decidable (SameLong a b i) :=
  inferInstanceAs (Decidable (forall k, k < 4 -> _))

inductive SsWidth where
  | w8
  | w16
  | w32
deriving DecidableEq, Repr

def writeAll (p : Bytes) (w : SsWidth) (board : Bytes) : Bytes :=
  match w with
  | .w8 =>
      (List.range ssScreenBytes).foldl (fun m i => psWrite8 (ssScreenBase + i) (p i) m) board
  | .w16 =>
      (List.range (ssScreenBytes / 2)).foldl
        (fun m i => psWrite16 (ssScreenBase + 2 * i) (wordAt p (2 * i)) m) board
  | .w32 =>
      (List.range (ssScreenBytes / 4)).foldl
        (fun m i => psWrite32 (ssScreenBase + 4 * i) (longAt p (4 * i)) m) board

def ssWriteFull (w : SsWidth) (b : SsBoard) : SsBoard :=
  { ss := { b.ss with shown := memcpy b.ss.shown b.ss.shadow 0 ssScreenBytes }
    board := if b.ss.shifter then writeAll b.ss.shadow w b.board else b.board }

def flushLong (b : SsBoard × Nat) (n : Nat) : SsBoard × Nat :=
  let i := 4 * n
  let ss := b.1.ss
  if SameLong ss.shadow ss.shown i then b
  else
    ({ ss := { ss with shown := memcpy ss.shown ss.shadow i 4 }
       board := psWrite32 (ssScreenBase + i) (longAt ss.shadow i) b.1.board }, b.2 + 4)

def ssFlush (b : SsBoard) : SsBoard × Nat :=
  if b.ss.shifter then (List.range (ssScreenBytes / 4)).foldl flushLong (b, 0)
  else ({ b with ss := { b.ss with shown := memcpy b.ss.shown b.ss.shadow 0 ssScreenBytes } }, 0)

inductive Drawing where
  | clear (colour : BitVec 32)
  | pixel (x y : Int) (colour : BitVec 32)
  | putc (col row : Int) (c : BitVec 8) (ink paper : BitVec 32)
  | puts (col row : Int) (s : List (BitVec 8)) (ink paper : BitVec 32)
  | clearRow (row : Int) (paper : BitVec 32)
  | fill (x y w h : Int) (colour : BitVec 32)

def draw (font : Font) : Drawing -> SsScreen -> SsScreen
  | .clear colour => ssClear colour
  | .pixel x y colour => ssPixel x y colour
  | .putc col row c ink paper => ssPutc font col row c ink paper
  | .puts col row s ink paper => ssPuts font col row ink paper s
  | .clearRow row paper => ssClearRow font row paper
  | .fill x y w h colour => ssFill x y w h colour

inductive SsOp where
  | draw (d : Drawing)
  | flush
  | writeFull (w : SsWidth)

def ssStep (font : Font) (b : SsBoard) : SsOp -> SsBoard
  | .draw d => { b with ss := draw font d b.ss }
  | .flush => (ssFlush b).1
  | .writeFull w => ssWriteFull w b

def ssRun (font : Font) (b : SsBoard) (ops : List SsOp) : SsBoard := ops.foldl (ssStep font) b

/-!
## Writes of longs
-/

theorem bytes_of_word (b0 b1 : BitVec 8) :
    ((b0.setWidth 16 <<< 8 ||| b1.setWidth 16) >>> 8).setWidth 8 = b0 ∧
      (b0.setWidth 16 <<< 8 ||| b1.setWidth 16).setWidth 8 = b1 := by
  constructor
  · ext j hj
    simp
    grind
  · ext j hj
    simp

theorem words_of_long (b0 b1 b2 b3 : BitVec 8) :
    let v := b0.setWidth 32 <<< 24 ||| b1.setWidth 32 <<< 16 |||
      b2.setWidth 32 <<< 8 ||| b3.setWidth 32
    (v >>> 16).setWidth 16 = b0.setWidth 16 <<< 8 ||| b1.setWidth 16 ∧
      v.setWidth 16 = b2.setWidth 16 <<< 8 ||| b3.setWidth 16 := by
  constructor
  · ext j hj
    simp
    grind
  · ext j hj
    simp

def patch (p : Bytes) (start n : Nat) (board : Bytes) : Bytes :=
  fun a =>
    if ssScreenBase + start ≤ a ∧ a < ssScreenBase + start + n then p (a - ssScreenBase)
    else board a

variable (p : Bytes)

theorem psWrite8_eq_patch (i : Nat) (board : Bytes) :
    psWrite8 (ssScreenBase + i) (p i) board = patch p i 1 board := by
  funext a
  unfold psWrite8 patch
  by_cases ha : a = ssScreenBase + i
  · subst ha
    rw [Function.update_self, if_pos ⟨Nat.le_refl _, Nat.lt_succ_self _⟩, Nat.add_sub_cancel_left]
  · rw [Function.update_of_ne ha, if_neg (by lia)]

theorem patch_patch (start n k : Nat) (board : Bytes) :
    patch p (start + n) k (patch p start n board) = patch p start (n + k) board := by
  funext a
  unfold patch
  by_cases hlate : ssScreenBase + (start + n) ≤ a ∧ a < ssScreenBase + (start + n) + k
  · rw [if_pos hlate, if_pos (by lia)]
  · rw [if_neg hlate]
    by_cases hearly : ssScreenBase + start ≤ a ∧ a < ssScreenBase + start + n
    · rw [if_pos hearly, if_pos (by lia)]
    · rw [if_neg hearly, if_neg (by lia)]

theorem psWrite16_eq_patch (i : Nat) (board : Bytes) :
    psWrite16 (ssScreenBase + i) (wordAt p i) board = patch p i 2 board := by
  unfold psWrite16 wordAt
  rw [(bytes_of_word (p i) (p (i + 1))).1, (bytes_of_word (p i) (p (i + 1))).2,
    Nat.add_assoc, psWrite8_eq_patch, psWrite8_eq_patch, patch_patch]

theorem psWrite32_eq_patch (i : Nat) (board : Bytes) :
    psWrite32 (ssScreenBase + i) (longAt p i) board = patch p i 4 board := by
  have hwords := words_of_long (p i) (p (i + 1)) (p (i + 2)) (p (i + 3))
  have hhigh := psWrite16_eq_patch p i board
  have hlow := psWrite16_eq_patch p (i + 2) (patch p i 2 board)
  unfold wordAt at hhigh hlow
  unfold psWrite32 longAt
  rw [hwords.1, hwords.2, hhigh, Nat.add_assoc, hlow, patch_patch]

theorem fold_patch (w n : Nat) (board : Bytes) :
    (List.range n).foldl (fun m i => patch p (w * i) w m) board = patch p 0 (w * n) board := by
  induction n with
  | zero =>
      funext a
      unfold patch
      rw [if_neg (by lia)]
      rfl
  | succ n ih =>
      have hnext := patch_patch p 0 (w * n) w board
      rw [Nat.zero_add] at hnext
      rw [List.range_succ, List.foldl_append, ih, Nat.mul_succ, ← hnext]
      rfl

theorem writeAll_eq (w : SsWidth) (board : Bytes) :
    writeAll p w board = patch p 0 ssScreenBytes board := by
  cases w with
  | w8 =>
      unfold writeAll
      simp only [psWrite8_eq_patch]
      have hfold := fold_patch p 1 ssScreenBytes board
      simp only [Nat.one_mul] at hfold
      exact hfold
  | w16 =>
      unfold writeAll
      simp only [psWrite16_eq_patch]
      exact fold_patch p 2 (ssScreenBytes / 2) board
  | w32 =>
      unfold writeAll
      simp only [psWrite32_eq_patch]
      exact fold_patch p 4 (ssScreenBytes / 4) board

/-!
## One flush
-/

def flushed (b : SsBoard) (n : Nat) : SsBoard where
  ss := { b.ss with shown := memcpy b.ss.shown b.ss.shadow 0 (4 * n) }
  board := fun a =>
    if (ssScreenBase ≤ a ∧ a < ssScreenBase + 4 * n) ∧
        ¬ SameLong b.ss.shadow b.ss.shown (4 * ((a - ssScreenBase) / 4)) then
      b.ss.shadow (a - ssScreenBase)
    else b.board a

theorem sameLong_memcpy {a dst src : Bytes} {i : Nat} :
    SameLong a (memcpy dst src 0 i) i <-> SameLong a dst i := by
  have hrest : forall k, memcpy dst src 0 i (i + k) = dst (i + k) := by
    intro k
    unfold memcpy
    rw [if_neg (by lia)]
  unfold SameLong
  simp only [hrest]

theorem memcpy_memcpy (dst src : Bytes) (n k : Nat) :
    memcpy (memcpy dst src 0 n) src n k = memcpy dst src 0 (n + k) := by
  funext a
  unfold memcpy
  by_cases hnew : n ≤ a ∧ a < n + k
  · rw [if_pos hnew, if_pos (by lia)]
  · rw [if_neg hnew]
    by_cases hold : 0 ≤ a ∧ a < 0 + n
    · rw [if_pos hold, if_pos (by lia)]
    · rw [if_neg hold, if_neg (by lia)]

theorem memcpy_of_sameLong {dst src : Bytes} {n : Nat} (hsame : SameLong src dst n) :
    memcpy dst src 0 (n + 4) = memcpy dst src 0 n := by
  funext a
  unfold memcpy
  by_cases hnew : n ≤ a ∧ a < n + 4
  · have heq := hsame (a - n) (by lia)
    rw [Nat.add_sub_cancel' hnew.1] at heq
    rw [if_pos (by lia), if_neg (by lia), heq]
  · by_cases hold : 0 ≤ a ∧ a < 0 + n
    · rw [if_pos hold, if_pos (by lia)]
    · rw [if_neg hold, if_neg (by lia)]

theorem flushLong_flushed (b : SsBoard) (n sent : Nat) :
    (flushLong (flushed b n, sent) n).1 = flushed b (n + 1) := by
  have hlong : forall a, ssScreenBase + 4 * n ≤ a ∧ a < ssScreenBase + 4 * n + 4 ->
      (a - ssScreenBase) / 4 = n := by
    intro a ha
    lia
  have hkept : SameLong (flushed b n).ss.shadow (flushed b n).ss.shown (4 * n) <->
      SameLong b.ss.shadow b.ss.shown (4 * n) := sameLong_memcpy
  unfold flushLong
  dsimp only
  by_cases hsame : SameLong b.ss.shadow b.ss.shown (4 * n)
  · rw [if_pos (hkept.mpr hsame)]
    unfold flushed
    rw [Nat.mul_succ, memcpy_of_sameLong hsame]
    dsimp only
    congr 1
    funext a
    by_cases hnew : ssScreenBase + 4 * n ≤ a ∧ a < ssScreenBase + 4 * n + 4
    · rw [hlong a hnew, if_neg (by lia), if_neg (by simp [hsame])]
    · apply if_congr _ rfl rfl
      apply and_congr_left
      intro _
      lia
  · rw [if_neg fun h => hsame (hkept.mp h), psWrite32_eq_patch]
    unfold flushed
    dsimp only
    rw [Nat.mul_succ, memcpy_memcpy]
    congr 1
    funext a
    unfold patch
    by_cases hnew : ssScreenBase + 4 * n ≤ a ∧ a < ssScreenBase + 4 * n + 4
    · rw [if_pos hnew, hlong a hnew, if_pos ⟨by lia, hsame⟩]
    · rw [if_neg hnew]
      apply if_congr _ rfl rfl
      apply and_congr_left
      intro _
      lia

theorem flushed_zero (b : SsBoard) : flushed b 0 = b := by
  have hshown : memcpy b.ss.shown b.ss.shadow 0 (4 * 0) = b.ss.shown := by
    funext k
    unfold memcpy
    rw [if_neg (by lia)]
  have hss : (flushed b 0).ss = b.ss := by
    change { b.ss with shown := memcpy b.ss.shown b.ss.shadow 0 (4 * 0) } = b.ss
    rw [hshown]
  have hboard : (flushed b 0).board = b.board := by
    funext a
    unfold flushed
    dsimp only
    rw [if_neg (by lia)]
  exact congr (congrArg SsBoard.mk hss) hboard

theorem fold_flushLong (b : SsBoard) (n sent : Nat) :
    ((List.range n).foldl flushLong (b, sent)).1 = flushed b n := by
  induction n with
  | zero => exact (flushed_zero b).symm
  | succ n ih =>
      have hstep := flushLong_flushed b n ((List.range n).foldl flushLong (b, sent)).2
      rw [← ih] at hstep
      rw [List.range_succ, List.foldl_append]
      exact hstep

/-!
## Calls that draw
-/

/-- The page with another memory of the board, and with a shifter or without. -/
def SsScreen.remember (ss : SsScreen) (shifter : Bool) (shown : Bytes) : SsScreen :=
  { ss with shifter := shifter, shown := shown }

theorem ssPixel_remember (x y : Int) (colour : BitVec 32) (ss : SsScreen) (b : Bool) (m : Bytes) :
    ssPixel x y colour (ss.remember b m) = (ssPixel x y colour ss).remember b m := by
  have hmode : (ss.remember b m).mode = ss.mode := rfl
  by_cases hon : OnScreen ss.mode x y
  · rw [ssPixel_eq hon, ssPixel_eq (hmode.symm ▸ hon)]
    rfl
  · have hoff : ssPixel x y colour ss = ss := if_neg hon
    have hoff' : ssPixel x y colour (ss.remember b m) = ss.remember b m := if_neg hon
    rw [hoff, hoff']

variable (font : Font)

theorem ssPutc_remember (col row : Int) (c : BitVec 8) (ink paper : BitVec 32)
    (ss : SsScreen) (b : Bool) (m : Bytes) :
    ssPutc font col row c ink paper (ss.remember b m) =
      (ssPutc font col row c ink paper ss).remember b m := by
  by_cases hon : OnGrid col row
  · rw [ssPutc_eq font c ink paper hon, ssPutc_eq font c ink paper hon]
    rfl
  · have hoff : ssPutc font col row c ink paper ss = ss := if_neg hon
    have hoff' : ssPutc font col row c ink paper (ss.remember b m) = ss.remember b m := if_neg hon
    rw [hoff, hoff']

theorem ssPuts_remember (col row : Int) (ink paper : BitVec 32)
    (s : List (BitVec 8)) (ss : SsScreen) (b : Bool) (m : Bytes) :
    ssPuts font col row ink paper s (ss.remember b m) =
      (ssPuts font col row ink paper s ss).remember b m := by
  induction s generalizing col ss with
  | nil => rfl
  | cons c rest ih =>
      unfold ssPuts
      split
      · rw [ssPutc_remember, ih]
      · rfl

theorem ssClearRow_remember (row : Int) (paper : BitVec 32) (ss : SsScreen)
    (b : Bool) (m : Bytes) :
    ssClearRow font row paper (ss.remember b m) = (ssClearRow font row paper ss).remember b m :=
  List.foldl_hom (fun ss => SsScreen.remember ss b m) fun ss col =>
    ssPutc_remember font col row 0x20 paper paper ss b m

theorem ssFill_remember (x y w h : Int) (colour : BitVec 32) (ss : SsScreen) (b : Bool)
    (m : Bytes) :
    ssFill x y w h colour (ss.remember b m) = (ssFill x y w h colour ss).remember b m :=
  List.foldl_hom (fun ss => SsScreen.remember ss b m) fun _ j =>
    List.foldl_hom (fun ss => SsScreen.remember ss b m) fun ss i =>
      ssPixel_remember (x + i) (y + j) colour ss b m

theorem draw_remember (d : Drawing) (ss : SsScreen) (b : Bool) (m : Bytes) :
    draw font d (ss.remember b m) = (draw font d ss).remember b m := by
  cases d with
  | clear colour => exact ssFill_remember 0 0 ssWidth ss.mode.height colour ss b m
  | pixel x y colour => exact ssPixel_remember x y colour ss b m
  | putc col row c ink paper => exact ssPutc_remember font col row c ink paper ss b m
  | puts col row s ink paper => exact ssPuts_remember font col row ink paper s ss b m
  | clearRow row paper => exact ssClearRow_remember font row paper ss b m
  | fill x y w h colour => exact ssFill_remember x y w h colour ss b m

/-!
## Longs that were sent
-/

/-- A flush or a full write of the run sends the long, on a page whose `shown` is the guess. -/
def Sent (font : Font) : SsScreen -> List SsOp -> Nat -> Prop
  | _, [], _ => False
  | ss, .draw d :: ops, i => Sent font (draw font d ss) ops i
  | ss, .flush :: ops, i => ¬ SameLong ss.shadow ss.shown (4 * i) ∨ Sent font ss ops i
  | _, .writeFull _ :: _, _ => True

def drawn (font : Font) : SsScreen -> List SsOp -> SsScreen
  | ss, [] => ss
  | ss, .draw d :: ops => drawn font (draw font d ss) ops
  | ss, _ :: ops => drawn font ss ops

def Known (b : SsBoard) (i : Nat) : Prop :=
  forall k, k < 4 -> b.board (ssScreenBase + (4 * i + k)) = b.ss.shown (4 * i + k)

/-- A long of the board, and what the page thinks of it, are as before. -/
def Kept (b b' : SsBoard) (i : Nat) : Prop :=
  forall k, k < 4 ->
    b'.board (ssScreenBase + (4 * i + k)) = b.board (ssScreenBase + (4 * i + k)) ∧
      b'.ss.shown (4 * i + k) = b.ss.shown (4 * i + k)

variable {b : SsBoard}

theorem ssFlush_eq (hshifter : b.ss.shifter = true) :
    (ssFlush b).1 = flushed b (ssScreenBytes / 4) := by
  unfold ssFlush
  rw [if_pos hshifter, fold_flushLong]

theorem byte_of_long {i k : Nat} (hi : i < ssScreenBytes / 4) (hk : k < 4) :
    4 * i + k < 4 * (ssScreenBytes / 4) ∧
      4 * ((ssScreenBase + (4 * i + k) - ssScreenBase) / 4) = 4 * i := by
  rw [Nat.add_sub_cancel_left]
  lia

theorem flush_shown (hshifter : b.ss.shifter = true) {i k : Nat}
    (hi : i < ssScreenBytes / 4) (hk : k < 4) :
    (ssFlush b).1.ss.shown (4 * i + k) = b.ss.shadow (4 * i + k) := by
  have hbyte := (byte_of_long hi hk).1
  rw [ssFlush_eq hshifter]
  exact if_pos (by lia)

theorem flush_board (hshifter : b.ss.shifter = true) {i k : Nat}
    (hi : i < ssScreenBytes / 4) (hk : k < 4) :
    (ssFlush b).1.board (ssScreenBase + (4 * i + k)) =
      if SameLong b.ss.shadow b.ss.shown (4 * i) then b.board (ssScreenBase + (4 * i + k))
      else b.ss.shadow (4 * i + k) := by
  have hbyte := byte_of_long hi hk
  rw [ssFlush_eq hshifter]
  unfold flushed
  dsimp only
  rw [hbyte.2, Nat.add_sub_cancel_left]
  by_cases hsame : SameLong b.ss.shadow b.ss.shown (4 * i)
  · rw [if_pos hsame, if_neg fun h => h.2 hsame]
  · rw [if_neg hsame, if_pos ⟨by lia, hsame⟩]

theorem flush_sends (hshifter : b.ss.shifter = true) {i : Nat}
    (hi : i < ssScreenBytes / 4) (hdiff : ¬ SameLong b.ss.shadow b.ss.shown (4 * i)) :
    Known (ssFlush b).1 i := by
  intro k hk
  rw [flush_board hshifter hi hk, flush_shown hshifter hi hk, if_neg hdiff]

theorem flush_keeps (hshifter : b.ss.shifter = true) {i : Nat}
    (hi : i < ssScreenBytes / 4) (hsame : SameLong b.ss.shadow b.ss.shown (4 * i)) :
    Kept b (ssFlush b).1 i := by
  intro k hk
  rw [flush_board hshifter hi hk, flush_shown hshifter hi hk, if_pos hsame]
  exact ⟨rfl, hsame k hk⟩

theorem writeFull_sends (w : SsWidth) (hshifter : b.ss.shifter = true) {i : Nat}
    (hi : i < ssScreenBytes / 4) : Known (ssWriteFull w b) i := by
  intro k hk
  have hbyte : 4 * i + k < ssScreenBytes := by
    unfold ssScreenBytes at hi ⊢
    lia
  have hboard : (ssWriteFull w b).board = patch b.ss.shadow 0 ssScreenBytes b.board := by
    unfold ssWriteFull
    rw [hshifter, if_pos rfl, writeAll_eq]
  have hshown : (ssWriteFull w b).ss.shown (4 * i + k) = b.ss.shadow (4 * i + k) :=
    if_pos (by lia)
  rw [hboard, hshown]
  unfold patch
  rw [if_pos (by lia), Nat.add_sub_cancel_left]

theorem draw_fields (d : Drawing) (ss : SsScreen) :
    (draw font d ss).shown = ss.shown ∧ (draw font d ss).shifter = ss.shifter := by
  have hself := draw_remember font d ss ss.shifter ss.shown
  have hss : ss.remember ss.shifter ss.shown = ss := rfl
  rw [hss] at hself
  have hshown := congrArg SsScreen.shown hself
  have hshifter := congrArg SsScreen.shifter hself
  exact ⟨hshown, hshifter⟩

theorem step_shifter (b : SsBoard) (op : SsOp) :
    (ssStep font b op).ss.shifter = b.ss.shifter := by
  cases op with
  | draw d => exact (draw_fields font d b.ss).2
  | flush =>
      change (ssFlush b).1.ss.shifter = b.ss.shifter
      cases hshifter : b.ss.shifter with
      | true =>
          rw [ssFlush_eq hshifter]
          exact hshifter
      | false =>
          unfold ssFlush
          rw [if_neg (by rw [hshifter]; decide)]
          exact hshifter
  | writeFull w => rfl

theorem known_step (op : SsOp) (hshifter : b.ss.shifter = true)
    {i : Nat} (hi : i < ssScreenBytes / 4) (hknown : Known b i) :
    Known (ssStep font b op) i := by
  cases op with
  | draw d =>
      intro k hk
      change b.board _ = (draw font d b.ss).shown _
      rw [(draw_fields font d b.ss).1]
      exact hknown k hk
  | flush =>
      by_cases hsame : SameLong b.ss.shadow b.ss.shown (4 * i)
      · intro k hk
        have hkept := flush_keeps hshifter hi hsame k hk
        exact hkept.1.trans ((hknown k hk).trans hkept.2.symm)
      · exact flush_sends hshifter hi hsame
  | writeFull w => exact writeFull_sends w hshifter hi

theorem known_run (ops : List SsOp) (hshifter : b.ss.shifter = true)
    {i : Nat} (hi : i < ssScreenBytes / 4) (hknown : Known b i) :
    Known (ssRun font b ops) i := by
  induction ops generalizing b with
  | nil => exact hknown
  | cons op ops ih =>
      exact ih ((step_shifter font b op).trans hshifter) (known_step font op hshifter hi hknown)

theorem Kept.trans {b b' b'' : SsBoard} {i : Nat} (h : Kept b b' i) (h' : Kept b' b'' i) :
    Kept b b'' i := by
  intro k hk
  exact ⟨(h' k hk).1.trans (h k hk).1, (h' k hk).2.trans (h k hk).2⟩

def Draws (b : SsBoard) (ss : SsScreen) : Prop := b.ss = ss.remember true b.ss.shown

theorem draws_flush {ss : SsScreen} (h : Draws b ss) : Draws (ssFlush b).1 ss := by
  have hshifter : b.ss.shifter = true := by rw [h]; rfl
  have hfields : b.ss.mode = ss.mode ∧ b.ss.shadow = ss.shadow := by
    rw [h]
    exact ⟨rfl, rfl⟩
  rw [ssFlush_eq hshifter]
  unfold Draws flushed SsScreen.remember
  dsimp only
  rw [hfields.1, hfields.2, hshifter]

theorem draws_draw (d : Drawing) {b : SsBoard} {ss : SsScreen} (h : Draws b ss) :
    Draws (ssStep font b (.draw d)) (draw font d ss) := by
  have hdraw : draw font d b.ss = (draw font d ss).remember true b.ss.shown := by
    rw [← draw_remember font d ss true b.ss.shown, ← h]
  change draw font d b.ss = (draw font d ss).remember true (draw font d b.ss).shown
  rw [(draw_fields font d b.ss).1]
  exact hdraw

theorem run_long {ss : SsScreen} (ops : List SsOp)
    (hdraws : Draws b ss) {i : Nat} (hi : i < ssScreenBytes / 4)
    (hguess : SameLong b.ss.shown ss.shown (4 * i)) :
    (Sent font ss ops i -> Known (ssRun font b ops) i) ∧
      (¬ Sent font ss ops i -> Kept b (ssRun font b ops) i) := by
  have hshifter : b.ss.shifter = true := by rw [hdraws]; rfl
  induction ops generalizing b ss with
  | nil => exact ⟨False.elim, fun _ k _ => ⟨rfl, rfl⟩⟩
  | cons op ops ih =>
      cases op with
      | draw d =>
          have hshown := (draw_fields font d b.ss).1
          have hkept : Kept b (ssStep font b (.draw d)) i := fun k _ =>
            ⟨rfl, congrFun hshown (4 * i + k)⟩
          have hguess' : SameLong (ssStep font b (.draw d)).ss.shown (draw font d ss).shown
              (4 * i) := by
            intro k hk
            rw [(hkept k hk).2, (draw_fields font d ss).1]
            exact hguess k hk
          have hrest := ih (draws_draw font d hdraws) hguess'
            ((step_shifter font b (.draw d)).trans hshifter)
          exact ⟨hrest.1, fun hsent => hkept.trans (hrest.2 hsent)⟩
      | flush =>
          have hshadow : b.ss.shadow = ss.shadow := by rw [hdraws]; rfl
          have hsame : SameLong b.ss.shadow b.ss.shown (4 * i) <->
              SameLong ss.shadow ss.shown (4 * i) := by
            rw [hshadow]
            constructor
            · exact fun h k hk => (h k hk).trans (hguess k hk)
            · exact fun h k hk => (h k hk).trans (hguess k hk).symm
          have hstep : (ssFlush b).1.ss.shifter = true :=
            (step_shifter font b .flush).trans hshifter
          by_cases hskip : SameLong b.ss.shadow b.ss.shown (4 * i)
          · have hkept := flush_keeps hshifter hi hskip
            have hguess' : SameLong (ssFlush b).1.ss.shown ss.shown (4 * i) := fun k hk =>
              (hkept k hk).2.trans (hguess k hk)
            have hrest := ih (draws_flush hdraws) hguess' hstep
            refine ⟨?_, ?_⟩
            · intro hsent
              rcases hsent with hdiff | hlater
              · exact absurd (hsame.mp hskip) hdiff
              · exact hrest.1 hlater
            · intro hsent
              exact hkept.trans (hrest.2 fun hlater => hsent (Or.inr hlater))
          · have hknown := known_run font ops hstep hi (flush_sends hshifter hi hskip)
            exact ⟨fun _ => hknown, fun hsent => absurd (Or.inl fun h => hskip (hsame.mpr h)) hsent⟩
      | writeFull w =>
          have hknown := known_run font ops ((step_shifter font b (.writeFull w)).trans hshifter)
            hi (writeFull_sends w hshifter hi)
          exact ⟨fun _ => hknown, fun hsent => absurd trivial hsent⟩

/-!
## The screen after a flush
-/

def Complete (b : SsBoard) : Prop :=
  forall j, j < ssScreenBytes -> b.board (ssScreenBase + j) = b.ss.shadow j

theorem run_concat (b : SsBoard) (ops : List SsOp) (op : SsOp) :
    ssRun font b (ops ++ [op]) = ssStep font (ssRun font b ops) op := List.foldl_append

theorem run_shifter (b : SsBoard) (ops : List SsOp) :
    (ssRun font b ops).ss.shifter = b.ss.shifter := by
  induction ops generalizing b with
  | nil => rfl
  | cons op ops ih => exact (ih (ssStep font b op)).trans (step_shifter font b op)

theorem shown_after_flush (ops : List SsOp)
    (hshifter : b.ss.shifter = true) {i k : Nat} (hi : i < ssScreenBytes / 4) (hk : k < 4) :
    (ssRun font b (ops ++ [.flush])).ss.shown (4 * i + k) =
      (ssRun font b (ops ++ [.flush])).ss.shadow (4 * i + k) := by
  have hbefore := (run_shifter font b ops).trans hshifter
  have hshadow : (ssFlush (ssRun font b ops)).1.ss.shadow = (ssRun font b ops).ss.shadow := by
    rw [ssFlush_eq hbefore]
    rfl
  rw [run_concat]
  change (ssFlush (ssRun font b ops)).1.ss.shown _ = (ssFlush (ssRun font b ops)).1.ss.shadow _
  rw [flush_shown hbefore hi hk, hshadow]

/-- With a shifter the screen is complete just if every long that was never sent held the
guess. -/
theorem complete_shifter (mode : SsMode) (board : Bytes) (ops : List SsOp) :
    Complete (ssRun font ⟨ssBringup mode true, board⟩ (ops ++ [.flush])) <->
      forall i, i < ssScreenBytes / 4 -> ¬ Sent font (ssBringup mode true) (ops ++ [.flush]) i ->
        forall k, k < 4 -> board (ssScreenBase + (4 * i + k)) = 0xA5 := by
  have hrun : forall i, i < ssScreenBytes / 4 -> _ := fun i hi =>
    @run_long font ⟨ssBringup mode true, board⟩ (ssBringup mode true) (ops ++ [.flush]) rfl i hi
      fun k _ => rfl
  have hflush : forall i k, i < ssScreenBytes / 4 -> k < 4 -> _ := fun i k hi hk =>
    @shown_after_flush font ⟨ssBringup mode true, board⟩ ops rfl i k hi hk
  constructor
  · intro hcomplete i hi hsent k hk
    have hkept := (hrun i hi).2 hsent k hk
    have hbyte : 4 * i + k < ssScreenBytes := by
      unfold ssScreenBytes at hi ⊢
      lia
    calc
      board (ssScreenBase + (4 * i + k)) = _ := hkept.1.symm
      _ = _ := hcomplete (4 * i + k) hbyte
      _ = _ := (hflush i k hi hk).symm
      _ = 0xA5 := hkept.2
  · intro hheld j hj
    have hi : j / 4 < ssScreenBytes / 4 := by
      unfold ssScreenBytes at hj ⊢
      lia
    have hk : j % 4 < 4 := Nat.mod_lt j (by decide)
    have hknown : Known (ssRun font ⟨ssBringup mode true, board⟩ (ops ++ [.flush])) (j / 4) := by
      by_cases hsent : Sent font (ssBringup mode true) (ops ++ [.flush]) (j / 4)
      · exact (hrun (j / 4) hi).1 hsent
      · intro k hk
        have hkept := (hrun (j / 4) hi).2 hsent k hk
        exact hkept.1.trans ((hheld (j / 4) hi hsent k hk).trans hkept.2.symm)
    have hbyte := (hknown (j % 4) hk).trans (hflush (j / 4) (j % 4) hi hk)
    rw [Nat.div_add_mod] at hbyte
    exact hbyte

theorem drawn_flush (ss : SsScreen) (ops : List SsOp) :
    drawn font ss (ops ++ [.flush]) = drawn font ss ops := by
  induction ops generalizing ss with
  | nil => rfl
  | cons op ops ih =>
      cases op with
      | draw d => exact ih (draw font d ss)
      | flush => exact ih ss
      | writeFull w => exact ih ss

theorem run_no_shifter {ss : SsScreen} (ops : List SsOp)
    (hdraws : b.ss = ss.remember false b.ss.shown) :
    (ssRun font b ops).board = b.board ∧
      (ssRun font b ops).ss.shadow = (drawn font ss ops).shadow := by
  induction ops generalizing b ss with
  | nil =>
      refine ⟨rfl, ?_⟩
      change b.ss.shadow = ss.shadow
      rw [hdraws]
      rfl
  | cons op ops ih =>
      have hshifter : b.ss.shifter = false := by rw [hdraws]; rfl
      have hforget : forall m, { b.ss with shown := m } = ss.remember false m := by
        intro m
        rw [hdraws]
        rfl
      cases op with
      | draw d =>
          have hdraw : draw font d b.ss = (draw font d ss).remember false (draw font d b.ss).shown := by
            rw [(draw_fields font d b.ss).1, ← draw_remember font d ss false b.ss.shown, ← hdraws]
          exact @ih (ssStep font b (.draw d)) (draw font d ss) hdraw
      | flush =>
          have hstep : ssStep font b .flush =
              { b with ss := ss.remember false (memcpy b.ss.shown b.ss.shadow 0 ssScreenBytes) } := by
            change (ssFlush b).1 = _
            unfold ssFlush
            rw [if_neg (by rw [hshifter]; decide), ← hforget]
          have hrest := @ih (ssStep font b .flush) ss (by rw [hstep]; rfl)
          rw [hstep] at hrest
          change (ssRun font (ssStep font b .flush) ops).board = _ ∧
            (ssRun font (ssStep font b .flush) ops).ss.shadow = _
          rw [hstep]
          exact hrest
      | writeFull w =>
          have hstep : ssStep font b (.writeFull w) =
              { b with ss := ss.remember false (memcpy b.ss.shown b.ss.shadow 0 ssScreenBytes) } := by
            change ssWriteFull w b = _
            unfold ssWriteFull
            rw [if_neg (by rw [hshifter]; decide), ← hforget]
          have hrest := @ih (ssStep font b (.writeFull w)) ss (by rw [hstep]; rfl)
          rw [hstep] at hrest
          change (ssRun font (ssStep font b (.writeFull w)) ops).board = _ ∧
            (ssRun font (ssStep font b (.writeFull w)) ops).ss.shadow = _
          rw [hstep]
          exact hrest

/-- After a flush the screen is the page just if the longs that were never sent held the guess
and, without a shifter, if the board happened to hold the page. -/
theorem flush_complete_iff (font : Font) (mode : SsMode) (shifter : Bool) (board : Bytes)
    (ops : List SsOp) :
    Complete (ssRun font ⟨ssBringup mode shifter, board⟩ (ops ++ [.flush])) <->
      if shifter = true then
        forall i, i < ssScreenBytes / 4 ->
          ¬ Sent font (ssBringup mode shifter) (ops ++ [.flush]) i ->
            forall k, k < 4 -> board (ssScreenBase + (4 * i + k)) = 0xA5
      else
        forall j, j < ssScreenBytes ->
          board (ssScreenBase + j) = (drawn font (ssBringup mode shifter) ops).shadow j := by
  cases shifter with
  | true =>
      rw [if_pos rfl]
      exact complete_shifter font mode board ops
  | false =>
      have hrun := @run_no_shifter font ⟨ssBringup mode false, board⟩ (ssBringup mode false)
        (ops ++ [.flush]) rfl
      have hdrawn : drawn font (ssBringup mode false) (ops ++ [.flush]) =
          drawn font (ssBringup mode false) ops := drawn_flush font (ssBringup mode false) ops
      rw [if_neg Bool.false_ne_true]
      unfold Complete
      rw [hrun.1, hrun.2, hdrawn]

def guessPixels : List SsOp :=
  [0, 2, 5, 7, 8, 10, 13, 15, 16, 18, 21, 23, 24, 26, 29, 31].map fun x => .draw (.pixel x 0 1)

/-- Sixteen pixels at the start of the first line are never sent to a board that holds zeros. -/
theorem not_flush_complete :
    ¬ Complete (ssRun (fun _ _ => 0) ⟨ssBringup .mono true, fun _ => 0⟩
      (guessPixels ++ [.flush])) := by
  intro hcomplete
  have hsent : ¬ Sent (fun _ _ => 0) (ssBringup .mono true) (guessPixels ++ [.flush]) 0 := by
    intro hsent
    rcases hsent with hdiff | hnever
    · exact hdiff (by decide +kernel)
    · exact hnever
  have hheld := (complete_shifter (fun _ _ => 0) .mono (fun _ => 0) guessPixels).mp hcomplete
    0 (by decide) hsent 0 (by decide)
  exact absurd hheld (by decide)

end Setup
end PistormAtari
