import PistormAtari.Setup.ShifterScreen

/-!
# The setup page: text cells and pixels

A cell is eight pixels wide, so that a row of it is one byte of each plane.  Drawing a
character by these bytes is the same as drawing its pixels one by one.
-/

namespace PistormAtari
namespace Setup

open Foundation

/-!
## The pixels of a cell
-/

def SsMode.cellHeight (mode : SsMode) : Nat := 8 * mode.dup

def glyphColour (g : BitVec 8) (b : Nat) (ink paper : BitVec 32) : BitVec 32 :=
  if g.getLsbD (7 - b) then ink else paper

def cellPixels (font : Font) (mode : SsMode) (col row : Int) (c : BitVec 8)
    (ink paper : BitVec 32) : List ((Int × Int) × BitVec 32) :=
  (List.range 8).flatMap fun i =>
    (List.range mode.dup).flatMap fun d =>
      (List.range 8).map fun (b : Nat) =>
        ((col * 8 + b, row * mode.cellHeight + (i * mode.dup + d : Nat)),
          glyphColour (font (c &&& 0x7F).toNat i) b ink paper)

def drawPixels (pixels : List ((Int × Int) × BitVec 32)) (ss : SsScreen) : SsScreen :=
  pixels.foldl (fun ss p => ssPixel p.1.1 p.1.2 p.2 ss) ss

def InCell (mode : SsMode) (col row : Int) (k : Nat) : Prop :=
  OnGrid col row ∧
    exists i pl, (i < mode.cellHeight ∧ pl < mode.planes) ∧
      k = cellByte mode col.toNat (row.toNat * mode.cellHeight + i) pl

theorem dup_pos (mode : SsMode) : 0 < mode.dup := by
  cases mode <;> decide

variable {mode : SsMode}

theorem cell_row_lt {i d : Nat} (hi : i < 8) (hd : d < mode.dup) :
    i * mode.dup + d < mode.cellHeight := by
  unfold SsMode.cellHeight
  have hle : (i + 1) * mode.dup ≤ 8 * mode.dup := Nat.mul_le_mul_right mode.dup hi
  rw [Nat.add_mul] at hle
  lia

theorem onScreen_cell {col row : Int} {b j : Nat} (hb : b < 8) (hj : j < mode.cellHeight) :
    OnScreen mode (col * 8 + b) (row * mode.cellHeight + j) <-> OnGrid col row := by
  have hrows : (0 ≤ row * mode.cellHeight + (j : Int) ∧
      row * mode.cellHeight + (j : Int) < mode.height) <-> 0 ≤ row ∧ row < ssRows := by
    cases mode with
    | mono =>
        simp only [SsMode.cellHeight, SsMode.dup, SsMode.height, ssRows] at hj ⊢
        lia
    | colour =>
        simp only [SsMode.cellHeight, SsMode.dup, SsMode.height, ssRows] at hj ⊢
        lia
  have hcols : (0 ≤ col * 8 + (b : Int) ∧ col * 8 + (b : Int) < ssWidth) <->
      0 ≤ col ∧ col < ssCols := by
    simp only [ssWidth, ssCols]
    lia
  exact and_congr hcols hrows

theorem mem_cellPixels {font : Font} {mode : SsMode} {col row : Int} {c : BitVec 8}
    {ink paper : BitVec 32} {p : (Int × Int) × BitVec 32} :
    p ∈ cellPixels font mode col row c ink paper <->
      exists i d b, (i < 8 ∧ d < mode.dup ∧ b < 8) ∧
        p = ((col * 8 + (b : Nat), row * mode.cellHeight + (i * mode.dup + d : Nat)),
          glyphColour (font (c &&& 0x7F).toNat i) b ink paper) := by
  unfold cellPixels
  simp only [List.mem_flatMap, List.mem_map, List.mem_range]
  constructor
  · rintro ⟨i, hi, d, hd, b, hb, rfl⟩
    exact ⟨i, d, b, ⟨hi, hd, hb⟩, rfl⟩
  · rintro ⟨i, d, b, ⟨hi, hd, hb⟩, rfl⟩
    exact ⟨i, hi, d, hd, b, hb, rfl⟩

theorem drawPixels_off {pixels : List ((Int × Int) × BitVec 32)} {ss : SsScreen}
    (hoff : forall p, p ∈ pixels -> ¬ OnScreen ss.mode p.1.1 p.1.2) :
    drawPixels pixels ss = ss := by
  induction pixels with
  | nil => rfl
  | cons p rest ih =>
      have hskip : ssPixel p.1.1 p.1.2 p.2 ss = ss := if_neg (hoff p List.mem_cons_self)
      change drawPixels rest (ssPixel p.1.1 p.1.2 p.2 ss) = ss
      rw [hskip]
      exact ih fun q hq => hoff q (List.mem_cons_of_mem p hq)

theorem drawPixels_on {pixels : List ((Int × Int) × BitVec 32)} {ss : SsScreen}
    (hon : forall p, p ∈ pixels -> OnScreen ss.mode p.1.1 p.1.2) :
    drawPixels pixels ss =
      { ss with
        shadow := setDots ss.shadow
          (pixels.flatMap fun p => pixelDots ss.mode p.1.1.toNat p.1.2.toNat p.2) } := by
  induction pixels generalizing ss with
  | nil => rfl
  | cons p rest ih =>
      change drawPixels rest (ssPixel p.1.1 p.1.2 p.2 ss) = _
      rw [ssPixel_eq (hon p List.mem_cons_self)]
      refine (ih ?_).trans ?_
      · exact fun q hq => hon q (List.mem_cons_of_mem p hq)
      · rw [List.flatMap_cons, setDots_append]

/-!
## The bytes of a cell
-/

def cellWrites (font : Font) (mode : SsMode) (col row : Nat) (c : BitVec 8)
    (ink paper : BitVec 32) : List (Nat × BitVec 8) :=
  (List.range 8).flatMap fun i =>
    (List.range mode.dup).flatMap fun d =>
      (List.range mode.planes).map fun pl =>
        (cellByte mode col (row * (8 * mode.dup) + i * mode.dup + d) pl,
          glyphByte (font (c &&& 0x7F).toNat i) (ink.getLsbD pl) (paper.getLsbD pl))

theorem ssPutc_eq (font : Font) {col row : Int} (c : BitVec 8) (ink paper : BitVec 32)
    {ss : SsScreen} (hon : OnGrid col row) :
    ssPutc font col row c ink paper ss =
      { ss with
        shadow :=
          setBytes ss.shadow (cellWrites font ss.mode col.toNat row.toNat c ink paper) } := by
  unfold ssPutc
  rw [if_pos hon]
  unfold setBytes cellWrites
  simp only [List.foldl_flatMap, List.foldl_map]
  rfl

theorem getLsbD_glyphByte (g : BitVec 8) (ib pb : Bool) {j : Nat} (hj : j < 8) :
    (glyphByte g ib pb).getLsbD j = if g.getLsbD j then ib else pb := by
  unfold glyphByte
  cases ib with
  | false =>
      cases pb with
      | false => simp
      | true => simp [hj]
  | true =>
      cases pb with
      | false => simp
      | true =>
          have hones : (0xFF#8).getLsbD j = true := by
            interval_cases j <;> rfl
          simp [hones]

def cellDots (font : Font) (mode : SsMode) (col row : Nat) (c : BitVec 8)
    (ink paper : BitVec 32) (dot : Dot) : Prop :=
  exists i d b pl, ((i < 8 ∧ d < mode.dup) ∧ b < 8 ∧ pl < mode.planes) ∧
    dot = ⟨cellByte mode col (row * mode.cellHeight + (i * mode.dup + d)) pl, 7 - b,
      (glyphColour (font (c &&& 0x7F).toNat i) b ink paper).getLsbD pl⟩

theorem mem_pixel_dots {font : Font} {mode : SsMode} {col row : Int} {c : BitVec 8}
    {ink paper : BitVec 32} (hon : OnGrid col row) {dot : Dot} :
    dot ∈ (cellPixels font mode col row c ink paper).flatMap
        (fun p => pixelDots mode p.1.1.toNat p.1.2.toNat p.2) <->
      cellDots font mode col.toNat row.toNat c ink paper dot := by
  obtain ⟨⟨hcol, _⟩, hrow, _⟩ := hon
  have hx : forall b, b < 8 -> (col * 8 + (b : Nat)).toNat / 8 = col.toNat ∧
      (col * 8 + (b : Nat)).toNat % 8 = b := by
    intro b hb
    lia
  have hy : forall j, (row * mode.cellHeight + (j : Nat)).toNat =
      row.toNat * mode.cellHeight + j := by
    intro j
    obtain ⟨r, rfl⟩ := Int.eq_ofNat_of_zero_le hrow
    norm_cast
  rw [List.mem_flatMap]
  unfold pixelDots cellDots dotByte
  simp only [List.mem_map, List.mem_range]
  constructor
  · rintro ⟨p, hp, pl, hpl, rfl⟩
    obtain ⟨i, d, b, ⟨hi, hd, hb⟩, rfl⟩ := mem_cellPixels.mp hp
    refine ⟨i, d, b, pl, ⟨⟨hi, hd⟩, hb, hpl⟩, ?_⟩
    dsimp only
    rw [(hx b hb).1, (hx b hb).2, hy]
  · rintro ⟨i, d, b, pl, ⟨⟨hi, hd⟩, hb, hpl⟩, rfl⟩
    refine ⟨_, mem_cellPixels.mpr ⟨i, d, b, ⟨hi, hd, hb⟩, rfl⟩, pl, hpl, ?_⟩
    dsimp only
    rw [(hx b hb).1, (hx b hb).2, hy]

theorem mem_byte_dots {font : Font} {mode : SsMode} {col row : Nat} {c : BitVec 8}
    {ink paper : BitVec 32} {dot : Dot} :
    dot ∈ (cellWrites font mode col row c ink paper).flatMap dotsOfByte <->
      cellDots font mode col row c ink paper dot := by
  have hbit : forall (g : BitVec 8) b pl, b < 8 ->
      (glyphByte g (ink.getLsbD pl) (paper.getLsbD pl)).getLsbD (7 - b) =
        (glyphColour g b ink paper).getLsbD pl := by
    intro g b pl hb
    rw [getLsbD_glyphByte _ _ _ (by lia)]
    unfold glyphColour
    split
    · rfl
    · rfl
  unfold cellWrites cellDots dotsOfByte SsMode.cellHeight
  simp only [List.mem_flatMap, List.mem_map, List.mem_range, Nat.add_assoc]
  constructor
  · rintro ⟨w, ⟨i, hi, d, hd, pl, hpl, rfl⟩, j, hj, rfl⟩
    refine ⟨i, d, 7 - j, pl, ⟨⟨hi, hd⟩, by lia, hpl⟩, ?_⟩
    have hbit' := hbit (font (c &&& 0x7F).toNat i) (7 - j) pl (by lia)
    rw [Nat.sub_sub_self (Nat.le_of_lt_succ hj)] at hbit'
    dsimp only
    rw [Nat.sub_sub_self (Nat.le_of_lt_succ hj), hbit']
  · rintro ⟨i, d, b, pl, ⟨⟨hi, hd⟩, hb, hpl⟩, rfl⟩
    refine ⟨_, ⟨i, hi, d, hd, pl, hpl, rfl⟩, 7 - b, by lia, ?_⟩
    dsimp only
    rw [hbit (font (c &&& 0x7F).toNat i) b pl hb]

theorem cellByte_inj {col col' y y' pl pl' : Nat} (hcol : col < ssCols)
    (hcol' : col' < ssCols) (hpl : pl < mode.planes) (hpl' : pl' < mode.planes)
    (hsame : cellByte mode col y pl = cellByte mode col' y' pl') :
    col = col' ∧ y = y' ∧ pl = pl' := by
  cases mode with
  | mono =>
      simp only [cellByte, SsMode.planes, ssCols] at hsame hpl hpl' hcol hcol'
      lia
  | colour =>
      simp only [cellByte, SsMode.planes, ssCols, Nat.shiftRight_eq_div_pow]
        at hsame hpl hpl' hcol hcol'
      lia

theorem agree_cellDots {font : Font} {mode : SsMode} {col row : Nat} {c : BitVec 8}
    {ink paper : BitVec 32} (hcol : col < ssCols) {ds : List Dot}
    (hds : forall d, d ∈ ds <-> cellDots font mode col row c ink paper d) : Agree ds := by
  intro d hd e he hat
  obtain ⟨i, k, b, pl, ⟨⟨hi, hk⟩, hb, hpl⟩, rfl⟩ := (hds d).mp hd
  obtain ⟨i', k', b', pl', ⟨⟨hi', hk'⟩, hb', hpl'⟩, rfl⟩ := (hds e).mp he
  obtain ⟨hcell, hbit⟩ := hat
  obtain ⟨-, hrow, rfl⟩ := cellByte_inj hcol hcol hpl hpl' hcell
  have hbb : b = b' := by
    simp only at hbit
    lia
  have hline : i * mode.dup + k = i' * mode.dup + k' := Nat.add_left_cancel hrow
  have hii : i = i' := by
    have hdiv := congrArg (fun j => j / mode.dup) hline
    simp only [Nat.mul_comm _ mode.dup, Nat.mul_add_div (dup_pos mode),
      Nat.div_eq_of_lt hk, Nat.div_eq_of_lt hk', Nat.add_zero] at hdiv
    exact hdiv
  subst hbb
  subst hii
  rfl

theorem ssPutc_eq_drawPixels (font : Font) (col row : Int) (c : BitVec 8)
    (ink paper : BitVec 32) (ss : SsScreen) :
    ssPutc font col row c ink paper ss =
      drawPixels (cellPixels font ss.mode col row c ink paper) ss := by
  by_cases hon : OnGrid col row
  · have hpixels : forall p, p ∈ cellPixels font ss.mode col row c ink paper ->
        OnScreen ss.mode p.1.1 p.1.2 := by
      intro p hp
      obtain ⟨i, d, b, ⟨hi, hd, hb⟩, rfl⟩ := mem_cellPixels.mp hp
      exact (onScreen_cell hb (cell_row_lt hi hd)).mpr hon
    have hsame : forall d,
        d ∈ (cellWrites font ss.mode col.toNat row.toNat c ink paper).flatMap dotsOfByte <->
          d ∈ (cellPixels font ss.mode col row c ink paper).flatMap
            (fun p => pixelDots ss.mode p.1.1.toNat p.1.2.toNat p.2) :=
      fun d => mem_byte_dots.trans (mem_pixel_dots hon).symm
    have hbits : forall d,
        d ∈ (cellWrites font ss.mode col.toNat row.toNat c ink paper).flatMap dotsOfByte ->
          d.bit < 8 := by
      intro d hd
      obtain ⟨i, k, b, pl, _, rfl⟩ := mem_byte_dots.mp hd
      exact Nat.lt_of_le_of_lt (Nat.sub_le 7 b) (by decide)
    have hcol : col.toNat < ssCols := by
      have hlt := hon.1
      unfold ssCols at hlt ⊢
      lia
    rw [ssPutc_eq font c ink paper hon, drawPixels_on hpixels, setBytes_eq_setDots,
      setDots_congr ss.shadow hbits (agree_cellDots hcol fun d => mem_byte_dots) hsame]
  · have hoff : ssPutc font col row c ink paper ss = ss := if_neg hon
    rw [hoff, drawPixels_off]
    intro p hp hscreen
    obtain ⟨i, d, b, ⟨hi, hd, hb⟩, rfl⟩ := mem_cellPixels.mp hp
    exact hon ((onScreen_cell hb (cell_row_lt hi hd)).mp hscreen)

/-!
## What is left alone, and what is exported
-/

theorem ssPutc_outside (font : Font) (col row : Int) (c : BitVec 8) (ink paper : BitVec 32)
    (ss : SsScreen) {k : Nat} (hout : ¬ InCell ss.mode col row k) :
    (ssPutc font col row c ink paper ss).shadow k = ss.shadow k := by
  by_cases hon : OnGrid col row
  · rw [ssPutc_eq font c ink paper hon]
    dsimp only
    rw [setBytes_eq_setDots]
    apply BitVec.eq_of_getLsbD_eq
    intro j _
    apply setDots_of_not_at
    · intro d hd
      obtain ⟨i, e, b, pl, _, rfl⟩ := mem_byte_dots.mp hd
      exact Nat.lt_of_le_of_lt (Nat.sub_le 7 b) (by decide)
    · intro d hd hat
      obtain ⟨i, e, b, pl, ⟨⟨hi, he⟩, _, hpl⟩, rfl⟩ := mem_byte_dots.mp hd
      exact hout ⟨hon, i * ss.mode.dup + e, pl, ⟨cell_row_lt hi he, hpl⟩, hat.1.symm⟩
  · have hoff : ssPutc font col row c ink paper ss = ss := if_neg hon
    rw [hoff]

theorem inCell_lt {col row : Int} {k : Nat} (hin : InCell mode col row k) :
    k < ssScreenBytes := by
  obtain ⟨⟨hcol, hrow⟩, i, pl, ⟨hi, hpl⟩, rfl⟩ := hin
  cases mode with
  | mono =>
      simp only [SsMode.cellHeight, SsMode.dup, SsMode.planes, cellByte, ssScreenBytes, ssCols,
        ssRows] at hi hpl hcol hrow ⊢
      lia
  | colour =>
      simp only [SsMode.cellHeight, SsMode.dup, SsMode.planes, cellByte, ssScreenBytes, ssCols,
        ssRows, Nat.shiftRight_eq_div_pow] at hi hpl hcol hrow ⊢
      lia

def shownColour (mode : SsMode) (colour : BitVec 32) : Nat :=
  match mode with
  | .mono => if colour.getLsbD 0 then 3 else 0
  | .colour => (colour.setWidth 2).toNat

def planeBit (mode : SsMode) (m : Bytes) (x y pl : Nat) : Bool :=
  (m (dotByte mode x y pl)).getLsbD (7 - x % 8)

theorem getLsbD_word (m : Bytes) (x y p : Nat) :
    ((m (y * 160 + (x >>> 4) * 4 + p * 2)).setWidth 16 <<< 8 |||
        (m (y * 160 + (x >>> 4) * 4 + p * 2 + 1)).setWidth 16).getLsbD (15 - x % 16) =
      planeBit .colour m x y p := by
  have hx : x % 16 < 16 := Nat.mod_lt x (by decide)
  rw [BitVec.getLsbD_or, BitVec.getLsbD_shiftLeft, BitVec.getLsbD_setWidth,
    BitVec.getLsbD_setWidth]
  unfold planeBit dotByte cellByte
  by_cases hleft : 8 ≤ 15 - x % 16
  · have hbyte : y * 160 + ((x / 8) >>> 1) * 4 + p * 2 + x / 8 % 2 =
        y * 160 + (x >>> 4) * 4 + p * 2 := by
      rw [Nat.shiftRight_eq_div_pow, Nat.shiftRight_eq_div_pow]
      lia
    have hbit : 15 - x % 16 - 8 = 7 - x % 8 := by lia
    have hnone : (m (y * 160 + (x >>> 4) * 4 + p * 2 + 1)).getLsbD (15 - x % 16) = false :=
      BitVec.getLsbD_of_ge _ _ hleft
    have hlow : ¬ 15 - x % 16 < 8 := Nat.not_lt.mpr hleft
    dsimp only
    rw [hbyte, hnone, hbit, Bool.and_false, Bool.or_false]
    simp [hlow]
    lia
  · have hbyte : y * 160 + ((x / 8) >>> 1) * 4 + p * 2 + x / 8 % 2 =
        y * 160 + (x >>> 4) * 4 + p * 2 + 1 := by
      rw [Nat.shiftRight_eq_div_pow, Nat.shiftRight_eq_div_pow]
      lia
    have hbit : 15 - x % 16 = 7 - x % 8 := by lia
    have hlow : 15 - x % 16 < 8 := Nat.not_le.mp hleft
    dsimp only
    rw [hbyte, ← hbit]
    simp [hlow]
    lia

theorem toNat_two (v : BitVec 2) :
    v.toNat = (v.getLsbD 0).toNat ||| (v.getLsbD 1).toNat <<< 1 := by
  revert v
  decide

theorem fold_planes (f : Nat -> Bool) :
    (List.range 2).foldl (fun c p => c ||| (f p).toNat <<< p) 0 =
      (f 0).toNat ||| (f 1).toNat <<< 1 := by
  change (0 ||| (f 0).toNat <<< 0) ||| (f 1).toNat <<< 1 = _
  rw [Nat.zero_or, Nat.shiftLeft_zero]

theorem decoded_of_bits {m : Bytes} {x y : Nat} {colour : BitVec 32}
    (hbits : forall pl, pl < mode.planes -> planeBit mode m x y pl = colour.getLsbD pl) :
    decoded mode m x y = shownColour mode colour := by
  cases mode with
  | mono =>
      have hbit := hbits 0 (by decide)
      unfold planeBit dotByte cellByte at hbit
      unfold decoded shownColour
      rw [Nat.shiftRight_eq_div_pow, ← hbit]
  | colour =>
      have hlow := hbits 0 (by decide)
      have hhigh := hbits 1 (by decide)
      rw [← getLsbD_word] at hlow hhigh
      have htwo : (colour.setWidth 2).toNat =
          (colour.getLsbD 0).toNat ||| (colour.getLsbD 1).toNat <<< 1 := by
        rw [toNat_two, BitVec.getLsbD_setWidth, BitVec.getLsbD_setWidth]
        simp only [Nat.zero_lt_two, Nat.one_lt_two, decide_true, Bool.true_and]
      unfold decoded shownColour
      dsimp only
      rw [fold_planes, hlow, hhigh, htwo]

theorem agree_pixelDots (mode : SsMode) (x y : Nat) (colour : BitVec 32) (hx : x < ssWidth) :
    Agree (pixelDots mode x y colour) := by
  intro d hd e he hat
  obtain ⟨pl, hpl, rfl⟩ := List.mem_map.mp hd
  obtain ⟨pl', hpl', rfl⟩ := List.mem_map.mp he
  have hcol : x / 8 < ssCols := by
    unfold ssWidth at hx
    unfold ssCols
    lia
  obtain ⟨-, -, rfl⟩ :=
    cellByte_inj hcol hcol (List.mem_range.mp hpl) (List.mem_range.mp hpl') hat.1
  rfl

theorem export_ssPixel {x y : Int} (colour : BitVec 32) {ss : SsScreen}
    (hon : OnScreen ss.mode x y) {yo : Nat} (hyo : yo / ss.mode.exportDup = y.toNat) :
    ssExportXrgb (ssPixel x y colour ss) yo x.toNat = rgb (shownColour ss.mode colour) := by
  have hx : x.toNat < ssWidth := by
    have hlt := hon.1
    unfold ssWidth at hlt ⊢
    lia
  have hbits : forall d, d ∈ pixelDots ss.mode x.toNat y.toNat colour -> d.bit < 8 := by
    intro d hd
    obtain ⟨pl, _, rfl⟩ := List.mem_map.mp hd
    exact Nat.lt_of_le_of_lt (Nat.sub_le 7 _) (by decide)
  rw [ssPixel_eq hon]
  unfold ssExportXrgb
  dsimp only
  rw [hyo, decoded_of_bits]
  intro pl hpl
  exact setDots_at ss.shadow hbits (agree_pixelDots ss.mode x.toNat y.toNat colour hx)
    (List.mem_map.mpr ⟨pl, List.mem_range.mpr hpl, rfl⟩) ⟨rfl, rfl⟩

theorem export_ssPutc (font : Font) {col row : Int} (c : BitVec 8) (ink paper : BitVec 32)
    {ss : SsScreen} (hon : OnGrid col row) {p : (Int × Int) × BitVec 32}
    (hp : p ∈ cellPixels font ss.mode col row c ink paper) {yo : Nat}
    (hyo : yo / ss.mode.exportDup = p.1.2.toNat) :
    ssExportXrgb (ssPutc font col row c ink paper ss) yo p.1.1.toNat =
      rgb (shownColour ss.mode p.2) := by
  have hcol : col.toNat < ssCols := by
    have hlt := hon.1
    unfold ssCols at hlt ⊢
    lia
  have hbits : forall d,
      d ∈ (cellWrites font ss.mode col.toNat row.toNat c ink paper).flatMap dotsOfByte ->
        d.bit < 8 := by
    intro d hd
    obtain ⟨i, k, b, pl, _, rfl⟩ := mem_byte_dots.mp hd
    exact Nat.lt_of_le_of_lt (Nat.sub_le 7 b) (by decide)
  rw [ssPutc_eq font c ink paper hon]
  unfold ssExportXrgb
  dsimp only
  rw [hyo, decoded_of_bits]
  intro pl hpl
  rw [setBytes_eq_setDots]
  have hdot := (mem_pixel_dots hon).mp (List.mem_flatMap.mpr
    ⟨p, hp, List.mem_map.mpr ⟨pl, List.mem_range.mpr hpl, rfl⟩⟩)
  exact setDots_at ss.shadow hbits (agree_cellDots hcol fun d => mem_byte_dots)
    (mem_byte_dots.mpr hdot) ⟨rfl, rfl⟩

/-- A character is its pixels: the same shadow, nothing outside its cell, and what is
exported is the colours that were set. -/
theorem text_cells_are_pixels (font : Font) (ss : SsScreen) (col row : Int) (c : BitVec 8)
    (ink paper : BitVec 32) :
    ssPutc font col row c ink paper ss =
        drawPixels (cellPixels font ss.mode col row c ink paper) ss ∧
      (forall k, ¬ InCell ss.mode col row k ->
        (ssPutc font col row c ink paper ss).shadow k = ss.shadow k) ∧
      (forall k, InCell ss.mode col row k -> k < ssScreenBytes) ∧
      (OnGrid col row -> forall p, p ∈ cellPixels font ss.mode col row c ink paper ->
        forall yo, yo / ss.mode.exportDup = p.1.2.toNat ->
          ssExportXrgb (ssPutc font col row c ink paper ss) yo p.1.1.toNat =
            rgb (shownColour ss.mode p.2)) ∧
      forall x y colour, OnScreen ss.mode x y ->
        forall yo, yo / ss.mode.exportDup = y.toNat ->
          ssExportXrgb (ssPixel x y colour ss) yo x.toNat = rgb (shownColour ss.mode colour) := by
  refine ⟨ssPutc_eq_drawPixels font col row c ink paper ss, ?_, ?_, ?_, ?_⟩
  · intro k hout
    exact ssPutc_outside font col row c ink paper ss hout
  · intro k hin
    exact inCell_lt hin
  · intro hon p hp yo hyo
    exact export_ssPutc font c ink paper hon hp hyo
  · intro x y colour hon yo hyo
    exact export_ssPixel colour hon hyo

end Setup
end PistormAtari
