import Mathlib
import PistormAtari.Foundation.BitCells

/-!
# The setup page: the shadow of the screen

The page is drawn into a shadow of the ST's screen memory, in one plane or in two whose
words alternate.  The font is a parameter: 128 characters of eight rows of eight pixels.
-/

namespace PistormAtari
namespace Setup

open Foundation

/-!
## Drawing
-/

inductive SsMode where
  | mono
  | colour
deriving DecidableEq, Repr

def SsMode.planes : SsMode -> Nat
  | .mono => 1
  | .colour => 2

def ssWidth : Nat := 640

def SsMode.height : SsMode -> Nat
  | .mono => 400
  | .colour => 200

def ssScreenBytes : Nat := 32000
def ssCols : Nat := 80
def ssRows : Nat := 25

/-- What `ss_bringup` leaves for the drawing: the mode, whether there is a shifter, the
page as it should be and as the board is thought to hold it. -/
structure SsScreen where
  mode : SsMode
  shifter : Bool
  shadow : Bytes
  shown : Bytes

abbrev Font : Type := Nat -> Nat -> BitVec 8

def OnScreen (mode : SsMode) (x y : Int) : Prop :=
  (0 ≤ x ∧ x < ssWidth) ∧ 0 ≤ y ∧ y < mode.height

instance (mode : SsMode) (x y : Int) : Decidable (OnScreen mode x y) :=
  inferInstanceAs (Decidable (_ ∧ _))

def pixelMono (x y : Nat) (colour : BitVec 32) (m : Bytes) : Bytes :=
  let b := y * 80 + x >>> 3
  Function.update m b (masked (m b) (0x80#8 >>> (x % 8)) (colour.getLsbD 0))

def pixelPlane (x y : Nat) (colour : BitVec 32) (m : Bytes) (pl : Nat) : Bytes :=
  let bit := 15 - x % 16
  let b := y * 160 + (x >>> 4) * 4 + pl * 2 + (if 8 ≤ bit then 0 else 1)
  Function.update m b
    (masked (m b) (1#8 <<< (if 8 ≤ bit then bit - 8 else bit)) (colour.getLsbD pl))

/-- In mono a line is 80 bytes, in colour 40 groups of a word for each plane. -/
def ssPixel (x y : Int) (colour : BitVec 32) (ss : SsScreen) : SsScreen :=
  if OnScreen ss.mode x y then
    match ss.mode with
    | .mono => { ss with shadow := pixelMono x.toNat y.toNat colour ss.shadow }
    | .colour =>
        { ss with shadow := (List.range 2).foldl (pixelPlane x.toNat y.toNat colour) ss.shadow }
  else ss

def glyphByte (g : BitVec 8) (ib pb : Bool) : BitVec 8 :=
  if ib = pb then (if ib then 0xFF else 0x00) else (if ib then g else ~~~g)

def cellByte (mode : SsMode) (col y pl : Nat) : Nat :=
  match mode with
  | .mono => y * 80 + col
  | .colour => y * 160 + (col >>> 1) * 4 + pl * 2 + col % 2

def SsMode.dup : SsMode -> Nat
  | .mono => 2
  | .colour => 1

def OnGrid (col row : Int) : Prop := (0 ≤ col ∧ col < ssCols) ∧ 0 ≤ row ∧ row < ssRows

instance (col row : Int) : Decidable (OnGrid col row) := inferInstanceAs (Decidable (_ ∧ _))

def ssPutc (font : Font) (col row : Int) (c : BitVec 8) (ink paper : BitVec 32) (ss : SsScreen) :
    SsScreen :=
  if OnGrid col row then
    let glyph := font (c &&& 0x7F).toNat
    let dup := ss.mode.dup
    { ss with
      shadow := (List.range 8).foldl (fun m i =>
        (List.range dup).foldl (fun m d =>
          (List.range ss.mode.planes).foldl (fun m pl =>
            Function.update m (cellByte ss.mode col.toNat (row.toNat * (8 * dup) + i * dup + d) pl)
              (glyphByte (glyph i) (ink.getLsbD pl) (paper.getLsbD pl))) m) m) ss.shadow }
  else ss

def ssPuts (font : Font) (col row : Int) (ink paper : BitVec 32) :
    List (BitVec 8) -> SsScreen -> SsScreen
  | [], ss => ss
  | c :: s, ss =>
      if c ≠ 0 ∧ col < ssCols then
        ssPuts font (col + 1) row ink paper s (ssPutc font col row c ink paper ss)
      else ss

def ssClearRow (font : Font) (row : Int) (paper : BitVec 32) (ss : SsScreen) : SsScreen :=
  (List.range ssCols).foldl (fun ss (col : Nat) => ssPutc font col row 0x20 paper paper ss) ss

def ssFill (x y w h : Int) (colour : BitVec 32) (ss : SsScreen) : SsScreen :=
  (List.range h.toNat).foldl (fun ss (j : Nat) =>
    (List.range w.toNat).foldl (fun ss (i : Nat) => ssPixel (x + i) (y + j) colour ss) ss) ss

def ssClear (colour : BitVec 32) (ss : SsScreen) : SsScreen :=
  ssFill 0 0 ssWidth ss.mode.height colour ss

def rgb : Nat -> BitVec 32
  | 0 => 0xEEEEEE
  | 1 => 0xCC0000
  | 2 => 0x00AA00
  | _ => 0x000000

def decoded (mode : SsMode) (m : Bytes) (x y : Nat) : Nat :=
  match mode with
  | .mono => if (m (y * 80 + x >>> 3)).getLsbD (7 - x % 8) then 3 else 0
  | .colour =>
      let word (p : Nat) : BitVec 16 :=
        (m (y * 160 + (x >>> 4) * 4 + p * 2)).setWidth 16 <<< 8 |||
          (m (y * 160 + (x >>> 4) * 4 + p * 2 + 1)).setWidth 16
      (List.range 2).foldl
        (fun c p => c ||| ((word p).getLsbD (15 - x % 16)).toNat <<< p) 0

def SsMode.exportDup : SsMode -> Nat
  | .mono => 1
  | .colour => 2

/-- The pixel at column `x` of row `yo` of the page as 640 by 400. -/
def ssExportXrgb (ss : SsScreen) (yo x : Nat) : BitVec 32 :=
  rgb (decoded ss.mode ss.shadow x (yo / ss.mode.exportDup))

/-!
## Pixels and cells as dots
-/

def dotByte (mode : SsMode) (x y pl : Nat) : Nat := cellByte mode (x / 8) y pl

def pixelDots (mode : SsMode) (x y : Nat) (colour : BitVec 32) : List Dot :=
  (List.range mode.planes).map fun pl => ⟨dotByte mode x y pl, 7 - x % 8, colour.getLsbD pl⟩

theorem twoPow_shift_right {k : Nat} (hk : k < 8) : 0x80#8 >>> k = BitVec.twoPow 8 (7 - k) := by
  interval_cases k <;> decide

theorem twoPow_shift_left (k : Nat) : 1#8 <<< k = BitVec.twoPow 8 k := rfl

theorem pixelMono_eq (x y : Nat) (colour : BitVec 32) (m : Bytes) :
    pixelMono x y colour m = setDot m ⟨dotByte .mono x y 0, 7 - x % 8, colour.getLsbD 0⟩ := by
  unfold pixelMono setDot dotByte cellByte
  rw [twoPow_shift_right (Nat.mod_lt x (by decide)), Nat.shiftRight_eq_div_pow]

theorem pixelPlane_eq (x y : Nat) (colour : BitVec 32) (m : Bytes) (pl : Nat) :
    pixelPlane x y colour m pl =
      setDot m ⟨dotByte .colour x y pl, 7 - x % 8, colour.getLsbD pl⟩ := by
  have hcell : y * 160 + (x >>> 4) * 4 + pl * 2 + (if 8 ≤ 15 - x % 16 then 0 else 1) =
      dotByte .colour x y pl := by
    unfold dotByte cellByte
    rw [Nat.shiftRight_eq_div_pow, Nat.shiftRight_eq_div_pow]
    split
    · lia
    · lia
  have hbit : (if 8 ≤ 15 - x % 16 then 15 - x % 16 - 8 else 15 - x % 16) = 7 - x % 8 := by
    split
    · lia
    · lia
  unfold pixelPlane
  dsimp only
  rw [hcell, hbit, twoPow_shift_left]
  rfl

theorem ssPixel_eq {x y : Int} {colour : BitVec 32} {ss : SsScreen} (hon : OnScreen ss.mode x y) :
    ssPixel x y colour ss =
      { ss with shadow := setDots ss.shadow (pixelDots ss.mode x.toNat y.toNat colour) } := by
  unfold ssPixel
  rw [if_pos hon]
  unfold pixelDots setDots
  cases hmode : ss.mode with
  | mono =>
      dsimp only
      rw [pixelMono_eq]
      rfl
  | colour =>
      dsimp only
      rw [List.foldl_map]
      congr 2
      funext m pl
      exact pixelPlane_eq x.toNat y.toNat colour m pl

end Setup
end PistormAtari
