import Mathlib
import PistormAtari.Foundation.UpwardCopy
import PistormAtari.Psvidel.Snapshot

/-!
# The SuperBlitter

A blit copies lines of bytes in the address space of the SuperVidel: its low 16 MB, which
mirror the ST's memory and are reached byte by byte, and the video RAM above them, which is
reached by pointer.
-/

namespace PistormAtari
namespace Psvidel

open Foundation

/-!
## The address space
-/

/-- `low` is what the hooks read and write, as plain bytes: the memory banks behind
them also have ROM, which ignores writes, and I/O registers. -/
structure SvRam where
  video : VideoRam
  hooks : Bool
  low : Nat -> BitVec 8

def svPtr (m : SvRam) (off : BitVec 32) (len : Nat) : Option Nat :=
  if off.toNat < psvLoSize ∨ m.video.mapped = false then none
  else
    let i := off.toNat - psvLoSize
    if psvVramSize ≤ i ∨ psvVramSize - i < len then none else some i

def svGet (m : SvRam) (off : BitVec 32) : BitVec 8 :=
  match svPtr m off 1 with
  | some i => m.video.vram i
  | none => if off.toNat < psvLoSize ∧ m.hooks = true then m.low off.toNat else 0

def svPut (m : SvRam) (off : BitVec 32) (v : BitVec 8) : SvRam :=
  match svPtr m off 1 with
  | some i =>
      { m with
        video := psvidelVramDirty { m.video with vram := Function.update m.video.vram i v } i 1 }
  | none =>
      if off.toNat < psvLoSize ∧ m.hooks = true then
        { m with low := Function.update m.low off.toNat v }
      else m

/-!
## The blit
-/

structure SvLine where
  s1 : BitVec 32
  s2 : BitVec 32
  d : BitVec 32

def memmove (v : Nat -> BitVec 8) (pd ps n : Nat) : Nat -> BitVec 8 :=
  fun i => if pd ≤ i ∧ i < pd + n then v (ps + (i - pd)) else v i

/-- One line: by pointers where they are to be had, else byte by byte. -/
def svLine (mode n : Nat) (l : SvLine) (m : SvRam) : SvRam :=
  match mode, svPtr m l.s1 n, svPtr m l.s2 n, svPtr m l.d n with
  | 0, some ps1, _, some pd =>
      { m with
        video := psvidelVramDirty { m.video with vram := memmove m.video.vram pd ps1 n } pd n }
  | 1, some ps1, some ps2, some pd =>
      let vram := (List.range n).foldl
        (fun v x => if v (ps2 + x) ≠ 0 then Function.update v (pd + x) (v (ps1 + x)) else v)
        m.video.vram
      { m with video := psvidelVramDirty { m.video with vram := vram } pd n }
  | mode, _, _, _ =>
      (List.range n).foldl
        (fun m x =>
          if mode = 1 ∧ svGet m (l.s2 + BitVec.ofNat 32 x) = 0 then m
          else svPut m (l.d + BitVec.ofNat 32 x) (svGet m (l.s1 + BitVec.ofNat 32 x))) m

abbrev SvRegs : Type := Nat -> BitVec 32

def svbSrc1 : Nat := 0x58
def svbSrc2 : Nat := 0x5C
def svbDst : Nat := 0x60
def svbCount : Nat := 0x64
def svbS1off : Nat := 0x68
def svbS2off : Nat := 0x6C
def svbDoff : Nat := 0x70
def svbLines : Nat := 0x74
def svbCtrl : Nat := 0x78

def svStart (r : SvRegs) : SvLine where
  s1 := r svbSrc1 &&& 0x07FFFFFF
  s2 := r svbSrc2 &&& 0x07FFFFFF
  d := r svbDst &&& 0x07FFFFFF

def svNext (r : SvRegs) (l : SvLine) : SvLine where
  s1 := l.s1 + r svbS1off
  s2 := l.s2 + r svbS2off
  d := l.d + r svbDoff

def svCount (r : SvRegs) : Nat := ((r svbCount &&& 0x7FF) + 1).toNat

def svLines (r : SvRegs) : Nat := (r svbLines &&& 0xFFF).toNat

def svMode (r : SvRegs) : Nat := ((r svbCtrl >>> 1) &&& 0xF).toNat

def svblitLines (r : SvRegs) : Nat -> SvLine -> SvRam -> SvRam
  | 0, _, m => m
  | lines + 1, l, m => svblitLines r lines (svNext r l) (svLine (svMode r) (svCount r) l m)

def svblitRun (s : SvRegs × SvRam) : SvRegs × SvRam :=
  (Function.update s.1 svbCtrl (s.1 svbCtrl &&& ~~~1),
    svblitLines s.1 (svLines s.1) (svStart s.1) s.2)

/-!
## The memory as bytes
-/

structure SvShape where
  mapped : Bool
  hooks : Bool

def SvRam.shape (m : SvRam) : SvShape := ⟨m.video.mapped, m.hooks⟩

def SvShape.Backed (sh : SvShape) (a : BitVec 32) : Prop :=
  (a.toNat < psvLoSize ∧ sh.hooks = true) ∨
    ((psvLoSize ≤ a.toNat ∧ a.toNat < psvLoSize + psvVramSize) ∧ sh.mapped = true)

instance (sh : SvShape) (a : BitVec 32) : Decidable (sh.Backed a) :=
  inferInstanceAs (Decidable (_ ∨ _))

variable {m : SvRam}

theorem svPtr_eq_some_iff {off : BitVec 32} {len i : Nat} (hlen : 0 < len) :
    svPtr m off len = some i <->
      m.video.mapped = true ∧ off.toNat = psvLoSize + i ∧ i + len ≤ psvVramSize := by
  unfold svPtr
  dsimp only
  constructor
  · intro h
    split at h
    · cases h
    · rename_i hon
      split at h
      · cases h
      · rename_i hfits
        have hi := Option.some.inj h
        obtain ⟨hlow, hmapped⟩ := not_or.mp hon
        obtain ⟨hlt, hle⟩ := not_or.mp hfits
        exact ⟨Bool.eq_true_of_not_eq_false hmapped, by omega, by omega⟩
  · rintro ⟨hmapped, hoff, hfits⟩
    have hi : off.toNat - psvLoSize = i := by lia
    rw [if_neg (by rw [hmapped]; simp; lia), hi, if_neg (by lia)]

theorem svPtr_eq_none_iff {off : BitVec 32} :
    svPtr m off 1 = none <->
      ¬ ((psvLoSize ≤ off.toNat ∧ off.toNat < psvLoSize + psvVramSize) ∧
        m.video.mapped = true) := by
  constructor
  · rintro hnone ⟨⟨hlow, hhigh⟩, hmapped⟩
    have hsome := (@svPtr_eq_some_iff m off 1 (off.toNat - psvLoSize) Nat.one_pos).mpr
      ⟨hmapped, by omega, by omega⟩
    rw [hnone] at hsome
    cases hsome
  · intro hout
    cases hptr : svPtr m off 1 with
    | none => rfl
    | some i =>
        obtain ⟨hmapped, hoff, hfits⟩ := (svPtr_eq_some_iff Nat.one_pos).mp hptr
        exact absurd ⟨⟨by lia, by lia⟩, hmapped⟩ hout

theorem svGet_video (hmapped : m.video.mapped = true) {a : BitVec 32} {i : Nat}
    (ha : a.toNat = psvLoSize + i) (hi : i < psvVramSize) : svGet m a = m.video.vram i := by
  have hptr := (@svPtr_eq_some_iff m a 1 i Nat.one_pos).mpr ⟨hmapped, ha, hi⟩
  unfold svGet
  rw [hptr]

theorem svGet_low (hhooks : m.hooks = true) {a : BitVec 32}
    (ha : a.toNat < psvLoSize) : svGet m a = m.low a.toNat := by
  have hptr : svPtr m a 1 = none := svPtr_eq_none_iff.mpr fun h => by lia
  unfold svGet
  rw [hptr]
  exact if_pos ⟨ha, hhooks⟩

theorem svGet_unbacked {a : BitVec 32} (ha : ¬ m.shape.Backed a) : svGet m a = 0 := by
  obtain ⟨hlow, hvideo⟩ := not_or.mp ha
  have hptr : svPtr m a 1 = none := svPtr_eq_none_iff.mpr hvideo
  unfold svGet
  rw [hptr]
  exact if_neg hlow

theorem svPut_shape (m : SvRam) (a : BitVec 32) (v : BitVec 8) : (svPut m a v).shape = m.shape := by
  unfold svPut
  split
  · unfold SvRam.shape
    dsimp only
    rw [psvidelVramDirty_mapped]
  · split
    · rfl
    · rfl

theorem svPtr_congr {m m' : SvRam} (h : m'.video.mapped = m.video.mapped) (a : BitVec 32)
    (len : Nat) : svPtr m' a len = svPtr m a len := by
  unfold svPtr
  rw [h]

theorem svGet_update_vram {m m' : SvRam} {a : BitVec 32} {i : Nat} {v : BitVec 8}
    (hmapped : m.video.mapped = true) (ha : a.toNat = psvLoSize + i) (hi : i < psvVramSize)
    (hmapped' : m'.video.mapped = m.video.mapped)
    (hvram : m'.video.vram = Function.update m.video.vram i v) (hlow : m'.low = m.low)
    (hhooks : m'.hooks = m.hooks) : svGet m' = Function.update (svGet m) a v := by
  funext b
  by_cases hb : b = a
  · subst hb
    rw [svGet_video (hmapped'.trans hmapped) ha hi, hvram, Function.update_self,
      Function.update_self]
  · rw [Function.update_of_ne hb]
    unfold svGet
    rw [svPtr_congr hmapped', hlow, hhooks]
    cases hptr : svPtr m b 1 with
    | none => rfl
    | some j =>
        have hplace := ((svPtr_eq_some_iff Nat.one_pos).mp hptr).2.1
        have hj : j ≠ i := fun h => hb (BitVec.eq_of_toNat_eq (by omega))
        dsimp only
        rw [hvram, Function.update_of_ne hj]

theorem svGet_svPut (m : SvRam) (a : BitVec 32) (v : BitVec 8) :
    svGet (svPut m a v) = if m.shape.Backed a then Function.update (svGet m) a v else svGet m := by
  cases hptr : svPtr m a 1 with
  | some i =>
      obtain ⟨hmapped, ha, hi⟩ := (svPtr_eq_some_iff Nat.one_pos).mp hptr
      have hbacked : m.shape.Backed a := Or.inr ⟨⟨by omega, by omega⟩, hmapped⟩
      rw [if_pos hbacked]
      unfold svPut
      rw [hptr]
      apply svGet_update_vram hmapped ha hi
      · exact psvidelVramDirty_mapped _ i 1
      · exact psvidelVramDirty_vram _ i 1
      · rfl
      · rfl
  | none =>
      have hvideo := svPtr_eq_none_iff.mp hptr
      unfold svPut
      rw [hptr]
      dsimp only
      by_cases hlow : a.toNat < psvLoSize ∧ m.hooks = true
      · have hbacked : m.shape.Backed a := Or.inl hlow
        rw [if_pos hlow, if_pos hbacked]
        funext b
        by_cases hb : b = a
        · subst hb
          rw [Function.update_self]
          refine (svGet_low ?_ hlow.1).trans ?_
          · exact hlow.2
          · exact Function.update_self b.toNat v m.low
        · rw [Function.update_of_ne hb]
          have hne : b.toNat ≠ a.toNat := fun h => hb (BitVec.eq_of_toNat_eq h)
          have hsame : svPtr { m with low := Function.update m.low a.toNat v } b 1 =
              svPtr m b 1 := svPtr_congr rfl b 1
          unfold svGet
          rw [hsame]
          dsimp only
          rw [Function.update_of_ne hne]
      · have hout : ¬ m.shape.Backed a := fun h => h.elim hlow hvideo
        rw [if_neg hlow, if_neg hout]

/-!
## A line as writes
-/

def svAt (a : BitVec 32) (x : Nat) : BitVec 32 := a + BitVec.ofNat 32 x

def svWrites (sh : SvShape) (mode : Nat) (l : SvLine) : Writes (BitVec 32) (BitVec 8) :=
  fun f x =>
    if (mode = 1 ∧ f (svAt l.s2 x) = 0) ∨ ¬ sh.Backed (svAt l.d x) then none
    else some (f (svAt l.s1 x))

def svCopied (sh : SvShape) (mode n : Nat) (l : SvLine) (f : BitVec 32 -> BitVec 8) :
    BitVec 32 -> BitVec 8 :=
  fun a =>
    let x := (a - l.d).toNat
    if x < n ∧ sh.Backed a ∧ ¬ (mode = 1 ∧ f (svAt l.s2 x) = 0) then f (svAt l.s1 x) else f a

theorem svAt_inj (a : BitVec 32) {n : Nat} (hn : n ≤ 2048) :
    forall x y, x < n -> y < n -> svAt a x = svAt a y -> x = y := by
  intro x y hx hy heq
  have hsame := congrArg BitVec.toNat (BitVec.add_right_inj a |>.mp heq)
  rw [BitVec.toNat_ofNat, BitVec.toNat_ofNat, Nat.mod_eq_of_lt (by omega),
    Nat.mod_eq_of_lt (by omega)] at hsame
  exact hsame

theorem svAt_sub {a : BitVec 32} {x : Nat} (hx : x < 2048) : (svAt a x - a).toNat = x := by
  unfold svAt
  rw [BitVec.add_comm, BitVec.add_sub_cancel, BitVec.toNat_ofNat, Nat.mod_eq_of_lt (by omega)]

theorem svAt_of_sub (a d : BitVec 32) : svAt d (a - d).toNat = a := by
  unfold svAt
  rw [BitVec.ofNat_toNat, BitVec.setWidth_eq, BitVec.add_comm, BitVec.sub_add_cancel]

theorem atOnce_svWrites (sh : SvShape) (mode : Nat) {n : Nat} (hn : n ≤ 2048) (l : SvLine)
    (f : BitVec 32 -> BitVec 8) :
    atOnce (svAt l.d) (svWrites sh mode l) n f = svCopied sh mode n l f := by
  funext a
  unfold svCopied
  dsimp only
  by_cases hx : (a - l.d).toNat < n
  · have hat := atOnce_at (svWrites sh mode l) (svAt_inj l.d hn) f hx
    rw [svAt_of_sub] at hat
    rw [hat]
    unfold svWrites
    rw [svAt_of_sub]
    by_cases hskip : (mode = 1 ∧ f (svAt l.s2 (a - l.d).toNat) = 0) ∨ ¬ sh.Backed a
    · rw [if_pos hskip, if_neg]
      · rfl
      · rintro ⟨_, hbacked, hmask⟩
        exact hskip.elim hmask fun h => h hbacked
    · obtain ⟨hmask, hbacked⟩ := not_or.mp hskip
      rw [if_neg hskip, if_pos ⟨hx, not_not.mp hbacked, hmask⟩]
      rfl
  · rw [if_neg fun h => hx h.1]
    apply upward_of_ne
    intro x hlt heq
    rw [heq, svAt_sub (Nat.lt_of_lt_of_le hlt hn)] at hx
    exact hx hlt

theorem svGet_step (mode : Nat) (l : SvLine) (m : SvRam) (x : Nat) :
    svGet (if mode = 1 ∧ svGet m (l.s2 + BitVec.ofNat 32 x) = 0 then m
        else svPut m (l.d + BitVec.ofNat 32 x) (svGet m (l.s1 + BitVec.ofNat 32 x))) =
      setAt (svGet m) (svAt l.d x) (svWrites m.shape mode l (svGet m) x) := by
  unfold svWrites setAt
  by_cases hmask : mode = 1 ∧ svGet m (svAt l.s2 x) = 0
  · rw [if_pos (Or.inl hmask)]
    unfold svAt at hmask
    rw [if_pos hmask]
    exact (Function.update_eq_self _ _).symm
  · by_cases hbacked : m.shape.Backed (svAt l.d x)
    · rw [if_neg (not_or.mpr ⟨hmask, not_not.mpr hbacked⟩)]
      unfold svAt at hmask hbacked
      rw [if_neg hmask, svGet_svPut, if_pos hbacked]
      rfl
    · rw [if_pos (Or.inr hbacked)]
      unfold svAt at hmask hbacked
      rw [if_neg hmask, svGet_svPut, if_neg hbacked]
      exact (Function.update_eq_self _ _).symm

def svBytes (mode : Nat) (l : SvLine) (n : Nat) (m : SvRam) : SvRam :=
  (List.range n).foldl
    (fun m x =>
      if mode = 1 ∧ svGet m (l.s2 + BitVec.ofNat 32 x) = 0 then m
      else svPut m (l.d + BitVec.ofNat 32 x) (svGet m (l.s1 + BitVec.ofNat 32 x))) m

theorem svBytes_spec (mode : Nat) (l : SvLine) (n : Nat) (m : SvRam) :
    (svBytes mode l n m).shape = m.shape ∧
      svGet (svBytes mode l n m) =
        upward (svAt l.d) (svWrites m.shape mode l) n (svGet m) := by
  induction n with
  | zero => exact ⟨rfl, rfl⟩
  | succ n ih =>
      have hstep : svBytes mode l (n + 1) m =
          if mode = 1 ∧ svGet (svBytes mode l n m) (l.s2 + BitVec.ofNat 32 n) = 0 then
            svBytes mode l n m
          else svPut (svBytes mode l n m) (l.d + BitVec.ofNat 32 n)
            (svGet (svBytes mode l n m) (l.s1 + BitVec.ofNat 32 n)) := by
        unfold svBytes
        rw [List.range_succ, List.foldl_append]
        rfl
      constructor
      · rw [hstep]
        split
        · exact ih.1
        · rw [svPut_shape]
          exact ih.1
      · rw [hstep, svGet_step, upward_succ, ih.1, ih.2]

def SvRam.withVram (m : SvRam) (v : Nat -> BitVec 8) : SvRam :=
  { m with video := { m.video with vram := v } }

def svMasked (ps1 ps2 pd n : Nat) (v : Nat -> BitVec 8) : Nat -> BitVec 8 :=
  (List.range n).foldl
    (fun v x => if v (ps2 + x) ≠ 0 then Function.update v (pd + x) (v (ps1 + x)) else v) v

theorem toNat_svAt {a : BitVec 32} {n p x : Nat} (hptr : svPtr m a n = some p)
    (hn : n ≤ 2048) (hx : x < n) :
    (svAt a x).toNat = psvLoSize + (p + x) ∧ p + x < psvVramSize := by
  obtain ⟨_, ha, hfits⟩ := (svPtr_eq_some_iff (Nat.zero_lt_of_lt hx)).mp hptr
  have hsize : psvLoSize + psvVramSize + 2048 < 2 ^ 32 := by decide
  unfold svAt
  rw [BitVec.toNat_add, BitVec.toNat_ofNat, Nat.mod_eq_of_lt (by omega), Nat.mod_eq_of_lt (by omega)]
  exact ⟨by omega, by omega⟩

theorem svMasked_spec {l : SvLine} {m : SvRam} {n ps1 ps2 pd : Nat} (hn : n ≤ 2048)
    (h1 : svPtr m l.s1 n = some ps1) (h2 : svPtr m l.s2 n = some ps2)
    (hd : svPtr m l.d n = some pd) {k : Nat} (hk : k ≤ n) :
    svGet (m.withVram (svMasked ps1 ps2 pd k m.video.vram)) =
      upward (svAt l.d) (svWrites m.shape 1 l) k (svGet m) := by
  induction k with
  | zero => rfl
  | succ k ih =>
      have hkn : k < n := hk
      have hpos : 0 < n := Nat.zero_lt_of_lt hkn
      have hmapped := ((svPtr_eq_some_iff hpos).mp hd).1
      have hmem := ih (Nat.le_of_lt hkn)
      have hread : forall {a : BitVec 32} {p : Nat}, svPtr m a n = some p ->
          svMasked ps1 ps2 pd k m.video.vram (p + k) =
            upward (svAt l.d) (svWrites m.shape 1 l) k (svGet m) (svAt a k) := by
        intro a p hptr
        obtain ⟨hat, hlt⟩ := toNat_svAt hptr hn hkn
        rw [← hmem]
        exact (@svGet_video (m.withVram (svMasked ps1 ps2 pd k m.video.vram)) hmapped _ _
          hat hlt).symm
      obtain ⟨hat, hlt⟩ := toNat_svAt hd hn hkn
      have hbacked : m.shape.Backed (svAt l.d k) := Or.inr ⟨⟨by omega, by omega⟩, hmapped⟩
      have hstep : svMasked ps1 ps2 pd (k + 1) m.video.vram =
          if svMasked ps1 ps2 pd k m.video.vram (ps2 + k) ≠ 0 then
            Function.update (svMasked ps1 ps2 pd k m.video.vram) (pd + k)
              (svMasked ps1 ps2 pd k m.video.vram (ps1 + k))
          else svMasked ps1 ps2 pd k m.video.vram := by
        unfold svMasked
        rw [List.range_succ, List.foldl_append]
        rfl
      rw [hstep, hread h2, hread h1, upward_succ]
      unfold svWrites setAt
      by_cases hmask : upward (svAt l.d) (svWrites m.shape 1 l) k (svGet m) (svAt l.s2 k) = 0
      · unfold svWrites at hmask
        rw [if_neg (not_not.mpr hmask), if_pos (Or.inl ⟨rfl, hmask⟩)]
        rw [Option.getD_none, Function.update_eq_self]
        exact hmem
      · unfold svWrites at hmask
        rw [if_pos hmask, if_neg (not_or.mpr ⟨fun h => hmask h.2, not_not.mpr hbacked⟩),
          Option.getD_some]
        have hput := fun v => @svGet_update_vram (m.withVram (svMasked ps1 ps2 pd k m.video.vram))
          (m.withVram (Function.update (svMasked ps1 ps2 pd k m.video.vram) (pd + k) v))
          (svAt l.d k) (pd + k) v hmapped hat hlt rfl rfl rfl rfl
        rw [hput, hmem]
        rfl

/-- The line lies in the video RAM with its source, and is moved as a whole. -/
def Moved (mode n : Nat) (l : SvLine) (m : SvRam) : Prop :=
  mode = 0 ∧ (svPtr m l.s1 n).isSome ∧ (svPtr m l.d n).isSome

theorem memmove_spec {l : SvLine} {m : SvRam} {n ps1 pd : Nat} (hn : n ≤ 2048)
    (h1 : svPtr m l.s1 n = some ps1) (hd : svPtr m l.d n = some pd) :
    svGet (m.withVram (memmove m.video.vram pd ps1 n)) = svCopied m.shape 0 n l (svGet m) := by
  funext b
  unfold svCopied
  dsimp only
  by_cases hx : (b - l.d).toNat < n
  · have hmapped := ((svPtr_eq_some_iff (Nat.zero_lt_of_lt hx)).mp hd).1
    obtain ⟨hat, hlt⟩ := toNat_svAt hd hn hx
    obtain ⟨hat1, hlt1⟩ := toNat_svAt h1 hn hx
    rw [svAt_of_sub] at hat
    have hbacked : m.shape.Backed b := Or.inr ⟨⟨by omega, by omega⟩, hmapped⟩
    have hmoved : memmove m.video.vram pd ps1 n (pd + (b - l.d).toNat) =
        m.video.vram (ps1 + (b - l.d).toNat) := by
      unfold memmove
      rw [if_pos (by omega), Nat.add_sub_cancel_left]
    rw [if_pos ⟨hx, hbacked, fun h => absurd h.1 (by decide)⟩, svGet_video hmapped hat1 hlt1,
      ← hmoved]
    exact @svGet_video (m.withVram (memmove m.video.vram pd ps1 n)) hmapped _ _ hat hlt
  · rw [if_neg fun h => hx h.1]
    have hsame : svPtr (m.withVram (memmove m.video.vram pd ps1 n)) b 1 = svPtr m b 1 :=
      svPtr_congr rfl b 1
    unfold svGet
    rw [hsame]
    cases hptr : svPtr m b 1 with
    | none => rfl
    | some j =>
        have hb := ((svPtr_eq_some_iff Nat.one_pos).mp hptr).2.1
        refine if_neg ?_
        rintro ⟨hlow, hhigh⟩
        have hj : j - pd < n := by omega
        obtain ⟨hat, _⟩ := toNat_svAt hd hn hj
        have heq : b = svAt l.d (j - pd) := BitVec.eq_of_toNat_eq (by omega)
        rw [heq, svAt_sub (Nat.lt_of_lt_of_le hj hn)] at hx
        exact hx hj

theorem svGet_dirty (m : SvRam) (v : Nat -> BitVec 8) (off len : Nat) :
    svGet { m with video := psvidelVramDirty { m.video with vram := v } off len } =
      svGet (m.withVram v) := by
  funext b
  have hsame : svPtr { m with video := psvidelVramDirty { m.video with vram := v } off len } b 1 =
      svPtr (m.withVram v) b 1 := svPtr_congr (psvidelVramDirty_mapped _ off len) b 1
  unfold svGet
  rw [hsame]
  cases svPtr (m.withVram v) b 1 with
  | none => rfl
  | some j =>
      dsimp only
      rw [psvidelVramDirty_vram]
      rfl

theorem svGet_svLine (mode : Nat) {n : Nat} (hn : n ≤ 2048) (l : SvLine) (m : SvRam) :
    (svLine mode n l m).shape = m.shape ∧
      (Moved mode n l m -> svGet (svLine mode n l m) = svCopied m.shape mode n l (svGet m)) ∧
      (¬ Moved mode n l m ->
        svGet (svLine mode n l m) = upward (svAt l.d) (svWrites m.shape mode l) n (svGet m)) := by
  have hshape : forall v off, SvRam.shape { m with
      video := psvidelVramDirty { m.video with vram := v } off n } = m.shape := by
    intro v off
    unfold SvRam.shape
    dsimp only
    rw [psvidelVramDirty_mapped]
  unfold svLine
  split
  · rename_i ps1 _ pd h1 hd
    refine ⟨hshape _ pd, ?_, ?_⟩
    · intro _
      rw [svGet_dirty, memmove_spec hn h1 hd]
    · intro hnot
      exact absurd ⟨rfl, by rw [h1]; rfl, by rw [hd]; rfl⟩ hnot
  · rename_i ps1 ps2 pd h1 h2 hd
    refine ⟨hshape _ pd, ?_, ?_⟩
    · intro hmoved
      exact absurd hmoved.1 (by decide)
    · intro _
      rw [svGet_dirty]
      exact svMasked_spec hn h1 h2 hd (Nat.le_refl n)
  · rename_i mode _ _ _ _ hcopy _
    have hbytes := svBytes_spec mode l n m
    refine ⟨hbytes.1, ?_, fun _ => hbytes.2⟩
    rintro ⟨hmode, h1, hd⟩
    obtain ⟨ps1, h1⟩ := Option.isSome_iff_exists.mp h1
    obtain ⟨pd, hd⟩ := Option.isSome_iff_exists.mp hd
    exact absurd hd (hcopy ps1 pd hmode h1)

end Psvidel
end PistormAtari
