import PistormAtari.Services.Psdos

/-!
# Frames on their way to the guest

psdos repaints the rows that changed and hands over one frame at a time; the guest copies the
rows that it is told about.  Both pictures are the whole frame all the same.
-/

namespace PistormAtari
namespace Services

open Foundation

/-!
## Painting
-/

/-- The pixel is in the picture that the map makes, not in its black border. -/
def ScaleMap.InPicture (m : ScaleMap) (vy vx : Nat) : Prop :=
  (m.dy ≤ vy ∧ vy < m.dy + m.dh) ∧ m.dx ≤ vx ∧ vx < m.dx + m.dw

instance (m : ScaleMap) (vy vx : Nat) : Decidable (m.InPicture vy vx) :=
  inferInstanceAs (Decidable (_ ∧ _))

def pictureByte (fmt : PixelFormat) (src : SrcFrame) (m : ScaleMap) (bpp vy vx k : Nat) :
    BitVec 8 :=
  putPx (srcPx fmt src (m.ymap (vy - m.dy)) (m.xmap (vx - m.dx))) bpp k

/-- Byte `k` of a pixel of the scaled frame, black outside the picture. -/
def scaledByte (fmt : PixelFormat) (src : SrcFrame) (m : ScaleMap) (bpp vy vx k : Nat) :
    BitVec 8 :=
  if m.InPicture vy vx then pictureByte fmt src m bpp vy vx k else 0

structure ScaleMap.Fits (m : ScaleMap) : Prop where
  width : 0 < m.dw
  height : 0 < m.dh
  right : m.dx + m.dw ≤ m.vw
  below : m.dy + m.dh ≤ m.vh

theorem mul_le_mul_add_iff {a x b k : Nat} (hk : k < b) : a * b ≤ x * b + k <-> a ≤ x := by
  constructor
  · intro h
    by_contra hlt
    have hmul := Nat.mul_le_mul_right b (Nat.succ_le_of_lt (not_le.mp hlt))
    rw [Nat.succ_mul] at hmul
    lia
  · intro h
    have hmul := Nat.mul_le_mul_right b h
    lia

section
variable {fmt : PixelFormat} {src : SrcFrame} {m : ScaleMap} {bpp w vy vx k : Nat}

theorem paintRow_place (hright : m.dx + m.dw ≤ w) (hvx : vx < w) (hk : k < bpp / 8) (y : Nat)
    (pixels : Bytes) :
    paintRow fmt src m bpp (w * (bpp / 8)) y pixels
        (vy * (w * (bpp / 8)) + (vx * (bpp / 8) + k)) =
      if y = vy ∧ m.InPicture vy vx then pictureByte fmt src m bpp vy vx k
      else pixels (vy * (w * (bpp / 8)) + (vx * (bpp / 8) + k)) := by
  generalize hbytes : bpp / 8 = bytes at *
  have hrow : vx * bytes + k < w * bytes := by
    have hmul := Nat.mul_le_mul_right bytes (Nat.succ_le_of_lt hvx)
    rw [Nat.succ_mul] at hmul
    lia
  have hspan := @row_span_iff (w * bytes) (w * bytes) y vy (vx * bytes + k) le_rfl hrow
  have hend := Nat.mul_le_mul_right bytes hright
  have hleft := mul_le_mul_add_iff (a := m.dx) (x := vx) hk
  have hover := mul_le_mul_add_iff (a := m.dx + m.dw) (x := vx) hk
  rw [Nat.add_mul] at hend hover
  unfold paintRow ScaleMap.InPicture
  split
  · next hout =>
    have hnot : ¬ (y = vy ∧ (m.dy ≤ vy ∧ vy < m.dy + m.dh) ∧ m.dx ≤ vx ∧ vx < m.dx + m.dw) := by
      rintro ⟨rfl, hin, _⟩
      lia
    rw [if_neg hnot]
  · next hin =>
    dsimp only
    rw [hbytes]
    rcases Classical.em (y = vy ∧ m.dx ≤ vx ∧ vx < m.dx + m.dw) with hhit | hmiss
    · rcases hhit with ⟨rfl, hlow, hhigh⟩
      have hplace : y * (w * bytes) + m.dx * bytes ≤ y * (w * bytes) + (vx * bytes + k) ∧
          y * (w * bytes) + (vx * bytes + k) <
            y * (w * bytes) + m.dx * bytes + m.dw * bytes := by
        have hlow' := hleft.mpr hlow
        have hhigh' := mt hover.mp (not_le.mpr hhigh)
        lia
      have hpic : y = y ∧ (m.dy ≤ y ∧ y < m.dy + m.dh) ∧ m.dx ≤ vx ∧ vx < m.dx + m.dw := by lia
      rw [if_pos hplace, if_pos hpic]
      have hoff : y * (w * bytes) + (vx * bytes + k) - (y * (w * bytes) + m.dx * bytes) =
          (vx - m.dx) * bytes + k := by
        have hcols := Nat.mul_le_mul_right bytes hlow
        rw [Nat.sub_mul]
        lia
      rw [hoff, Nat.mul_comm, Nat.mul_add_div (Nat.zero_lt_of_lt hk), Nat.div_eq_of_lt hk,
        Nat.mul_add_mod, Nat.mod_eq_of_lt hk]
      rfl
    · have hplace : ¬ (y * (w * bytes) + m.dx * bytes ≤ vy * (w * bytes) + (vx * bytes + k) ∧
          vy * (w * bytes) + (vx * bytes + k) <
            y * (w * bytes) + m.dx * bytes + m.dw * bytes) := by
        rintro ⟨hlow, hhigh⟩
        have heq := (hspan.mp (by lia)).1
        subst heq
        exact hmiss ⟨rfl, hleft.mp (by lia), not_le.mp (mt hover.mpr (by lia))⟩
      have hpic : ¬ (y = vy ∧ (m.dy ≤ vy ∧ vy < m.dy + m.dh) ∧ m.dx ≤ vx ∧ vx < m.dx + m.dw) :=
        fun h => hmiss ⟨h.1, h.2.2⟩
      rw [if_neg hplace, if_neg hpic]

theorem paintRows_place (hright : m.dx + m.dw ≤ w) (hvx : vx < w) (hk : k < bpp / 8) (y0 n : Nat)
    (pixels : Bytes) :
    paintRows fmt src m bpp (w * (bpp / 8)) y0 n pixels
        (vy * (w * (bpp / 8)) + (vx * (bpp / 8) + k)) =
      if (y0 ≤ vy ∧ vy < y0 + n) ∧ m.InPicture vy vx then pictureByte fmt src m bpp vy vx k
      else pixels (vy * (w * (bpp / 8)) + (vx * (bpp / 8) + k)) := by
  induction n with
  | zero =>
      have hnone : ¬ ((y0 ≤ vy ∧ vy < y0 + 0) ∧ m.InPicture vy vx) := by
        rintro ⟨h, _⟩
        lia
      rw [if_neg hnone]
      rfl
  | succ n ih =>
      unfold paintRows
      rw [paintRow_place hright hvx hk, ih]
      rcases Classical.em (m.InPicture vy vx) with hpic | hpic
      · simp only [hpic, and_true]
        split
        · next heq => rw [if_pos (by lia)]
        · next hne =>
          have hiff : (y0 ≤ vy ∧ vy < y0 + n) <-> y0 ≤ vy ∧ vy < y0 + (n + 1) := by lia
          rw [if_congr hiff rfl rfl]
      · simp only [hpic, and_false, if_false]

end

/-!
## Bands of rows
-/

theorem bandOf_eq_some {n lo hi : Nat} {p : Nat -> Bool} (h : bandOf n p = some (lo, hi)) :
    (lo < n ∧ hi < n ∧ lo ≤ hi) ∧ forall y, y < n -> p y = true -> lo ≤ y ∧ y ≤ hi := by
  unfold bandOf at h
  have hsorted : ((List.range n).filter p).Pairwise (· < ·) :=
    List.Pairwise.sublist List.filter_sublist List.pairwise_lt_range
  have hmem : forall y, y ∈ (List.range n).filter p <-> y < n ∧ p y = true := by
    intro y
    rw [List.mem_filter, List.mem_range]
  generalize (List.range n).filter p = l at h hsorted hmem
  cases hhead : l.head? with
  | none =>
      rw [hhead] at h
      cases h
  | some a =>
      cases hlast : l.getLast? with
      | none =>
          rw [hhead, hlast] at h
          cases h
      | some b =>
          rw [hhead, hlast] at h
          cases h
          have hlo : forall y, y ∈ l -> lo ≤ y := by
            cases l with
            | nil => cases hhead
            | cons first rest =>
                cases hhead
                intro y hy
                rcases List.mem_cons.mp hy with rfl | hrest
                · exact le_refl _
                · exact le_of_lt ((List.pairwise_cons.mp hsorted).1 y hrest)
          have hhi : forall y, y ∈ l -> y ≤ hi := by
            rcases List.getLast?_eq_some_iff.mp hlast with ⟨front, rfl⟩
            intro y hy
            rcases List.mem_append.mp hy with hfront | hend
            · exact le_of_lt ((List.pairwise_append.mp hsorted).2.2 y hfront hi
                (List.mem_singleton_self hi))
            · exact le_of_eq (List.mem_singleton.mp hend)
          have hlomem := List.mem_of_head? hhead
          have hhimem := List.mem_of_getLast? hlast
          refine ⟨⟨((hmem lo).mp hlomem).1, ((hmem hi).mp hhimem).1, hlo hi hhimem⟩, ?_⟩
          intro y hy hp
          have hin := (hmem y).mpr ⟨hy, hp⟩
          exact ⟨hlo y hin, hhi y hin⟩

/-!
## The scale map
-/

theorem buildMap_fits (a : Aspect) (src : SrcFrame) {v : PsdosView} (hw : 1 ≤ v.w)
    (hh : 1 ≤ v.h) : (buildMap a src v).Fits := by
  unfold buildMap
  dsimp only
  constructor
  all_goals
    dsimp only
    split_ifs
    all_goals lia

theorem ScaleMap.xmap_lt {m : ScaleMap} (hw : 0 < m.sw) {x : Nat} (hx : x < m.dw) :
    m.xmap x < m.sw := by
  unfold xmap
  rw [Nat.div_lt_iff_lt_mul (Nat.zero_lt_of_lt hx), Nat.mul_comm m.sw]
  exact Nat.mul_lt_mul_of_pos_right hx hw

theorem ScaleMap.ymap_lt {m : ScaleMap} (hh : 0 < m.sh) {y : Nat} (hy : y < m.dh) :
    m.ymap y < m.sh := by
  unfold ymap
  rw [Nat.div_lt_iff_lt_mul (Nat.zero_lt_of_lt hy), Nat.mul_comm m.sh]
  exact Nat.mul_lt_mul_of_pos_right hy hh

def ScaleMap.Made (m : ScaleMap) (src : SrcFrame) : Prop :=
  exists (a : Aspect) (v : PsdosView), 1 ≤ v.w ∧ 1 ≤ v.h ∧ m = buildMap a src v

theorem ScaleMap.Made.fits {m : ScaleMap} {src : SrcFrame} (h : m.Made src) : m.Fits := by
  rcases h with ⟨a, v, hw, hh, rfl⟩
  exact buildMap_fits a src hw hh

theorem ScaleMap.Made.size {m : ScaleMap} {src : SrcFrame} (h : m.Made src) :
    m.sw = src.w ∧ m.sh = src.h := by
  rcases h with ⟨a, v, hw, hh, rfl⟩
  exact ⟨rfl, rfl⟩

theorem ScaleMap.Made.of_size {m : ScaleMap} {src src' : SrcFrame} (h : m.Made src)
    (hw : m.sw = src'.w) (hh : m.sh = src'.h) : m.Made src' := by
  have hsize := h.size
  rcases h with ⟨a, v, hvw, hvh, rfl⟩
  refine ⟨a, v, hvw, hvh, ?_⟩
  unfold buildMap
  rw [hsize.1.symm.trans hw, hsize.2.symm.trans hh]

/-!
## psdos between two frames
-/

structure PsdosView.Sized (v : PsdosView) : Prop where
  width : 16 ≤ v.w ∧ v.w ≤ 1920
  height : 16 ≤ v.h ∧ v.h ≤ 1080
  depth : v.bpp = 16 ∨ v.bpp = 32

theorem PsdosView.Sized.of_size {v v' : PsdosView} (h : v.Sized) (hw : v'.w = v.w)
    (hh : v'.h = v.h) (hbpp : v'.bpp = v.bpp) : v'.Sized := by
  constructor
  · rw [hw]
    exact h.width
  · rw [hh]
    exact h.height
  · rw [hbpp]
    exact h.depth

/-- What holds of psdos whatever the pixels are: the map is one that was made, unless a
command voided it, and before the core runs there is no frame. -/
structure PsdosOk (s : Psdos) : Prop where
  view : s.view.active = true -> s.view.Sized
  map : forall m, s.view.map = some m -> m.vw = 0 ∨ exists src, m.Made src
  frame : s.frames.src.w ≠ 0 -> s.frames.src.h ≠ 0
  young : s.core.inited = false ->
    s.core.loaded = false ∧ s.frames.src.w = 0 ∧ (s.view.active = true -> s.view.full = true)

/-- The next frame of an unchanged size may be published as a band of rows. -/
def PsdosView.Banded (v : PsdosView) : Prop := v.active = true ∧ v.full = false

structure Psdos.Keeps (s s' : Psdos) : Prop where
  banded : s.view.Banded
  size : s'.view.w = s.view.w ∧ s'.view.h = s.view.h ∧ s'.view.bpp = s.view.bpp
  map : s'.view.map = s.view.map
  fmt : s'.core.fmt = s.core.fmt
  source : s'.frames.src.w = s.frames.src.w ∧ s'.frames.src.h = s.frames.src.h ∧
    s'.frames.src.bpp = s.frames.src.bpp
  prev : s'.frames.prev = s.frames.prev ∧ s'.frames.prevW = s.frames.prevW ∧
    s'.frames.prevH = s.frames.prevH
  picture : s'.picture = s.picture

def Picture.taken (p : Picture) : Picture :=
  { p with surface := { p.surface with consumed := p.surface.serial } }

structure Psdos.Waits (s s' : Psdos) : Prop where
  ok : PsdosOk s'
  picture : s'.picture = s.picture ∨ s'.picture = s.picture.taken
  keeps : s'.view.Banded -> s.Keeps s'

theorem Psdos.Waits.of_alike {s s' : Psdos} (h : PsdosOk s)
    (hview : s'.view = { s.view with visible := s'.view.visible })
    (hframes : s'.frames = { s.frames with fresh := s'.frames.fresh })
    (hfmt : s'.core.fmt = s.core.fmt)
    (hyoung : s'.core.inited = false -> s.core.inited = false ∧
      (s.core.loaded = false -> s'.core.loaded = false))
    (hpicture : s'.picture = s.picture) : s.Waits s' := by
  constructor
  · constructor
    · rw [hview]
      exact fun hactive => (h.view hactive).of_size rfl rfl rfl
    · rw [hview]
      exact h.map
    · rw [hframes]
      exact h.frame
    · intro hinited
      have hold := h.young (hyoung hinited).1
      rw [hview, hframes]
      exact ⟨(hyoung hinited).2 hold.1, hold.2⟩
  · exact Or.inl hpicture
  · intro hbanded
    rw [hview] at hbanded
    constructor
    · exact hbanded
    · rw [hview]
      exact ⟨rfl, rfl, rfl⟩
    · rw [hview]
    · exact hfmt
    · rw [hframes]
      exact ⟨rfl, rfl, rfl⟩
    · rw [hframes]
      exact ⟨rfl, rfl, rfl⟩
    · exact hpicture

variable {s : Psdos}

theorem Psdos.Waits.refl (h : PsdosOk s) : s.Waits s :=
  Psdos.Waits.of_alike h rfl rfl rfl (fun hyoung => ⟨hyoung, id⟩) rfl

theorem waits_videoRefresh (h : PsdosOk s) (hloaded : s.core.loaded = true)
    (frame : Option (Nat × Nat × (Nat -> Nat -> BitVec 32))) (junk : Nat -> Nat -> BitVec 32) :
    s.Waits (videoRefresh s frame junk) := by
  have hinited : s.core.inited ≠ false := by
    intro hyoung
    rw [(h.young hyoung).1] at hloaded
    cases hloaded
  cases frame with
  | none => exact Psdos.Waits.refl h
  | some f =>
      rcases f with ⟨w, ht, px⟩
      unfold videoRefresh
      dsimp only
      split
      · exact Psdos.Waits.refl h
      · next hsize =>
        rw [not_or] at hsize
        constructor
        · exact
            { view := fun hactive => (h.view hactive).of_size rfl rfl rfl
              map := h.map
              frame := fun _ => hsize.2
              young := fun hyoung => absurd hyoung hinited }
        · exact Or.inl rfl
        · rintro ⟨hactive, hfull⟩
          dsimp only at hactive hfull
          rw [Bool.or_eq_false_iff, Bool.or_eq_false_iff] at hfull
          rcases hfull with ⟨⟨hfull, hgrown⟩, hchanged⟩
          have hsame := of_decide_eq_false hchanged
          rw [not_or, not_or, not_ne_iff, not_ne_iff, not_ne_iff] at hsame
          exact
            { banded := ⟨hactive, hfull⟩
              size := ⟨rfl, rfl, rfl⟩
              map := rfl
              fmt := rfl
              source := hsame
              prev := by
                dsimp only
                rw [hgrown]
                exact ⟨rfl, rfl, rfl⟩
              picture := rfl }

theorem waits_coreLoad (h : PsdosOk s) (ans : PsdosHost) (path : Text) :
    s.Waits (coreLoad ans s path) := by
  unfold coreLoad
  split
  · exact Psdos.Waits.of_alike h rfl rfl rfl (fun hyoung => ⟨hyoung, id⟩) rfl
  · dsimp only
    split
    · constructor
      · exact
          { view := fun hactive => (h.view hactive).of_size rfl rfl rfl
            map := h.map
            frame := h.frame
            young := fun hyoung => Bool.noConfusion hyoung }
      · exact Or.inl rfl
      · exact fun hbanded => Bool.noConfusion hbanded.2
    · cases hinited : s.core.inited with
      | true =>
          apply Psdos.Waits.of_alike h
          · rfl
          · rfl
          · exact if_pos hinited
          · exact fun hyoung => Bool.noConfusion hyoung
          · rfl
      | false =>
          constructor
          · exact
              { view := h.view
                map := h.map
                frame := h.frame
                young := fun hyoung => Bool.noConfusion hyoung }
          · exact Or.inl rfl
          · intro hbanded
            have hdue := (h.young hinited).2.2 hbanded.1
            have hfull : s.view.full = false := hbanded.2
            rw [hdue] at hfull
            cases hfull

theorem Psdos.Waits.trans_due {s s' s'' : Psdos} (h : s.Waits s') (h' : s'.Waits s'')
    (hdue : ¬ s'.view.Banded) : s.Waits s'' := by
  constructor
  · exact h'.ok
  · rcases h.picture with heq | heq
    · rcases h'.picture with heq' | heq'
      · exact Or.inl (heq'.trans heq)
      · exact Or.inr (heq'.trans (congrArg Picture.taken heq))
    · rcases h'.picture with heq' | heq'
      · exact Or.inr (heq'.trans heq)
      · rw [heq] at heq'
        exact Or.inr heq'
  · exact fun hbanded => absurd (h'.keeps hbanded).banded hdue

theorem waits_loadGame (h : PsdosOk s) (ans : PsdosHost) (path : Text) :
    s.Waits (loadGame ans s path) := by
  unfold loadGame
  split
  · unfold resumed
    dsimp only
    generalize hfresh : Psdos.mk (resumeParse _ _) _ _ _ _ _ _ _ = fresh
    have hdue : ¬ fresh.view.Banded := by
      rw [← hfresh]
      exact fun hbanded => Bool.noConfusion hbanded.2
    have hwaits : s.Waits fresh := by
      rw [← hfresh]
      constructor
      · exact
          { view := fun hactive => (h.view hactive).of_size rfl rfl rfl
            map := fun m hm => absurd hm.symm (Option.some_ne_none m)
            frame := fun hw => absurd rfl hw
            young := fun _ => ⟨rfl, rfl, fun _ => rfl⟩ }
      · exact Or.inr rfl
      · exact fun hbanded => Bool.noConfusion hbanded.2
    split
    · exact hwaits.trans_due (waits_coreLoad hwaits.ok ans _) hdue
    · exact hwaits
  · exact waits_coreLoad h ans path

theorem waits_viewCmd (h : PsdosOk s) (fresh : Bool) (c : PsdosCmd) :
    s.Waits (viewCmd s fresh c) := by
  unfold viewCmd
  dsimp only
  generalize (if fresh = true then c.c.toInt else (s.view.bpp : Int)) = bpp
  split
  · exact Psdos.Waits.refl h
  · next hsize =>
    rw [not_or, not_or, not_lt, not_lt] at hsize
    rcases hsize with ⟨hw, hh, hbpp⟩
    have hmaxW : min c.a.toInt psdosMaxW ≤ 1920 := min_le_right _ _
    have hmaxH : min c.b.toInt psdosMaxH ≤ 1080 := min_le_right _ _
    constructor
    · constructor
      · intro _
        constructor
        · dsimp only
          lia
        · dsimp only
          lia
        · dsimp only
          lia
      · intro m hm
        left
        rcases Option.map_eq_some_iff.mp hm with ⟨old, _, rfl⟩
        rfl
      · exact h.frame
      · intro hyoung
        have hold := h.young hyoung
        exact ⟨hold.1, hold.2.1, fun _ => rfl⟩
    · exact Or.inr rfl
    · exact fun hbanded => Bool.noConfusion hbanded.2

theorem waits_viewFree (h : PsdosOk s) : s.Waits (viewFree s) := by
  constructor
  · constructor
    · exact fun hactive => Bool.noConfusion hactive
    · exact h.map
    · exact h.frame
    · intro hyoung
      exact ⟨rfl, (h.young hyoung).2.1, fun hactive => Bool.noConfusion hactive⟩
  · exact Or.inl rfl
  · exact fun hbanded => Bool.noConfusion hbanded.1

theorem waits_stateCmd (h : PsdosOk s) (c : PsdosCmd) : s.Waits (stateCmd s c) := by
  unfold stateCmd
  dsimp only
  cases hshows : c.a &&& 1 != 0 && !s.view.visible with
  | true =>
      constructor
      · constructor
        · exact fun hactive => (h.view hactive).of_size rfl rfl rfl
        · exact h.map
        · exact h.frame
        · intro hyoung
          have hold := h.young hyoung
          exact ⟨hold.1, hold.2.1, fun _ => Bool.or_true _⟩
      · exact Or.inl rfl
      · intro hbanded
        have hfull : (s.view.full || true) = false := hbanded.2
        rw [Bool.or_true] at hfull
        cases hfull
  | false =>
      apply Psdos.Waits.of_alike h
      · dsimp only
        rw [Bool.or_false]
      · rfl
      · rfl
      · exact fun hyoung => ⟨hyoung, id⟩
      · rfl

theorem waits_handleCmd (h : PsdosOk s) (ans : PsdosHost) (c : PsdosCmd) :
    s.Waits (handleCmd ans s c) := by
  have hsame : forall s', s'.view = s.view -> s'.frames = s.frames -> s'.core = s.core ->
      s'.picture = s.picture -> s.Waits s' := by
    intro s' hview hframes hcore hpicture
    apply Psdos.Waits.of_alike h
    · rw [hview]
    · rw [hframes]
    · rw [hcore]
    · rw [hcore]
      exact fun hyoung => ⟨hyoung, id⟩
    · exact hpicture
  unfold handleCmd
  cases c.type with
  | hello => exact Psdos.Waits.refl h
  | viewNew => exact waits_viewCmd h true c
  | viewSize => exact waits_viewCmd h false c
  | viewFree => exact waits_viewFree h
  | state => exact waits_stateCmd h c
  | load => exact waits_loadGame h ans _
  | key => exact hsame _ rfl rfl rfl rfl
  | mouse => exact hsame _ rfl rfl rfl rfl
  | joy =>
      dsimp only
      split
      · exact hsame _ rfl rfl rfl rfl
      · exact Psdos.Waits.refl h
  | pad => exact hsame _ rfl rfl rfl rfl
  | reset =>
      dsimp only
      split
      · exact Psdos.Waits.refl h
      · exact waits_loadGame h ans _
  | option =>
      dsimp only
      split
      · exact Psdos.Waits.refl h
      · exact hsame _ rfl rfl rfl rfl
  | keysUp => exact hsame _ rfl rfl rfl rfl
  | quit => exact hsame _ rfl rfl rfl rfl

/-!
## What is handed over
-/

structure Picture.Shows (p : Picture) (src : SrcFrame) (fmt : PixelFormat) (m : ScaleMap) :
    Prop where
  width : p.surface.w.toNat = m.vw ∧ 0 < m.vw ∧ m.vw ≤ 1920
  height : p.surface.h.toNat = m.vh ∧ 0 < m.vh ∧ m.vh ≤ 1080
  depth : p.surface.bpp.toNat = 16 ∨ p.surface.bpp.toNat = 32
  stride : p.surface.stride.toNat = m.vw * p.surface.bytes
  made : m.Made src
  pixels : forall vy vx k, vy < m.vh -> vx < m.vw -> k < p.surface.bytes ->
    p.pixels (vy * p.surface.stride.toNat + (vx * p.surface.bytes + k)) =
      scaledByte fmt src m p.surface.bpp.toNat vy vx k

theorem PsdosView.mapped_made (h : PsdosOk s) (hactive : s.view.active = true) :
    (s.view.mapped s.core.aspect s.frames.src).2.Made s.frames.src ∧
      (s.view.mapped s.core.aspect s.frames.src).2.vw = s.view.w ∧
      (s.view.mapped s.core.aspect s.frames.src).2.vh = s.view.h := by
  have hsized := h.view hactive
  have hnew : (buildMap s.core.aspect s.frames.src s.view).Made s.frames.src :=
    ⟨s.core.aspect, s.view, by have hw := hsized.width; lia, by have hh := hsized.height; lia, rfl⟩
  unfold mapped
  cases hmap : s.view.map with
  | none => exact ⟨hnew, rfl, rfl⟩
  | some m =>
      dsimp only
      split
      · next hfits =>
        rcases h.map m hmap with hvoid | ⟨src, hmade⟩
        · have hw := hsized.width
          lia
        · exact ⟨hmade.of_size hfits.1 hfits.2.1, hfits.2.2⟩
      · exact ⟨hnew, rfl, rfl⟩

theorem PsdosView.mapped_view (v : PsdosView) (a : Aspect) (src : SrcFrame) :
    exists full, (v.mapped a src).1 = { v with full := full, map := some (v.mapped a src).2 } ∧
      (full = false -> v.map = some (v.mapped a src).2 ∧ v.full = false) := by
  unfold mapped
  cases hmap : v.map with
  | none => exact ⟨true, rfl, fun h => Bool.noConfusion h⟩
  | some m =>
      dsimp only
      split
      · refine ⟨v.full, ?_, fun hfull => ⟨rfl, hfull⟩⟩
        dsimp only
        rw [← hmap]
      · exact ⟨true, rfl, fun h => Bool.noConfusion h⟩

/-- The rows of one publication, on pixels that already show the rest. -/
theorem publishRows_shows {m : ScaleMap} {pixels : Bytes} {y0 y1 : Nat}
    (hsized : s.view.Sized) (hmade : m.Made s.frames.src) (hvw : m.vw = s.view.w)
    (hvh : m.vh = s.view.h)
    (hrest : forall vy vx k, vy < s.view.h -> vx < s.view.w -> k < s.view.bpp / 8 ->
      ¬ ((y0 ≤ vy ∧ vy < y0 + (y1 - y0 + 1)) ∧ m.InPicture vy vx) ->
      pixels (vy * (s.view.w * (s.view.bpp / 8)) + (vx * (s.view.bpp / 8) + k)) =
        scaledByte s.core.fmt s.frames.src m s.view.bpp vy vx k) :
    (publishRows s m pixels y0 y1).picture.Shows s.frames.src s.core.fmt m ∧
      (publishRows s m pixels y0 y1).picture.surface.bpp.toNat = s.view.bpp := by
  have hw := hsized.width
  have hh := hsized.height
  have hbpp : (BitVec.ofNat 32 s.view.bpp).toNat = s.view.bpp := by
    rw [BitVec.toNat_ofNat]
    rcases hsized.depth with h | h
    · rw [h]
    · rw [h]
  have hstride : (BitVec.ofNat 32 (s.view.w * (s.view.bpp / 8))).toNat =
      s.view.w * (s.view.bpp / 8) := by
    rw [BitVec.toNat_ofNat]
    rcases hsized.depth with h | h
    · rw [h]
      lia
    · rw [h]
      lia
  refine ⟨?_, hbpp⟩
  constructor
  · change (BitVec.ofNat 32 s.view.w).toNat = m.vw ∧ _
    rw [BitVec.toNat_ofNat]
    lia
  · change (BitVec.ofNat 32 s.view.h).toNat = m.vh ∧ _
    rw [BitVec.toNat_ofNat]
    lia
  · change (BitVec.ofNat 32 s.view.bpp).toNat = 16 ∨ (BitVec.ofNat 32 s.view.bpp).toNat = 32
    rw [hbpp]
    exact hsized.depth
  · change (BitVec.ofNat 32 (s.view.w * (s.view.bpp / 8))).toNat =
      m.vw * ((BitVec.ofNat 32 s.view.bpp).toNat / 8)
    rw [hstride, hbpp, hvw]
  · exact hmade
  · intro vy vx k hvy hvx hk
    change k < (BitVec.ofNat 32 s.view.bpp).toNat / 8 at hk
    change paintRows s.core.fmt s.frames.src m s.view.bpp (s.view.w * (s.view.bpp / 8)) y0
      (y1 - y0 + 1) pixels (vy * (BitVec.ofNat 32 (s.view.w * (s.view.bpp / 8))).toNat +
        (vx * ((BitVec.ofNat 32 s.view.bpp).toNat / 8) + k)) =
      scaledByte s.core.fmt s.frames.src m (BitVec.ofNat 32 s.view.bpp).toNat vy vx k
    rw [hbpp] at hk
    rw [hbpp, hstride]
    rw [hvw] at hvx
    rw [hvh] at hvy
    have hright := hmade.fits.right
    rw [hvw] at hright
    rw [paintRows_place hright hvx hk]
    split
    · next hpainted =>
      unfold scaledByte
      rw [if_pos hpainted.2]
    · next hother => exact hrest vy vx k hvy hvx hk hother

def blanked (v : PsdosView) (pixels : Bytes) : Bytes :=
  fun i => if i < v.w * (v.bpp / 8) * v.h then 0 else pixels i

theorem publish_cases (h : PsdosOk s) :
    s.Waits (publish s) ∨
      (s.view.active = true ∧ surfaceFree s = true ∧ s.frames.src.w ≠ 0 ∧
        exists full m, m.Made s.frames.src ∧ m.vw = s.view.w ∧ m.vh = s.view.h ∧
          (publish s = publishRows { s with view := { s.view with full := full, map := some m } } m
              (blanked s.view s.picture.pixels) 0 (s.view.h - 1) ∨
            (s.view.full = false ∧ s.view.map = some m ∧ exists s0 s1 y0 y1,
              bandOf s.frames.src.h (rowChanged s.frames) = some (s0, s1) ∧
                (bandOf m.dh fun y => decide (s0 ≤ m.ymap y ∧ m.ymap y ≤ s1)) = some (y0, y1) ∧
                publish s =
                  publishRows { s with view := { s.view with full := full, map := some m } } m
                    s.picture.pixels (y0 + m.dy) (y1 + m.dy)))) := by
  unfold publish
  split
  · next hready =>
    rw [Bool.and_eq_true, Bool.and_eq_true, Bool.and_eq_true, Bool.and_eq_true] at hready
    rcases hready with ⟨⟨⟨⟨hactive, _⟩, _⟩, hfree⟩, hsrc⟩
    have hmade := PsdosView.mapped_made h hactive
    rcases PsdosView.mapped_view s.view s.core.aspect s.frames.src with ⟨full, hview, hkept⟩
    generalize s.view.mapped s.core.aspect s.frames.src = vm at hmade hview hkept
    rcases vm with ⟨v, m⟩
    dsimp only at hmade hview hkept
    subst hview
    dsimp only
    have hsource : s.frames.src.w ≠ 0 := ne_of_beq_false (Bool.not_eq_true' _ ▸ hsrc)
    split
    · right
      exact ⟨hactive, hfree, hsource, full, m, hmade.1, hmade.2.1, hmade.2.2, Or.inl rfl⟩
    · next hband =>
      rw [Bool.not_eq_true, Bool.or_eq_false_iff, Bool.or_eq_false_iff] at hband
      have hfull : full = false := hband.1.1
      rcases hkept hfull with ⟨hmap, hsfull⟩
      have hquiet : forall fresh, s.Waits
          { s with
            view := { s.view with full := full, map := some m }
            frames := { s.frames with fresh := fresh } } := by
        intro fresh
        apply Psdos.Waits.of_alike h
        · rw [hfull, ← hsfull, ← hmap]
        · rfl
        · rfl
        · exact fun hyoung => ⟨hyoung, id⟩
        · rfl
      cases hrows : bandOf s.frames.src.h (rowChanged { s.frames with fresh := false }) with
      | none => exact Or.inl (hquiet false)
      | some b =>
          rcases b with ⟨s0, s1⟩
          dsimp only
          cases hshown : bandOf m.dh fun y => decide (s0 ≤ m.ymap y ∧ m.ymap y ≤ s1) with
          | none => exact Or.inl (hquiet false)
          | some b =>
              rcases b with ⟨y0, y1⟩
              right
              exact ⟨hactive, hfree, hsource, full, m, hmade.1, hmade.2.1, hmade.2.2,
                Or.inr ⟨hsfull, hmap, s0, s1, y0, y1, hrows, hshown, rfl⟩⟩
  · exact Or.inl (Psdos.Waits.refl h)

/-!
## The guest's copy
-/

/-- psdos and the guest's copy.  `fetched` is whether the last frame that was published has
been fetched, `resized` whether the view has since been given another size or format. -/
structure Handover where
  psdos : Psdos
  dst : Bytes
  fetched : Bool
  resized : Bool

inductive HandoverEvent where
  | frame (frame : Option (Nat × Nat × (Nat -> Nat -> BitVec 32))) (junk : Nat -> Nat -> BitVec 32)
  | publish
  | geometry (aspect : Aspect)
  | exits
  | cmd (ans : PsdosHost) (c : PsdosCmd)
  | gone
  | fetch

def PsdosView.sameSize (v v' : PsdosView) : Bool := v.w == v'.w && v.h == v'.h && v.bpp == v'.bpp

def Handover.goes (h : Handover) (s : Psdos) : Handover :=
  if s.picture.surface.serial = h.psdos.picture.surface.serial then
    { h with psdos := s, resized := h.resized || !h.psdos.view.sameSize s.view }
  else { h with psdos := s, fetched := false, resized := false }

def plausibleBuffer (stride rows : BitVec 32) : Bool :=
  decide (stride ≠ 0 ∧ rows ≠ 0 ∧ stride.toNat ≤ 1920 * 4 + 64 ∧ rows.toNat ≤ 1080)

def Handover.fetches (h : Handover) (f : Fetched) : Handover :=
  match f.consumed with
  | none => h
  | some serial =>
      { h with
        psdos :=
          { h.psdos with
            picture :=
              { h.psdos.picture with
                surface := { h.psdos.picture.surface with consumed := serial } } }
        dst := f.dst
        fetched := true }

def handoverStep (stride rows : BitVec 32) (h : Handover) : HandoverEvent -> Handover
  | .frame frame junk =>
      if h.psdos.core.loaded then h.goes (videoRefresh h.psdos frame junk) else h
  | .publish => h.goes (publish h.psdos)
  | .geometry aspect =>
      h.goes { h.psdos with
        core := { h.psdos.core with aspect := aspect }
        view := { h.psdos.view with full := true } }
  | .exits => h.goes { h.psdos with core := { h.psdos.core with exited := true } }
  | .cmd ans c => h.goes (handleCmd ans h.psdos c)
  | .gone => h.goes { viewFree h.psdos with inbuf := [] }
  | .fetch =>
      if plausibleBuffer stride rows then
        match h.psdos.picture.surface.fetch { mapped := 0, surf := 0, pixels := 0 }
            h.psdos.picture.pixels h.dst stride rows with
        | .error _ => h
        | .ok f => h.fetches f
      else h

def handoverStart (ans : PsdosHost) (dst : Bytes) : Handover :=
  { psdos := psdosStart ans
    dst := dst
    fetched := false
    resized := false }

/-- The destination is at least as large as the view that is fetched. -/
def Covers (stride rows : BitVec 32) (h : Handover) : HandoverEvent -> Prop
  | .fetch =>
      h.psdos.picture.surface.w.toNat * h.psdos.picture.surface.bytes ≤ stride.toNat ∧
        h.psdos.picture.surface.h.toNat ≤ rows.toNat
  | _ => True

instance (stride rows : BitVec 32) (h : Handover) :
    (e : HandoverEvent) -> Decidable (Covers stride rows h e)
  | .fetch => inferInstanceAs (Decidable (_ ∧ _))
  | .frame _ _ | .publish | .geometry _ | .exits | .cmd _ _ | .gone => isTrue trivial

def RowAgrees (stride : BitVec 32) (p : Picture) (dst : Bytes) (vy : Nat) : Prop :=
  forall c, c < p.surface.w.toNat * p.surface.bytes ->
    dst (vy * stride.toNat + c) = p.pixels (vy * p.surface.stride.toNat + c)

/-- The picture shows the frame that psdos measures the next one against. -/
structure BandedOn (s : Psdos) (src : SrcFrame) (m : ScaleMap) : Prop where
  shown : s.picture.shown = some (src, s.core.fmt, m)
  map : s.view.map = some m
  size : s.picture.surface.w.toNat = s.view.w ∧ s.picture.surface.h.toNat = s.view.h ∧
    s.picture.surface.bpp.toNat = s.view.bpp
  source : s.frames.src.w = src.w ∧ s.frames.src.h = src.h ∧ s.frames.src.bpp = src.bpp
  prev : s.frames.prev = src.px ∧ s.frames.prevW = src.w ∧ s.frames.prevH = src.h

/-- The changed rows are whole rows of the picture, and the others are in the copy. -/
structure PendingRows (stride : BitVec 32) (p : Picture) (dst : Bytes) (y0 n : Nat) : Prop where
  damage : p.surface.damage = { x := 0, y := y0, w := p.surface.w.toNat, h := n }
  some : 0 < n
  below : y0 + n ≤ p.surface.h.toNat
  shown : p.shown ≠ none
  rest : forall vy, vy < p.surface.h.toNat -> ¬ (y0 ≤ vy ∧ vy < y0 + n) -> RowAgrees stride p dst vy

structure HandoverOk (stride : BitVec 32) (h : Handover) : Prop where
  ok : PsdosOk h.psdos
  shows : forall src fmt m, h.psdos.picture.shown = some (src, fmt, m) ->
    h.psdos.picture.Shows src fmt m
  banded : h.psdos.view.Banded -> exists src m, BandedOn h.psdos src m
  pending : surfaceFree h.psdos = false ->
    exists y0 n, PendingRows stride h.psdos.picture h.dst y0 n
  current : h.fetched = true -> forall vy, vy < h.psdos.picture.surface.h.toNat ->
    RowAgrees stride h.psdos.picture h.dst vy
  settled : h.psdos.view.Banded -> surfaceFree h.psdos = true -> h.fetched = true
  sized : h.resized = false -> h.psdos.picture.shown ≠ none ->
    h.psdos.picture.surface.w.toNat = h.psdos.view.w ∧
      h.psdos.picture.surface.h.toNat = h.psdos.view.h ∧
      h.psdos.picture.surface.bpp.toNat = h.psdos.view.bpp

theorem PsdosView.sameSize_iff {v v' : PsdosView} :
    v.sameSize v' = true <-> v.w = v'.w ∧ v.h = v'.h ∧ v.bpp = v'.bpp := by
  unfold sameSize
  rw [Bool.and_eq_true, Bool.and_eq_true, beq_iff_eq, beq_iff_eq, beq_iff_eq, and_assoc]

theorem Handover.goes_new {h : Handover} {s : Psdos}
    (hserial : s.picture.surface.serial ≠ h.psdos.picture.surface.serial) :
    h.goes s = { h with psdos := s, fetched := false, resized := false } := if_neg hserial

theorem handoverOk_start (stride : BitVec 32) (ans : PsdosHost) (dst : Bytes) :
    HandoverOk stride (handoverStart ans dst) :=
  { ok :=
      { view := fun hactive => Bool.noConfusion hactive
        map := fun m hm => absurd hm.symm (Option.some_ne_none m)
        frame := fun hw => absurd rfl hw
        young := fun _ => ⟨rfl, rfl, fun hactive => Bool.noConfusion hactive⟩ }
    shows := fun src fmt m hm => absurd hm.symm (Option.some_ne_none (src, fmt, m))
    banded := fun hbanded => Bool.noConfusion hbanded.1
    pending := fun hfree => Bool.noConfusion hfree
    current := fun hfetched => Bool.noConfusion hfetched
    settled := fun hbanded => Bool.noConfusion hbanded.1
    sized := fun _ hshown => absurd rfl hshown }

theorem handoverOk_waits {stride : BitVec 32} {h : Handover} (hok : HandoverOk stride h)
    {s : Psdos} (hwaits : h.psdos.Waits s) : HandoverOk stride (h.goes s) := by
  have hserial : s.picture.surface.serial = h.psdos.picture.surface.serial := by
    rcases hwaits.picture with heq | heq
    · rw [heq]
    · rw [heq]
      rfl
  unfold Handover.goes
  rw [if_pos hserial]
  constructor
  · exact hwaits.ok
  · intro src fmt m hshown
    dsimp only at hshown ⊢
    rcases hwaits.picture with heq | heq
    · rw [heq] at hshown ⊢
      exact hok.shows src fmt m hshown
    · rw [heq] at hshown ⊢
      have hold := hok.shows src fmt m hshown
      exact
        { width := hold.width
          height := hold.height
          depth := hold.depth
          stride := hold.stride
          made := hold.made
          pixels := hold.pixels }
  · intro hbanded
    have hkeeps := hwaits.keeps hbanded
    rcases hok.banded hkeeps.banded with ⟨src, m, hon⟩
    refine ⟨src, m, ?_⟩
    constructor
    · dsimp only
      rw [hkeeps.picture, hkeeps.fmt]
      exact hon.shown
    · exact hkeeps.map.trans hon.map
    · dsimp only
      rw [hkeeps.picture, hkeeps.size.1, hkeeps.size.2.1, hkeeps.size.2.2]
      exact hon.size
    · dsimp only
      rw [hkeeps.source.1, hkeeps.source.2.1, hkeeps.source.2.2]
      exact hon.source
    · dsimp only
      rw [hkeeps.prev.1, hkeeps.prev.2.1, hkeeps.prev.2.2]
      exact hon.prev
  · intro hfree
    rcases hwaits.picture with heq | heq
    · unfold surfaceFree at hfree
      dsimp only at hfree ⊢
      rw [heq] at hfree ⊢
      exact hok.pending hfree
    · unfold surfaceFree at hfree
      dsimp only at hfree
      have htaken : (h.psdos.picture.taken.surface.consumed ==
          h.psdos.picture.taken.surface.serial) = true :=
        beq_self_eq_true h.psdos.picture.surface.serial
      rw [heq, htaken] at hfree
      cases hfree
  · intro hfetched vy hvy
    dsimp only at hvy ⊢
    rcases hwaits.picture with heq | heq
    · rw [heq] at hvy ⊢
      exact hok.current hfetched vy hvy
    · rw [heq] at hvy ⊢
      exact hok.current hfetched vy hvy
  · intro hbanded hfree
    have hkeeps := hwaits.keeps hbanded
    unfold surfaceFree at hfree
    dsimp only at hfree
    rw [hkeeps.picture] at hfree
    exact hok.settled hkeeps.banded hfree
  · intro hresized hshown
    dsimp only at hresized hshown ⊢
    rw [Bool.or_eq_false_iff, Bool.not_eq_false', PsdosView.sameSize_iff] at hresized
    rcases hresized with ⟨hresized, hw, hh, hbpp⟩
    rw [← hw, ← hh, ← hbpp]
    rcases hwaits.picture with heq | heq
    · rw [heq] at hshown ⊢
      exact hok.sized hresized hshown
    · rw [heq] at hshown ⊢
      exact hok.sized hresized hshown

theorem handoverOk_publishes {stride : BitVec 32} {h : Handover} (hok : HandoverOk stride h)
    {full : Bool} {m : ScaleMap} {pixels : Bytes} {y0 y1 : Nat}
    (hsrc : h.psdos.frames.src.w ≠ 0) (hactive : h.psdos.view.active = true)
    (hfree : surfaceFree h.psdos = true)
    (hmade : m.Made h.psdos.frames.src) (hvw : m.vw = h.psdos.view.w)
    (hvh : m.vh = h.psdos.view.h) (horder : y0 ≤ y1) (hbelow : y1 < h.psdos.view.h)
    (hpixels : forall vy vx k, vy < h.psdos.view.h -> vx < h.psdos.view.w ->
      k < h.psdos.view.bpp / 8 ->
      ¬ ((y0 ≤ vy ∧ vy < y0 + (y1 - y0 + 1)) ∧ m.InPicture vy vx) ->
      pixels (vy * (h.psdos.view.w * (h.psdos.view.bpp / 8)) +
          (vx * (h.psdos.view.bpp / 8) + k)) =
        scaledByte h.psdos.core.fmt h.psdos.frames.src m h.psdos.view.bpp vy vx k)
    (hcopy : forall vy vx k, vy < h.psdos.view.h -> vx < h.psdos.view.w ->
      k < h.psdos.view.bpp / 8 -> ¬ (y0 ≤ vy ∧ vy < y0 + (y1 - y0 + 1)) ->
      h.dst (vy * stride.toNat + (vx * (h.psdos.view.bpp / 8) + k)) =
        scaledByte h.psdos.core.fmt h.psdos.frames.src m h.psdos.view.bpp vy vx k) :
    HandoverOk stride (h.goes (publishRows
      { h.psdos with view := { h.psdos.view with full := full, map := some m } } m pixels y0 y1)) := by
  have hsized := hok.ok.view hactive
  have hinited : h.psdos.core.inited ≠ false := fun hyoung => hsrc (hok.ok.young hyoung).2.1
  have hnew : h.psdos.picture.surface.serial + 1 ≠ h.psdos.picture.surface.serial :=
    fun heq => absurd (left_eq_add.mp heq.symm) (by decide)
  have hsized' : PsdosView.Sized { h.psdos.view with full := full, map := some m } :=
    hsized.of_size rfl rfl rfl
  have hshows := @publishRows_shows
    { h.psdos with view := { h.psdos.view with full := full, map := some m } } m _ y0 y1 hsized'
    hmade hvw hvh hpixels
  rcases hshows with ⟨hshows, hbpp⟩
  rw [Handover.goes_new (by exact hnew)]
  constructor
  · exact
      { view := fun _ => hsized.of_size rfl rfl rfl
        map := fun m' hm => by
          cases hm
          exact Or.inr ⟨h.psdos.frames.src, hmade⟩
        frame := hok.ok.frame
        young := fun hyoung => absurd hyoung hinited }
  · intro src fmt m' hshown
    cases hshown
    exact hshows
  · intro _
    refine ⟨h.psdos.frames.src, m, ?_⟩
    exact
      { shown := rfl
        map := rfl
        size := ⟨hshows.width.1.trans hvw, hshows.height.1.trans hvh, hbpp⟩
        source := ⟨rfl, rfl, rfl⟩
        prev := ⟨rfl, rfl, rfl⟩ }
  · intro _
    refine ⟨y0, y1 - y0 + 1, ?_⟩
    have hw := hshows.width.1.trans hvw
    have hh := hshows.height.1.trans hvh
    constructor
    · change Rect.mk 0 y0 h.psdos.view.w ((y1 : Int) - y0 + 1) = _
      rw [hw]
      congr 1
      lia
    · lia
    · rw [hh]
      lia
    · exact Option.some_ne_none _
    · intro vy hvy hout c hc
      dsimp only at hvy hc ⊢
      have hbytes : PsdosSurface.bytes (publishRows
          { h.psdos with view := { h.psdos.view with full := full, map := some m } } m pixels y0
          y1).picture.surface = h.psdos.view.bpp / 8 := congrArg (· / 8) hbpp
      rw [hw, hbytes] at hc
      rw [hh] at hvy
      have hpos : 0 < h.psdos.view.bpp / 8 := by
        rcases hsized.depth with hd | hd
        · rw [hd]
          decide
        · rw [hd]
          decide
      have hcol : c / (h.psdos.view.bpp / 8) < h.psdos.view.w := Nat.div_lt_of_lt_mul (by
        rw [Nat.mul_comm]
        exact hc)
      have hk := Nat.mod_lt c hpos
      have hsplit : c / (h.psdos.view.bpp / 8) * (h.psdos.view.bpp / 8) +
          c % (h.psdos.view.bpp / 8) = c := Nat.div_add_mod' _ _
      have hdst := hcopy vy _ _ hvy hcol hk hout
      have hpx := hshows.pixels vy (c / (h.psdos.view.bpp / 8)) (c % (h.psdos.view.bpp / 8))
        (by rw [hvh]; exact hvy) (by rw [hvw]; exact hcol) (by rw [hbytes]; exact hk)
      rw [hbytes, hbpp, hsplit] at hpx
      rw [hsplit] at hdst
      exact hdst.trans hpx.symm
  · exact fun hfetched => Bool.noConfusion hfetched
  · intro _ hnow
    have hconsumed := eq_of_beq hfree
    have hlast : h.psdos.picture.surface.consumed = h.psdos.picture.surface.serial + 1 :=
      eq_of_beq hnow
    exact absurd (hlast.symm.trans hconsumed) hnew
  · intro _ _
    exact ⟨hshows.width.1.trans hvw, hshows.height.1.trans hvh, hbpp⟩

theorem rowChanged_eq_false {f : Frames} {y : Nat} (h : rowChanged f y = false) {x : Nat}
    (hx : x < f.src.w) : f.src.px y x = f.prev y x := by
  have hnone := of_decide_eq_false h
  by_contra hne
  exact hnone ⟨x, hx, hne⟩

theorem scaledByte_unchanged {src : SrcFrame} {m : ScaleMap}
    (hon : BandedOn s src m) (hmade : m.Made s.frames.src) (hw : 0 < s.frames.src.w)
    (hh : 0 < s.frames.src.h) {s0 s1 y0 y1 : Nat}
    (hrows : bandOf s.frames.src.h (rowChanged s.frames) = some (s0, s1))
    (hshown : (bandOf m.dh fun y => decide (s0 ≤ m.ymap y ∧ m.ymap y ≤ s1)) = some (y0, y1))
    {bpp vy vx : Nat} (k : Nat)
    (hout : ¬ ((y0 + m.dy ≤ vy ∧ vy ≤ y1 + m.dy) ∧ m.InPicture vy vx)) :
    scaledByte s.core.fmt s.frames.src m bpp vy vx k = scaledByte s.core.fmt src m bpp vy vx k := by
  unfold scaledByte
  split
  · next hpic =>
    have hdy : vy - m.dy < m.dh := by
      have hin := hpic.1
      lia
    have hdx : vx - m.dx < m.dw := by
      have hin := hpic.2
      lia
    have hsize := hmade.size
    have hy : m.ymap (vy - m.dy) < s.frames.src.h := by
      rw [← hsize.2]
      exact ScaleMap.ymap_lt (by rw [hsize.2]; exact hh) hdy
    have hx : m.xmap (vx - m.dx) < s.frames.src.w := by
      rw [← hsize.1]
      exact ScaleMap.xmap_lt (by rw [hsize.1]; exact hw) hdx
    have hquiet : rowChanged s.frames (m.ymap (vy - m.dy)) = false := by
      rw [← Bool.not_eq_true]
      intro hchanged
      have hband := (bandOf_eq_some hrows).2 _ hy hchanged
      have hpainted := (bandOf_eq_some hshown).2 _ hdy (decide_eq_true hband)
      have hin := hpic.1
      exact hout ⟨by lia, hpic⟩
    have hpx := rowChanged_eq_false hquiet hx
    rw [hon.prev.1] at hpx
    unfold pictureByte srcPx
    rw [hpx, hon.source.2.2]
  · rfl

theorem handoverOk_publish {stride : BitVec 32} {h : Handover} (hok : HandoverOk stride h) :
    HandoverOk stride (h.goes (publish h.psdos)) := by
  rcases publish_cases hok.ok with hwaits |
    ⟨hactive, hfree, hsrc, full, m, hmade, hvw, hvh, hwhole | hband⟩
  · exact handoverOk_waits hok hwaits
  · rw [hwhole]
    have hheight := (hok.ok.view hactive).height
    apply handoverOk_publishes hok hsrc hactive hfree hmade hvw hvh
    · exact Nat.zero_le _
    · lia
    · intro vy vx k hvy hvx hk hout
      have hborder : ¬ m.InPicture vy vx := fun hpic => hout ⟨by lia, hpic⟩
      unfold scaledByte blanked
      rw [if_neg hborder, if_pos]
      generalize h.psdos.view.bpp / 8 = bytes at *
      have hcols := Nat.mul_le_mul_right bytes (Nat.succ_le_of_lt hvx)
      have hrowsLe := Nat.mul_le_mul_right (h.psdos.view.w * bytes) (Nat.succ_le_of_lt hvy)
      rw [Nat.succ_mul] at hcols hrowsLe
      rw [Nat.mul_comm (h.psdos.view.w * bytes)]
      lia
    · intro vy vx k hvy hvx hk hout
      exact absurd (by lia) hout
  · rcases hband with ⟨hfull, hmap, s0, s1, y0, y1, hrows, hshown, hpublish⟩
    rw [hpublish]
    have hbanded : h.psdos.view.Banded := ⟨hactive, hfull⟩
    rcases hok.banded hbanded with ⟨src, m', hon⟩
    have hm : m = m' := Option.some.inj (hmap.symm.trans hon.map)
    subst hm
    have hfits := hmade.fits
    have hin := (bandOf_eq_some hshown).1
    have hold := hok.shows src _ m hon.shown
    have hbytes : h.psdos.picture.surface.bytes = h.psdos.view.bpp / 8 := by
      unfold PsdosSurface.bytes
      rw [hon.size.2.2]
    have hsame : forall vy vx k, vy < h.psdos.view.h -> vx < h.psdos.view.w ->
        k < h.psdos.view.bpp / 8 ->
        ¬ ((y0 + m.dy ≤ vy ∧ vy < y0 + m.dy + (y1 + m.dy - (y0 + m.dy) + 1)) ∧
          m.InPicture vy vx) ->
        h.psdos.picture.pixels (vy * (h.psdos.view.w * (h.psdos.view.bpp / 8)) +
            (vx * (h.psdos.view.bpp / 8) + k)) =
          scaledByte h.psdos.core.fmt h.psdos.frames.src m h.psdos.view.bpp vy vx k := by
      intro vy vx k hvy hvx hk hout
      have hpx := hold.pixels vy vx k (by rw [hvh]; exact hvy) (by rw [hvw]; exact hvx)
        (by rw [hbytes]; exact hk)
      rw [hold.stride, hbytes, hvw, hon.size.2.2] at hpx
      rw [hpx]
      symm
      apply scaledByte_unchanged hon hmade (Nat.pos_of_ne_zero hsrc)
        (Nat.pos_of_ne_zero (hok.ok.frame hsrc)) hrows hshown
      rintro ⟨hrow, hpic⟩
      exact hout ⟨by lia, hpic⟩
    apply handoverOk_publishes hok hsrc hactive hfree hmade hvw hvh
    · lia
    · have hbelow := hfits.below
      lia
    · exact hsame
    · intro vy vx k hvy hvx hk hout
      have hcopy := hok.current (hok.settled hbanded hfree) vy (by rw [hon.size.2.1]; exact hvy)
        (vx * (h.psdos.view.bpp / 8) + k) (by
          rw [hon.size.1, hbytes]
          have hcols := Nat.mul_le_mul_right (h.psdos.view.bpp / 8) (Nat.succ_le_of_lt hvx)
          rw [Nat.succ_mul] at hcols
          lia)
      rw [hcopy, hold.stride, hbytes, hvw]
      exact hsame vy vx k hvy hvx hk fun hpainted => hout hpainted.1

variable {stride rows : BitVec 32}

theorem fetch_pending {s : PsdosSurface} {pixels dst : Bytes}
    {y0 n : Nat} (hnew : s.serial ≠ s.consumed) (hbytes : s.bytes = 2 ∨ s.bytes = 4)
    (hw : 0 < s.w.toNat ∧ s.w.toNat ≤ 1920) (hh : s.h.toNat ≤ 1080) (hn : 0 < n)
    (hbelow : y0 + n ≤ s.h.toNat)
    (hdamage : s.damage = { x := 0, y := y0, w := s.w.toNat, h := n })
    (hwide : s.w.toNat * s.bytes ≤ stride.toNat) (htall : s.h.toNat ≤ rows.toNat)
    (hrows : rows.toNat ≤ 1080) :
    exists f, s.fetch { mapped := 0, surf := 0, pixels := 0 } pixels dst stride rows = .ok f ∧
      f.consumed = some s.serial ∧
      f.dst = copyRows { base := 0, stride := s.stride.toNat } pixels
        { base := 0, stride := stride.toNat } s.bytes 0 y0 s.w.toNat n dst := by
  have hwInt : s.w.toInt = s.w.toNat := BitVec.toInt_eq_toNat_of_lt (by lia)
  have hhInt : s.h.toInt = s.h.toNat := BitVec.toInt_eq_toNat_of_lt (by lia)
  have hrowsInt : rows.toInt = rows.toNat := BitVec.toInt_eq_toNat_of_lt (by lia)
  have hpos : 0 < s.bytes := by lia
  have hcols : s.w.toNat ≤ stride.toNat / s.bytes := (Nat.le_div_iff_mul_le hpos).mpr hwide
  have hvw : s.vw stride = s.w.toNat := by
    unfold PsdosSurface.vw
    rw [hwInt, if_neg (by lia)]
  have hvh : s.vh rows = s.h.toNat := by
    unfold PsdosSurface.vh
    rw [hhInt, hrowsInt, if_neg (by lia)]
  have hclip : s.damage.clip (s.vw stride) (s.vh rows) = .ok s.damage := by
    rw [hvw, hvh, Rect.clip_of_clippable]
    · rw [hdamage]
      unfold Rect.inside
      congr 2
      all_goals lia
    · unfold IntRange
      lia
    · unfold IntRange
      lia
    · rw [hdamage]
      unfold Rect.Clippable Foundation.Clippable IntRange
      dsimp only
      lia
  unfold PsdosSurface.fetch
  rw [if_neg hnew]
  unfold natDiv
  rw [hclip, hdamage]
  dsimp only [bind, Except.bind, pure, Except.pure]
  rw [if_neg (by lia), if_neg (Nat.ne_of_gt hpos)]
  dsimp only
  rw [if_pos (by lia)]
  refine ⟨_, rfl, rfl, ?_⟩
  unfold Fetched.copied
  dsimp only
  rw [Int.toNat_natCast, Int.toNat_natCast, Int.toNat_natCast]
  rfl

theorem handoverOk_fetch {h : Handover} (hok : HandoverOk stride h)
    (hcovers : Covers stride rows h .fetch) :
    HandoverOk stride (handoverStep stride rows h .fetch) := by
  unfold handoverStep
  dsimp only
  split
  · next hplausible =>
    have hrows := (of_decide_eq_true hplausible).2.2.2
    cases hfree : surfaceFree h.psdos with
    | true =>
        have hsame : h.psdos.picture.surface.serial = h.psdos.picture.surface.consumed :=
          (eq_of_beq hfree).symm
        unfold PsdosSurface.fetch
        rw [if_pos hsame]
        exact hok
    | false =>
        rcases hok.pending hfree with ⟨y0, n, hpending⟩
        rcases Option.ne_none_iff_exists'.mp hpending.shown with ⟨⟨src, fmt, m⟩, hshown⟩
        have hshows := hok.shows src fmt m hshown
        have hnew : h.psdos.picture.surface.serial ≠ h.psdos.picture.surface.consumed :=
          (ne_of_beq_false hfree).symm
        have hbytes : h.psdos.picture.surface.bytes = 2 ∨ h.psdos.picture.surface.bytes = 4 := by
          unfold PsdosSurface.bytes
          rcases hshows.depth with hd | hd
          · left
            rw [hd]
          · right
            rw [hd]
        have hwidth := hshows.width
        have hheight := hshows.height
        rcases @fetch_pending _ _ _ h.psdos.picture.pixels h.dst _ _ hnew hbytes
          (by lia) (by lia) hpending.some hpending.below hpending.damage hcovers.1 hcovers.2 hrows
          with ⟨f, hfetch, hconsumed, hdst⟩
        rw [hfetch]
        unfold Handover.fetches
        dsimp only
        rw [hconsumed]
        dsimp only
        have hcopied : forall vy, vy < h.psdos.picture.surface.h.toNat ->
            RowAgrees stride h.psdos.picture f.dst vy := by
          intro vy hvy c hc
          have hrow := @copyRows_row _
            { base := 0, stride := h.psdos.picture.surface.stride.toNat }
            { base := 0, stride := stride.toNat } h.psdos.picture.pixels _ y0 _ n vy _ h.dst hcovers.1 (lt_of_lt_of_le hc hcovers.1)
          dsimp only at hrow
          rw [Nat.zero_add, Nat.zero_add] at hrow
          rw [hdst, hrow]
          split
          · rfl
          · next hother => exact hpending.rest vy hvy (fun hin => hother (by lia)) c hc
        constructor
        · exact
            { view := hok.ok.view
              map := hok.ok.map
              frame := hok.ok.frame
              young := hok.ok.young }
        · intro src' fmt' m' hshown'
          have hold := hok.shows src' fmt' m' hshown'
          exact
            { width := hold.width
              height := hold.height
              depth := hold.depth
              stride := hold.stride
              made := hold.made
              pixels := hold.pixels }
        · intro hbanded
          rcases hok.banded hbanded with ⟨src', m', hon⟩
          exact ⟨src', m',
            { shown := hon.shown
              map := hon.map
              size := hon.size
              source := hon.source
              prev := hon.prev }⟩
        · intro hbusy
          have hself : (h.psdos.picture.surface.serial == h.psdos.picture.surface.serial) = false :=
            hbusy
          rw [beq_self_eq_true] at hself
          cases hself
        · exact fun _ => hcopied
        · exact fun _ _ => rfl
        · exact hok.sized
  · exact hok

theorem handoverOk_step {h : Handover} {e : HandoverEvent}
    (hok : HandoverOk stride h) (hcovers : Covers stride rows h e) :
    HandoverOk stride (handoverStep stride rows h e) := by
  cases e with
  | frame frame junk =>
      unfold handoverStep
      dsimp only
      split
      · next hloaded =>
        exact handoverOk_waits hok (waits_videoRefresh hok.ok hloaded frame junk)
      · exact hok
  | publish => exact handoverOk_publish hok
  | geometry aspect =>
      apply handoverOk_waits hok
      exact
        { ok :=
            { view := fun hactive => (hok.ok.view hactive).of_size rfl rfl rfl
              map := hok.ok.map
              frame := hok.ok.frame
              young := fun hyoung =>
                ⟨(hok.ok.young hyoung).1, (hok.ok.young hyoung).2.1, fun _ => rfl⟩ }
          picture := Or.inl rfl
          keeps := fun hbanded => Bool.noConfusion hbanded.2 }
  | exits =>
      exact handoverOk_waits hok
        (Psdos.Waits.of_alike hok.ok rfl rfl rfl (fun hyoung => ⟨hyoung, id⟩) rfl)
  | cmd ans c => exact handoverOk_waits hok (waits_handleCmd hok.ok ans c)
  | gone =>
      have hfree := waits_viewFree hok.ok
      apply handoverOk_waits hok
      exact
        { ok :=
            { view := hfree.ok.view
              map := hfree.ok.map
              frame := hfree.ok.frame
              young := hfree.ok.young }
          picture := hfree.picture
          keeps := fun hbanded => Bool.noConfusion hbanded.1 }
  | fetch => exact handoverOk_fetch hok hcovers

/-- The view's part of the destination is the shared pixels, which show the frame. -/
structure Handover.Copied (stride : BitVec 32) (h : Handover) (src : SrcFrame)
    (fmt : PixelFormat) (m : ScaleMap) : Prop where
  shows : h.psdos.picture.Shows src fmt m
  copy : forall vy vx k, vy < m.vh -> vx < m.vw -> k < h.psdos.picture.surface.bytes ->
    h.dst (vy * stride.toNat + (vx * h.psdos.picture.surface.bytes + k)) =
      h.psdos.picture.pixels (vy * h.psdos.picture.surface.stride.toNat +
        (vx * h.psdos.picture.surface.bytes + k))

def Handover.AtView (h : Handover) (m : ScaleMap) : Prop :=
  m.vw = h.psdos.view.w ∧ m.vh = h.psdos.view.h ∧
    h.psdos.picture.surface.bpp.toNat = h.psdos.view.bpp

instance (h : Handover) (m : ScaleMap) : Decidable (h.AtView m) :=
  inferInstanceAs (Decidable (_ ∧ _ ∧ _))

/-- Once the last frame has been fetched, the guest's copy is that frame, at the view's size
unless the view has since been resized.  Where the next frame may be published as a band and
no frame waits, the last one has been fetched. -/
theorem copied_of_fetched (stride rows : BitVec 32) (ans : PsdosHost) (dst : Bytes)
    {events : List HandoverEvent}
    (h : Steps (handoverStep stride rows) (Covers stride rows) (handoverStart ans dst) events) :
    let now := run (handoverStep stride rows) (handoverStart ans dst) events
    (forall src fmt m, now.fetched = true -> now.psdos.picture.shown = some (src, fmt, m) ->
        now.Copied stride src fmt m ∧ (now.resized = false -> now.AtView m)) ∧
      (now.psdos.view.Banded -> surfaceFree now.psdos = true -> now.fetched = true) := by
  have hok : HandoverOk stride (run (handoverStep stride rows) (handoverStart ans dst) events) :=
    Steps.invariant (fun _ _ hok hcovers => handoverOk_step hok hcovers)
      (handoverOk_start stride ans dst) h
  refine ⟨?_, hok.settled⟩
  intro src fmt m hfetched hshown
  have hshows := hok.shows src fmt m hshown
  constructor
  · refine ⟨hshows, ?_⟩
    intro vy vx k hvy hvx hk
    apply hok.current hfetched vy (by rw [hshows.height.1]; exact hvy)
    rw [hshows.width.1]
    have hcols := Nat.mul_le_mul_right
      (run (handoverStep stride rows) (handoverStart ans dst) events).psdos.picture.surface.bytes
      (Nat.succ_le_of_lt hvx)
    rw [Nat.succ_mul] at hcols
    lia
  · intro hresized
    have hsized := hok.sized hresized (by rw [hshown]; exact Option.some_ne_none _)
    rw [hshows.width.1, hshows.height.1] at hsized
    exact hsized

/-- A host whose core draws 16-bit pixels and stretches its picture over the view. -/
def stretchHost : PsdosHost :=
  { execOk := true
    opens := true
    loads := true
    vars := []
    fmt := .rgb565
    aspect :=
      { height := fun _ _ w => w
        width := fun _ _ h => h }
    conf := [] }

def viewOf (type : PsdosCmdType) (w h bpp : BitVec 32) : PsdosCmd :=
  { type := type, a := w, b := h, c := bpp, d := 0, e := 0, str := [] }

/-- A game in a view of 16 by 16 whose first frame is fetched, before the view grows. -/
def resizedView : List HandoverEvent :=
  [.cmd stretchHost (viewOf .viewNew 16 16 16), .cmd stretchHost (viewOf .load 0 0 0),
    .frame (some (8, 8, fun _ _ => 0xFFFF)) (fun _ _ => 0), .publish, .fetch,
    .cmd stretchHost (viewOf .viewSize 32 32 0)]

theorem copied_of_fetched_resized :
    let now := run (handoverStep 128 64) (handoverStart stretchHost fun _ => 0) resizedView
    (forall src fmt m, now.fetched = true -> now.psdos.picture.shown = some (src, fmt, m) ->
        now.Copied 128 src fmt m ∧ (now.resized = false -> now.AtView m)) ∧
      (now.psdos.view.Banded -> surfaceFree now.psdos = true -> now.fetched = true) :=
  copied_of_fetched 128 64 stretchHost (fun _ => 0) (by decide)

/-- After the view has grown, the copy and the shared pixels still have the old size. -/
theorem copy_of_old_size :
    ¬ forall (stride rows : BitVec 32) (ans : PsdosHost) (dst : Bytes) (events : List HandoverEvent),
      Steps (handoverStep stride rows) (Covers stride rows) (handoverStart ans dst) events ->
        forall src fmt m,
          (run (handoverStep stride rows) (handoverStart ans dst) events).fetched = true ->
          (run (handoverStep stride rows) (handoverStart ans dst) events).psdos.picture.shown =
            some (src, fmt, m) ->
          (run (handoverStep stride rows) (handoverStart ans dst) events).Copied stride src fmt m ∧
            (run (handoverStep stride rows) (handoverStart ans dst) events).AtView m := by
  intro hall
  have hrun := hall 128 64 stretchHost (fun _ => 0) resizedView (by decide) _ _ _ (by decide) rfl
  revert hrun
  rintro ⟨_, hview⟩
  revert hview
  decide

end Services
end PistormAtari
