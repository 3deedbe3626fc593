import PistormAtari.Foundation.RowCopy

/-!
# Pictures from a service

The DOS and the web service each share one object with the emulator: a header, the
surface with the size of the picture and the rectangles that changed, and the pixels.  The
service writes all of it.
-/

namespace PistormAtari
namespace Services

open Foundation

abbrev Bytes := Nat -> BitVec 8

def word (shm : Bytes) (off : Nat) : BitVec 32 :=
  shm (off + 3) ++ shm (off + 2) ++ shm (off + 1) ++ shm off

def mapLength (size : Nat) : Nat := (size + 4095) / 4096 * 4096

structure Mapping where
  mapped : Nat
  surf : Nat
  pixels : Nat
deriving DecidableEq

/-- The mapping, if the header is accepted, and what of the object was touched. -/
structure Attach where
  map : Option Mapping
  touched : List Access

/-- A call of the fetch: its result, the rectangles that it copied and the picture after it;
`consumed` is what it writes back to the surface. -/
structure Fetched where
  ret : Nat
  rects : List Rect
  dst : Bytes
  consumed : Option (BitVec 32)
  touched : List Access

def damageRect (shm : Bytes) (off : Nat) : Rect :=
  { x := (word shm off).toInt
    y := (word shm (off + 4)).toInt
    w := (word shm (off + 8)).toInt
    h := (word shm (off + 12)).toInt }

def Fetched.copied (f : Fetched) (src : Plane) (shm : Bytes) (dst : Plane) (bytes : Nat)
    (r : Rect) : Fetched :=
  { f with
    ret := f.ret + 1
    rects := f.rects ++ [r]
    dst := copyRows src shm dst bytes r.x.toNat r.y.toNat r.w.toNat r.h.toNat f.dst
    touched := f.touched ++
      rowAccesses src dst bytes r.x.toNat r.y.toNat r.w.toNat r.h.toNat }

/-!
## The DOS client
-/

def psdosShmMagic : BitVec 32 := 0x534F4450
def psdosProtoVersion : BitVec 32 := 1
def psdosSurfaceSize : Nat := 60
def psdosAudioSize : Nat := 16 + 16384 * 4

def psdosHeaderOk (size : Nat) (shm : Bytes) : Bool :=
  decide (word shm 0 = psdosShmMagic ∧ word shm 4 = psdosProtoVersion ∧
    (word shm 8).toNat = size ∧
    (word shm 12).toNat + psdosSurfaceSize ≤ size ∧
    (word shm 16).toNat + (word shm 20).toNat ≤ size ∧
    (word shm 24).toNat + psdosAudioSize ≤ size)

/-- `mapOk` is whether the object can be mapped; one without a byte cannot. -/
def psdosShmAttach (size : Nat) (mapOk : Bool) (shm : Bytes) : Attach :=
  if size = 0 ∨ mapOk = false then { map := none, touched := [] }
  else if psdosHeaderOk size shm then
    { map := some
        { mapped := mapLength size
          surf := (word shm 12).toNat
          pixels := (word shm 16).toNat }
      touched := [.shared 0 32, .shared ((word shm 24).toNat + 4) 8] }
  else { map := none, touched := [.shared 0 32] }

structure PsdosSurface where
  w : BitVec 32
  h : BitVec 32
  bpp : BitVec 32
  stride : BitVec 32
  serial : BitVec 32
  consumed : BitVec 32
  damage : Rect

def psdosSurface (m : Mapping) (shm : Bytes) : PsdosSurface :=
  { w := word shm m.surf
    h := word shm (m.surf + 4)
    bpp := word shm (m.surf + 8)
    stride := word shm (m.surf + 12)
    serial := word shm (m.surf + 16)
    consumed := word shm (m.surf + 20)
    damage := damageRect shm (m.surf + 24) }

def PsdosSurface.bytes (s : PsdosSurface) : Nat := s.bpp.toNat / 8

def PsdosSurface.vw (s : PsdosSurface) (dstStride : BitVec 32) : Int :=
  if (dstStride.toNat / s.bytes : Nat) < s.w.toInt then (dstStride.toNat / s.bytes : Nat)
  else s.w.toInt

def PsdosSurface.vh (s : PsdosSurface) (dstRows : BitVec 32) : Int :=
  if dstRows.toInt < s.h.toInt then dstRows.toInt else s.h.toInt

/-- The fetch of a surface at `m.surf` whose pixels are at `m.pixels` of `shm`. -/
def PsdosSurface.fetch (s : PsdosSurface) (m : Mapping) (shm dst : Bytes)
    (dstStride dstRows : BitVec 32) : Except Fault Fetched := do
  let f : Fetched :=
    { ret := 0, rects := [], dst := dst, consumed := none, touched := [.shared (m.surf + 16) 8] }
  if s.serial = s.consumed then return f
  let f : Fetched :=
    { f with consumed := some s.serial, touched := f.touched ++ [.shared m.surf 40] }
  if s.bytes ≠ 2 ∧ s.bytes ≠ 4 then return f
  let _columns <- natDiv dstStride.toNat s.bytes
  let r <- s.damage.clip (s.vw dstStride) (s.vh dstRows)
  if 0 < r.w ∧ 0 < r.h then
    return f.copied { base := m.pixels, stride := s.stride.toNat } shm
      { base := 0, stride := dstStride.toNat } s.bytes r
  return f

def psdosFetch (m : Mapping) (shm dst : Bytes) (dstStride dstRows : BitVec 32) :
    Except Fault Fetched :=
  (psdosSurface m shm).fetch m shm dst dstStride dstRows

/-!
## The web client
-/

def pswebShmMagic : BitVec 32 := 0x42575350
def pswebProtoVersion : BitVec 32 := 1
def pswebDamageMax : Int := 32

def pswebHeaderOk (size : Nat) (shm : Bytes) : Bool :=
  decide (word shm 0 = pswebShmMagic ∧ word shm 4 = pswebProtoVersion ∧ (word shm 8).toNat = size)

def pswebShmAttach (size : Nat) (mapOk : Bool) (shm : Bytes) : Attach :=
  if size = 0 ∨ mapOk = false then { map := none, touched := [] }
  else if pswebHeaderOk size shm then
    { map := some
        { mapped := mapLength size
          surf := (word shm 12).toNat
          pixels := (word shm 16).toNat }
      touched := [.shared 0 24] }
  else { map := none, touched := [.shared 0 24] }

structure PswebSurface where
  w : BitVec 32
  h : BitVec 32
  bpp : BitVec 32
  stride : BitVec 32
  serial : BitVec 32
  consumed : BitVec 32
  nDamage : BitVec 32

def pswebSurface (m : Mapping) (shm : Bytes) : PswebSurface :=
  { w := word shm m.surf
    h := word shm (m.surf + 4)
    bpp := word shm (m.surf + 8)
    stride := word shm (m.surf + 12)
    serial := word shm (m.surf + 16)
    consumed := word shm (m.surf + 20)
    nDamage := word shm (m.surf + 24) }

def PswebSurface.bytes (s : PswebSurface) : BitVec 32 := s.bpp / 8

def PswebSurface.sw (s : PswebSurface) (dstStride : BitVec 32) : Except Fault (BitVec 32) := do
  if dstStride < s.w * s.bytes then
    let columns <- natDiv dstStride.toNat s.bytes.toNat
    return BitVec.ofNat 32 columns
  else return s.w

def PswebSurface.sh (s : PswebSurface) (dstRows : BitVec 32) : BitVec 32 :=
  if dstRows < s.h then dstRows else s.h

/-- How many rectangles are looked at: none when the number is negative. -/
def PswebSurface.count (s : PswebSurface) : Nat :=
  if pswebDamageMax < s.nDamage.toInt then pswebDamageMax.toNat else s.nDamage.toInt.toNat

def pswebDamage (m : Mapping) (shm : Bytes) (i : Nat) : Rect :=
  damageRect shm (m.surf + 28 + 16 * i)

def fetchRects (src : Plane) (shm : Bytes) (dst : Plane) (bytes : Nat) (vw vh : Int) :
    List Rect -> Fetched -> Except Fault Fetched
  | [], f => .ok f
  | r :: rest, f => do
      let r <- r.clip vw vh
      if r.w ≤ 0 ∨ r.h ≤ 0 then fetchRects src shm dst bytes vw vh rest f
      else fetchRects src shm dst bytes vw vh rest (f.copied src shm dst bytes r)

def pswebFetch (m : Mapping) (shm dst : Bytes) (dstStride dstRows : BitVec 32) :
    Except Fault Fetched := do
  let s := pswebSurface m shm
  let f : Fetched :=
    { ret := 0, rects := [], dst := dst, consumed := none, touched := [.shared (m.surf + 16) 8] }
  if s.serial = s.consumed then return f
  let sw <- s.sw dstStride
  let f : Fetched :=
    { f with
      consumed := some s.serial
      touched := f.touched ++ [.shared m.surf 28, .shared (m.surf + 28) (16 * s.count)] }
  fetchRects { base := m.pixels, stride := s.stride.toNat } shm
    { base := 0, stride := dstStride.toNat } s.bytes.toNat sw.toInt (s.sh dstRows).toInt
    ((List.range s.count).map (pswebDamage m shm)) f

/-!
## What a fetch touches
-/

/-- The call ends, having touched nothing outside the mapped object and the destination. -/
def Survives (size room : Nat) : Except Fault Fetched -> Prop
  | .error _ => False
  | .ok f => forall a, a ∈ f.touched -> a.Inside size room

instance (size room : Nat) : (r : Except Fault Fetched) -> Decidable (Survives size room r)
  | .error _ => isFalse id
  | .ok f => inferInstanceAs (Decidable (forall a, a ∈ f.touched -> a.Inside size room))

/-- The clipping of a rectangle does not overflow, and what is left of it lies inside the
mapped object and the destination. -/
def RectFits (size room : Nat) (src dst : Plane) (bytes : Nat) (vw vh : Int) (r : Rect) : Prop :=
  r.Clippable vw vh ∧
    (0 < (r.inside vw vh).w -> 0 < (r.inside vw vh).h -> bytes ≠ 0 ->
      src.Holds size bytes (r.inside vw vh) ∧ dst.Holds room bytes (r.inside vw vh))

instance (size room : Nat) (src dst : Plane) (bytes : Nat) (vw vh : Int) (r : Rect) :
    Decidable (RectFits size room src dst bytes vw vh r) :=
  inferInstanceAs (Decidable (_ ∧ _))

theorem Rect.inside_nonneg (r : Rect) (vw vh : Int) :
    0 ≤ (r.inside vw vh).x ∧ 0 ≤ (r.inside vw vh).y :=
  ⟨le_max_right r.x 0, le_max_right r.y 0⟩

theorem Rect.inside_right_le (r : Rect) (vw vh : Int) :
    (r.inside vw vh).x + (r.inside vw vh).w ≤ vw := by
  unfold Rect.inside
  dsimp only
  rw [add_sub_cancel]
  exact min_le_right _ _

theorem Rect.inside_below_le (r : Rect) (vw vh : Int) :
    (r.inside vw vh).y + (r.inside vw vh).h ≤ vh := by
  unfold Rect.inside
  dsimp only
  rw [add_sub_cancel]
  exact min_le_right _ _

theorem copied_inside_iff {size room : Nat} {src dst : Plane} {bytes : Nat} {r : Rect}
    {f : Fetched} {shm : Bytes} (hx : 0 ≤ r.x) (hy : 0 ≤ r.y) (hw : 0 < r.w) (hh : 0 < r.h) :
    (forall a, a ∈ (f.copied src shm dst bytes r).touched -> a.Inside size room) <->
      (forall a, a ∈ f.touched -> a.Inside size room) ∧
        (bytes ≠ 0 -> src.Holds size bytes r ∧ dst.Holds room bytes r) := by
  have hrows := @rowAccesses_inside_iff src dst bytes r.x.toNat r.y.toNat _ _ size room
    (Int.lt_toNat.mpr hw) (Int.lt_toNat.mpr hh)
  have hright : r.x.toNat + r.w.toNat = (r.x + r.w).toNat := by lia
  have hbelow : r.y.toNat + r.h.toNat = (r.y + r.h).toNat := by lia
  rw [hright, hbelow] at hrows
  unfold Fetched.copied Plane.Holds
  dsimp only
  rw [List.forall_mem_append, hrows, or_iff_not_imp_left]

theorem fetchRects_survives_iff {size room : Nat} (src dst : Plane) (shm : Bytes) (bytes : Nat)
    {vw vh : Int} (hvw : IntRange vw) (hvh : IntRange vh) (rects : List Rect) (f : Fetched) :
    Survives size room (fetchRects src shm dst bytes vw vh rects f) <->
      (forall a, a ∈ f.touched -> a.Inside size room) ∧
        forall r, r ∈ rects -> RectFits size room src dst bytes vw vh r := by
  induction rects generalizing f with
  | nil =>
      constructor
      · intro h
        exact ⟨h, fun r hr => absurd hr List.not_mem_nil⟩
      · exact fun h => h.1
  | cons r rest ih =>
      have hnext : (forall r', r' ∈ r :: rest -> RectFits size room src dst bytes vw vh r') <->
          RectFits size room src dst bytes vw vh r ∧
            forall r', r' ∈ rest -> RectFits size room src dst bytes vw vh r' :=
        List.forall_mem_cons
      rw [hnext]
      unfold fetchRects
      rcases Classical.em (r.Clippable vw vh) with hclip | hclip
      · rw [Rect.clip_of_clippable hvw hvh hclip]
        change Survives size room (if _ then _ else _) <-> _
        split
        · next hempty =>
          rw [ih]
          have hfits : RectFits size room src dst bytes vw vh r := by
            refine ⟨hclip, fun hw hh => ?_⟩
            rcases hempty with hempty | hempty
            · exact absurd hw (not_lt.mpr hempty)
            · exact absurd hh (not_lt.mpr hempty)
          rw [and_iff_right hfits]
        · next hfull =>
          rw [not_or, not_le, not_le] at hfull
          have hpos := Rect.inside_nonneg r vw vh
          rw [ih, copied_inside_iff hpos.1 hpos.2 hfull.1 hfull.2, and_assoc]
          have hfits : RectFits size room src dst bytes vw vh r <->
              (bytes ≠ 0 -> src.Holds size bytes (r.inside vw vh) ∧
                dst.Holds room bytes (r.inside vw vh)) :=
            ⟨fun h => h.2 hfull.1 hfull.2, fun h => ⟨hclip, fun _ _ => h⟩⟩
          rw [hfits]
      · rw [Rect.clip_of_not_clippable hvw hclip]
        constructor
        · exact False.elim
        · exact fun h => hclip h.2.1.1

/-!
## The DOS client

The header keeps the surface inside the object, and the clipping keeps the rectangle inside
the destination.  Nothing keeps it inside the pixels.
-/

theorem le_mapLength (size : Nat) : size ≤ mapLength size := by
  unfold mapLength
  lia

theorem header_inside {size len room : Nat} (hsize : size ≠ 0) (hlen : len ≤ 4096) :
    (Access.shared 0 len).Inside (mapLength size) room := by
  right
  unfold mapLength
  lia

/-- What psdos may write so that a fetch of it survives: the clipping of the changed rectangle
stays in 32 bits, and its last row ends inside the mapped object. -/
def PsdosContained (m : Mapping) (shm : Bytes) (dstStride dstRows : BitVec 32) : Prop :=
  let s := psdosSurface m shm
  s.serial ≠ s.consumed -> s.bytes = 2 ∨ s.bytes = 4 ->
    s.damage.Clippable (s.vw dstStride) (s.vh dstRows) ∧
      (0 < (s.damage.inside (s.vw dstStride) (s.vh dstRows)).w ->
        0 < (s.damage.inside (s.vw dstStride) (s.vh dstRows)).h ->
        Plane.Holds { base := m.pixels, stride := s.stride.toNat } m.mapped s.bytes
          (s.damage.inside (s.vw dstStride) (s.vh dstRows)))

instance (m : Mapping) (shm : Bytes) (dstStride dstRows : BitVec 32) :
    Decidable (PsdosContained m shm dstStride dstRows) :=
  inferInstanceAs (Decidable (_ -> _ -> _ ∧ (_ -> _ -> _)))

theorem PsdosSurface.vw_range {s : PsdosSurface} {dstStride : BitVec 32}
    (hbytes : s.bytes = 2 ∨ s.bytes = 4) :
    IntRange (s.vw dstStride) ∧ s.vw dstStride * s.bytes ≤ dstStride.toNat := by
  have hw := intRange_toInt s.w
  have hlt := dstStride.isLt
  have hle : dstStride.toNat / s.bytes * s.bytes ≤ dstStride.toNat := Nat.div_mul_le_self _ _
  have hcols : dstStride.toNat / s.bytes < 2 ^ 31 := by
    rcases hbytes with h | h
    · rw [h]
      lia
    · rw [h]
      lia
  unfold vw IntRange
  unfold IntRange at hw
  split
  · next hnarrow =>
    refine ⟨by lia, ?_⟩
    exact_mod_cast hle
  · next hnarrow =>
    refine ⟨hw, ?_⟩
    have hmul := mul_le_mul_of_nonneg_right (not_lt.mp hnarrow) (Int.natCast_nonneg s.bytes)
    have hcast : ((dstStride.toNat / s.bytes : Nat) : Int) * (s.bytes : Int) ≤ dstStride.toNat := by
      exact_mod_cast hle
    exact le_trans hmul hcast

theorem PsdosSurface.vh_range (s : PsdosSurface) (dstRows : BitVec 32) :
    IntRange (s.vh dstRows) ∧ s.vh dstRows ≤ dstRows.toNat := by
  have hrows := intRange_toInt dstRows
  have hh := intRange_toInt s.h
  have hle : dstRows.toInt ≤ dstRows.toNat := by
    rw [BitVec.toInt_eq_toNat_cond]
    split
    · exact le_refl _
    · lia
  unfold vh
  split
  · exact ⟨hrows, hle⟩
  · next hmore => exact ⟨hh, le_trans (not_lt.mp hmore) hle⟩

theorem destination_holds {bytes stride rows : Nat} {r : Rect} (hx : 0 ≤ r.x) (hy : 0 ≤ r.y)
    (hw : 0 < r.w) (hh : 0 < r.h) (hright : (r.x + r.w) * bytes ≤ stride)
    (hbelow : r.y + r.h ≤ rows) :
    Plane.Holds { base := 0, stride := stride } (rows * stride) bytes r := by
  have hcolumns : (r.x + r.w).toNat * bytes ≤ stride := by
    have hcast : (((r.x + r.w).toNat * bytes : Nat) : Int) = (r.x + r.w) * bytes := by
      rw [Int.natCast_mul, Int.toNat_of_nonneg (by lia)]
    lia
  have hlast : (r.y + r.h).toNat - 1 + 1 ≤ rows := by lia
  have hmul := Nat.mul_le_mul_right stride hlast
  unfold Plane.Holds Plane.place
  dsimp only
  rw [Nat.add_mul, Nat.one_mul] at hmul
  lia

theorem psdosFetch_survives_iff {m : Mapping} {shm dst : Bytes} {dstStride dstRows : BitVec 32}
    (hsurf : m.surf + psdosSurfaceSize ≤ m.mapped) :
    Survives m.mapped (dstRows.toNat * dstStride.toNat)
        (psdosFetch m shm dst dstStride dstRows) <->
      PsdosContained m shm dstStride dstRows := by
  have hfirst : (Access.shared (m.surf + 16) 8).Inside m.mapped
      (dstRows.toNat * dstStride.toNat) := by
    right
    unfold psdosSurfaceSize at hsurf
    lia
  have hfields : (Access.shared m.surf 40).Inside m.mapped (dstRows.toNat * dstStride.toNat) := by
    right
    unfold psdosSurfaceSize at hsurf
    lia
  unfold psdosFetch PsdosSurface.fetch PsdosContained
  dsimp only
  split
  · next hsame =>
    constructor
    · intro _ hne
      exact absurd hsame hne
    · intro _ a ha
      rw [List.mem_singleton.mp ha]
      exact hfirst
  · next hnew =>
    split
    · next hformat =>
      constructor
      · intro _ _ hbytes
        rcases hbytes with h | h
        · exact absurd h hformat.1
        · exact absurd h hformat.2
      · intro _ a ha
        rcases List.mem_pair.mp ha with rfl | rfl
        · exact hfirst
        · exact hfields
    · next hformat =>
      have hbytes : (psdosSurface m shm).bytes = 2 ∨ (psdosSurface m shm).bytes = 4 := by
        by_contra hnot
        rw [not_or] at hnot
        exact hformat hnot
      generalize hs : psdosSurface m shm = s at *
      have hvw := @PsdosSurface.vw_range s dstStride hbytes
      have hvh := s.vh_range dstRows
      have hnonzero : s.bytes ≠ 0 := by
        rcases hbytes with h | h
        · rw [h]
          exact Nat.succ_ne_zero 1
        · rw [h]
          exact Nat.succ_ne_zero 3
      unfold natDiv
      rw [if_neg hnonzero]
      simp only [hnew, hbytes, ne_eq, not_false_eq_true, forall_const]
      dsimp only [bind, Except.bind, pure, Except.pure]
      rcases Classical.em (s.damage.Clippable (s.vw dstStride) (s.vh dstRows)) with hclip | hclip
      · rw [Rect.clip_of_clippable hvw.1 hvh.1 hclip]
        dsimp only
        have htouched : forall a, a ∈ [Access.shared (m.surf + 16) 8] ++ [.shared m.surf 40] ->
            a.Inside m.mapped (dstRows.toNat * dstStride.toNat) := by
          intro a ha
          rcases List.mem_pair.mp ha with rfl | rfl
          · exact hfirst
          · exact hfields
        split
        · next hfull =>
          have hpos := Rect.inside_nonneg s.damage (s.vw dstStride) (s.vh dstRows)
          have hdst := @destination_holds _ _ dstRows.toNat _ hpos.1 hpos.2 hfull.1 hfull.2
            (le_trans (mul_le_mul_of_nonneg_right (Rect.inside_right_le s.damage _ _)
              (Int.natCast_nonneg s.bytes)) hvw.2)
            (le_trans (Rect.inside_below_le s.damage _ _) hvh.2)
          unfold Survives
          dsimp only
          rw [copied_inside_iff hpos.1 hpos.2 hfull.1 hfull.2]
          constructor
          · intro h
            exact ⟨hclip, fun _ _ => (h.2 hnonzero).1⟩
          · intro h
            exact ⟨htouched, fun _ => ⟨h.2 hfull.1 hfull.2, hdst⟩⟩
        · next hempty =>
          constructor
          · intro _
            exact ⟨hclip, fun hw hh => absurd ⟨hw, hh⟩ hempty⟩
          · exact fun _ => htouched
      · rw [Rect.clip_of_not_clippable hvw.1 hclip]
        exact ⟨False.elim, fun h => hclip h.1⟩

/-!
## The web client

Its header does not say where the surface may be, and the product of the width and the
pixel size is taken in 32 bits.
-/

def PswebSurface.columns (s : PswebSurface) (dstStride : BitVec 32) : BitVec 32 :=
  if dstStride < s.w * s.bytes then BitVec.ofNat 32 (dstStride.toNat / s.bytes.toNat) else s.w

theorem PswebSurface.sw_eq (s : PswebSurface) (dstStride : BitVec 32) :
    s.sw dstStride = .ok (s.columns dstStride) := by
  unfold sw columns natDiv
  split
  · next hwide =>
    have hnonzero : s.bytes.toNat ≠ 0 := by
      intro hzero
      have hbytes : s.bytes = 0 := BitVec.eq_of_toNat_eq hzero
      rw [hbytes, mul_zero] at hwide
      exact Nat.not_lt_zero _ (BitVec.lt_def.mp hwide)
    rw [if_neg hnonzero]
    rfl
  · rfl

/-- What psweb may write so that a fetch of it survives: the surface and its rectangles lie
inside the mapped object, and so does every rectangle that is copied, inside the destination
too. -/
def PswebContained (m : Mapping) (shm : Bytes) (dstStride dstRows : BitVec 32) : Prop :=
  let s := pswebSurface m shm
  m.surf + 24 ≤ m.mapped ∧
    (s.serial ≠ s.consumed ->
      m.surf + 28 + 16 * s.count ≤ m.mapped ∧
        forall r, r ∈ (List.range s.count).map (pswebDamage m shm) ->
          RectFits m.mapped (dstRows.toNat * dstStride.toNat)
            { base := m.pixels, stride := s.stride.toNat } { base := 0, stride := dstStride.toNat }
            s.bytes.toNat (s.columns dstStride).toInt (s.sh dstRows).toInt r)

theorem pswebFetch_survives_iff (m : Mapping) (shm dst : Bytes) (dstStride dstRows : BitVec 32) :
    Survives m.mapped (dstRows.toNat * dstStride.toNat)
        (pswebFetch m shm dst dstStride dstRows) <->
      PswebContained m shm dstStride dstRows := by
  unfold pswebFetch PswebContained
  dsimp only
  generalize pswebSurface m shm = s
  split
  · next hsame =>
    unfold Survives
    dsimp only [pure, Except.pure]
    constructor
    · intro h
      refine ⟨?_, fun hne => absurd hsame hne⟩
      rcases h _ (List.mem_singleton_self _) with hzero | hin
      · cases hzero
      · lia
    · intro h a ha
      rw [List.mem_singleton.mp ha]
      right
      have hin := h.1
      lia
  · next hnew =>
    rw [PswebSurface.sw_eq]
    dsimp only [bind, Except.bind]
    rw [fetchRects_survives_iff _ _ _ _ (intRange_toInt _) (intRange_toInt _)]
    simp only [List.cons_append, List.nil_append, List.forall_mem_cons, List.not_mem_nil,
      false_imp_iff, implies_true, and_true, Access.Inside]
    constructor
    · rintro ⟨⟨hserial, hfields, hrects⟩, hfits⟩
      refine ⟨by lia, fun _ => ⟨?_, hfits⟩⟩
      lia
    · rintro ⟨hserial, hrest⟩
      have h := hrest hnew
      refine ⟨⟨?_, ?_, ?_⟩, h.2⟩
      · right
        lia
      · right
        have hin := h.1
        lia
      · right
        have hin := h.1
        lia

/-!
## Attaching and fetching
-/

/-- Attaching to an object and a fetch from it.  The service may have written all of it
between the two. -/
def SurvivesSession (attach : Attach) (size : Nat) (room : Nat)
    (fetch : Mapping -> Except Fault Fetched) : Prop :=
  (forall a, a ∈ attach.touched -> a.Inside (mapLength size) room) ∧
    forall m, attach.map = some m -> Survives m.mapped room (fetch m)

theorem psdosShmAttach_inside (size : Nat) (mapOk : Bool) (shm : Bytes) (room : Nat) :
    forall a, a ∈ (psdosShmAttach size mapOk shm).touched -> a.Inside (mapLength size) room := by
  unfold psdosShmAttach
  split
  · intro a ha
    exact absurd ha List.not_mem_nil
  · next hmapped =>
    rw [not_or] at hmapped
    split
    · next hok =>
      intro a ha
      rcases List.mem_pair.mp ha with rfl | rfl
      · exact header_inside hmapped.1 (by lia)
      · right
        have haudio := (of_decide_eq_true hok).2.2.2.2.2
        have hle := le_mapLength size
        unfold psdosAudioSize at haudio
        lia
    · intro a ha
      rw [List.mem_singleton.mp ha]
      exact header_inside hmapped.1 (by lia)

theorem psdosShmAttach_surface {size : Nat} {mapOk : Bool} {shm : Bytes} {m : Mapping}
    (h : (psdosShmAttach size mapOk shm).map = some m) :
    m.surf + psdosSurfaceSize ≤ m.mapped := by
  unfold psdosShmAttach at h
  split at h
  · cases h
  · split at h
    · next hok =>
      cases h
      exact le_trans (of_decide_eq_true hok).2.2.2.1 (le_mapLength size)
    · cases h

theorem pswebShmAttach_inside (size : Nat) (mapOk : Bool) (shm : Bytes) (room : Nat) :
    forall a, a ∈ (pswebShmAttach size mapOk shm).touched -> a.Inside (mapLength size) room := by
  unfold pswebShmAttach
  split
  · intro a ha
    exact absurd ha List.not_mem_nil
  · next hmapped =>
    rw [not_or] at hmapped
    split
    · intro a ha
      rw [List.mem_singleton.mp ha]
      exact header_inside hmapped.1 (by lia)
    · intro a ha
      rw [List.mem_singleton.mp ha]
      exact header_inside hmapped.1 (by lia)

/-- Whatever the services write, each client survives it exactly when the picture that it
finds is contained. -/
theorem clients_survive_iff (size : Nat) (mapOk : Bool) (shm shm' dst : Bytes)
    (dstStride dstRows : BitVec 32) :
    (SurvivesSession (psdosShmAttach size mapOk shm) size (dstRows.toNat * dstStride.toNat)
        (fun m => psdosFetch m shm' dst dstStride dstRows) <->
      forall m, (psdosShmAttach size mapOk shm).map = some m ->
        PsdosContained m shm' dstStride dstRows) ∧
      (SurvivesSession (pswebShmAttach size mapOk shm) size (dstRows.toNat * dstStride.toNat)
          (fun m => pswebFetch m shm' dst dstStride dstRows) <->
        forall m, (pswebShmAttach size mapOk shm).map = some m ->
          PswebContained m shm' dstStride dstRows) := by
  constructor
  · constructor
    · intro h m hm
      exact (psdosFetch_survives_iff (psdosShmAttach_surface hm)).mp (h.2 m hm)
    · intro h
      refine ⟨psdosShmAttach_inside size mapOk shm _, fun m hm => ?_⟩
      exact (psdosFetch_survives_iff (psdosShmAttach_surface hm)).mpr (h m hm)
  · constructor
    · intro h m hm
      exact (pswebFetch_survives_iff m shm' dst dstStride dstRows).mp (h.2 m hm)
    · intro h
      refine ⟨pswebShmAttach_inside size mapOk shm _, fun m hm => ?_⟩
      exact (pswebFetch_survives_iff m shm' dst dstStride dstRows).mpr (h m hm)

def wordBytes (ws : List (BitVec 32)) : Bytes := fun off =>
  ((ws.getD (off / 4) 0) >>> (8 * (off % 4))).setWidth 8

/-- psdos's object with its header and, from byte 32 on, a surface of 64 by 64 pixels. -/
def psdosObject (damage : List (BitVec 32)) : Bytes :=
  wordBytes ([psdosShmMagic, 1, 135168, 32, 4096, 16384, 65536, 65552, 64, 64, 32, 256, 1, 0] ++
    damage)

/-- psweb's object with its header and, from byte 32 on, a surface 2 ^ 30 pixels wide. -/
def pswebObject (damage : List (BitVec 32)) : Bytes :=
  wordBytes ([pswebShmMagic, 1, 131072, 32, 4096, 16384, 0, 0, 0x40000000, 64, 32, 256, 1, 0, 1] ++
    damage)

/-- A changed rectangle whose right edge is past the last integer, and one that starts to the
right of the destination. -/
theorem clients_overrun :
    ¬ SurvivesSession (psdosShmAttach 135168 true (psdosObject [1, 0, 0x7FFFFFFF, 1])) 135168
        (64 * 256)
        (fun m => psdosFetch m (psdosObject [1, 0, 0x7FFFFFFF, 1]) (fun _ => 0) 256 64) ∧
      ¬ SurvivesSession (pswebShmAttach 131072 true (pswebObject [64, 63, 1, 1])) 131072 (64 * 256)
        (fun m => pswebFetch m (pswebObject [64, 63, 1, 1]) (fun _ => 0) 256 64) := by
  constructor
  · intro h
    have hfetch := h.2 { mapped := 135168, surf := 32, pixels := 4096 } (by decide +kernel)
    revert hfetch
    decide +kernel
  · intro h
    have hfetch := h.2 { mapped := 131072, surf := 32, pixels := 4096 } (by decide +kernel)
    revert hfetch
    decide +kernel

end Services
end PistormAtari
