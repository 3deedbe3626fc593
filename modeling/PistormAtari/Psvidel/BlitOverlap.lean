import PistormAtari.Psvidel.SuperBlitter

/-!
# The SuperBlitter: lines that overlap

A line that is moved as a whole, or none of whose bytes is written before it is read, is
copied as it was when the line started.  No other line is, for every contents of the memory.
-/

namespace PistormAtari
namespace Psvidel

open Foundation

/-!
## The condition
-/

def SvShape.InVideo (sh : SvShape) (a : BitVec 32) (n : Nat) : Prop :=
  sh.mapped = true ∧ psvLoSize ≤ a.toNat ∧ a.toNat + n ≤ psvLoSize + psvVramSize

/-- Where the byte `x` of the source is the byte `x'` of the destination, and the line writes
both. -/
def SourceLost (sh : SvShape) (mode : Nat) (l : SvLine) (x' x : Nat) : Prop :=
  svAt l.s1 x = svAt l.d x' ∧ (sh.Backed (svAt l.d x') ∧ sh.Backed (svAt l.d x)) ∧
    (mode = 1 -> sh.Backed (svAt l.s2 x') ∧ sh.Backed (svAt l.s2 x))

/-- Where the byte `x` of the mask is the byte `x'` of the destination, and the line writes
both. -/
def MaskLost (sh : SvShape) (mode : Nat) (l : SvLine) (x' x : Nat) : Prop :=
  (mode = 1 ∧ l.s1 ≠ l.d) ∧ svAt l.s2 x = svAt l.d x' ∧
    (sh.Backed (svAt l.d x') ∧ sh.Backed (svAt l.d x)) ∧ sh.Backed (svAt l.s2 x')

def Overlaps (sh : SvShape) (mode n : Nat) (l : SvLine) : Prop :=
  exists x' x, (x' < x ∧ x < n) ∧ (SourceLost sh mode l x' x ∨ MaskLost sh mode l x' x)

/-- The line is moved as a whole, or reads nothing that it has written. -/
def LineSafe (sh : SvShape) (mode n : Nat) (l : SvLine) : Prop :=
  (mode = 0 ∧ sh.InVideo l.s1 n ∧ sh.InVideo l.d n) ∨ ¬ Overlaps sh mode n l

theorem isSome_svPtr_iff {m : SvRam} {a : BitVec 32} {n : Nat} (hn : 0 < n) :
    (svPtr m a n).isSome <-> m.shape.InVideo a n := by
  rw [Option.isSome_iff_exists]
  constructor
  · rintro ⟨i, hptr⟩
    obtain ⟨hmapped, ha, hfits⟩ := (svPtr_eq_some_iff hn).mp hptr
    exact ⟨hmapped, by omega, by omega⟩
  · rintro ⟨hmapped, hlow, hfits⟩
    exact ⟨a.toNat - psvLoSize, (svPtr_eq_some_iff hn).mpr ⟨hmapped, by omega, by omega⟩⟩

theorem moved_iff {mode n : Nat} {l : SvLine} {m : SvRam} (hn : 0 < n) :
    Moved mode n l m <-> mode = 0 ∧ m.shape.InVideo l.s1 n ∧ m.shape.InVideo l.d n := by
  unfold Moved
  rw [isSome_svPtr_iff hn, isSome_svPtr_iff hn]

/-!
## The condition is enough
-/

theorem ne_zero_backed {m : SvRam} {a : BitVec 32} (h : svGet m a ≠ 0) : m.shape.Backed a := by
  by_cases hbacked : m.shape.Backed a
  · exact hbacked
  · exact absurd (svGet_unbacked hbacked) h

variable {sh : SvShape}

theorem svWrites_eq_some {mode : Nat} {l : SvLine} {f : BitVec 32 -> BitVec 8}
    {x : Nat} {v : BitVec 8} (h : svWrites sh mode l f x = some v) :
    ¬ (mode = 1 ∧ f (svAt l.s2 x) = 0) ∧ sh.Backed (svAt l.d x) ∧ v = f (svAt l.s1 x) := by
  unfold svWrites at h
  split at h
  · cases h
  · rename_i hgo
    obtain ⟨hmask, hbacked⟩ := not_or.mp hgo
    exact ⟨hmask, not_not.mp hbacked, (Option.some.inj h).symm⟩

theorem atOnce_self {mode n : Nat} {l : SvLine} (hn : n ≤ 2048)
    (hself : l.s1 = l.d) (f : BitVec 32 -> BitVec 8) :
    atOnce (svAt l.d) (svWrites sh mode l) n f = f := by
  funext a
  rcases atOnce_cases (svWrites sh mode l) (svAt_inj l.d hn) f a with hsame | ⟨x, _, hat, hval⟩
  · exact hsame
  · rw [(svWrites_eq_some hval).2.2, hself, hat]

theorem step_safe {m : SvRam} {mode n x : Nat} {l : SvLine} (hn : n ≤ 2048) (hx : x < n)
    (hsource : forall x', x' < x -> ¬ SourceLost m.shape mode l x' x)
    (hmask : forall x', x' < x -> ¬ MaskLost m.shape mode l x' x) :
    (svWrites m.shape mode l
        (atOnce (svAt l.d) (svWrites m.shape mode l) x (svGet m)) x).getD (svGet m (svAt l.d x)) =
      (svWrites m.shape mode l (svGet m) x).getD (svGet m (svAt l.d x)) := by
  have hxn : x ≤ 2048 := Nat.le_of_lt (Nat.lt_of_lt_of_le hx hn)
  have hinj := svAt_inj l.d hxn
  by_cases hself : l.s1 = l.d
  · rw [atOnce_self hxn hself]
  by_cases hbacked : m.shape.Backed (svAt l.d x)
  · have hstay : mode = 1 ->
        atOnce (svAt l.d) (svWrites m.shape mode l) x (svGet m) (svAt l.s2 x) =
          svGet m (svAt l.s2 x) := by
      intro hmode
      rcases atOnce_cases (svWrites m.shape mode l) hinj (svGet m) (svAt l.s2 x) with
        hsame | ⟨x', hlt, hat, hval⟩
      · exact hsame
      · obtain ⟨hopen, hback', _⟩ := svWrites_eq_some hval
        have hback2 := ne_zero_backed fun h => hopen ⟨hmode, h⟩
        exact absurd ⟨⟨hmode, hself⟩, hat, ⟨hback', hbacked⟩, hback2⟩ (hmask x' hlt)
    by_cases hzero : mode = 1 ∧ svGet m (svAt l.s2 x) = 0
    · unfold svWrites at hstay ⊢
      rw [if_pos (Or.inl hzero), if_pos (Or.inl ⟨hzero.1, (hstay hzero.1).trans hzero.2⟩)]
    · have hread : atOnce (svAt l.d) (svWrites m.shape mode l) x (svGet m) (svAt l.s1 x) =
          svGet m (svAt l.s1 x) := by
        rcases atOnce_cases (svWrites m.shape mode l) hinj (svGet m) (svAt l.s1 x) with
          hsame | ⟨x', hlt, hat, hval⟩
        · exact hsame
        · obtain ⟨hopen, hback', _⟩ := svWrites_eq_some hval
          have hmasks : mode = 1 -> m.shape.Backed (svAt l.s2 x') ∧ m.shape.Backed (svAt l.s2 x) :=
            fun hmode => ⟨ne_zero_backed fun h => hopen ⟨hmode, h⟩,
              ne_zero_backed fun h => hzero ⟨hmode, h⟩⟩
          exact absurd ⟨hat, ⟨hback', hbacked⟩, hmasks⟩ (hsource x' hlt)
      have hopen : ¬ (mode = 1 ∧
          atOnce (svAt l.d) (svWrites m.shape mode l) x (svGet m) (svAt l.s2 x) = 0) :=
        fun h => hzero ⟨h.1, (hstay h.1).symm.trans h.2⟩
      unfold svWrites at hopen hread ⊢
      rw [if_neg (not_or.mpr ⟨hzero, not_not.mpr hbacked⟩),
        if_neg (not_or.mpr ⟨hopen, not_not.mpr hbacked⟩), hread]
  · unfold svWrites
    rw [if_pos (Or.inr hbacked), if_pos (Or.inr hbacked)]

theorem svLine_of_safe {mode n : Nat} {l : SvLine} (hpos : 0 < n) (hn : n ≤ 2048) (m : SvRam)
    (hsafe : LineSafe m.shape mode n l) :
    svGet (svLine mode n l m) = svCopied m.shape mode n l (svGet m) := by
  have hline := (svGet_svLine mode hn l m).2
  rcases hsafe with hmoved | hapart
  · exact hline.1 ((moved_iff hpos).mpr hmoved)
  · by_cases hmoved : Moved mode n l m
    · exact hline.1 hmoved
    · rw [hline.2 hmoved, ← atOnce_svWrites m.shape mode hn l (svGet m)]
      apply (upward_eq_atOnce_iff (svWrites m.shape mode l) (svAt_inj l.d hn) (svGet m)).mpr
      intro x hx
      apply step_safe hn hx
      · exact fun x' hlt hlost => hapart ⟨x', x, ⟨hlt, hx⟩, Or.inl hlost⟩
      · exact fun x' hlt hlost => hapart ⟨x', x, ⟨hlt, hx⟩, Or.inr hlost⟩

/-!
## The condition is needed
-/

def ramOf (sh : SvShape) (f : BitVec 32 -> BitVec 8) : SvRam where
  video :=
    { mapped := sh.mapped
      vram := fun i => f (BitVec.ofNat 32 (psvLoSize + i))
      dirty := fun _ => false
      blk := []
      screenAlloc := 0 }
  hooks := sh.hooks
  low := fun i => f (BitVec.ofNat 32 i)

theorem svGet_ramOf (sh : SvShape) (f : BitVec 32 -> BitVec 8) (a : BitVec 32) :
    svGet (ramOf sh f) a = if sh.Backed a then f a else 0 := by
  have hshape : (ramOf sh f).shape = sh := rfl
  by_cases hbacked : sh.Backed a
  · rw [if_pos hbacked]
    rcases hbacked with ⟨hlow, hhooks⟩ | ⟨⟨hlow, hhigh⟩, hmapped⟩
    · rw [@svGet_low (ramOf sh f) hhooks a hlow]
      change f (BitVec.ofNat 32 a.toNat) = f a
      rw [BitVec.ofNat_toNat, BitVec.setWidth_eq]
    · rw [@svGet_video (ramOf sh f) hmapped a (a.toNat - psvLoSize) (by omega) (by omega)]
      change f (BitVec.ofNat 32 (psvLoSize + (a.toNat - psvLoSize))) = f a
      rw [Nat.add_sub_cancel' hlow, BitVec.ofNat_toNat, BitVec.setWidth_eq]
  · rw [if_neg hbacked]
    exact svGet_unbacked hbacked

theorem step_of_copied {mode n x : Nat} {l : SvLine} {m : SvRam} (hpos : 0 < n) (hn : n ≤ 2048)
    (hmoved : ¬ (mode = 0 ∧ m.shape.InVideo l.s1 n ∧ m.shape.InVideo l.d n))
    (hcopied : svGet (svLine mode n l m) = svCopied m.shape mode n l (svGet m)) (hx : x < n) :
    (svWrites m.shape mode l
        (atOnce (svAt l.d) (svWrites m.shape mode l) x (svGet m)) x).getD (svGet m (svAt l.d x)) =
      (svWrites m.shape mode l (svGet m) x).getD (svGet m (svAt l.d x)) := by
  have hloop := (svGet_svLine mode hn l m).2.2 fun h => hmoved ((moved_iff hpos).mp h)
  rw [hloop, ← atOnce_svWrites m.shape mode hn l (svGet m)] at hcopied
  exact (upward_eq_atOnce_iff (svWrites m.shape mode l) (svAt_inj l.d hn) (svGet m)).mp hcopied x hx

theorem svAt_ne {a : BitVec 32} {n x y : Nat} (hn : n ≤ 2048) (hx : x < n) (hy : y < n)
    (hne : x ≠ y) : svAt a x ≠ svAt a y := fun h => hne (svAt_inj a hn x y hx hy h)

theorem svAt_ne_of_start_ne {a b : BitVec 32} (hne : a ≠ b) (x : Nat) : svAt a x ≠ svAt b x :=
  fun h => hne ((BitVec.add_left_inj (BitVec.ofNat 32 x)).mp h)

theorem svWrites_of_open {mode : Nat} {l : SvLine} {f : BitVec 32 -> BitVec 8}
    {x : Nat} (hopen : ¬ (mode = 1 ∧ f (svAt l.s2 x) = 0)) (hbacked : sh.Backed (svAt l.d x)) :
    svWrites sh mode l f x = some (f (svAt l.s1 x)) := by
  unfold svWrites
  rw [if_neg (not_or.mpr ⟨hopen, not_not.mpr hbacked⟩)]

theorem svWrites_of_shut {mode : Nat} {l : SvLine} {f : BitVec 32 -> BitVec 8}
    {x : Nat} (hshut : mode = 1 ∧ f (svAt l.s2 x) = 0) : svWrites sh mode l f x = none := by
  unfold svWrites
  rw [if_pos (Or.inl hshut)]

theorem source_lost {mode n x' x : Nat} {l : SvLine} (hpos : 0 < n) (hn : n ≤ 2048)
    (hmoved : ¬ (mode = 0 ∧ sh.InVideo l.s1 n ∧ sh.InVideo l.d n)) (hlt : x' < x) (hx : x < n)
    (hlost : SourceLost sh mode l x' x) :
    exists m : SvRam, m.shape = sh ∧
      svGet (svLine mode n l m) ≠ svCopied sh mode n l (svGet m) := by
  obtain ⟨hat, ⟨hback', hback⟩, hmasks⟩ := hlost
  let m := ramOf sh fun a => if a = svAt l.s1 x then 2 else 1
  refine ⟨m, rfl, fun hcopied => ?_⟩
  have hstep := @step_of_copied mode n x l m hpos hn hmoved hcopied hx
  have hxn : x ≤ 2048 := Nat.le_of_lt (Nat.lt_of_lt_of_le hx hn)
  have hinj := svAt_inj l.d hxn
  have hget : forall a, svGet m a = if sh.Backed a then (if a = svAt l.s1 x then 2 else 1) else 0 :=
    svGet_ramOf sh _
  have hnonzero : forall a, sh.Backed a -> svGet m a ≠ 0 := by
    intro a ha
    rw [hget, if_pos ha]
    split <;> decide
  have htwo : forall a, svGet m a = 2 -> a = svAt l.s1 x := by
    intro a ha
    rw [hget] at ha
    split at ha
    · split at ha
      · assumption
      · exact absurd ha (by decide)
    · exact absurd ha (by decide)
  have hsource : svGet m (svAt l.s1 x) = 2 := by
    rw [hget, if_pos (hat ▸ hback'), if_pos rfl]
  have hmeant : svWrites sh mode l (svGet m) x = some 2 := by
    rw [svWrites_of_open (fun h => hnonzero _ (hmasks h.1).2 h.2) hback, hsource]
  have hfirst : atOnce (svAt l.d) (svWrites sh mode l) x (svGet m) (svAt l.s1 x) =
      svGet m (svAt l.s1 x') := by
    rw [hat, atOnce_at (svWrites sh mode l) hinj (svGet m) hlt,
      svWrites_of_open (fun h => hnonzero _ (hmasks h.1).1 h.2) hback']
    rfl
  have hkeep : svGet m (svAt l.d x) ≠ 2 := fun h =>
    svAt_ne hn hx (Nat.lt_trans hlt hx) (Nat.ne_of_gt hlt) ((htwo _ h).trans hat)
  have hother : svGet m (svAt l.s1 x') ≠ 2 := fun h =>
    svAt_ne hn (Nat.lt_trans hlt hx) hx (Nat.ne_of_lt hlt) (htwo _ h)
  change (svWrites sh mode l (atOnce (svAt l.d) (svWrites sh mode l) x (svGet m)) x).getD
    (svGet m (svAt l.d x)) = (svWrites sh mode l (svGet m) x).getD (svGet m (svAt l.d x)) at hstep
  rw [hmeant, Option.getD_some] at hstep
  by_cases hshut : mode = 1 ∧ atOnce (svAt l.d) (svWrites sh mode l) x (svGet m) (svAt l.s2 x) = 0
  · rw [svWrites_of_shut hshut] at hstep
    exact hkeep hstep
  · rw [svWrites_of_open hshut hback, hfirst] at hstep
    exact hother hstep

theorem svAt_cross {a b : BitVec 32} {x y : Nat} (hx : x < 2048) (hy : y < 2048)
    (hxy : svAt a x = svAt b y) (hyx : svAt a y = svAt b x) : x = y := by
  have h1 := congrArg BitVec.toNat hxy
  have h2 := congrArg BitVec.toNat hyx
  unfold svAt at h1 h2
  simp only [BitVec.toNat_add, BitVec.toNat_ofNat] at h1 h2
  omega

theorem mask_lost {mode n x' x : Nat} {l : SvLine} (hpos : 0 < n) (hn : n ≤ 2048)
    (hmoved : ¬ (mode = 0 ∧ sh.InVideo l.s1 n ∧ sh.InVideo l.d n)) (hlt : x' < x) (hx : x < n)
    (hlost : MaskLost sh mode l x' x) :
    exists m : SvRam, m.shape = sh ∧
      svGet (svLine mode n l m) ≠ svCopied sh mode n l (svGet m) := by
  obtain ⟨⟨hmode, hne⟩, hat, ⟨hback', hback⟩, hback2⟩ := hlost
  have hx' : x' < n := Nat.lt_trans hlt hx
  have hxn : x ≤ 2048 := Nat.le_of_lt (Nat.lt_of_lt_of_le hx hn)
  have hinj := svAt_inj l.d hxn
  have hmd : svAt l.s2 x ≠ svAt l.d x := fun h =>
    svAt_ne hn hx' hx (Nat.ne_of_lt hlt) (hat.symm.trans h)
  -- The byte that takes the mask's place is 0 just if there is no memory under it.
  let shut : BitVec 8 := if sh.Backed (svAt l.s1 x') then 0 else 1
  let m := ramOf sh fun a => if a = svAt l.d x then 2 else if a = svAt l.s2 x then shut else 1
  have hget : forall a, svGet m a = if sh.Backed a then
      (if a = svAt l.d x then 2 else if a = svAt l.s2 x then shut else 1) else 0 :=
    svGet_ramOf sh _
  have hshut : shut ≠ 2 := by
    change (if sh.Backed (svAt l.s1 x') then (0 : BitVec 8) else 1) ≠ 2
    split <;> decide
  have htwo : forall a, svGet m a = 2 -> a = svAt l.d x := by
    intro a ha
    rw [hget] at ha
    split at ha
    · split at ha
      · assumption
      · split at ha
        · exact absurd ha hshut
        · exact absurd ha (by decide)
    · exact absurd ha (by decide)
  have hnonzero : forall a, sh.Backed a -> a ≠ svAt l.s2 x -> svGet m a ≠ 0 := by
    intro a ha hmask
    rw [hget, if_pos ha, if_neg hmask]
    split <;> decide
  have hold : svGet m (svAt l.d x) = 2 := by rw [hget, if_pos hback, if_pos rfl]
  have hmask : svGet m (svAt l.s2 x) = shut := by
    rw [hget, if_pos (hat ▸ hback'), if_neg hmd, if_pos rfl]
  have hopen' : ¬ (mode = 1 ∧ svGet m (svAt l.s2 x') = 0) := fun h =>
    hnonzero _ hback2 (svAt_ne hn hx' hx (Nat.ne_of_lt hlt)) h.2
  have hfirst : atOnce (svAt l.d) (svWrites sh mode l) x (svGet m) (svAt l.s2 x) =
      svGet m (svAt l.s1 x') := by
    rw [hat, atOnce_at (svWrites sh mode l) hinj (svGet m) hlt, svWrites_of_open hopen' hback']
    rfl
  refine ⟨m, rfl, fun hcopied => ?_⟩
  have hstep := @step_of_copied mode n x l m hpos hn hmoved hcopied hx
  change (svWrites sh mode l (atOnce (svAt l.d) (svWrites sh mode l) x (svGet m)) x).getD
    (svGet m (svAt l.d x)) = (svWrites sh mode l (svGet m) x).getD (svGet m (svAt l.d x)) at hstep
  by_cases hsource : sh.Backed (svAt l.s1 x')
  · have hzero : shut = 0 := if_pos hsource
    have hmeant : svWrites sh mode l (svGet m) x = none :=
      svWrites_of_shut ⟨hmode, hmask.trans hzero⟩
    have hopen : ¬ (mode = 1 ∧
        atOnce (svAt l.d) (svWrites sh mode l) x (svGet m) (svAt l.s2 x) = 0) := by
      rintro ⟨_, h⟩
      rw [hfirst] at h
      exact hnonzero _ hsource (fun heq => svAt_ne_of_start_ne hne x' (heq.trans hat)) h
    rw [hmeant, svWrites_of_open hopen hback, Option.getD_none, hold, Option.getD_some] at hstep
    rcases atOnce_cases (svWrites sh mode l) hinj (svGet m) (svAt l.s1 x) with
      hsame | ⟨y, hy, hplace, hval⟩
    · exact svAt_ne_of_start_ne hne x (htwo _ (hsame.symm.trans hstep))
    · have hfrom := (svWrites_eq_some hval).2.2
      have hcross := htwo _ (hfrom.symm.trans hstep)
      have heq := svAt_cross (Nat.lt_of_lt_of_le hx hn)
        (Nat.lt_of_lt_of_le (Nat.lt_trans hy hx) hn) hplace hcross
      exact Nat.ne_of_gt hy heq
  · have hone : shut = 1 := if_neg hsource
    have hmeant : svWrites sh mode l (svGet m) x = some (svGet m (svAt l.s1 x)) := by
      apply svWrites_of_open _ hback
      rintro ⟨_, h⟩
      rw [hmask, hone] at h
      exact absurd h (by decide)
    have hclosed : svWrites sh mode l
        (atOnce (svAt l.d) (svWrites sh mode l) x (svGet m)) x = none := by
      apply svWrites_of_shut
      refine ⟨hmode, hfirst.trans ?_⟩
      rw [hget, if_neg hsource]
    rw [hmeant, hclosed, Option.getD_none, hold, Option.getD_some] at hstep
    exact svAt_ne_of_start_ne hne x (htwo _ hstep.symm)

/-- A line is copied as it was when it started, whatever the memory holds, just if it is
safe. -/
theorem svLine_iff {mode n : Nat} {l : SvLine} (hpos : 0 < n) (hn : n ≤ 2048) :
    (forall m : SvRam, m.shape = sh ->
        svGet (svLine mode n l m) = svCopied sh mode n l (svGet m)) <->
      LineSafe sh mode n l := by
  constructor
  · intro hall
    by_cases hmoved : mode = 0 ∧ sh.InVideo l.s1 n ∧ sh.InVideo l.d n
    · exact Or.inl hmoved
    · right
      rintro ⟨x', x, ⟨hlt, hx⟩, hsource | hmask⟩
      · obtain ⟨m, hshape, hdiff⟩ := source_lost hpos hn hmoved hlt hx hsource
        exact hdiff (hall m hshape)
      · obtain ⟨m, hshape, hdiff⟩ := mask_lost hpos hn hmoved hlt hx hmask
        exact hdiff (hall m hshape)
  · rintro hsafe m rfl
    exact svLine_of_safe hpos hn m hsafe

/-!
## Blits
-/

def lineAt (r : SvRegs) (y : Nat) : SvLine := (svNext r)^[y] (svStart r)

def svCopiedLines (sh : SvShape) (r : SvRegs) :
    Nat -> SvLine -> (BitVec 32 -> BitVec 8) -> BitVec 32 -> BitVec 8
  | 0, _, f => f
  | lines + 1, l, f =>
      svCopiedLines sh r lines (svNext r l) (svCopied sh (svMode r) (svCount r) l f)

theorem svCount_range (r : SvRegs) : 0 < svCount r ∧ svCount r ≤ 2048 := by
  have hmask : (r svbCount &&& 0x7FF).toNat ≤ 0x7FF := by
    rw [BitVec.toNat_and]
    exact Nat.and_le_right
  unfold svCount
  rw [BitVec.toNat_add, Nat.mod_eq_of_lt]
  · exact ⟨Nat.succ_pos _, Nat.succ_le_succ hmask⟩
  · exact Nat.lt_of_le_of_lt (Nat.succ_le_succ hmask) (by decide)

theorem svblitLines_of_safe {r : SvRegs} {lines : Nat} {l : SvLine} (m : SvRam)
    (hsafe : forall y, y < lines ->
      LineSafe m.shape (svMode r) (svCount r) ((svNext r)^[y] l)) :
    svGet (svblitLines r lines l m) = svCopiedLines m.shape r lines l (svGet m) := by
  induction lines generalizing l m with
  | zero => rfl
  | succ lines ih =>
      have hline := svLine_of_safe (svCount_range r).1 (svCount_range r).2 m
        (hsafe 0 (Nat.succ_pos lines))
      have hshape := (svGet_svLine (svMode r) (svCount_range r).2 l m).1
      unfold svblitLines svCopiedLines
      rw [ih (svLine (svMode r) (svCount r) l m), hshape]
      · exact congrArg (svCopiedLines m.shape r lines (svNext r l)) hline
      · intro y hy
        rw [hshape]
        exact hsafe (y + 1) (Nat.succ_lt_succ hy)

/-- Every line of a blit is copied as it was when the line started, whatever the memory held
then, just if every line is safe; and then so is the blit. -/
theorem svblit_lines_iff (r : SvRegs) (sh : SvShape) :
    ((forall y, y < svLines r -> forall m : SvRam, m.shape = sh ->
          svGet (svLine (svMode r) (svCount r) (lineAt r y) m) =
            svCopied sh (svMode r) (svCount r) (lineAt r y) (svGet m)) <->
        forall y, y < svLines r -> LineSafe sh (svMode r) (svCount r) (lineAt r y)) ∧
      ((forall y, y < svLines r -> LineSafe sh (svMode r) (svCount r) (lineAt r y)) ->
        forall m : SvRam, m.shape = sh ->
          svGet (svblitRun (r, m)).2 =
            svCopiedLines sh r (svLines r) (svStart r) (svGet m)) := by
  constructor
  · apply forall_congr'
    intro y
    apply forall_congr'
    intro _
    exact svLine_iff (svCount_range r).1 (svCount_range r).2
  · rintro hsafe m rfl
    exact svblitLines_of_safe m hsafe

def scrollUp : SvRegs := fun o =>
  if o = svbDst then 1 else if o = svbCount then 1 else if o = svbLines then 1 else 0

/-- The second byte is the first, which has been written over it. -/
theorem not_svblit_copies :
    svGet (svblitRun (scrollUp, ramOf ⟨true, true⟩ fun a => a.setWidth 8)).2 ≠
      svCopiedLines ⟨true, true⟩ scrollUp (svLines scrollUp) (svStart scrollUp)
        (svGet (ramOf ⟨true, true⟩ fun a => a.setWidth 8)) := by
  intro hsame
  have hbyte := congrFun hsame 2
  exact absurd hbyte (by decide +kernel)

end Psvidel
end PistormAtari
