import PistormAtari.Falcon.Rtc

/-!
# The settings of the clock that keep its other fields

A byte that is encoded in one mode and decoded in another tells the same value just if it is
small.  The hour is encoded without the half of the day when the running clock is taken.
-/

namespace PistormAtari
namespace Falcon

open Foundation

/-!
## Bytes that are decoded in another mode
-/

def plainBound (m m' : RtcMode) : Int :=
  if m.dm then (if m'.dm then 256 else 16) else if m'.dm then 10 else 160

def Plain (m m' : RtcMode) (n : Int) : Prop := 0 ≤ n ∧ n < plainBound m m'

instance (m m' : RtcMode) (n : Int) : Decidable (Plain m m' n) := inferInstanceAs (Decidable (_ ∧ _))

theorem rtcIn_bounds (m : RtcMode) (v : BitVec 8) : 0 ≤ rtcIn m v ∧ rtcIn m v < 256 := by
  have hv := v.isLt
  have hlow : (v &&& 0x0F).toNat ≤ 15 := by
    rw [BitVec.toNat_and]
    exact Nat.and_le_right
  have hhigh : ((v >>> 4) &&& 0x0F).toNat ≤ 15 := by
    rw [BitVec.toNat_and]
    exact Nat.and_le_right
  unfold rtcIn
  split <;> omega

theorem byte_plain_iff : forall dm dm' : Bool, forall k : Nat, k < 256 ->
    (rtcIn ⟨dm', true⟩ (rtcOut ⟨dm, true⟩ k) = k ↔ Plain ⟨dm, true⟩ ⟨dm', true⟩ k) := by
  decide +kernel

variable (m m' : RtcMode)

theorem rtcIn_rtcOut_iff (n : Int) :
    rtcIn m' (rtcOut m n) = n ↔ Plain m m' n := by
  by_cases hn : 0 ≤ n ∧ n < 256
  · obtain ⟨k, rfl⟩ := Int.eq_ofNat_of_zero_le hn.1
    exact byte_plain_iff m.dm m'.dm k (by omega)
  · have hbounds := rtcIn_bounds m' (rtcOut m n)
    constructor
    · intro heq
      omega
    · intro hplain
      have hbound : plainBound m m' ≤ 256 := by
        unfold plainBound
        split <;> split <;> omega
      unfold Plain at hplain
      omega

theorem byte_near : forall dm dm' : Bool, forall k : Nat, k < 60 ->
    -(6 * ((k : Int) / 16)) ≤ rtcIn ⟨dm', true⟩ (rtcOut ⟨dm, true⟩ k) - k ∧
      rtcIn ⟨dm', true⟩ (rtcOut ⟨dm, true⟩ k) - k ≤ 6 * ((k : Int) / 10) := by
  decide +kernel

theorem rtcIn_near {n : Int} (hlo : 0 ≤ n) (hhi : n < 60) :
    -(6 * (n / 16)) ≤ rtcIn m' (rtcOut m n) - n ∧ rtcIn m' (rtcOut m n) - n ≤ 6 * (n / 10) := by
  obtain ⟨k, rfl⟩ := Int.eq_ofNat_of_zero_le hlo
  exact byte_near m.dm m'.dm k (by omega)

/-!
## Fields that are decoded in another mode
-/

/-- An hour that is encoded in the first mode is told again in the second. -/
def HourReads (m m' : RtcMode) (hour : Int) : Prop :=
  if m.h24 then Plain m m' hour ∧ (m'.h24 = false -> hour < 12)
  else Plain m m' (twelve hour) ∧ (m'.h24 = true -> twelve hour = hour)

instance (m m' : RtcMode) (hour : Int) : Decidable (HourReads m m' hour) := by
  unfold HourReads
  infer_instance

/-- A field that is encoded in the first mode is told again in the second. -/
def Reads (m m' : RtcMode) (t : Tm) : TimeField -> Prop
  | .sec => Plain m m' t.sec
  | .min => Plain m m' t.min
  | .hour => HourReads m m' t.hour
  | .wday => True
  | .mday => Plain m m' t.mday
  | .mon => Plain m m' (t.mon + 1)
  | .year => Plain m m' (t.year - 68)

def fieldIn (m : RtcMode) (v : BitVec 8) : TimeField -> Int
  | .sec => rtcIn m v
  | .min => rtcIn m v
  | .hour => hourIn m v
  | .wday => 0
  | .mday => rtcIn m v
  | .mon => rtcIn m v - 1
  | .year => rtcIn m v + 68

theorem hour_told : forall dm h24 dm' h24' : Bool, forall k : Nat, k < 24 ->
    (hourIn ⟨dm', h24'⟩ (hourOut ⟨dm, h24⟩ k) = k ↔ HourReads ⟨dm, h24⟩ ⟨dm', h24'⟩ k) ∧
      -24 < hourIn ⟨dm', h24'⟩ (hourOut ⟨dm, h24⟩ k) - k ∧
      hourIn ⟨dm', h24'⟩ (hourOut ⟨dm, h24⟩ k) - k < 24 := by
  decide +kernel

theorem fieldIn_shown_iff {t : Tm} (ht : t.Proper) (g : TimeField) :
    fieldIn m' (shown m t g) g = fieldOf t g ↔ Reads m m' t g := by
  cases g with
  | sec => exact rtcIn_rtcOut_iff m m' t.sec
  | min => exact rtcIn_rtcOut_iff m m' t.min
  | hour =>
      obtain ⟨k, hk⟩ := Int.eq_ofNat_of_zero_le ht.hour.1
      have hlt : k < 24 := by
        have hhour := ht.hour.2
        omega
      have htold := (hour_told m.dm m.h24 m'.dm m'.h24 k hlt).1
      rw [← hk] at htold
      exact htold
  | wday => exact ⟨fun _ => trivial, fun _ => rfl⟩
  | mday => exact rtcIn_rtcOut_iff m m' t.mday
  | mon =>
      have htold := rtcIn_rtcOut_iff m m' (t.mon + 1)
      change rtcIn m' (rtcOut m (t.mon + 1)) - 1 = t.mon ↔ Plain m m' (t.mon + 1)
      rw [← htold]
      omega
  | year =>
      have htold := rtcIn_rtcOut_iff m m' (t.year - 68)
      change rtcIn m' (rtcOut m (t.year - 68)) + 68 = t.year ↔ Plain m m' (t.year - 68)
      rw [← htold]
      omega

/-- The distance within which a field is told, which is less than what is carried. -/
def span : TimeField -> Int
  | .sec => 60
  | .min => 60
  | .hour => 24
  | .wday => 1
  | .mday => 28
  | .mon => 12
  | .year => 0

theorem fieldIn_near {t : Tm} (ht : t.Proper) {g : TimeField} (hg : g ≠ .year) :
    -span g < fieldIn m' (shown m t g) g - fieldOf t g ∧
      fieldIn m' (shown m t g) g - fieldOf t g < span g := by
  cases g with
  | sec =>
      have hsec := ht.sec
      have hnear := rtcIn_near m m' hsec.1 hsec.2
      change -60 < rtcIn m' (rtcOut m t.sec) - t.sec ∧ rtcIn m' (rtcOut m t.sec) - t.sec < 60
      omega
  | min =>
      have hmin := ht.min
      have hnear := rtcIn_near m m' hmin.1 hmin.2
      change -60 < rtcIn m' (rtcOut m t.min) - t.min ∧ rtcIn m' (rtcOut m t.min) - t.min < 60
      omega
  | hour =>
      obtain ⟨k, hk⟩ := Int.eq_ofNat_of_zero_le ht.hour.1
      have hlt : k < 24 := by
        have hhour := ht.hour.2
        omega
      have htold := (hour_told m.dm m.h24 m'.dm m'.h24 k hlt).2
      rw [← hk] at htold
      exact htold
  | wday =>
      change -1 < (0 : Int) - 0 ∧ (0 : Int) - 0 < 1
      decide
  | mday =>
      have hmonth := (monthLength_bounds t.month).2
      have hmday := ht.mday
      have hnear := @rtcIn_near m m' t.mday (by omega) (by omega)
      change -28 < rtcIn m' (rtcOut m t.mday) - t.mday ∧
        rtcIn m' (rtcOut m t.mday) - t.mday < 28
      omega
  | mon =>
      have hmon := ht.mon
      have hnear := @rtcIn_near m m' (t.mon + 1) (by omega) (by omega)
      change -12 < rtcIn m' (rtcOut m (t.mon + 1)) - 1 - t.mon ∧
        rtcIn m' (rtcOut m (t.mon + 1)) - 1 - t.mon < 12
      omega
  | year => exact absurd rfl hg

/-!
## A time that is set
-/

theorem tm_ext {t u : Tm} (h : forall g, fieldOf u g = fieldOf t g) : u = t := by
  have hsec : u.sec = t.sec := h .sec
  have hmin : u.min = t.min := h .min
  have hhour : u.hour = t.hour := h .hour
  have hmday : u.mday = t.mday := h .mday
  have hmon : u.mon = t.mon := h .mon
  have hyear : u.year = t.year := h .year
  cases u
  cases t
  dsimp only at hsec hmin hhour hmday hmon hyear
  rw [hsec, hmin, hhour, hmday, hmon, hyear]

theorem OnlyField.eq {f : TimeField} {t t' : Tm} (h : OnlyField f t t') :
    t' = withField t (fieldOf t' f) f := by
  apply tm_ext
  intro g
  by_cases hg : g = f
  · subst hg
    cases g <;> rfl
  · rw [h g hg]
    cases f <;> cases g <;> first | rfl | exact absurd rfl hg

theorem onlyField_withField (t : Tm) (n : Int) (f : TimeField) : OnlyField f t (withField t n f) := by
  intro g hg
  cases f <;> cases g <;> first | rfl | exact absurd rfl hg

theorem fieldOf_setTm (m : RtcMode) (set : Nat -> BitVec 8) (g : TimeField) :
    fieldOf (setTm m set) g = fieldIn m (set g.reg) g := by
  cases g <;> rfl

theorem tm_eq_of_near {t u : Tm} (hnear : forall g, g ≠ .year ->
    -span g < fieldOf u g - fieldOf t g ∧ fieldOf u g - fieldOf t g < span g)
    (h : u.seconds = t.seconds) : u = t :=
  Tm.eq_of_near (hnear .sec (by decide)) (hnear .min (by decide)) (hnear .hour (by decide))
    (hnear .mday (by decide)) (hnear .mon (by decide)) h

/-- The snapshot shows the hours of the 24-hour clock, whatever the mode. -/
def snapMode (m : RtcMode) : RtcMode := ⟨m.dm, true⟩

theorem snapshot_reg (m : RtcMode) (t : Tm) (set : Nat -> BitVec 8) {g : TimeField}
    (hg : g ≠ .wday) : snapshot m t set g.reg = shown (snapMode m) t g := by
  cases g with
  | wday => exact absurd rfl hg
  | sec => rfl
  | min => rfl
  | hour => rfl
  | mday => rfl
  | mon => rfl
  | year => rfl

/-- A field `f` is written as `v`: the others are told as they were, and `v` is a value of the
field that makes a proper time and is told again. -/
def SetsField (r m m' : RtcMode) (t : Tm) (f : TimeField) (v : BitVec 8) : Prop :=
  (forall g, g ≠ f -> Reads (snapMode m) m' t g) ∧
    exists n, (withField t n f).Proper ∧ v = shown r (withField t n f) f ∧
      Reads r m' (withField t n f) f

theorem setsField_iff (r m m' : RtcMode) {t : Tm} (ht : t.Proper) (f : TimeField) (v : BitVec 8)
    (set : Nat -> BitVec 8) :
    (OnlyField f t
        (Tm.ofSeconds (setTm m' (Function.update (snapshot m t set) f.reg v)).seconds) ∧
      shown r (Tm.ofSeconds (setTm m' (Function.update (snapshot m t set) f.reg v)).seconds) f =
        v) ↔
      SetsField r m m' t f v := by
  let told := setTm m' (Function.update (snapshot m t set) f.reg v)
  have hself : fieldOf told f = fieldIn m' v f := by
    rw [fieldOf_setTm, Function.update_self]
  have hother : forall g, g ≠ f -> fieldOf told g = fieldIn m' (shown (snapMode m) t g) g := by
    intro g hg
    have hreg : g.reg ≠ f.reg := by
      cases g <;> cases f <;> first | exact absurd rfl hg | decide
    rw [fieldOf_setTm, Function.update_of_ne hreg]
    by_cases hday : g = .wday
    · subst hday
      rfl
    · rw [snapshot_reg m t set hday]
  change (OnlyField f t (Tm.ofSeconds told.seconds) ∧ shown r (Tm.ofSeconds told.seconds) f = v) ↔ _
  constructor
  · rintro ⟨honly, hshown⟩
    have hproper := Tm.ofSeconds_proper told.seconds
    have htold : told = Tm.ofSeconds told.seconds := by
      refine tm_eq_of_near ?_ (Tm.seconds_ofSeconds told.seconds).symm
      intro g hg
      by_cases hgf : g = f
      · subst hgf
        rw [hself, ← hshown]
        exact fieldIn_near r m' hproper hg
      · rw [hother g hgf, honly g hgf]
        exact fieldIn_near (snapMode m) m' ht hg
    rw [← htold] at honly hshown hproper
    refine ⟨?_, fieldOf told f, ?_⟩
    · intro g hg
      rw [← fieldIn_shown_iff (snapMode m) m' ht g, ← hother g hg]
      exact honly g hg
    · rw [← honly.eq]
      refine ⟨hproper, hshown.symm, ?_⟩
      rw [← fieldIn_shown_iff r m' hproper f, hshown]
      exact hself.symm
  · rintro ⟨hreads, n, hproper, hv, hread⟩
    have htold : told = withField t n f := by
      apply tm_ext
      intro g
      by_cases hgf : g = f
      · subst hgf
        rw [hself, hv]
        exact (fieldIn_shown_iff r m' hproper g).mpr hread
      · rw [hother g hgf, onlyField_withField t n f g hgf]
        exact (fieldIn_shown_iff (snapMode m) m' ht g).mpr (hreads g hgf)
    rw [htold, Tm.ofSeconds_seconds hproper]
    exact ⟨onlyField_withField t n f, hv.symm⟩

theorem snapshot_seconds_iff {t : Tm} (ht : t.Proper) (set : Nat -> BitVec 8) :
    (setTm m' (snapshot m t set)).seconds = t.seconds ↔
      forall g, Reads (snapMode m) m' t g := by
  let told := setTm m' (snapshot m t set)
  have htold : forall g, fieldOf told g = fieldIn m' (shown (snapMode m) t g) g := by
    intro g
    rw [fieldOf_setTm]
    by_cases hday : g = .wday
    · subst hday
      rfl
    · rw [snapshot_reg m t set hday]
  constructor
  · intro h
    have heq : told = t := by
      refine tm_eq_of_near ?_ h
      intro g hg
      rw [htold]
      exact fieldIn_near (snapMode m) m' ht hg
    intro g
    rw [← fieldIn_shown_iff (snapMode m) m' ht g, ← htold, heq]
  · intro hreads
    have heq : told = t := by
      apply tm_ext
      intro g
      rw [htold]
      exact (fieldIn_shown_iff (snapMode m) m' ht g).mpr (hreads g)
    change told.seconds = _
    rw [heq]

/-!
## The settings
-/

theorem rtcMode_withoutSet (b : BitVec 8) : rtcMode (withoutSet b) = rtcMode b := by
  unfold rtcMode withoutSet
  simp

theorem withSet_set (b : BitVec 8) : (withSet b).getLsbD 7 = true := by
  unfold withSet
  simp

theorem withoutSet_set (b : BitVec 8) : (withoutSet b).getLsbD 7 = false := by
  unfold withoutSet
  simp

section
variable (zone : Int ≃ Int) (now : Int)

theorem rtcWrite_field (f : TimeField) (v : BitVec 8) (s : Rtc) :
    rtcWrite zone now f.reg v s =
      if s.frozen = false then
        rtcCommitSet zone now
          { s with set := Function.update (snapshot s.mode (rtcNow zone now s) s.set) f.reg v }
      else { s with set := Function.update s.set f.reg v } := by
  cases f <;> rfl

theorem rtcWrite_freeze {s : Rtc} (b : BitVec 8) (hrun : s.frozen = false) :
    rtcWrite zone now 11 (withSet b) s =
      { s with
        rtc := Function.update s.rtc 11 (withSet b)
        set := snapshot s.mode (rtcNow zone now s) s.set } := by
  change (if s.frozen = true ∧ (withSet b).getLsbD 7 = false then _ else _) = _
  rw [if_neg (by rw [hrun]; simp), if_pos ⟨withSet_set b, hrun⟩]

theorem rtcWrite_release {s : Rtc} (b : BitVec 8) (hset : s.frozen = true) :
    rtcWrite zone now 11 (withoutSet b) s =
      rtcCommitSet zone now { s with rtc := Function.update s.rtc 11 (withoutSet b) } := by
  change (if s.frozen = true ∧ (withoutSet b).getLsbD 7 = false then _ else _) = _
  rw [if_pos ⟨hset, withoutSet_set b⟩, if_neg (by rw [hset]; simp)]

theorem rtcWrite_mode {s : Rtc} (b : BitVec 8) (hrun : s.frozen = false) :
    rtcWrite zone now 11 (withoutSet b) s =
      { s with rtc := Function.update s.rtc 11 (withoutSet b) } := by
  change (if s.frozen = true ∧ (withoutSet b).getLsbD 7 = false then _ else _) = _
  rw [if_neg (by rw [hrun]; simp), if_neg (by rw [withoutSet_set]; simp)]

theorem rtcRead_field (f : TimeField) (s : Rtc) :
    (rtcRead zone now f.reg s).1 = shown s.mode (rtcNow zone now s) f := by
  cases f <;> rfl

theorem guestTime_commit (s : Rtc) :
    guestTime now (rtcCommitSet zone now s) =
      if mktime zone (setTm s.mode s.set) = -1 then guestTime now s
      else mktime zone (setTm s.mode s.set) := by
  unfold rtcCommitSet
  dsimp only
  by_cases hfail : mktime zone (setTm s.mode s.set) = -1
  · rw [if_neg (not_not.mpr hfail), if_pos hfail]
  · rw [if_pos hfail, if_neg hfail]
    unfold guestTime
    dsimp only
    omega

theorem rtc_commit (s : Rtc) : (rtcCommitSet zone now s).rtc = s.rtc := by
  unfold rtcCommitSet
  dsimp only
  split <;> rfl

theorem localtime_mktime (t : Tm) : localtime zone (mktime zone t) = Tm.ofSeconds t.seconds := by
  unfold localtime mktime
  rw [Equiv.apply_symm_apply]

theorem rtcNow_proper (s : Rtc) : (rtcNow zone now s).Proper := Tm.ofSeconds_proper _

/-- When the field that is set is all that changes, and is read back.  -1 is not set. -/
def FieldMeets (r m' : RtcMode) (s : Rtc) (f : TimeField) (v : BitVec 8) : Prop :=
  let t := rtcNow zone now s
  if mktime zone (setTm m' (Function.update (snapshot s.mode t s.set) f.reg v)) = -1 then
    shown r t f = v
  else SetsField r s.mode m' t f v

def MeetsClock (r : BitVec 8) (s : Rtc) : ClockSetting -> Prop
  | .atOnce f v => FieldMeets zone now (rtcMode r) s.mode s f v
  | .underSet _ f v b' => FieldMeets zone now (rtcMode r) (rtcMode b') s f v
  | .untouched _ b' =>
      mktime zone (setTm (rtcMode b') (snapshot s.mode (rtcNow zone now s) s.set)) = -1 ∨
        forall g, Reads (snapMode s.mode) (rtcMode b') (rtcNow zone now s) g

theorem fieldMeets_iff (r m' : RtcMode) {s u : Rtc} (f : TimeField) (v : BitVec 8)
    (hoffset : u.offset = s.offset) (hmode : u.mode = m')
    (hfields : u.set = Function.update (snapshot s.mode (rtcNow zone now s) s.set) f.reg v) :
    (OnlyField f (rtcNow zone now s) (rtcNow zone now (rtcCommitSet zone now u)) ∧
      shown r (rtcNow zone now (rtcCommitSet zone now u)) f = v) ↔
      FieldMeets zone now r m' s f v := by
  have htime := guestTime_commit zone now u
  have hbefore : guestTime now u = guestTime now s := by
    unfold guestTime
    rw [hoffset]
  rw [hmode, hfields, hbefore] at htime
  unfold FieldMeets
  dsimp only
  by_cases hfail : mktime zone
      (setTm m' (Function.update (snapshot s.mode (rtcNow zone now s) s.set) f.reg v)) = -1
  · rw [if_pos hfail] at htime ⊢
    have hsame : rtcNow zone now (rtcCommitSet zone now u) = rtcNow zone now s := by
      unfold rtcNow
      rw [htime]
    rw [hsame]
    exact ⟨fun h => h.2, fun h => ⟨fun g _ => rfl, h⟩⟩
  · rw [if_neg hfail] at htime ⊢
    have hnew : rtcNow zone now (rtcCommitSet zone now u) = Tm.ofSeconds (setTm m'
        (Function.update (snapshot s.mode (rtcNow zone now s) s.set) f.reg v)).seconds := by
      unfold rtcNow
      rw [htime]
      exact localtime_mktime zone _
    rw [hnew]
    exact setsField_iff r s.mode m' (rtcNow_proper zone now s) f v s.set

theorem reads_after {u : Rtc} (r : BitVec 8) (f : TimeField) (hrun : u.frozen = false) :
    (rtcRead zone now f.reg (rtcWrite zone now 11 (withoutSet r) u)).1 =
      shown (rtcMode r) (rtcNow zone now u) f := by
  rw [rtcWrite_mode zone now r hrun, rtcRead_field]
  have hmode : Rtc.mode { u with rtc := Function.update u.rtc 11 (withoutSet r) } = rtcMode r := by
    unfold Rtc.mode
    dsimp only
    rw [Function.update_self, rtcMode_withoutSet]
  rw [hmode]
  rfl

/-- A setting keeps the rest of the clock and is read back just when its bytes are told again. -/
theorem keepsClock_iff (r : BitVec 8) (s : Rtc) (c : ClockSetting) (hrun : s.frozen = false) :
    KeepsClock zone now r s c ↔ MeetsClock zone now r s c := by
  cases c with
  | atOnce f v =>
      have hset : setClock zone now s (.atOnce f v) = rtcCommitSet zone now
          { s with set := Function.update (snapshot s.mode (rtcNow zone now s) s.set) f.reg v } := by
        change rtcWrite zone now f.reg v s = _
        rw [rtcWrite_field, if_pos hrun]
      have hrun' : (setClock zone now s (.atOnce f v)).frozen = false := by
        rw [hset]
        unfold Rtc.frozen
        rw [rtc_commit]
        exact hrun
      unfold KeepsClock
      dsimp only
      rw [reads_after zone now r f hrun', hset]
      exact fieldMeets_iff zone now (rtcMode r) s.mode f v rfl rfl rfl
  | underSet b f v b' =>
      let frozen : Rtc := { s with
        rtc := Function.update s.rtc 11 (withSet b)
        set := snapshot s.mode (rtcNow zone now s) s.set }
      let written : Rtc := { frozen with set := Function.update frozen.set f.reg v }
      let released : Rtc := { written with rtc := Function.update written.rtc 11 (withoutSet b') }
      have hfrozen : frozen.frozen = true := by
        have hset : frozen.rtc 11 = withSet b :=
          Function.update_self 11 (withSet b) s.rtc
        unfold Rtc.frozen
        rw [hset]
        exact withSet_set b
      have hreg : released.rtc 11 = withoutSet b' :=
        Function.update_self 11 (withoutSet b') frozen.rtc
      have hset : setClock zone now s (.underSet b f v b') = rtcCommitSet zone now released := by
        change rtcWrite zone now 11 (withoutSet b')
          (rtcWrite zone now f.reg v (rtcWrite zone now 11 (withSet b) s)) = _
        rw [rtcWrite_freeze zone now b hrun, rtcWrite_field, if_neg (by rw [hfrozen]; simp)]
        exact rtcWrite_release zone now b' hfrozen
      have hrun' : (setClock zone now s (.underSet b f v b')).frozen = false := by
        rw [hset]
        unfold Rtc.frozen
        rw [rtc_commit, hreg]
        exact withoutSet_set b'
      have hmode : released.mode = rtcMode b' := by
        unfold Rtc.mode
        rw [hreg, rtcMode_withoutSet]
      unfold KeepsClock
      dsimp only
      rw [reads_after zone now r f hrun', hset]
      exact fieldMeets_iff zone now (rtcMode r) (rtcMode b') f v rfl hmode rfl
  | untouched b b' =>
      let frozen : Rtc := { s with
        rtc := Function.update s.rtc 11 (withSet b)
        set := snapshot s.mode (rtcNow zone now s) s.set }
      let released : Rtc := { frozen with rtc := Function.update frozen.rtc 11 (withoutSet b') }
      have hfrozen : frozen.frozen = true := by
        have hset : frozen.rtc 11 = withSet b :=
          Function.update_self 11 (withSet b) s.rtc
        unfold Rtc.frozen
        rw [hset]
        exact withSet_set b
      have hset : setClock zone now s (.untouched b b') = rtcCommitSet zone now released := by
        change rtcWrite zone now 11 (withoutSet b') (rtcWrite zone now 11 (withSet b) s) = _
        rw [rtcWrite_freeze zone now b hrun]
        exact rtcWrite_release zone now b' hfrozen
      have hreg : released.rtc 11 = withoutSet b' :=
        Function.update_self 11 (withoutSet b') frozen.rtc
      have hmode : released.mode = rtcMode b' := by
        unfold Rtc.mode
        rw [hreg, rtcMode_withoutSet]
      have htime := guestTime_commit zone now released
      have hbefore : guestTime now released = guestTime now s := rfl
      rw [hmode, hbefore] at htime
      change guestTime now (setClock zone now s (.untouched b b')) = guestTime now s ↔
        mktime zone (setTm (rtcMode b') (snapshot s.mode (rtcNow zone now s) s.set)) = -1 ∨
          forall g, Reads (snapMode s.mode) (rtcMode b') (rtcNow zone now s) g
      rw [hset, htime, ← snapshot_seconds_iff s.mode (rtcMode b') (rtcNow_proper zone now s) s.set]
      change (if mktime zone (setTm (rtcMode b') (snapshot s.mode (rtcNow zone now s) s.set)) = -1
        then guestTime now s
        else mktime zone (setTm (rtcMode b') (snapshot s.mode (rtcNow zone now s) s.set))) =
          guestTime now s ↔ _
      by_cases hfail :
          mktime zone (setTm (rtcMode b') (snapshot s.mode (rtcNow zone now s) s.set)) = -1
      · rw [if_pos hfail]
        exact ⟨fun _ => Or.inl hfail, fun _ => rfl⟩
      · have hseconds : (rtcNow zone now s).seconds = zone (guestTime now s) :=
          Tm.seconds_ofSeconds _
        rw [if_neg hfail, hseconds, or_iff_right hfail]
        unfold mktime
        exact Equiv.symm_apply_eq zone

end

/-- The clock at one in the afternoon, in binary on the 12-hour clock. -/
def afternoon : Rtc := ⟨Function.update (fun _ => 0) 11 0x04, 13 * 3600, fun _ => 0⟩

/-- A minute that is set under SET in the morning, on the 24-hour clock. -/
theorem keepsClock_iff_minute :
    KeepsClock (Equiv.refl Int) 0 0x06 ⟨Function.update (fun _ => 0) 11 0x06, 0, fun _ => 0⟩
        (.underSet 0x06 .min 5 0x06) ↔
      MeetsClock (Equiv.refl Int) 0 0x06 ⟨Function.update (fun _ => 0) 11 0x06, 0, fun _ => 0⟩
        (.underSet 0x06 .min 5 0x06) :=
  keepsClock_iff (Equiv.refl Int) 0 0x06 _ _ rfl

/-- SET alone takes the afternoon to the morning. -/
theorem not_keepsClock :
    ¬ KeepsClock (Equiv.refl Int) 0 0x04 afternoon (.untouched 0x04 0x04) := by
  change ¬ guestTime 0 (setClock (Equiv.refl Int) 0 afternoon (.untouched 0x04 0x04)) =
    guestTime 0 afternoon
  decide +kernel

end Falcon
end PistormAtari
