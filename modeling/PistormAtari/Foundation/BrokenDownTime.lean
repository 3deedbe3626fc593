/-!
# Broken-down time

Seconds as the fields of a time in the Gregorian calendar, and back.  Fields that are out of
their range are carried, as in C.
-/

namespace PistormAtari
namespace Foundation

/-!
## Months
-/

/-- The day on which a month begins, from 1 January 1970.  Months are counted from January of
the year 0, and the sum is over the years that begin in March. -/
def monthStart (k : Int) : Int :=
  365 * ((k - 2) / 12) + (k - 2) / 12 / 4 - (k - 2) / 12 / 100 + (k - 2) / 12 / 400 +
    (153 * ((k - 2) % 12) + 2) / 5 - 719468

def monthLength (k : Int) : Int := monthStart (k + 1) - monthStart k

theorem monthStart_eq (k y m : Int) (h : k - 2 = 12 * y + m) (hlo : 0 ≤ m) (hhi : m < 12) :
    monthStart k = 365 * y + y / 4 - y / 100 + y / 400 + (153 * m + 2) / 5 - 719468 := by
  have hy : (k - 2) / 12 = y := by omega
  have hm : (k - 2) % 12 = m := by omega
  unfold monthStart
  rw [hy, hm]

theorem monthLength_bounds (k : Int) : 28 ≤ monthLength k ∧ monthLength k ≤ 31 := by
  obtain ⟨y, m, hk, hlo, hhi⟩ : exists y m : Int, k - 2 = 12 * y + m ∧ 0 ≤ m ∧ m < 12 :=
    ⟨(k - 2) / 12, (k - 2) % 12, by omega, by omega, by omega⟩
  have hthis := monthStart_eq k y m hk hlo hhi
  unfold monthLength
  by_cases hlast : m = 11
  · have hnext := monthStart_eq (k + 1) (y + 1) 0 (by omega) (by omega) (by omega)
    rw [hthis, hnext, hlast]
    omega
  · have hnext := monthStart_eq (k + 1) y (m + 1) (by omega) (by omega) (by omega)
    rw [hthis, hnext]
    omega

theorem monthStart_apart {j k : Int} (h : j < k) : monthStart j + 28 ≤ monthStart k := by
  obtain ⟨n, hn⟩ : exists n : Nat, k = j + 1 + n := ⟨(k - j - 1).toNat, by omega⟩
  subst hn
  induction n with
  | zero =>
      have hlen := (monthLength_bounds j).1
      unfold monthLength at hlen
      rw [Int.natCast_zero, Int.add_zero]
      omega
  | succ n ih =>
      have hlen := (monthLength_bounds (j + 1 + n)).1
      have hbefore := ih (by omega)
      have hnext : j + 1 + ((n + 1 : Nat) : Int) = j + 1 + n + 1 := by omega
      unfold monthLength at hlen
      rw [hnext]
      omega

theorem monthStart_near (k : Int) :
    -9012 ≤ 4800 * (monthStart k + 719468) - 146097 * (k - 2) ∧
      4800 * (monthStart k + 719468) - 146097 * (k - 2) ≤ 13989 := by
  obtain ⟨y, m, hk, hlo, hhi⟩ : exists y m : Int, k - 2 = 12 * y + m ∧ 0 ≤ m ∧ m < 12 :=
    ⟨(k - 2) / 12, (k - 2) % 12, by omega, by omega, by omega⟩
  have hyears : -7092 ≤ 4800 * (y / 4 - y / 100 + y / 400) - 1164 * y ∧
      4800 * (y / 4 - y / 100 + y / 400) - 1164 * y ≤ 3456 := by
    omega
  have hmonths : -1920 ≤ 4800 * ((153 * m + 2) / 5) - 146097 * m ∧
      4800 * ((153 * m + 2) / 5) - 146097 * m ≤ 10533 := by
    omega
  rw [monthStart_eq k y m hk hlo hhi, hk]
  omega

/-- The month of a day: a guess that is off by one at most. -/
def monthOf (d : Int) : Int :=
  let k := 4800 * (d + 719468) / 146097 + 2
  if d < monthStart k then k - 1 else if monthStart (k + 1) ≤ d then k + 1 else k

theorem monthOf_spec (d : Int) : monthStart (monthOf d) ≤ d ∧ d < monthStart (monthOf d + 1) := by
  unfold monthOf
  dsimp only
  obtain ⟨k, hk⟩ : exists k, k = 4800 * (d + 719468) / 146097 + 2 := ⟨_, rfl⟩
  have hguess : 146097 * (k - 2) ≤ 4800 * (d + 719468) ∧
      4800 * (d + 719468) < 146097 * (k - 2) + 146097 := by
    omega
  rw [← hk]
  split
  · rename_i hbefore
    have hnear := monthStart_near (k - 1)
    have hnext : k - 1 + 1 = k := by omega
    rw [hnext]
    exact ⟨by omega, hbefore⟩
  · rename_i hstart
    split
    · rename_i hafter
      have hnear := monthStart_near (k + 1 + 1)
      exact ⟨hafter, by omega⟩
    · rename_i hin
      exact ⟨by omega, by omega⟩

theorem monthOf_eq {d k : Int} (hlo : monthStart k ≤ d) (hhi : d < monthStart (k + 1)) :
    monthOf d = k := by
  obtain ⟨hlo', hhi'⟩ := monthOf_spec d
  rcases Int.lt_trichotomy (monthOf d) k with hlt | heq | hgt
  · have hle : monthStart (monthOf d + 1) ≤ monthStart k := by
      rcases Int.lt_or_eq_of_le (Int.add_one_le_of_lt hlt) with h | h
      · have hapart := monthStart_apart h
        omega
      · exact Int.le_of_eq (congrArg monthStart h)
    omega
  · exact heq
  · have hle : monthStart (k + 1) ≤ monthStart (monthOf d) := by
      rcases Int.lt_or_eq_of_le (Int.add_one_le_of_lt hgt) with h | h
      · have hapart := monthStart_apart h
        omega
      · exact Int.le_of_eq (congrArg monthStart h)
    omega

/-!
## Broken-down time
-/

/-- The fields of a time: months from 0, years from 1900. -/
structure Tm where
  sec : Int
  min : Int
  hour : Int
  mday : Int
  mon : Int
  year : Int
deriving DecidableEq

def Tm.month (t : Tm) : Int := 12 * (t.year + 1900) + t.mon

def Tm.day (t : Tm) : Int := monthStart t.month + t.mday - 1

/-- The seconds from 1 January 1970 that the fields make, whether or not they are in range. -/
def Tm.seconds (t : Tm) : Int := ((t.day * 24 + t.hour) * 60 + t.min) * 60 + t.sec

def Tm.wday (t : Tm) : Int := (t.day + 4) % 7

structure Tm.Proper (t : Tm) : Prop where
  sec : 0 ≤ t.sec ∧ t.sec < 60
  min : 0 ≤ t.min ∧ t.min < 60
  hour : 0 ≤ t.hour ∧ t.hour < 24
  mday : 1 ≤ t.mday ∧ t.mday ≤ monthLength t.month
  mon : 0 ≤ t.mon ∧ t.mon < 12

def Tm.ofSeconds (s : Int) : Tm where
  sec := s % 60
  min := s / 60 % 60
  hour := s / 3600 % 24
  mday := s / 86400 - monthStart (monthOf (s / 86400)) + 1
  mon := monthOf (s / 86400) % 12
  year := monthOf (s / 86400) / 12 - 1900

theorem Tm.month_ofSeconds (s : Int) : (Tm.ofSeconds s).month = monthOf (s / 86400) := by
  change 12 * (monthOf (s / 86400) / 12 - 1900 + 1900) + monthOf (s / 86400) % 12 = _
  omega

theorem Tm.ofSeconds_proper (s : Int) : (Tm.ofSeconds s).Proper := by
  obtain ⟨hlo, hhi⟩ := monthOf_spec (s / 86400)
  constructor
  · change 0 ≤ s % 60 ∧ s % 60 < 60
    omega
  · change 0 ≤ s / 60 % 60 ∧ s / 60 % 60 < 60
    omega
  · change 0 ≤ s / 3600 % 24 ∧ s / 3600 % 24 < 24
    omega
  · rw [Tm.month_ofSeconds]
    unfold monthLength
    change 1 ≤ s / 86400 - monthStart (monthOf (s / 86400)) + 1 ∧
      s / 86400 - monthStart (monthOf (s / 86400)) + 1 ≤ _
    omega
  · change 0 ≤ monthOf (s / 86400) % 12 ∧ monthOf (s / 86400) % 12 < 12
    omega

theorem Tm.seconds_ofSeconds (s : Int) : (Tm.ofSeconds s).seconds = s := by
  have hday : (Tm.ofSeconds s).day = s / 86400 := by
    unfold Tm.day
    rw [Tm.month_ofSeconds]
    change _ + (s / 86400 - monthStart (monthOf (s / 86400)) + 1) - 1 = _
    omega
  unfold Tm.seconds
  rw [hday]
  change ((s / 86400 * 24 + s / 3600 % 24) * 60 + s / 60 % 60) * 60 + s % 60 = s
  omega

theorem Tm.ofSeconds_seconds {t : Tm} (h : t.Proper) : Tm.ofSeconds t.seconds = t := by
  obtain ⟨hsec, hmin, hhour, hmday, hmon⟩ := h
  have hday : t.seconds / 86400 = t.day := by
    unfold Tm.seconds
    omega
  have hmonth : monthOf t.day = t.month := by
    unfold monthLength at hmday
    apply monthOf_eq <;> unfold Tm.day <;> omega
  have hsec' : t.seconds % 60 = t.sec := by
    unfold Tm.seconds
    omega
  have hmin' : t.seconds / 60 % 60 = t.min := by
    unfold Tm.seconds
    omega
  have hhour' : t.seconds / 3600 % 24 = t.hour := by
    unfold Tm.seconds
    omega
  have hmday' : t.day - monthStart t.month + 1 = t.mday := by
    unfold Tm.day
    omega
  have hmon' : t.month % 12 = t.mon := by
    unfold Tm.month
    omega
  have hyear' : t.month / 12 - 1900 = t.year := by
    unfold Tm.month
    omega
  unfold Tm.ofSeconds
  rw [hday, hmonth, hsec', hmin', hhour', hmday', hmon', hyear']

/-- Two times whose fields lie near each other are the same when they make the same seconds. -/
theorem Tm.eq_of_near {t u : Tm} (hsec : -60 < u.sec - t.sec ∧ u.sec - t.sec < 60)
    (hmin : -60 < u.min - t.min ∧ u.min - t.min < 60)
    (hhour : -24 < u.hour - t.hour ∧ u.hour - t.hour < 24)
    (hmday : -28 < u.mday - t.mday ∧ u.mday - t.mday < 28)
    (hmon : -12 < u.mon - t.mon ∧ u.mon - t.mon < 12) (h : u.seconds = t.seconds) : u = t := by
  unfold Tm.seconds at h
  have hsec' : u.sec = t.sec := by omega
  have hmin' : u.min = t.min := by omega
  have hhour' : u.hour = t.hour := by omega
  have hday : u.day = t.day := by omega
  unfold Tm.day at hday
  have hmonth : u.month = t.month := by
    rcases Int.lt_trichotomy u.month t.month with hlt | heq | hgt
    · have hapart := monthStart_apart hlt
      omega
    · exact heq
    · have hapart := monthStart_apart hgt
      omega
  have hmday' : u.mday = t.mday := by
    rw [hmonth] at hday
    omega
  unfold Tm.month at hmonth
  have hmon' : u.mon = t.mon := by omega
  have hyear' : u.year = t.year := by omega
  cases u
  cases t
  dsimp only at hsec' hmin' hhour' hmday' hmon' hyear'
  rw [hsec', hmin', hhour', hmday', hmon', hyear']

end Foundation
end PistormAtari
