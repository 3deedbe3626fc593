import Mathlib
import PistormAtari.Setup.JitRules

/-!
# Following an edit of the JIT's keys

An edit of {lit}`jit_power` or {lit}`cpu_compatible` and the run of {lit}`sp_jit_follow`
after it restore the rules.  A second run finds nothing to do unless the first one made
room in a full file.
-/

namespace PistormAtari
namespace Setup

open Foundation

/-!
## The edit
-/

section
variable {c : Cfg} {sec k : Text}

theorem length_insert_filter_le {q : Line -> Bool} (pos : Nat) (s t : Text) :
    ((c.insert pos s t).2.line.filter q).length ≤ (c.line.filter q).length + 1 := by
  rw [insert_line]
  split
  · exact Nat.le_succ _
  · have hsplit : (c.line.filter q).length =
        ((c.line.take pos).filter q).length + ((c.line.drop pos).filter q).length := by
      rw [← List.length_append, ← List.filter_append, List.take_append_drop]
    dsimp only
    rw [List.filter_append, List.filter_cons, List.length_append, hsplit]
    split
    · rw [List.length_cons]
      lia
    · lia

theorem at_addLine_le (h : c.at sec k = []) (v : Text) :
    ((c.addLine (loweredTo secLen sec) k v).2.at sec k).length ≤ 1 := by
  have hs : loweredTo secLen (loweredTo secLen sec) = loweredTo secLen sec :=
    loweredTo_loweredTo (by decide) sec
  have hnone : c.line.filter (Line.sets (loweredTo secLen sec) k) = [] := h
  unfold Cfg.addLine
  dsimp only
  cases c.sectionEnd (loweredTo secLen sec) with
  | some pos =>
      have hle := length_insert_filter_le (c := c) (q := Line.sets (loweredTo secLen sec) k) pos
        (loweredTo secLen sec) (keyText k v)
      rw [hnone] at hle
      dsimp only
      rw [if_neg (by decide)]
      split
      · exact hle
      · exact hle
  | none =>
      have hkept : (scAddSection c (loweredTo secLen sec)).2.line.filter
          (Line.sets (loweredTo secLen sec) k) = [] := by
        rw [← hnone]
        apply scAddSection_filter _ hs
        intro l _ hkey
        exact decide_eq_false fun hall => hall.1 hkey
      have hle := length_insert_filter_le (c := (scAddSection c (loweredTo secLen sec)).2)
        (q := Line.sets (loweredTo secLen sec) k)
        (scAddSection c (loweredTo secLen sec)).2.line.length (loweredTo secLen sec) (keyText k v)
      rw [hkept] at hle
      dsimp only
      split
      · show ((scAddSection c (loweredTo secLen sec)).2.line.filter
          (Line.sets (loweredTo secLen sec) k)).length ≤ 1
        rw [hkept]
        exact Nat.zero_le 1
      · split
        · exact hle
        · exact hle

theorem at_scSet_le (hk : PlainKey k) (honce : (c.at sec k).length ≤ 1) (val : Option Text) :
    ((scSet c sec k val).2.at sec k).length ≤ 1 := by
  cases val with
  | none =>
      rw [(scSet_remove hk honce).1]
      exact Nat.zero_le 1
  | some v =>
      by_cases hnone : c.at sec k = []
      · rw [scSet_absent hk hnone]
        exact at_addLine_le hnone v
      · rcases (scSet_change hk honce hnone v).1 with ⟨l, hone, _⟩
        rw [hone]
        exact le_refl 1

theorem JitOnce.scSet (honce : JitOnce c sec) (hk : PlainKey k) (val : Option Text) :
    JitOnce (scSet c sec k val).2 sec := by
  have hkey : forall k', (c.at sec k').length ≤ 1 ->
      ((Setup.scSet c sec k val).2.at sec k').length ≤ 1 := by
    intro k' hold
    by_cases heq : k' = k
    · rw [heq] at hold ⊢
      exact at_scSet_le hk hold val
    · rw [at_scSet_other hk heq]
      exact hold
  exact ⟨hkey _ honce.power, hkey _ honce.cache, hkey _ honce.compatible, hkey _ honce.speed⟩

/-!
## The prefetch-accurate core
-/

def powerZeroed (c : Cfg) (sec : Text) : Cfg :=
  if jitIsOff c sec = true then c else (scSet c sec jitPower (some "0".toList)).2

def speedAdded (c : Cfg) (sec : Text) : Cfg :=
  if (scGet c sec cpuSpeed).isSome = true then c
  else (scSet c sec cpuSpeed (some "8mhz".toList)).2

theorem offForPrefetch_eq : offForPrefetch c sec = speedAdded (powerZeroed c sec) sec := rfl

theorem powerZeroed_other {k' : Text} (hne : k' ≠ jitPower) :
    (powerZeroed c sec).at sec k' = c.at sec k' := by
  unfold powerZeroed
  split
  · rfl
  · exact at_scSet_other plain_jitPower hne _

theorem speedAdded_other {k' : Text} (hne : k' ≠ cpuSpeed) :
    (speedAdded c sec).at sec k' = c.at sec k' := by
  unfold speedAdded
  split
  · rfl
  · exact at_scSet_other plain_cpuSpeed hne _

theorem offForPrefetch_other {k' : Text} (hpower : k' ≠ jitPower) (hspeed : k' ≠ cpuSpeed) :
    (offForPrefetch c sec).at sec k' = c.at sec k' := by
  rw [offForPrefetch_eq, speedAdded_other hspeed, powerZeroed_other hpower]

theorem JitOnce.offForPrefetch (honce : JitOnce c sec) : JitOnce (offForPrefetch c sec) sec := by
  have hzeroed : JitOnce (powerZeroed c sec) sec := by
    unfold powerZeroed
    split
    · exact honce
    · exact honce.scSet plain_jitPower _
  rw [offForPrefetch_eq]
  unfold speedAdded
  split
  · exact hzeroed
  · exact hzeroed.scSet plain_cpuSpeed _

theorem offForPrefetch_otherLine :
    (offForPrefetch c sec).line.filter (otherLine sec) = c.line.filter (otherLine sec) := by
  have hzeroed : (powerZeroed c sec).line.filter (otherLine sec) =
      c.line.filter (otherLine sec) := by
    unfold powerZeroed
    split
    · rfl
    · exact scSet_otherLine plain_jitPower (Or.inl rfl) _
  rw [offForPrefetch_eq, ← hzeroed]
  unfold speedAdded
  split
  · rfl
  · exact scSet_otherLine plain_cpuSpeed (Or.inr (Or.inr (Or.inr rfl))) _

def missing (c : Cfg) (sec k : Text) : Nat := if c.at sec k = [] then 1 else 0

theorem powerZeroed_on (hc : c.Cached) (honce : JitOnce c sec) (hsec : c.HasSection sec)
    (hon : jitIsOff c sec = false) :
    if maxLines < c.line.length + missing c sec jitPower then powerZeroed c sec = c
    else
      (powerZeroed c sec).line.length = c.line.length + missing c sec jitPower ∧
        jitIsOff (powerZeroed c sec) sec = true := by
  have hset : powerZeroed c sec = (scSet c sec jitPower (some "0".toList)).2 := by
    unfold powerZeroed
    rw [hon, if_neg (by decide)]
  have hroom := hc.room
  have htext : keyText jitPower "0".toList = "jit_power 0".toList := rfl
  rw [hset]
  unfold missing
  by_cases hnone : c.at sec jitPower = []
  · have hadd := scSet_add plain_jitPower hnone hsec "0".toList
    rw [if_pos hnone]
    by_cases hfull : maxLines ≤ c.line.length
    · rw [if_pos hfull] at hadd
      rw [if_pos (Nat.lt_succ_of_le hfull), hadd]
    · rw [if_neg hfull] at hadd
      rcases hadd.1 with ⟨l, hat, hl⟩
      rw [if_neg (by lia)]
      exact ⟨hadd.2, jitIsOff_zero hat hl⟩
  · rcases scSet_change plain_jitPower honce.power hnone "0".toList with ⟨⟨l, hat, hl⟩, hlen⟩
    rw [if_neg hnone, if_neg (by lia)]
    exact ⟨hlen, jitIsOff_zero hat (hl.trans htext)⟩

/-- {lit}`cpu_speed` is there afterwards unless the file is full. -/
theorem speedAdded_none (hc : c.HasSection sec) (h : c.at sec cpuSpeed = []) :
    if maxLines ≤ c.line.length then speedAdded c sec = c
    else (speedAdded c sec).at sec cpuSpeed ≠ [] := by
  have hset : speedAdded c sec = (scSet c sec cpuSpeed (some "8mhz".toList)).2 := by
    unfold speedAdded
    rw [if_neg]
    rw [scGet_isSome_iff plain_cpuSpeed]
    exact fun hsome => hsome h
  have hadd := scSet_add plain_cpuSpeed h hc "8mhz".toList
  rw [hset]
  split
  · next hfull =>
    rw [if_pos hfull] at hadd
    rw [hadd]
  · next hroom =>
    rw [if_neg hroom] at hadd
    rcases hadd.1 with ⟨l, hat, _⟩
    rw [hat]
    exact List.cons_ne_nil _ _

theorem speedAdded_some (h : c.at sec cpuSpeed ≠ []) : speedAdded c sec = c := by
  unfold speedAdded
  exact if_pos ((scGet_isSome_iff plain_cpuSpeed).mpr h)

/-- The core is asked for, the JIT is on with its cache, and the line that
{lit}`jit_power 0` may need fills the file. -/
def FillsUp (c : Cfg) (sec : Text) : Prop :=
  c.at sec jitCache ≠ [] ∧ c.line.length + missing c sec jitPower = maxLines

theorem Cfg.Cached.powerZeroed (hc : c.Cached) (sec : Text) : (powerZeroed c sec).Cached := by
  unfold Setup.powerZeroed
  split
  · exact hc
  · exact hc.scSet plain_jitPower _

theorem offForPrefetch_starved_iff (hc : c.Cached) (honce : JitOnce c sec)
    (hoff : jitIsOff c sec = true -> c.at sec jitCache = [])
    (hon : jitIsOff c sec = false -> c.at sec cpuSpeed = [])
    (hcompatible : c.at sec cpuCompatible ≠ []) :
    (jitIsOff (offForPrefetch c sec) sec = true ∧ (offForPrefetch c sec).at sec cpuSpeed = [] ∧
      (offForPrefetch c sec).at sec jitCache ≠ []) <-> FillsUp c sec := by
  have hsec : c.HasSection sec := hasSection_of_at hc hcompatible
  have hsec' : (powerZeroed c sec).HasSection sec := by
    refine hasSection_of_at (k := cpuCompatible) (hc.powerZeroed sec) ?_
    rw [powerZeroed_other (by decide)]
    exact hcompatible
  have hcache : (offForPrefetch c sec).at sec jitCache = c.at sec jitCache :=
    offForPrefetch_other (by decide) (by decide)
  have hjit : jitIsOff (offForPrefetch c sec) sec = jitIsOff (powerZeroed c sec) sec :=
    jitIsOff_congr (speedAdded_other (by decide))
  rw [hcache, hjit, offForPrefetch_eq]
  unfold FillsUp
  constructor
  · rintro ⟨hzero, hspeed, hstays⟩
    have hwas : jitIsOff c sec = false := by
      by_contra hno
      exact hstays (hoff (by simpa using hno))
    have hnone : (powerZeroed c sec).at sec cpuSpeed = [] := by
      rw [powerZeroed_other (by decide)]
      exact hon hwas
    have hadded := speedAdded_none hsec' hnone
    have hzeroed := powerZeroed_on hc honce hsec hwas
    refine ⟨hstays, ?_⟩
    split at hzeroed
    · rw [hzeroed, hwas] at hzero
      cases hzero
    · next hroom =>
      split at hadded
      · next hfull =>
        rw [hzeroed.1] at hfull
        exact Nat.le_antisymm (Nat.not_lt.mp hroom) hfull
      · exact absurd hspeed hadded
  · rintro ⟨hstays, hfills⟩
    have hwas : jitIsOff c sec = false := by
      by_contra hno
      exact hstays (hoff (by simpa using hno))
    have hnone : (powerZeroed c sec).at sec cpuSpeed = [] := by
      rw [powerZeroed_other (by decide)]
      exact hon hwas
    have hadded := speedAdded_none hsec' hnone
    have hzeroed := powerZeroed_on hc honce hsec hwas
    rw [if_neg (by rw [hfills]; exact lt_irrefl _)] at hzeroed
    rw [if_pos (by rw [hzeroed.1, hfills])] at hadded
    refine ⟨hzeroed.2, ?_, hstays⟩
    rw [hadded]
    exact hnone

theorem offForPrefetch_full (hc : c.Cached) (hcompatible : c.at sec cpuCompatible ≠ [])
    (h : (offForPrefetch c sec).at sec cpuSpeed = []) :
    (offForPrefetch c sec).line.length = maxLines := by
  have hcached := hc.powerZeroed sec
  have hsec : (powerZeroed c sec).HasSection sec := by
    refine hasSection_of_at (k := cpuCompatible) hcached ?_
    rw [powerZeroed_other (by decide)]
    exact hcompatible
  rw [offForPrefetch_eq] at h ⊢
  by_cases hnone : (powerZeroed c sec).at sec cpuSpeed = []
  · have hadded := speedAdded_none hsec hnone
    split at hadded
    · next hfull =>
      rw [hadded]
      exact Nat.le_antisymm hcached.room hfull
    · exact absurd h hadded
  · rw [speedAdded_some hnone] at h
    exact absurd h hnone

/-!
## The run and the next one
-/

/-- The file after {lit}`sp_jit_follow` for {lit}`cpu_compatible`. -/
def compatibleFollowed (c : Cfg) (sec : Text) : Cfg :=
  if compatibleOn c sec = true then powerChanged (offForPrefetch c sec) sec else c

theorem powerZeroed_off (h : jitIsOff c sec = true) : powerZeroed c sec = c := by
  unfold powerZeroed
  exact if_pos h

theorem powerChanged_speed_off (h : jitIsOff c sec = true) :
    (powerChanged c sec).at sec cpuSpeed = c.at sec cpuSpeed := by
  unfold powerChanged
  rw [jitIsOff_congr cacheDropped_power, h, if_pos rfl]
  exact cacheDropped_other (by decide)

theorem compatibleFollowed_again (hc : c.Cached) (honce : JitOnce c sec)
    (hcompatible : compatibleOn c sec = true)
    (hfull : c.at sec cpuSpeed = [] -> c.line.length = maxLines) :
    compatibleFollowed (powerChanged c sec) sec = powerChanged c sec <->
      ¬ (jitIsOff c sec = true ∧ c.at sec cpuSpeed = [] ∧ c.at sec jitCache ≠ []) := by
  rcases powerChanged_settles honce with ⟨hrules, hagain⟩
  cases hjit : jitIsOff c sec with
  | false =>
      have hpower : (powerChanged c sec).at sec jitPower = c.at sec jitPower := by
        unfold powerChanged
        split
        · exact cacheDropped_power
        · exact (interpreterDropped_other (by decide) (by decide)).trans cacheDropped_power
      have hoff : compatibleOn (powerChanged c sec) sec = false :=
        (hrules.on ((jitIsOff_congr hpower).trans hjit)).2
      have hsame : compatibleFollowed (powerChanged c sec) sec = powerChanged c sec := by
        unfold compatibleFollowed
        rw [hoff]
        exact if_neg (by decide)
      exact ⟨fun _ hall => (by cases hall.1), fun _ => hsame⟩
  | true =>
      have hpower : jitIsOff (cacheDropped c sec) sec = true :=
        (jitIsOff_congr cacheDropped_power).trans hjit
      have hend : powerChanged c sec = cacheDropped c sec := by
        unfold powerChanged
        rw [hpower, if_pos rfl]
      have hspeed : (cacheDropped c sec).at sec cpuSpeed = c.at sec cpuSpeed :=
        cacheDropped_other (by decide)
      have hcc : (cacheDropped c sec).at sec cpuCompatible = c.at sec cpuCompatible :=
        cacheDropped_other (by decide)
      have hsome : (cacheDropped c sec).at sec cpuCompatible ≠ [] := by
        rw [hcc]
        exact at_of_compatibleOn hcompatible
      have hrun : compatibleFollowed (cacheDropped c sec) sec =
          powerChanged (speedAdded (cacheDropped c sec) sec) sec := by
        unfold compatibleFollowed
        rw [compatibleOn_congr hcc, hcompatible, if_pos rfl, offForPrefetch_eq,
          powerZeroed_off hpower]
      have hcached : (cacheDropped c sec).Cached := by
        unfold cacheDropped
        split
        · exact hc.scSet plain_jitCache none
        · exact hc
      rcases cacheDropped_cache honce (Or.inr hjit) with ⟨_, hlen⟩
      rw [hend] at hagain ⊢
      rw [hrun]
      by_cases hnone : c.at sec cpuSpeed = []
      · have hadded := speedAdded_none (hasSection_of_at hcached hsome) (hspeed.trans hnone)
        have hlines := hfull hnone
        by_cases hcache : c.at sec jitCache = []
        · rw [hcache, hlines] at hlen
          have hstill : maxLines ≤ (cacheDropped c sec).line.length := le_of_eq hlen.symm
          rw [if_pos hstill] at hadded
          rw [hadded]
          exact ⟨fun _ hall => hall.2.2 hcache, fun _ => hagain⟩
        · have hpos := List.length_pos_iff.mpr hcache
          have hroom : ¬ maxLines ≤ (cacheDropped c sec).line.length := by
            rw [← hlines, ← hlen]
            exact Nat.not_le.mpr (Nat.lt_add_of_pos_right hpos)
          rw [if_neg hroom] at hadded
          refine ⟨fun hsame => ?_, fun hall => absurd ⟨rfl, hnone, hcache⟩ hall⟩
          -- the cache's line made room, so the next run adds the speed's
          have hstill : jitIsOff (speedAdded (cacheDropped c sec) sec) sec = true := by
            rw [jitIsOff_congr (speedAdded_other (by decide))]
            exact hpower
          have hnext := powerChanged_speed_off hstill
          rw [hsame, hspeed, hnone] at hnext
          exact absurd hnext.symm hadded
      · have hkept : speedAdded (cacheDropped c sec) sec = cacheDropped c sec := by
          apply speedAdded_some
          rw [hspeed]
          exact hnone
        rw [hkept]
        exact ⟨fun _ hall => hnone hall.2.1, fun _ => hagain⟩

theorem Cfg.Cached.offForPrefetch (hc : c.Cached) : (offForPrefetch c sec).Cached := by
  have hzeroed := hc.powerZeroed sec
  rw [offForPrefetch_eq]
  unfold speedAdded
  split
  · exact hzeroed
  · exact hzeroed.scSet plain_cpuSpeed _

theorem compatibleFollowed_settles (hc : c.Cached) (honce : JitOnce c sec)
    (hoff : jitIsOff c sec = true -> c.at sec jitCache = [])
    (hon : jitIsOff c sec = false -> c.at sec cpuSpeed = []) :
    JitRules (compatibleFollowed c sec) sec ∧
      (compatibleFollowed c sec).line.filter (otherLine sec) = c.line.filter (otherLine sec) ∧
      (compatibleFollowed (compatibleFollowed c sec) sec = compatibleFollowed c sec <->
        ¬ (compatibleOn c sec = true ∧ FillsUp c sec)) := by
  cases hcompatible : compatibleOn c sec with
  | false =>
      have hsame : compatibleFollowed c sec = c := by
        unfold compatibleFollowed
        rw [hcompatible]
        exact if_neg (by decide)
      rw [hsame, hsame]
      refine ⟨⟨hoff, fun h => ⟨hon h, hcompatible⟩⟩, rfl, ?_⟩
      exact ⟨fun _ hall => (by cases hall.1), fun _ => rfl⟩
  | true =>
      have hsome := at_of_compatibleOn hcompatible
      have hrun : compatibleFollowed c sec = powerChanged (offForPrefetch c sec) sec := by
        unfold compatibleFollowed
        rw [hcompatible, if_pos rfl]
      have hstill : compatibleOn (offForPrefetch c sec) sec = true :=
        (compatibleOn_congr (offForPrefetch_other (by decide) (by decide))).trans hcompatible
      rw [hrun]
      refine ⟨(powerChanged_settles honce.offForPrefetch).1,
        powerChanged_otherLine.trans offForPrefetch_otherLine, ?_⟩
      rw [compatibleFollowed_again hc.offForPrefetch honce.offForPrefetch hstill
        (offForPrefetch_full hc hsome), offForPrefetch_starved_iff hc honce hoff hon hsome]
      exact not_congr ⟨fun h => ⟨rfl, h⟩, fun h => h.2⟩

theorem spJitFollow_followed (n : Nat) :
    (spJitFollow c sec cpuCompatible n).1 = compatibleFollowed c sec :=
  spJitFollow_compatible c sec n

/-!
## The edit and the run
-/

/-- The core is asked for while the JIT's cache has its line, and with the lines that
{lit}`cpu_compatible` and {lit}`jit_power` still need the file is exactly full. -/
def Starved (c : Cfg) (sec key : Text) (val : Option Text) : Prop :=
  key = cpuCompatible ∧
    (exists v, val = some v ∧
      spRowOn cpuCompatible (lineValue (keyText cpuCompatible v)) = true) ∧
    c.at sec jitCache ≠ [] ∧
    c.line.length + missing c sec cpuCompatible + missing c sec jitPower = maxLines

theorem compatibleOn_of_at {l : Line} (h : c.at sec cpuCompatible = [l]) :
    compatibleOn c sec = spRowOn cpuCompatible (lineValue l.text) := by
  unfold compatibleOn
  rw [scGet_at plain_cpuCompatible, h]
  rfl

theorem compatibleOn_none (h : c.at sec cpuCompatible = []) : compatibleOn c sec = false := by
  unfold compatibleOn
  rw [scGet_at plain_cpuCompatible, h]
  rfl

theorem starved_iff (hc : c.Cached) (honce : JitOnce c sec) (val : Option Text) :
    (compatibleOn (scSet c sec cpuCompatible val).2 sec = true ∧
      FillsUp (scSet c sec cpuCompatible val).2 sec) <-> Starved c sec cpuCompatible val := by
  have hcache : (scSet c sec cpuCompatible val).2.at sec jitCache = c.at sec jitCache :=
    at_scSet_other plain_cpuCompatible (by decide) val
  have hpower : missing (scSet c sec cpuCompatible val).2 sec jitPower =
      missing c sec jitPower := by
    unfold missing
    rw [at_scSet_other plain_cpuCompatible (by decide)]
  unfold FillsUp Starved
  rw [hcache, hpower]
  cases val with
  | none =>
      rw [compatibleOn_none (scSet_remove plain_cpuCompatible honce.compatible).1]
      constructor
      · rintro ⟨hon, _⟩
        cases hon
      · rintro ⟨_, ⟨v, hv, _⟩, _⟩
        cases hv
  | some v =>
      by_cases hstays : c.at sec jitCache = []
      · exact ⟨fun h => absurd hstays h.2.1, fun h => absurd hstays h.2.2.1⟩
      · by_cases hnone : c.at sec cpuCompatible = []
        · have hadd := scSet_add plain_cpuCompatible hnone (hasSection_of_at hc hstays) v
          have hone : missing c sec cpuCompatible = 1 := if_pos hnone
          rw [hone]
          split at hadd
          · next hfull =>
            rw [hadd, compatibleOn_none hnone]
            constructor
            · rintro ⟨hon, _⟩
              cases hon
            · rintro ⟨_, _, _, hlen⟩
              lia
          · rcases hadd with ⟨⟨l, hat, hl⟩, hlen⟩
            have htext : l.text = keyText cpuCompatible v :=
              hl.trans (bounded_short (bounded_length (by decide) _))
            rw [compatibleOn_of_at hat, htext, hlen]
            exact ⟨fun h => ⟨rfl, ⟨v, rfl, h.1⟩, h.2⟩, fun h => by
              rcases h with ⟨_, ⟨v', hv, hon⟩, hrest⟩
              rw [Option.some.inj hv]
              exact ⟨hon, hrest⟩⟩
        · rcases scSet_change plain_cpuCompatible honce.compatible hnone v with ⟨⟨l, hat, hl⟩, hlen⟩
          have hzero : missing c sec cpuCompatible = 0 := if_neg hnone
          rw [compatibleOn_of_at hat, hl, hlen, hzero]
          exact ⟨fun h => ⟨rfl, ⟨v, rfl, h.1⟩, h.2⟩, fun h => by
            rcases h with ⟨_, ⟨v', hv, hon⟩, hrest⟩
            rw [Option.some.inj hv]
            exact ⟨hon, hrest⟩⟩

theorem rules_scSet_compatible (hrules : JitRules c sec) (val : Option Text) :
    (jitIsOff (scSet c sec cpuCompatible val).2 sec = true ->
        (scSet c sec cpuCompatible val).2.at sec jitCache = []) ∧
      (jitIsOff (scSet c sec cpuCompatible val).2 sec = false ->
        (scSet c sec cpuCompatible val).2.at sec cpuSpeed = []) := by
  have hother : forall k', k' ≠ cpuCompatible ->
      (scSet c sec cpuCompatible val).2.at sec k' = c.at sec k' :=
    fun k' hne => at_scSet_other plain_cpuCompatible hne val
  rw [jitIsOff_congr (hother jitPower (by decide)), hother jitCache (by decide),
    hother cpuSpeed (by decide)]
  exact ⟨hrules.off, fun h => (hrules.on h).1⟩

theorem powerFollowed_settles (honce : JitOnce c sec) (val : Option Text) (n m : Nat) :
    JitRules (spJitFollow (scSet c sec jitPower val).2 sec jitPower n).1 sec ∧
      (spJitFollow (scSet c sec jitPower val).2 sec jitPower n).1.line.filter (otherLine sec) =
        c.line.filter (otherLine sec) ∧
      (spJitFollow (spJitFollow (scSet c sec jitPower val).2 sec jitPower n).1 sec jitPower m).1 =
        (spJitFollow (scSet c sec jitPower val).2 sec jitPower n).1 := by
  rw [spJitFollow_power, spJitFollow_power]
  rcases powerChanged_settles (honce.scSet plain_jitPower val) with ⟨hrules, hagain⟩
  exact ⟨hrules, powerChanged_otherLine.trans (scSet_otherLine plain_jitPower (Or.inl rfl) val),
    hagain⟩

/-- Setting or removing {lit}`jit_power` or {lit}`cpu_compatible` and following the edit
restores the rules, keeps every other line, and leaves nothing for a second run, exactly
when the edit does not starve {lit}`cpu_speed` of its line. -/
theorem jitFollow_settles_iff {key : Text} (hc : c.Cached) (honce : JitOnce c sec)
    (hrules : JitRules c sec) (hkey : key = jitPower ∨ key = cpuCompatible)
    (val : Option Text) (n m : Nat) :
    (JitRules (spJitFollow (scSet c sec key val).2 sec key n).1 sec ∧
      (spJitFollow (scSet c sec key val).2 sec key n).1.line.filter (otherLine sec) =
        c.line.filter (otherLine sec) ∧
      (spJitFollow (spJitFollow (scSet c sec key val).2 sec key n).1 sec key m).1 =
        (spJitFollow (scSet c sec key val).2 sec key n).1) <-> ¬ Starved c sec key val := by
  rcases hkey with rfl | rfl
  · have hno : ¬ Starved c sec jitPower val := fun hstarved => absurd hstarved.1 (by decide)
    exact ⟨fun _ => hno, fun _ => powerFollowed_settles honce val n m⟩
  · rcases rules_scSet_compatible hrules val with ⟨hoff, hon⟩
    rcases compatibleFollowed_settles (hc.scSet plain_cpuCompatible val)
      (honce.scSet plain_cpuCompatible val) hoff hon with ⟨hkept, hother, hagain⟩
    rw [spJitFollow_followed, spJitFollow_followed, hagain, starved_iff hc honce]
    constructor
    · rintro ⟨_, _, hno⟩
      exact hno
    · intro hno
      exact ⟨hkept, hother.trans (scSet_otherLine plain_cpuCompatible
        (Or.inr (Or.inr (Or.inl rfl))) val), hno⟩

end

/-!
## A full file
-/

def jitLines : List Text :=
  ["[gem]".toList, "jit_power 3".toList, "jit_cache 16384".toList, "cpu_compatible off".toList]

def commentedText (n : Nat) : Text := unlines (jitLines ++ List.replicate n "#".toList)

def commentLine : Line := { sec := "gem".toList, key := [], text := "#".toList }

def commentedFile (n : Nat) : Cfg :=
  { line := loadLines [] jitLines ++ List.replicate n commentLine }

theorem loadLines_comments (n : Nat) :
    loadLines "gem".toList (List.replicate n "#".toList) = List.replicate n commentLine := by
  induction n with
  | zero => rfl
  | succ n ih =>
      rw [List.replicate_succ, List.replicate_succ, ← ih]
      rfl

theorem commentedFile_loaded {n : Nat} (h : n + 4 ≤ maxLines) :
    scLoadText (commentedText n) = some (commentedFile n) := by
  have hmem : forall l, l ∈ jitLines ++ List.replicate n "#".toList ->
      newline ∉ l ∧ nul ∉ l := by
    intro l hl
    rcases List.mem_append.mp hl with hjit | hcomment
    · have hclean : forall l, l ∈ jitLines -> newline ∉ l ∧ nul ∉ l := by decide
      exact hclean l hjit
    · rw [List.eq_of_mem_replicate hcomment]
      decide
  have hnul : nul ∉ commentedText n := by
    intro hin
    rcases List.mem_flatMap.mp hin with ⟨l, hl, hch⟩
    rcases List.mem_append.mp hch with hch | hch
    · exact (hmem l hl).2 hch
    · exact absurd hch (by decide)
  have hlen : (jitLines ++ List.replicate n "#".toList).length ≤ maxLines := by
    rw [List.length_append, List.length_replicate, Nat.add_comm]
    exact h
  have hlines : loadLines [] (jitLines ++ List.replicate n "#".toList) =
      loadLines [] jitLines ++ List.replicate n commentLine := by
    rw [← loadLines_comments]
    rfl
  unfold scLoadText
  dsimp only
  rw [cstr_of_notMem hnul, commentedText, textLines_unlines fun l hl => (hmem l hl).1, if_pos hlen,
    hlines]
  rfl

theorem commentedFile_at (n : Nat) (k : Text) :
    (commentedFile n).at "gem".toList k =
      (loadLines [] jitLines).filter (Line.sets "gem".toList k) := by
  have hno : ¬ Line.sets "gem".toList k commentLine = true := by
    unfold Line.sets
    rw [decide_eq_true_iff]
    exact fun hall => hall.1 rfl
  have hlow : loweredTo secLen "gem".toList = "gem".toList := by decide
  unfold Cfg.at Cfg.occ commentedFile
  rw [hlow, List.filter_append, List.filter_replicate, if_neg hno, List.append_nil]

theorem commentedFile_once (n : Nat) : JitOnce (commentedFile n) "gem".toList := by
  constructor
  all_goals
    rw [commentedFile_at]
    decide

theorem commentedFile_rules (n : Nat) : JitRules (commentedFile n) "gem".toList := by
  have hpower : jitIsOff (commentedFile n) "gem".toList = false := by
    unfold jitIsOff
    have hget : scGet (commentedFile n) "gem".toList jitPower = _ := scGet_at plain_jitPower
    rw [commentedFile_at] at hget
    rw [hget]
    rfl
  have hcompatible : compatibleOn (commentedFile n) "gem".toList = false := by
    unfold compatibleOn
    rw [scGet_at plain_cpuCompatible, commentedFile_at]
    rfl
  refine ⟨fun hoff => ?_, fun _ => ⟨?_, hcompatible⟩⟩
  · rw [hpower] at hoff
    cases hoff
  · rw [commentedFile_at]
    rfl

/-- In a file of 768 lines the run that ticks {lit}`cpu_compatible` finds no line for
{lit}`cpu_speed`, makes room by removing {lit}`jit_cache`, and the next run adds it. -/
theorem jitFollow_starves :
    scLoadText (commentedText 764) = some (commentedFile 764) ∧
      JitOnce (commentedFile 764) "gem".toList ∧ JitRules (commentedFile 764) "gem".toList ∧
      (spJitFollow (spJitFollow (scSet (commentedFile 764) "gem".toList cpuCompatible
          (some "yes".toList)).2 "gem".toList cpuCompatible 48).1 "gem".toList cpuCompatible 48).1 ≠
        (spJitFollow (scSet (commentedFile 764) "gem".toList cpuCompatible
          (some "yes".toList)).2 "gem".toList cpuCompatible 48).1 := by
  have hloaded := commentedFile_loaded (n := 764) (le_refl _)
  have hc := cached_scLoadText hloaded
  have honce := commentedFile_once 764
  have hrules := commentedFile_rules 764
  refine ⟨hloaded, honce, hrules, fun hagain => ?_⟩
  rcases rules_scSet_compatible hrules (some "yes".toList) with ⟨hoff, hon⟩
  have hsettles := (compatibleFollowed_settles (hc.scSet plain_cpuCompatible (some "yes".toList))
      (honce.scSet plain_cpuCompatible (some "yes".toList)) hoff hon).2.2
  rw [spJitFollow_followed, spJitFollow_followed, hsettles, starved_iff hc honce] at hagain
  have hkeys : forall k, (commentedFile 764).at "gem".toList k =
      (loadLines [] jitLines).filter (Line.sets "gem".toList k) := commentedFile_at 764
  have hlen : (commentedFile 764).line.length = maxLines := by
    show (loadLines [] jitLines ++ List.replicate 764 commentLine).length = _
    rw [List.length_append, List.length_replicate]
    rfl
  apply hagain
  refine ⟨rfl, ⟨"yes".toList, rfl, by decide⟩, ?_, ?_⟩
  · rw [hkeys]
    decide
  · unfold missing
    rw [hkeys, hkeys, hlen]
    rfl

/-- A file with room: ticking the core settles at once. -/
theorem jitFollow_settles_small :
    JitRules (spJitFollow (scSet (commentedFile 1) "gem".toList cpuCompatible
        (some "yes".toList)).2 "gem".toList cpuCompatible 48).1 "gem".toList ∧
      (spJitFollow (scSet (commentedFile 1) "gem".toList cpuCompatible
          (some "yes".toList)).2 "gem".toList cpuCompatible 48).1.line.filter
            (otherLine "gem".toList) =
        (commentedFile 1).line.filter (otherLine "gem".toList) ∧
      (spJitFollow (spJitFollow (scSet (commentedFile 1) "gem".toList cpuCompatible
          (some "yes".toList)).2 "gem".toList cpuCompatible 48).1 "gem".toList cpuCompatible 32).1 =
        (spJitFollow (scSet (commentedFile 1) "gem".toList cpuCompatible
          (some "yes".toList)).2 "gem".toList cpuCompatible 48).1 := by
  refine (jitFollow_settles_iff (cached_scLoadText (commentedFile_loaded (by decide)))
    (commentedFile_once 1) (commentedFile_rules 1) (Or.inr rfl) (some "yes".toList) 48 32).mpr ?_
  rintro ⟨_, _, _, hlines⟩
  revert hlines
  unfold missing
  rw [commentedFile_at, commentedFile_at]
  decide

end Setup
end PistormAtari
