import Mathlib
import PistormAtari.Setup.CfgLaws
import PistormAtari.Setup.Values

/-!
# The keys that hang off the JIT

{lit}`sp_jit_follow` runs after an edit of {lit}`jit_power` or {lit}`cpu_compatible` and
brings the keys that depend on them in line.
-/

namespace PistormAtari
namespace Setup

open Foundation

abbrev jitPower : Text := "jit_power".toList
abbrev jitCache : Text := "jit_cache".toList
abbrev cpuCompatible : Text := "cpu_compatible".toList
abbrev cpuSpeed : Text := "cpu_speed".toList

theorem plain_jitPower : PlainKey jitPower :=
  PlainKey.of_all (by decide) rfl rfl (by rintro ch ⟨⟩; decide) (by decide)

theorem plain_jitCache : PlainKey jitCache :=
  PlainKey.of_all (by decide) rfl rfl (by rintro ch ⟨⟩; decide) (by decide)

theorem plain_cpuCompatible : PlainKey cpuCompatible :=
  PlainKey.of_all (by decide) rfl rfl (by rintro ch ⟨⟩; decide) (by decide)

theorem plain_cpuSpeed : PlainKey cpuSpeed :=
  PlainKey.of_all (by decide) rfl rfl (by rintro ch ⟨⟩; decide) (by decide)

/-!
## One key of a section that it sets at most once
-/

section
variable {c : Cfg} {sec k : Text}

def Cfg.at (c : Cfg) (sec k : Text) : List Line := c.occ (loweredTo secLen sec) k

theorem scGet_at (hk : PlainKey k) :
    scGet c sec k = ((c.at sec k).head?).map (fun l => lineValue l.text) := by
  rw [scGet_eq, hk.lowered]
  rfl

theorem scGet_isSome_iff (hk : PlainKey k) : (scGet c sec k).isSome = true <-> c.at sec k ≠ [] := by
  rw [scGet_at hk, Option.isSome_map]
  cases c.at sec k with
  | nil => exact ⟨fun h => (by cases h), fun h => absurd rfl h⟩
  | cons l ls => exact ⟨fun _ h => (by cases h), fun _ => rfl⟩

theorem at_scSet_other {k' : Text} (hk : PlainKey k) (hne : k' ≠ k) (val : Option Text) :
    (scSet c sec k val).2.at sec k' = c.at sec k' := by
  have hk₁ : PlainKey (loweredTo keyLen k) := by
    rw [hk.lowered]
    exact hk
  refine scSetN_filter (n := 0) hk₁ (Nat.zero_le _) ?_ val
  rintro l hsec (hnone | hkey)
  · exact decide_eq_false fun hall => hall.1 hnone
  · rw [hk.lowered] at hkey
    exact decide_eq_false fun hall => hne (hall.2.2.symm.trans hkey)

theorem scSet_absent (hk : PlainKey k) (h : c.at sec k = []) (val : Option Text) :
    scSet c sec k val =
      match val with
      | none => (true, c)
      | some v => c.addLine (loweredTo secLen sec) k v := by
  have hnone : 0 = (c.occ (loweredTo secLen sec) (loweredTo keyLen k)).length := by
    rw [hk.lowered]
    exact (congrArg List.length h).symm
  have hnext : scSet c sec k val = _ := scSetN_next hnone val
  rw [hk.lowered] at hnext
  exact hnext

theorem at_splitAt (hk : PlainKey k) (honce : (c.at sec k).length ≤ 1) {a b : List Line} {l : Line}
    (h : SplitAt c (loweredTo secLen sec) (loweredTo keyLen k) 0 a l b) :
    Line.sets (loweredTo secLen sec) k l = true ∧ c.at sec k = [l] ∧
      a.filter (Line.sets (loweredTo secLen sec) k) = [] ∧
      b.filter (Line.sets (loweredTo secLen sec) k) = [] := by
  have hl := h.sets
  rw [hk.lowered] at hl
  have hat : c.at sec k = a.filter (Line.sets (loweredTo secLen sec) k) ++
      l :: b.filter (Line.sets (loweredTo secLen sec) k) := by
    unfold Cfg.at Cfg.occ
    rw [h.line, List.filter_append, List.filter_cons_of_pos hl]
  rw [hat, List.length_append, List.length_cons] at honce
  have ha := List.eq_nil_of_length_eq_zero (show
    (a.filter (Line.sets (loweredTo secLen sec) k)).length = 0 by lia)
  have hb := List.eq_nil_of_length_eq_zero (show
    (b.filter (Line.sets (loweredTo secLen sec) k)).length = 0 by lia)
  rw [hat, ha, hb]
  exact ⟨hl, rfl, rfl, rfl⟩

theorem scSet_remove (hk : PlainKey k) (honce : (c.at sec k).length ≤ 1) :
    (scSet c sec k none).2.at sec k = [] ∧
      (scSet c sec k none).2.line.length + (c.at sec k).length = c.line.length := by
  by_cases hnone : c.at sec k = []
  · rw [scSet_absent hk hnone]
    exact ⟨hnone, congrArg (fun ls => c.line.length + List.length ls) hnone⟩
  · have hlt : 0 < (c.occ (loweredTo secLen sec) (loweredTo keyLen k)).length := by
      rw [hk.lowered]
      exact List.length_pos_iff.mpr hnone
    rcases scSetN_remove (n := 0) hlt with ⟨a, l, b, hsplit, heq⟩
    have hset : scSet c sec k none = (true, { c with line := a ++ b, dirty := true }) := heq
    rcases at_splitAt hk honce hsplit with ⟨_, hat, ha, hb⟩
    rw [hset, hat, hsplit.line]
    refine ⟨?_, ?_⟩
    · show (a ++ b).filter (Line.sets (loweredTo secLen sec) k) = []
      rw [List.filter_append, ha, hb]
      rfl
    · simp
      lia

theorem scSet_change (hk : PlainKey k) (honce : (c.at sec k).length ≤ 1) (h : c.at sec k ≠ [])
    (v : Text) :
    (exists l, (scSet c sec k (some v)).2.at sec k = [l] ∧ l.text = keyText k v) ∧
      (scSet c sec k (some v)).2.line.length = c.line.length := by
  have hlt : 0 < (c.occ (loweredTo secLen sec) (loweredTo keyLen k)).length := by
    rw [hk.lowered]
    exact List.length_pos_iff.mpr h
  rcases scSetN_change (n := 0) hlt v with ⟨a, l, b, hsplit, _, heq⟩
  rcases at_splitAt hk honce hsplit with ⟨hl, _, ha, hb⟩
  have hset : (scSet c sec k (some v)).2.line = a ++ { l with text := keyText k v } :: b := by
    rw [hk.lowered] at heq
    exact heq
  have hl' : Line.sets (loweredTo secLen sec) k { l with text := keyText k v } = true := hl
  refine ⟨⟨{ l with text := keyText k v }, ?_, rfl⟩, ?_⟩
  · unfold Cfg.at Cfg.occ
    rw [hset, List.filter_append, List.filter_cons_of_pos hl', ha, hb]
    rfl
  · rw [hset, hsplit.line]
    simp

theorem sectionEnd_isSome {s : Text} (hs : loweredTo secLen s = s) {l : Line} (hl : l ∈ c.line)
    (hsec : l.sec = s) (htext : l.text ≠ []) : exists pos, c.sectionEnd s = some pos := by
  unfold Cfg.sectionEnd
  dsimp only
  rw [hs]
  refine ⟨_, if_pos ?_⟩
  rw [List.any_eq_true]
  exact ⟨l, hl, decide_eq_true ⟨hsec, htext⟩⟩

def Cfg.HasSection (c : Cfg) (sec : Text) : Prop :=
  exists l, l ∈ c.line ∧ l.sec = loweredTo secLen sec ∧ l.text ≠ []

theorem hasSection_of_at (hc : c.Cached) (h : c.at sec k ≠ []) : c.HasSection sec := by
  rcases List.exists_mem_of_ne_nil _ h with ⟨l, hl⟩
  rcases List.mem_filter.mp hl with ⟨hmem, hsets⟩
  have hall := of_decide_eq_true hsets
  refine ⟨l, hmem, hall.2.1, ?_⟩
  intro hnone
  have hkey := hc.key l hmem
  rw [hnone] at hkey
  exact hall.1 hkey

theorem scSet_add (hk : PlainKey k) (h : c.at sec k = []) (hsec : c.HasSection sec) (v : Text) :
    if maxLines ≤ c.line.length then scSet c sec k (some v) = (false, c)
    else
      (exists l, (scSet c sec k (some v)).2.at sec k = [l] ∧ l.text = bounded lineLen (keyText k v)) ∧
        (scSet c sec k (some v)).2.line.length = c.line.length + 1 := by
  have hs : loweredTo secLen (loweredTo secLen sec) = loweredTo secLen sec :=
    loweredTo_loweredTo (by decide) sec
  have hbound : bounded secLen (loweredTo secLen sec) = loweredTo secLen sec :=
    bounded_short (loweredTo_length (by decide) sec)
  rcases hsec with ⟨l, hl, hlsec, htext⟩
  rcases sectionEnd_isSome hs hl hlsec htext with ⟨pos, hend⟩
  have hadd := scSet_absent hk h (some v)
  dsimp only at hadd
  have hplaced : c.addLine (loweredTo secLen sec) k v =
      if (c.insert pos (loweredTo secLen sec) (keyText k v)).1 = false then
        (false, (c.insert pos (loweredTo secLen sec) (keyText k v)).2)
      else
        (true, { (c.insert pos (loweredTo secLen sec) (keyText k v)).2 with dirty := true }) := by
    unfold Cfg.addLine
    rw [hend]
    rfl
  rw [hadd, hplaced, insert_line]
  split
  · rfl
  · have hsets : Line.sets (loweredTo secLen sec) k
        (madeLine (loweredTo secLen sec) (keyText k v)) = true := by
      refine decide_eq_true ⟨?_, hbound, hk.madeLine_key _ v⟩
      rw [hk.madeLine_key]
      exact hk.nonempty
    have hnone : c.line.filter (Line.sets (loweredTo secLen sec) k) = [] := h
    have hsplit : (c.line.take pos).filter (Line.sets (loweredTo secLen sec) k) = [] ∧
        (c.line.drop pos).filter (Line.sets (loweredTo secLen sec) k) = [] := by
      rw [← List.take_append_drop pos c.line, List.filter_append] at hnone
      exact List.append_eq_nil_iff.mp hnone
    refine ⟨⟨madeLine (loweredTo secLen sec) (keyText k v), ?_, rfl⟩, ?_⟩
    · show (c.line.take pos ++ madeLine (loweredTo secLen sec) (keyText k v) ::
        c.line.drop pos).filter (Line.sets (loweredTo secLen sec) k) = _
      rw [List.filter_append, List.filter_cons_of_pos hsets, hsplit.1, hsplit.2]
      rfl
    · show (c.line.take pos ++ madeLine (loweredTo secLen sec) (keyText k v) ::
        c.line.drop pos).length = _
      rw [List.length_append, List.length_cons, ← Nat.add_assoc, ← List.length_append,
        List.take_append_drop]

/-!
## Edits keep the cached keys
-/

theorem Cfg.Cached.insert (hc : c.Cached) (pos : Nat) (s t : Text) :
    (c.insert pos s t).2.Cached := by
  rw [insert_line]
  split
  · exact hc
  · next hroom =>
    refine ⟨?_, ?_⟩
    · intro l hl
      rcases List.mem_append.mp hl with hbefore | hrest
      · exact hc.key l (List.mem_of_mem_take hbefore)
      · rcases List.mem_cons.mp hrest with hnew | hafter
        · rw [hnew]
          rfl
        · exact hc.key l (List.mem_of_mem_drop hafter)
    · show (c.line.take pos ++ madeLine s t :: c.line.drop pos).length ≤ maxLines
      rw [List.length_append, List.length_cons, ← Nat.add_assoc, ← List.length_append,
        List.take_append_drop]
      lia

theorem Cfg.Cached.dirty (hc : c.Cached) (b : Bool) : ({ c with dirty := b } : Cfg).Cached :=
  ⟨hc.key, hc.room⟩

theorem Cfg.Cached.scAddSection (hc : c.Cached) (s : Text) : (scAddSection c s).2.Cached := by
  unfold Setup.scAddSection
  dsimp only
  split
  · exact hc
  · split
    · exact hc
    · generalize hspaced : (if c.line.getLast?.any (fun l => decide (l.text ≠ [])) = true then
        c.insert c.line.length (loweredTo secLen s) [] else (true, c)) = spaced
      have hcached : spaced.2.Cached := by
        rw [← hspaced]
        split
        · exact hc.insert _ _ _
        · exact hc
      split
      · exact hcached
      · split
        · exact hcached.insert _ _ _
        · exact (hcached.insert _ _ _).dirty true

theorem Cfg.Cached.addLine (hc : c.Cached) (s k v : Text) : (c.addLine s k v).2.Cached := by
  unfold Cfg.addLine
  dsimp only
  cases c.sectionEnd s with
  | some pos =>
      dsimp only
      rw [if_neg (by decide)]
      split
      · exact hc.insert _ _ _
      · exact (hc.insert _ _ _).dirty true
  | none =>
      have hadded := hc.scAddSection s
      dsimp only
      split
      · exact hadded
      · split
        · exact hadded.insert _ _ _
        · exact (hadded.insert _ _ _).dirty true

theorem Cfg.Cached.scSet (hc : c.Cached) (hk : PlainKey k) (val : Option Text) :
    (scSet c sec k val).2.Cached := by
  have hk₁ := hk.lowered
  rcases Nat.eq_zero_or_pos (c.occ (loweredTo secLen sec) (loweredTo keyLen k)).length with
    hnone | hsome
  · cases val with
    | none =>
        have hset : Setup.scSet c sec k none = (true, c) := scSetN_next (n := 0) hnone.symm none
        rw [hset]
        exact hc
    | some v =>
        have hset : Setup.scSet c sec k (some v) =
            c.addLine (loweredTo secLen sec) (loweredTo keyLen k) v :=
          scSetN_next (n := 0) hnone.symm (some v)
        rw [hset]
        exact hc.addLine _ _ v
  · cases val with
    | none =>
        rcases scSetN_remove (n := 0) hsome with ⟨a, l, b, hsplit, heq⟩
        have hset : Setup.scSet c sec k none = (true, { c with line := a ++ b, dirty := true }) := heq
        have hroom := hc.room
        rw [hsplit.line, List.length_append, List.length_cons] at hroom
        rw [hset]
        refine ⟨?_, ?_⟩
        · intro l' hl'
          apply hc.key l'
          rw [hsplit.line]
          rcases List.mem_append.mp hl' with hbefore | hafter
          · exact List.mem_append_left _ hbefore
          · exact List.mem_append_right _ (List.mem_cons_of_mem _ hafter)
        · show (a ++ b).length ≤ maxLines
          rw [List.length_append]
          lia
    | some v =>
        rcases scSetN_change (n := 0) hsome v with ⟨a, l, b, hsplit, _, heq⟩
        have hset : (Setup.scSet c sec k (some v)).2.line =
            a ++ { l with text := keyText (loweredTo keyLen k) v } :: b := heq
        have hroom := hc.room
        have hkey : l.key = k := by
          have hall := of_decide_eq_true hsplit.sets
          exact hall.2.2.trans hk₁
        rw [hsplit.line] at hroom
        refine ⟨?_, ?_⟩
        · intro l' hl'
          rw [hset] at hl'
          rcases List.mem_append.mp hl' with hbefore | hrest
          · exact hc.key l' (by rw [hsplit.line]; exact List.mem_append_left _ hbefore)
          · rcases List.mem_cons.mp hrest with hnew | hafter
            · have hbounded : bounded lineLen (keyText k v) = keyText k v :=
                bounded_short (bounded_length (by decide) _)
              have hmade : lineKey (bounded lineLen (keyText k v)) = k := hk.madeLine_key [] v
              rw [hbounded] at hmade
              rw [hnew, hk₁]
              exact hkey.trans hmade.symm
            · apply hc.key l'
              rw [hsplit.line]
              exact List.mem_append_right _ (List.mem_cons_of_mem _ hafter)
        · rw [hset, List.length_append, List.length_cons]
          rw [List.length_append, List.length_cons] at hroom
          exact hroom

/-!
## The rules
-/

theorem jitIsOff_congr {c' : Cfg} (h : c'.at sec jitPower = c.at sec jitPower) :
    jitIsOff c' sec = jitIsOff c sec := by
  have hget : scGet c' sec jitPower = scGet c sec jitPower := by
    rw [scGet_at plain_jitPower, scGet_at plain_jitPower, h]
  unfold jitIsOff
  rw [hget]

def compatibleOn (c : Cfg) (sec : Text) : Bool :=
  (scGet c sec cpuCompatible).any (spRowOn cpuCompatible)

theorem compatibleOn_congr {c' : Cfg} (h : c'.at sec cpuCompatible = c.at sec cpuCompatible) :
    compatibleOn c' sec = compatibleOn c sec := by
  unfold compatibleOn
  rw [scGet_at plain_cpuCompatible, scGet_at plain_cpuCompatible, h]

theorem at_of_compatibleOn (h : compatibleOn c sec = true) : c.at sec cpuCompatible ≠ [] := by
  intro hnone
  unfold compatibleOn at h
  rw [scGet_at plain_cpuCompatible, hnone] at h
  cases h

/-- With the JIT off there is no {lit}`jit_cache`, with the JIT on no {lit}`cpu_speed` and
no {lit}`cpu_compatible` that is on. -/
structure JitRules (c : Cfg) (sec : Text) : Prop where
  off : jitIsOff c sec = true -> c.at sec jitCache = []
  on : jitIsOff c sec = false -> c.at sec cpuSpeed = [] ∧ compatibleOn c sec = false

structure JitOnce (c : Cfg) (sec : Text) : Prop where
  power : (c.at sec jitPower).length ≤ 1
  cache : (c.at sec jitCache).length ≤ 1
  compatible : (c.at sec cpuCompatible).length ≤ 1
  speed : (c.at sec cpuSpeed).length ≤ 1

/-- The lines of other sections, and the lines of the section for other keys. -/
def otherLine (sec : Text) (l : Line) : Bool :=
  l.sec ≠ loweredTo secLen sec ∨
    (l.key ≠ [] ∧ l.key ≠ jitPower ∧ l.key ≠ jitCache ∧ l.key ≠ cpuCompatible ∧ l.key ≠ cpuSpeed)

theorem scSet_otherLine (hk : PlainKey k)
    (hfour : k = jitPower ∨ k = jitCache ∨ k = cpuCompatible ∨ k = cpuSpeed) (val : Option Text) :
    (scSet c sec k val).2.line.filter (otherLine sec) = c.line.filter (otherLine sec) := by
  have hk₁ : PlainKey (loweredTo keyLen k) := by
    rw [hk.lowered]
    exact hk
  refine scSetN_filter (n := 0) hk₁ (Nat.zero_le _) ?_ val
  rintro l hsec hkey
  rw [hk.lowered] at hkey
  refine decide_eq_false ?_
  rintro (hother | ⟨hsome, hpower, hcache, hcompatible, hspeed⟩)
  · exact hother hsec
  · rcases hkey with hnone | hkey
    · exact hsome hnone
    · rcases hfour with h | h | h | h
      · exact hpower (hkey.trans h)
      · exact hcache (hkey.trans h)
      · exact hcompatible (hkey.trans h)
      · exact hspeed (hkey.trans h)

/-!
## The edits of sp_jit_follow

The note of what was done has no part in the file.
-/

def offForPrefetch (c : Cfg) (sec : Text) : Cfg :=
  let c := if jitIsOff c sec = true then c else (scSet c sec jitPower (some "0".toList)).2
  if (scGet c sec cpuSpeed).isSome = true then c
  else (scSet c sec cpuSpeed (some "8mhz".toList)).2

def cacheDropped (c : Cfg) (sec : Text) : Cfg :=
  if ((scGet c sec jitPower).isNone = true ∨ jitIsOff c sec = true) ∧
      (scGet c sec jitCache).isSome = true then (scSet c sec jitCache none).2
  else c

def compatibleDropped (c : Cfg) (sec : Text) : Cfg :=
  if compatibleOn c sec = true then (scSet c sec cpuCompatible none).2 else c

def speedDropped (c : Cfg) (sec : Text) : Cfg :=
  if (scGet c sec cpuSpeed).isSome = true then (scSet c sec cpuSpeed none).2 else c

def interpreterDropped (c : Cfg) (sec : Text) : Cfg := speedDropped (compatibleDropped c sec) sec

def powerChanged (c : Cfg) (sec : Text) : Cfg :=
  if jitIsOff (cacheDropped c sec) sec = true then cacheDropped c sec
  else interpreterDropped (cacheDropped c sec) sec

theorem jitOffForPrefetch_fst (n : Nat) (sec : Text) (s : Cfg × Text) :
    (jitOffForPrefetch n sec s).1 = offForPrefetch s.1 sec := by
  unfold jitOffForPrefetch offForPrefetch
  dsimp only
  split
  · split
    · rfl
    · rfl
  · have hsame : (setNoted n ", " sec jitPower (some "0".toList) "jit_power 0".toList s).1 =
        (scSet s.1 sec jitPower (some "0".toList)).2 := rfl
    rw [hsame]
    split
    · rfl
    · rfl

theorem jitPowerChanged_fst (n : Nat) (sec : Text) (s : Cfg × Text) :
    (jitPowerChanged n sec s).1 = powerChanged s.1 sec := by
  unfold jitPowerChanged powerChanged interpreterDropped speedDropped
  dsimp only
  generalize hdropped : (if ((scGet s.1 sec "jit_power".toList).isNone = true ∨
      jitIsOff s.1 sec = true) ∧ (scGet s.1 sec "jit_cache".toList).isSome = true then
      setNoted n ", " sec "jit_cache".toList none ('-' :: "jit_cache".toList) s else s) = dropped
  have hcache : dropped.1 = cacheDropped s.1 sec := by
    rw [← hdropped]
    unfold cacheDropped
    split
    · rfl
    · rfl
  rw [← hcache]
  split
  · rfl
  · generalize hcompatible : (if (scGet dropped.1 sec "cpu_compatible".toList).any
        (spRowOn "cpu_compatible".toList) = true then
        setNoted n ", " sec "cpu_compatible".toList none ('-' :: "cpu_compatible".toList) dropped
      else dropped) = compatible
    have hnext : compatible.1 = compatibleDropped dropped.1 sec := by
      rw [← hcompatible]
      unfold compatibleDropped compatibleOn
      split
      · rfl
      · rfl
    rw [← hnext]
    split
    · rfl
    · rfl

theorem spJitFollow_power (c : Cfg) (sec : Text) (n : Nat) :
    (spJitFollow c sec jitPower n).1 = powerChanged c sec := by
  have hno : sameCase jitPower cpuCompatible = false := by decide
  unfold spJitFollow
  dsimp only
  rw [hno, Bool.false_and, if_pos (Or.inl (sameCase_self jitPower)), jitPowerChanged_fst,
    if_neg (by decide)]

theorem spJitFollow_compatible (c : Cfg) (sec : Text) (n : Nat) :
    (spJitFollow c sec cpuCompatible n).1 =
      if compatibleOn c sec = true then powerChanged (offForPrefetch c sec) sec else c := by
  have hno : ¬ sameCase cpuCompatible jitPower = true := by decide
  have hsame : (sameCase cpuCompatible cpuCompatible &&
      (scGet c sec cpuCompatible).any (spRowOn cpuCompatible)) = compatibleOn c sec := by
    rw [sameCase_self]
    rfl
  unfold spJitFollow
  dsimp only
  rw [hsame]
  cases hon : compatibleOn c sec with
  | true =>
      rw [if_pos (Or.inr rfl), jitPowerChanged_fst, if_pos rfl, if_pos rfl, jitOffForPrefetch_fst]
  | false =>
      rw [if_neg (by
        rintro (h | h)
        · exact hno h
        · cases h), if_neg (by decide), if_neg (by decide)]

/-!
## What the edits leave
-/

theorem cacheDropped_other {k' : Text} (hne : k' ≠ jitCache) :
    (cacheDropped c sec).at sec k' = c.at sec k' := by
  unfold cacheDropped
  split
  · exact at_scSet_other plain_jitCache hne none
  · rfl

/-- {lit}`jit_cache` goes unless the JIT is on by its own line. -/
theorem cacheDropped_cache (honce : JitOnce c sec)
    (h : c.at sec jitPower = [] ∨ jitIsOff c sec = true) :
    (cacheDropped c sec).at sec jitCache = [] ∧
      (cacheDropped c sec).line.length + (c.at sec jitCache).length = c.line.length := by
  have hcond : (scGet c sec jitPower).isNone = true ∨ jitIsOff c sec = true := by
    rcases h with hnone | hoff
    · left
      rw [scGet_at plain_jitPower, hnone]
      rfl
    · exact Or.inr hoff
  unfold cacheDropped
  split
  · exact scSet_remove plain_jitCache honce.cache
  · next hstay =>
    have hnone : c.at sec jitCache = [] := by
      by_contra hsome
      exact hstay ⟨hcond, (scGet_isSome_iff plain_jitCache).mpr hsome⟩
    exact ⟨hnone, by rw [hnone]; rfl⟩

theorem compatibleDropped_other {k' : Text} (hne : k' ≠ cpuCompatible) :
    (compatibleDropped c sec).at sec k' = c.at sec k' := by
  unfold compatibleDropped
  split
  · exact at_scSet_other plain_cpuCompatible hne none
  · rfl

theorem speedDropped_other {k' : Text} (hne : k' ≠ cpuSpeed) :
    (speedDropped c sec).at sec k' = c.at sec k' := by
  unfold speedDropped
  split
  · exact at_scSet_other plain_cpuSpeed hne none
  · rfl

theorem compatibleDropped_off (honce : (c.at sec cpuCompatible).length ≤ 1) :
    compatibleOn (compatibleDropped c sec) sec = false := by
  unfold compatibleDropped
  split
  · unfold compatibleOn
    rw [scGet_at plain_cpuCompatible, (scSet_remove plain_cpuCompatible honce).1]
    rfl
  · next hno => exact Bool.eq_false_iff.mpr hno

theorem speedDropped_gone (honce : (c.at sec cpuSpeed).length ≤ 1) :
    (speedDropped c sec).at sec cpuSpeed = [] := by
  unfold speedDropped
  split
  · exact (scSet_remove plain_cpuSpeed honce).1
  · next hnone =>
    by_contra hsome
    exact hnone ((scGet_isSome_iff plain_cpuSpeed).mpr hsome)

theorem interpreterDropped_other {k' : Text} (hcc : k' ≠ cpuCompatible) (hcs : k' ≠ cpuSpeed) :
    (interpreterDropped c sec).at sec k' = c.at sec k' := by
  unfold interpreterDropped
  rw [speedDropped_other hcs, compatibleDropped_other hcc]

theorem interpreterDropped_gone (honce : JitOnce c sec) :
    (interpreterDropped c sec).at sec cpuSpeed = [] ∧
      compatibleOn (interpreterDropped c sec) sec = false := by
  have hne : cpuSpeed ≠ cpuCompatible := by decide
  unfold interpreterDropped
  constructor
  · apply speedDropped_gone
    rw [compatibleDropped_other hne]
    exact honce.speed
  · rw [compatibleOn_congr (speedDropped_other hne.symm)]
    exact compatibleDropped_off honce.compatible

theorem powerChanged_fixed (hcache : c.at sec jitPower = [] ∨ jitIsOff c sec = true ->
      c.at sec jitCache = [])
    (hon : jitIsOff c sec = false -> c.at sec cpuSpeed = [] ∧ compatibleOn c sec = false) :
    powerChanged c sec = c := by
  have hkept : cacheDropped c sec = c := by
    unfold cacheDropped
    refine if_neg ?_
    rintro ⟨hcond, hsome⟩
    apply (scGet_isSome_iff plain_jitCache).mp hsome
    apply hcache
    rcases hcond with hnone | hoff
    · left
      by_contra hpower
      have hset := (scGet_isSome_iff plain_jitPower).mpr hpower
      rw [Option.isNone_iff_eq_none] at hnone
      rw [hnone] at hset
      cases hset
    · exact Or.inr hoff
  unfold powerChanged
  rw [hkept]
  split
  · rfl
  · next hno =>
    rcases hon (Bool.eq_false_iff.mpr hno) with ⟨hspeed, hcompatible⟩
    have hnone : ¬ (scGet c sec cpuSpeed).isSome = true := by
      rw [scGet_isSome_iff plain_cpuSpeed]
      exact fun hsome => hsome hspeed
    have hcompatible' : compatibleDropped c sec = c := by
      unfold compatibleDropped
      rw [hcompatible, if_neg (by decide)]
    unfold interpreterDropped speedDropped
    rw [hcompatible', if_neg hnone]

theorem cacheDropped_otherLine :
    (cacheDropped c sec).line.filter (otherLine sec) = c.line.filter (otherLine sec) := by
  unfold cacheDropped
  split
  · exact scSet_otherLine plain_jitCache (Or.inr (Or.inl rfl)) none
  · rfl

theorem interpreterDropped_otherLine :
    (interpreterDropped c sec).line.filter (otherLine sec) = c.line.filter (otherLine sec) := by
  have hcompatible :
      (compatibleDropped c sec).line.filter (otherLine sec) = c.line.filter (otherLine sec) := by
    unfold compatibleDropped
    split
    · exact scSet_otherLine plain_cpuCompatible (Or.inr (Or.inr (Or.inl rfl))) none
    · rfl
  unfold interpreterDropped speedDropped
  split
  · exact (scSet_otherLine plain_cpuSpeed (Or.inr (Or.inr (Or.inr rfl))) none).trans hcompatible
  · exact hcompatible

theorem powerChanged_otherLine :
    (powerChanged c sec).line.filter (otherLine sec) = c.line.filter (otherLine sec) := by
  unfold powerChanged
  split
  · exact cacheDropped_otherLine
  · exact interpreterDropped_otherLine.trans cacheDropped_otherLine

theorem cacheDropped_power : (cacheDropped c sec).at sec jitPower = c.at sec jitPower :=
  cacheDropped_other (by decide)

theorem JitOnce.cacheDropped (honce : JitOnce c sec) : JitOnce (cacheDropped c sec) sec := by
  refine ⟨?_, ?_, ?_, ?_⟩
  · rw [cacheDropped_power]
    exact honce.power
  · unfold Setup.cacheDropped
    split
    · rw [(scSet_remove plain_jitCache honce.cache).1]
      exact Nat.zero_le 1
    · exact honce.cache
  · rw [cacheDropped_other (by decide)]
    exact honce.compatible
  · rw [cacheDropped_other (by decide)]
    exact honce.speed

theorem powerChanged_settles (honce : JitOnce c sec) :
    JitRules (powerChanged c sec) sec ∧ powerChanged (powerChanged c sec) sec = powerChanged c sec := by
  have hpower : jitIsOff (cacheDropped c sec) sec = jitIsOff c sec :=
    jitIsOff_congr cacheDropped_power
  cases hjit : jitIsOff c sec with
  | true =>
      have hend : powerChanged c sec = cacheDropped c sec := by
        unfold powerChanged
        rw [hpower, hjit, if_pos rfl]
      have hgone := (cacheDropped_cache honce (Or.inr hjit)).1
      rw [hend]
      refine ⟨⟨fun _ => hgone, ?_⟩, powerChanged_fixed (fun _ => hgone) ?_⟩
      · intro hon
        rw [hpower, hjit] at hon
        cases hon
      · intro hon
        rw [hpower, hjit] at hon
        cases hon
  | false =>
      have hend : powerChanged c sec = interpreterDropped (cacheDropped c sec) sec := by
        unfold powerChanged
        rw [hpower, hjit, if_neg (by decide)]
      have hsame : (interpreterDropped (cacheDropped c sec) sec).at sec jitPower =
          c.at sec jitPower :=
        (interpreterDropped_other (by decide) (by decide)).trans cacheDropped_power
      have hon : jitIsOff (interpreterDropped (cacheDropped c sec) sec) sec = false :=
        (jitIsOff_congr hsame).trans hjit
      have hgone := interpreterDropped_gone honce.cacheDropped
      rw [hend]
      refine ⟨⟨?_, fun _ => hgone⟩, powerChanged_fixed ?_ fun _ => hgone⟩
      · intro hoff
        rw [hon] at hoff
        cases hoff
      · rintro (hnone | hoff)
        · rw [hsame] at hnone
          rw [interpreterDropped_other (by decide) (by decide)]
          exact (cacheDropped_cache honce (Or.inl hnone)).1
        · rw [hon] at hoff
          cases hoff

/-!
## Ticking the prefetch-accurate core
-/

theorem jitIsOff_zero {l : Line} (hat : c.at sec jitPower = [l])
    (htext : l.text = "jit_power 0".toList) : jitIsOff c sec = true := by
  have hget : scGet c sec jitPower = some "0".toList := by
    rw [scGet_at plain_jitPower, hat]
    show some (lineValue l.text) = _
    rw [htext]
    rfl
  unfold jitIsOff
  rw [hget]
  rfl

end

end Setup
end PistormAtari
