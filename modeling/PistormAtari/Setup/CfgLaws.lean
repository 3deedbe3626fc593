import Mathlib
import PistormAtari.Setup.SetupCfg

/-!
# The laws of the line editor

A key of a section is the list of the lines that set it.  Setting an occurrence changes,
adds or removes one line of that list and keeps every other line and its place.
-/

namespace PistormAtari
namespace Setup

open Foundation

/-!
## Names in their buffers
-/

theorem bounded_length {n : Nat} (hn : 0 < n) (s : Text) : (bounded n s).length < n := by
  unfold bounded
  rw [List.length_take]
  lia

theorem bounded_short {n : Nat} {s : Text} (h : s.length < n) : bounded n s = s :=
  List.take_of_length_le (by lia)

theorem loweredTo_length {n : Nat} (hn : 0 < n) (s : Text) : (loweredTo n s).length < n := by
  unfold loweredTo lowercase
  rw [List.length_map]
  exact bounded_length hn s

theorem loweredTo_loweredTo {n : Nat} (hn : 0 < n) (s : Text) :
    loweredTo n (loweredTo n s) = loweredTo n s := by
  have hshort := bounded_short (loweredTo_length hn s)
  have hlower : lowercase (loweredTo n s) = loweredTo n s := lowercase_lowercase _
  rw [loweredTo, hshort, hlower]

/-!
## The lines that set a key
-/

/-- The lines of a section that set a key; both names as `lower` leaves them. -/
def Cfg.occ (c : Cfg) (s k : Text) : List Line := c.line.filter (Line.sets s k)

theorem nthIndex_split {p : Line -> Bool} {n : Nat} {ls : List Line} {i : Nat}
    (h : nthIndex p n ls = some i) :
    exists a l b, ls = a ++ l :: b ∧ a.length = i ∧ p l = true ∧ (a.filter p).length = n := by
  induction ls generalizing n i with
  | nil => cases h
  | cons l ls ih =>
      unfold nthIndex at h
      split at h
      · next hp =>
        cases n with
        | zero =>
            rw [if_pos Int.natCast_zero] at h
            exact ⟨[], l, ls, rfl, Option.some.inj h, hp, rfl⟩
        | succ n =>
            rw [if_neg (by lia)] at h
            rw [show ((n + 1 : Nat) : Int) - 1 = (n : Int) by lia] at h
            rcases Option.map_eq_some_iff.mp h with ⟨j, hj, hi⟩
            rcases ih hj with ⟨a, l', b, heq, hlen, hp', hcount⟩
            refine ⟨l :: a, l', b, by rw [heq]; rfl, ?_, hp', ?_⟩
            · rw [List.length_cons, hlen]
              exact hi
            · rw [List.filter_cons_of_pos hp, List.length_cons, hcount]
      · next hp =>
        rcases Option.map_eq_some_iff.mp h with ⟨j, hj, hi⟩
        rcases ih hj with ⟨a, l', b, heq, hlen, hp', hcount⟩
        refine ⟨l :: a, l', b, by rw [heq]; rfl, ?_, hp', ?_⟩
        · rw [List.length_cons, hlen]
          exact hi
        · rw [List.filter_cons_of_neg hp, hcount]

theorem nthIndex_none_iff {p : Line -> Bool} {n : Nat} {ls : List Line} :
    nthIndex p n ls = none <-> (ls.filter p).length ≤ n := by
  induction ls generalizing n with
  | nil => exact ⟨fun _ => Nat.zero_le n, fun _ => rfl⟩
  | cons l ls ih =>
      unfold nthIndex
      split
      · next hp =>
        rw [List.filter_cons_of_pos hp, List.length_cons]
        cases n with
        | zero =>
            rw [if_pos Int.natCast_zero]
            exact ⟨fun h => (by cases h), fun h => absurd h (Nat.not_succ_le_zero _)⟩
        | succ n =>
            rw [if_neg (by lia), show ((n + 1 : Nat) : Int) - 1 = (n : Int) by lia,
              Option.map_eq_none_iff, ih]
            lia
      · next hp =>
        rw [List.filter_cons_of_neg hp, Option.map_eq_none_iff]
        exact ih

theorem Cfg.findN_eq (c : Cfg) (sec key : Text) (n : Int) :
    c.findN sec key n =
      nthIndex (Line.sets (loweredTo secLen sec) (loweredTo keyLen key)) n c.line := rfl

theorem scCount_eq (c : Cfg) (sec key : Text) :
    scCount c sec key = (c.occ (loweredTo secLen sec) (loweredTo keyLen key)).length :=
  List.countP_eq_length_filter

theorem scGetN_eq (c : Cfg) (sec key : Text) (n : Nat) :
    scGetN c sec key n =
      ((c.occ (loweredTo secLen sec) (loweredTo keyLen key))[n]?).map
        (fun l => lineValue l.text) := by
  unfold scGetN
  rw [Cfg.findN_eq]
  unfold Cfg.occ
  generalize Line.sets (loweredTo secLen sec) (loweredTo keyLen key) = p
  cases hfind : nthIndex p n c.line with
  | none =>
      rw [List.getElem?_eq_none (nthIndex_none_iff.mp hfind)]
      rfl
  | some i =>
      rcases nthIndex_split hfind with ⟨a, l, b, heq, hlen, hp, hcount⟩
      have hline : c.line[i]? = some l := by
        rw [heq, ← hlen, List.getElem?_append_right (le_refl _), Nat.sub_self]
        rfl
      have hocc : (c.line.filter p)[n]? = some l := by
        rw [heq, List.filter_append, List.filter_cons_of_pos hp, ← hcount,
          List.getElem?_append_right (le_refl _), Nat.sub_self]
        rfl
      rw [hocc]
      dsimp only
      rw [hline]

theorem scGet_eq (c : Cfg) (sec key : Text) :
    scGet c sec key =
      ((c.occ (loweredTo secLen sec) (loweredTo keyLen key)).head?).map
        (fun l => lineValue l.text) := by
  have hfirst := scGetN_eq c sec key 0
  rw [← List.head?_eq_getElem?] at hfirst
  exact hfirst

/-!
## What setting does to the lines
-/

theorem eraseIdx_at (a : List Line) (l : Line) (b : List Line) :
    (a ++ l :: b).eraseIdx a.length = a ++ b := by
  rw [List.eraseIdx_append_of_length_le (le_refl _), Nat.sub_self]
  rfl

theorem set_at (a : List Line) (l l' : Line) (b : List Line) :
    (a ++ l :: b).set a.length l' = a ++ l' :: b := by
  rw [List.set_append_right _ _ (le_refl _), Nat.sub_self]
  rfl

structure SplitAt (c : Cfg) (s k : Text) (n : Nat) (a : List Line) (l : Line) (b : List Line) :
    Prop where
  line : c.line = a ++ l :: b
  sets : Line.sets s k l = true
  before : (a.filter (Line.sets s k)).length = n

theorem exists_splitAt {c : Cfg} {s k : Text} {n : Nat} (h : n < (c.occ s k).length) :
    exists i a l b, nthIndex (Line.sets s k) n c.line = some i ∧ a.length = i ∧
      SplitAt c s k n a l b := by
  cases hfind : nthIndex (Line.sets s k) n c.line with
  | none => exact absurd (nthIndex_none_iff.mp hfind) (Nat.not_le.mpr h)
  | some i =>
      rcases nthIndex_split hfind with ⟨a, l, b, heq, hlen, hp, hcount⟩
      exact ⟨i, a, l, b, rfl, hlen, heq, hp, hcount⟩

section
variable {c : Cfg} {sec key : Text} {n : Nat}

theorem scSetN_eq (h : n ≤ (c.occ (loweredTo secLen sec) (loweredTo keyLen key)).length)
    (val : Option Text) :
    scSetN c sec key n val =
      match nthIndex (Line.sets (loweredTo secLen sec) (loweredTo keyLen key)) n c.line, val with
      | some i, _ => (true, c.setLine i (loweredTo keyLen key) val)
      | none, none => (true, c)
      | none, some v => c.addLine (loweredTo secLen sec) (loweredTo keyLen key) v := by
  have hs : loweredTo secLen (loweredTo secLen sec) = loweredTo secLen sec :=
    loweredTo_loweredTo (by decide) sec
  have hk : loweredTo keyLen (loweredTo keyLen key) = loweredTo keyLen key :=
    loweredTo_loweredTo (by decide) key
  have hin : ¬ ((n : Int) < 0 ∨
      (n : Int) > (scCount c (loweredTo secLen sec) (loweredTo keyLen key) : Nat)) := by
    rw [scCount_eq, hs, hk]
    lia
  have hfind : c.findN (loweredTo secLen sec) (loweredTo keyLen key) n =
      nthIndex (Line.sets (loweredTo secLen sec) (loweredTo keyLen key)) n c.line := by
    rw [Cfg.findN_eq, hs, hk]
  unfold scSetN
  dsimp only
  rw [if_neg hin]
  exact hfind ▸ rfl

theorem scSetN_remove (h : n < (c.occ (loweredTo secLen sec) (loweredTo keyLen key)).length) :
    exists a l b, SplitAt c (loweredTo secLen sec) (loweredTo keyLen key) n a l b ∧
      scSetN c sec key n none = (true, { c with line := a ++ b, dirty := true }) := by
  rcases exists_splitAt h with ⟨i, a, l, b, hfind, hlen, hsplit⟩
  refine ⟨a, l, b, hsplit, ?_⟩
  rw [scSetN_eq (Nat.le_of_lt h), hfind]
  dsimp only
  unfold Cfg.setLine
  dsimp only
  rw [hsplit.line, ← hlen, eraseIdx_at]

theorem scSetN_change (h : n < (c.occ (loweredTo secLen sec) (loweredTo keyLen key)).length)
    (v : Text) :
    exists a l b, SplitAt c (loweredTo secLen sec) (loweredTo keyLen key) n a l b ∧
      (scSetN c sec key n (some v)).1 = true ∧
      (scSetN c sec key n (some v)).2.line =
        a ++ { l with text := keyText (loweredTo keyLen key) v } :: b := by
  rcases exists_splitAt h with ⟨i, a, l, b, hfind, hlen, hsplit⟩
  have hat : c.line[i]? = some l := by
    rw [hsplit.line, ← hlen, List.getElem?_append_right (le_refl _), Nat.sub_self]
    rfl
  refine ⟨a, l, b, hsplit, ?_⟩
  rw [scSetN_eq (Nat.le_of_lt h), hfind]
  dsimp only
  unfold Cfg.setLine
  dsimp only
  rw [hat]
  dsimp only
  split
  · next hsame =>
    refine ⟨rfl, ?_⟩
    rw [hsame]
    exact hsplit.line
  · refine ⟨rfl, ?_⟩
    dsimp only
    rw [hsplit.line, ← hlen, set_at]

theorem scSetN_next (h : n = (c.occ (loweredTo secLen sec) (loweredTo keyLen key)).length)
    (val : Option Text) :
    scSetN c sec key n val =
      match val with
      | none => (true, c)
      | some v => c.addLine (loweredTo secLen sec) (loweredTo keyLen key) v := by
  have hnone : nthIndex (Line.sets (loweredTo secLen sec) (loweredTo keyLen key)) n c.line = none :=
    nthIndex_none_iff.mpr (le_of_eq h.symm)
  rw [scSetN_eq (le_of_eq h), hnone]
  cases val with
  | none => rfl
  | some v => rfl

end

/-!
## Lines that are kept
-/

section
variable {c : Cfg} {q : Line -> Bool}

theorem insert_line (c : Cfg) (pos : Nat) (s t : Text) :
    c.insert pos s t =
      if c.line.length ≥ maxLines then (false, c)
      else (true, { c with line := c.line.take pos ++ madeLine s t :: c.line.drop pos }) := rfl

theorem insert_filter {pos : Nat} {s t : Text} (hq : q (madeLine s t) = false) :
    (c.insert pos s t).2.line.filter q = c.line.filter q := by
  rw [insert_line]
  split
  · rfl
  · have hno : ¬ q (madeLine s t) = true := by
      rw [hq]
      decide
    dsimp only
    rw [List.filter_append, List.filter_cons_of_neg hno, ← List.filter_append,
      List.take_append_drop]

theorem scAddSection_filter {s : Text} (hq : forall l, l.sec = bounded secLen s -> l.key = [] ->
      q l = false) (hs : loweredTo secLen s = s) :
    (scAddSection c s).2.line.filter q = c.line.filter q := by
  have hblank : q (madeLine s []) = false := hq _ rfl rfl
  have hheader : q (madeLine s ('[' :: s ++ [']'])) = false := by
    apply hq _ rfl
    rfl
  unfold scAddSection
  dsimp only
  rw [hs]
  split
  · rfl
  · split
    · rfl
    · generalize hspaced : (if c.line.getLast?.any (fun l => decide (l.text ≠ [])) = true then
        c.insert c.line.length s [] else (true, c)) = spaced
      have hkept : spaced.2.line.filter q = c.line.filter q := by
        rw [← hspaced]
        split
        · exact insert_filter hblank
        · rfl
      split
      · exact hkept
      · split
        · exact (insert_filter hheader).trans hkept
        · exact (insert_filter hheader).trans hkept

theorem addLine_filter {s k v : Text} (hs : loweredTo secLen s = s)
    (hq : forall l, l.sec = bounded secLen s -> l.key = [] -> q l = false)
    (hline : q (madeLine s (keyText k v)) = false) :
    (c.addLine s k v).2.line.filter q = c.line.filter q := by
  unfold Cfg.addLine
  dsimp only
  cases hend : c.sectionEnd s with
  | some pos =>
      dsimp only
      rw [if_neg (by decide)]
      split
      · exact insert_filter hline
      · exact insert_filter hline
  | none =>
      have hkept := scAddSection_filter (c := c) hq hs
      dsimp only
      split
      · exact hkept
      · split
        · exact (insert_filter hline).trans hkept
        · exact (insert_filter hline).trans hkept

end

/-!
## Keys that are words
-/

/-- A key as a file has it: one word in lower case that starts neither a comment nor a
section. -/
structure PlainKey (k : Text) : Prop where
  short : k.length < keyLen
  lower : lowercase k = k
  word : forall ch, ch ∈ k -> isspace ch = false
  first : forall ch, k.head? = some ch -> ch ≠ '#' ∧ ch ≠ '/' ∧ ch ≠ '['
  nonempty : k ≠ []

namespace PlainKey

variable {k : Text}

theorem of_all (hshort : k.length < keyLen) (hlower : lowercase k = k)
    (hword : k.all (fun ch => !isspace ch) = true)
    (hfirst : forall ch, k.head? = some ch -> ch ≠ '#' ∧ ch ≠ '/' ∧ ch ≠ '[') (hne : k ≠ []) :
    PlainKey k where
  short := hshort
  lower := hlower
  word := by
    intro ch hch
    have hone := List.all_eq_true.mp hword ch hch
    simpa using hone
  first := hfirst
  nonempty := hne

section

variable (hk : PlainKey k)

include hk

theorem lowered : loweredTo keyLen k = k := by
  rw [loweredTo, bounded_short hk.short]
  exact hk.lower

theorem skipBlanks_append (rest : Text) : skipBlanks (k ++ rest) = k ++ rest := by
  cases hcase : k with
  | nil => exact absurd hcase hk.nonempty
  | cons ch chs =>
      have hspace := hk.word ch (by rw [hcase]; exact List.mem_cons_self)
      have hblank : isBlank ch = false := by
        unfold isspace at hspace
        unfold isBlank
        simp only [Bool.or_eq_false_iff, beq_eq_false_iff_ne] at hspace ⊢
        refine ⟨hspace.1, ?_⟩
        rintro rfl
        exact absurd hspace.2 (by decide)
      unfold skipBlanks
      rw [List.cons_append]
      exact List.dropWhile_cons_of_neg (by rw [hblank]; decide)

theorem takeWhile_self : k.takeWhile (fun c => !isspace c) = k := by
  apply List.takeWhile_eq_self_iff.mpr
  intro ch hch
  rw [hk.word ch hch]
  rfl

theorem lineKey_append {rest : Text} (hrest : rest = [] ∨ rest.head? = some ' ') :
    lineKey (k ++ rest) = k := by
  have htake : (k ++ rest).takeWhile (fun c => !isspace c) = k := by
    rcases hrest with rfl | hblank
    · rw [List.append_nil]
      exact hk.takeWhile_self
    · cases hcase : rest with
      | nil =>
          rw [hcase] at hblank
          cases hblank
      | cons ch chs =>
          rw [hcase] at hblank
          rw [Option.some.inj hblank, takeWhile_append_stop (by decide)]
          exact hk.takeWhile_self
  unfold lineKey
  rw [hk.skipBlanks_append]
  cases hcase : k with
  | nil => exact absurd hcase hk.nonempty
  | cons ch chs =>
      have hfirst := hk.first ch (by rw [hcase]; rfl)
      have hspace := hk.word ch (by rw [hcase]; exact List.mem_cons_self)
      have hreturn : ch ≠ '\r' := by
        rintro rfl
        exact absurd hspace (by decide)
      have hnewline : ch ≠ '\n' := by
        rintro rfl
        exact absurd hspace (by decide)
      rw [hcase] at htake
      rw [List.cons_append] at htake ⊢
      dsimp only
      rw [if_neg (by
        rintro (h | h | h | h | h)
        · exact hfirst.1 h
        · exact hfirst.2.1 h
        · exact hfirst.2.2 h
        · exact hreturn h
        · exact hnewline h), htake, ← hcase,
        List.take_of_length_le (Nat.le_sub_one_of_lt hk.short)]
      exact hk.lower

theorem keyText_eq (v : Text) :
    exists rest, bounded lineLen (keyText k v) = k ++ rest ∧
      (rest = [] ∨ rest.head? = some ' ') := by
  have hlen : k.length ≤ lineLen - 1 := by
    have hshort := hk.short
    unfold keyLen at hshort
    unfold lineLen
    lia
  have htwice : bounded lineLen (keyText k v) = keyText k v :=
    bounded_short (bounded_length (by decide) _)
  rw [htwice]
  unfold keyText bounded
  split
  · exact ⟨[], by rw [List.take_of_length_le hlen, List.append_nil], Or.inl rfl⟩
  · refine ⟨(' ' :: v).take (lineLen - 1 - k.length), ?_, ?_⟩
    · rw [List.take_append, List.take_of_length_le hlen]
    · right
      have hroom : lineLen - 1 - k.length ≠ 0 := by
        have hshort := hk.short
        unfold keyLen at hshort
        unfold lineLen
        lia
      rcases Nat.exists_eq_succ_of_ne_zero hroom with ⟨j, hj⟩
      rw [hj]
      rfl

theorem madeLine_key (s v : Text) : (madeLine s (keyText k v)).key = k := by
  rcases hk.keyText_eq v with ⟨rest, heq, hrest⟩
  show lineKey (bounded lineLen (keyText k v)) = k
  rw [heq]
  exact hk.lineKey_append hrest

theorem lineKey_keyText (v : Text) : lineKey (keyText k v) = k := by
  have htwice : bounded lineLen (keyText k v) = keyText k v :=
    bounded_short (bounded_length (by decide) _)
  rw [← htwice]
  exact hk.madeLine_key [] v

end

end PlainKey

theorem scSetN_filter {c : Cfg} {sec key : Text} {n : Nat} {q : Line -> Bool}
    (hk : PlainKey (loweredTo keyLen key))
    (hn : n ≤ (c.occ (loweredTo secLen sec) (loweredTo keyLen key)).length)
    (hq : forall l : Line, l.sec = loweredTo secLen sec ->
      (l.key = [] ∨ l.key = loweredTo keyLen key) -> q l = false) (val : Option Text) :
    (scSetN c sec key n val).2.line.filter q = c.line.filter q := by
  have hs : loweredTo secLen (loweredTo secLen sec) = loweredTo secLen sec :=
    loweredTo_loweredTo (by decide) sec
  have hbound : bounded secLen (loweredTo secLen sec) = loweredTo secLen sec :=
    bounded_short (loweredTo_length (by decide) sec)
  have hsets : forall l : Line, Line.sets (loweredTo secLen sec) (loweredTo keyLen key) l = true ->
      ¬ q l = true := by
    intro l hl
    unfold Line.sets at hl
    have hall := of_decide_eq_true hl
    rw [hq l hall.2.1 (Or.inr hall.2.2)]
    decide
  rcases Nat.lt_or_ge n (c.occ (loweredTo secLen sec) (loweredTo keyLen key)).length with hlt | hge
  · cases val with
    | none =>
        rcases scSetN_remove hlt with ⟨a, l, b, hsplit, heq⟩
        rw [heq, hsplit.line]
        dsimp only
        rw [List.filter_append, List.filter_append, List.filter_cons_of_neg (hsets l hsplit.sets)]
    | some v =>
        rcases scSetN_change hlt v with ⟨a, l, b, hsplit, _, heq⟩
        have hsame : Line.sets (loweredTo secLen sec) (loweredTo keyLen key)
            { l with text := keyText (loweredTo keyLen key) v } = true := hsplit.sets
        rw [heq, hsplit.line, List.filter_append, List.filter_append,
          List.filter_cons_of_neg (hsets l hsplit.sets), List.filter_cons_of_neg (hsets _ hsame)]
  · rw [scSetN_next (Nat.le_antisymm hn hge)]
    cases val with
    | none => rfl
    | some v =>
        apply addLine_filter hs
        · intro l hsec hkey
          exact hq l (hsec.trans hbound) (Or.inl hkey)
        · exact hq _ hbound (Or.inr (hk.madeLine_key _ v))

/-!
## Cached keys
-/

/-- Every line's key is the one its text has, and the file has no more lines than its
table. -/
structure Cfg.Cached (c : Cfg) : Prop where
  key : forall l, l ∈ c.line -> l.key = lineKey l.text
  room : c.line.length ≤ maxLines

theorem loadLines_key {sec : Text} {raws : List Text} {l : Line} (hl : l ∈ loadLines sec raws) :
    l.key = lineKey l.text := by
  induction raws generalizing sec with
  | nil => cases hl
  | cons raw rest ih =>
      rcases List.mem_cons.mp hl with heq | htail
      · rw [heq]
        rfl
      · exact ih htail

theorem length_loadLines (sec : Text) (raws : List Text) :
    (loadLines sec raws).length = raws.length := by
  induction raws generalizing sec with
  | nil => rfl
  | cons raw rest ih => exact congrArg (fun n => n + 1) (ih _)

theorem cached_scLoadText {text : Text} {c : Cfg} (h : scLoadText text = some c) : c.Cached := by
  unfold scLoadText at h
  dsimp only at h
  split at h
  · next hroom =>
    rw [← Option.some.inj h]
    refine ⟨fun l hl => loadLines_key hl, ?_⟩
    rw [length_loadLines]
    exact hroom
  · cases h

end Setup
end PistormAtari
