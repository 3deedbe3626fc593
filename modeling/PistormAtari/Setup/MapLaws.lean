import Mathlib
import PistormAtari.Setup.CfgLaws

/-!
# What is set is what is read

Setting an occurrence of a key changes the value at its index and no other, and removing
one moves the later occurrences of that key down.  The lines change in one place: there
the key's line comes or goes, or a section is opened for it.
-/

namespace PistormAtari
namespace Setup

open Foundation

/-!
## The end of a section
-/

section
variable {c : Cfg} {s : Text}

theorem sectionEnd_split {pos : Nat} (hs : loweredTo secLen s = s)
    (h : c.sectionEnd s = some pos) :
    exists a z b, c.line = a ++ z :: b ∧ a.length + 1 = pos ∧ z.sec = s ∧ z.text ≠ [] ∧
      forall l, l ∈ b -> l.sec = s -> l.text = [] := by
  unfold Cfg.sectionEnd at h
  dsimp only at h
  rw [hs] at h
  generalize hone : (fun l : Line => decide (l.sec = s ∧ l.text ≠ [])) = isOne at h
  have hmeans : forall l, isOne l = true <-> l.sec = s ∧ l.text ≠ [] := by
    intro l
    rw [← hone, decide_eq_true_iff]
  have hnot : (fun l : Line => !decide (l.sec = s ∧ l.text ≠ [])) = fun l => !isOne l := by
    rw [← hone]
  rw [hnot] at h
  split at h
  · next hany =>
    have hsplit : c.line.reverse.takeWhile (fun l => !isOne l) ++
        c.line.reverse.dropWhile (fun l => !isOne l) = c.line.reverse :=
      List.takeWhile_append_dropWhile
    have hhead := List.head?_dropWhile_not (fun l => !isOne l) c.line.reverse
    have htaken : forall l, l ∈ c.line.reverse.takeWhile (fun l => !isOne l) -> isOne l = false := by
      intro l hl
      have hno := List.mem_takeWhile_imp hl
      simpa using hno
    generalize c.line.reverse.takeWhile (fun l => !isOne l) = t at h hsplit htaken
    cases hrest : c.line.reverse.dropWhile (fun l => !isOne l) with
    | nil =>
        rw [hrest, List.append_nil] at hsplit
        rcases List.any_eq_true.mp hany with ⟨l, hl, hyes⟩
        rw [← List.mem_reverse, ← hsplit] at hl
        rw [htaken l hl] at hyes
        cases hyes
    | cons z r =>
        rw [hrest] at hsplit hhead
        have hz : isOne z = true := by simpa using hhead
        have hline : c.line = r.reverse ++ z :: t.reverse := by
          rw [← List.reverse_reverse c.line, ← hsplit]
          simp
        refine ⟨r.reverse, z, t.reverse, hline, ?_, ((hmeans z).mp hz).1, ((hmeans z).mp hz).2, ?_⟩
        · rw [← Option.some.inj h, hline]
          simp
          lia
        · intro l hl hsec
          by_contra hne
          have hyes := (hmeans l).mpr ⟨hsec, hne⟩
          rw [htaken l (List.mem_reverse.mp hl)] at hyes
          cases hyes
  · cases h

/-!
## A line that is put in
-/

def putLine (c : Cfg) (pos : Nat) (s t : Text) : Bool × Cfg :=
  let made := c.insert pos s t
  if made.1 = false then (false, made.2) else (true, { made.2 with dirty := true })

theorem putLine_eq {pos : Nat} {t : Text} (hok : (putLine c pos s t).1 = true) :
    c.line.length < maxLines ∧
      putLine c pos s t =
        (true, { c with line := c.line.take pos ++ madeLine s t :: c.line.drop pos, dirty := true }) := by
  by_cases hroom : c.line.length < maxLines
  · refine ⟨hroom, ?_⟩
    unfold putLine
    rw [insert_line, if_neg (Nat.not_le.mpr hroom)]
    rfl
  · unfold putLine at hok
    rw [insert_line, if_pos (Nat.not_lt.mp hroom)] at hok
    cases hok

theorem putLine_line {t : Text} {a b : List Line} (hline : c.line = a ++ b)
    (hok : (putLine c a.length s t).1 = true) :
    (putLine c a.length s t).2.line = a ++ madeLine s t :: b := by
  rw [(putLine_eq hok).2]
  show c.line.take a.length ++ madeLine s t :: c.line.drop a.length = _
  rw [hline, List.take_left, List.drop_left]

def spaced (c : Cfg) (s : Text) : Bool × Cfg :=
  if c.line.getLast?.any (fun l => l.text ≠ []) then c.insert c.line.length s []
  else (true, c)

abbrev headerText (s : Text) : Text := '[' :: s ++ [']']

theorem scAddSection_of_new (hlow : loweredTo secLen s = s) (hne : s ≠ [])
    (hnew : c.sectionEnd s = none) :
    scAddSection c s =
      if (spaced c s).1 = false then (false, (spaced c s).2)
      else putLine (spaced c s).2 (spaced c s).2.line.length s (headerText s) := by
  unfold scAddSection
  dsimp only
  rw [hlow, if_neg hne, hnew]
  rfl

theorem addLine_of_end {pos : Nat} (hend : c.sectionEnd s = some pos) (k v : Text) :
    c.addLine s k v = putLine c pos s (keyText k v) := by
  unfold Cfg.addLine
  rw [hend]
  rfl

theorem addLine_of_new (hend : c.sectionEnd s = none) (k v : Text) :
    c.addLine s k v =
      if (scAddSection c s).1 = false then (false, (scAddSection c s).2)
      else putLine (scAddSection c s).2 (scAddSection c s).2.line.length s (keyText k v) := by
  unfold Cfg.addLine
  rw [hend]
  rfl

/-- A line that opens a section: the blank line before it or its header. -/
def Opens (s : Text) (l : Line) : Prop := l = madeLine s [] ∨ l = madeLine s (headerText s)

theorem Opens.key {l : Line} (h : Opens s l) : l.key = [] := by
  rcases h with rfl | rfl
  · rfl
  · rfl

theorem spaced_line (hok : (spaced c s).1 = true) :
    (spaced c s).2.line = c.line ∨ (spaced c s).2.line = c.line ++ [madeLine s []] := by
  unfold spaced at hok ⊢
  split
  · next hlast =>
    rw [if_pos hlast, insert_line] at hok
    rw [insert_line]
    split at hok
    · cases hok
    · next hroom =>
      right
      rw [if_neg hroom, List.take_length, List.drop_length]
  · exact Or.inl rfl

theorem scAddSection_nonempty (hlow : loweredTo secLen s = s) (hok : (scAddSection c s).1 = true) :
    s ≠ [] := by
  rintro hnil
  unfold scAddSection at hok
  dsimp only at hok
  rw [hlow, if_pos hnil] at hok
  cases hok

theorem scAddSection_line (hlow : loweredTo secLen s = s) (hnew : c.sectionEnd s = none)
    (hok : (scAddSection c s).1 = true) :
    exists pre, (scAddSection c s).2.line = c.line ++ pre ∧ (forall l, l ∈ pre -> Opens s l) ∧
      pre.length ≤ 2 := by
  have hheader : forall l, l ∈ [madeLine s (headerText s)] -> Opens s l := by
    intro l hl
    exact Or.inr (List.mem_singleton.mp hl)
  have hne := scAddSection_nonempty hlow hok
  rw [scAddSection_of_new hlow hne hnew] at hok ⊢
  cases hspaced : (spaced c s).1 with
  | false =>
      rw [hspaced, if_pos rfl] at hok
      cases hok
  | true =>
      rw [hspaced, if_neg (by decide)] at hok
      rw [if_neg (by decide), putLine_line (List.append_nil _).symm hok]
      rcases spaced_line hspaced with hsame | hblank
      · refine ⟨[madeLine s (headerText s)], by rw [hsame], hheader, Nat.le_succ 1⟩
      · refine ⟨[madeLine s [], madeLine s (headerText s)], ?_, ?_, le_refl 2⟩
        · rw [hblank, List.append_assoc]
          rfl
        · intro l hl
          rcases List.mem_cons.mp hl with heq | htail
          · exact Or.inl heq
          · exact hheader l htail

/-- What adding a key puts into the file: its line behind the section's lines, and before
it the lines of a section that is new. -/
structure Added (c c' : Cfg) (s : Text) (l : Line) (a pre b : List Line) : Prop where
  before : c.line = a ++ b
  after : c'.line = a ++ (pre ++ [l]) ++ b
  opens : forall x, x ∈ pre -> Opens s x
  few : pre.length ≤ 2
  fresh : pre = [] ∨ c.sectionEnd s = none
  last : forall x, x ∈ b -> x.sec = s -> x.text = []

theorem addLine_added {k v : Text} (hlow : loweredTo secLen s = s)
    (hok : (c.addLine s k v).1 = true) :
    exists a pre b, Added c (c.addLine s k v).2 s (madeLine s (keyText k v)) a pre b := by
  cases hend : c.sectionEnd s with
  | some pos =>
      rcases sectionEnd_split hlow hend with ⟨a, z, b, hline, hpos, _, _, hlast⟩
      have hline' : c.line = (a ++ [z]) ++ b := by
        rw [List.append_assoc]
        exact hline
      have hlen : (a ++ [z]).length = pos := by
        rw [List.length_append]
        exact hpos
      rw [addLine_of_end hend, ← hlen] at hok ⊢
      refine ⟨a ++ [z], [], b, hline', ?_, fun x hx => (by cases hx), Nat.zero_le 2, Or.inl rfl, hlast⟩
      rw [putLine_line hline' hok, List.append_assoc (a ++ [z])]
      rfl
  | none =>
      rw [addLine_of_new hend] at hok ⊢
      cases hnew : (scAddSection c s).1 with
      | false =>
          rw [hnew, if_pos rfl] at hok
          cases hok
      | true =>
          rw [hnew, if_neg (by decide)] at hok
          rw [if_neg (by decide)]
          rcases scAddSection_line hlow hend hnew with ⟨pre, hline, hopens, hfew⟩
          refine ⟨c.line, pre, [], (List.append_nil _).symm, ?_, hopens, hfew, Or.inr hend,
            fun x hx => (by cases hx)⟩
          rw [putLine_line (List.append_nil _).symm hok, hline]
          simp

end

/-!
## The lines change in one place
-/

/-- Between the lines `a` and `b` the line of a key goes or another one comes, with the
lines that open its section before it if the section is new. -/
structure EditedAt (c c' : Cfg) (s k : Text) (a old pre new b : List Line) : Prop where
  before : c.line = a ++ old ++ b
  after : c'.line = a ++ (pre ++ new) ++ b
  oldFew : old.length ≤ 1
  newFew : new.length ≤ 1
  own : forall l, l ∈ old ∨ l ∈ new -> Line.sets s k l = true
  opens : forall l, l ∈ pre -> Opens s l
  preFew : pre.length ≤ 2
  fresh : pre = [] ∨ c.sectionEnd s = none

def Edited (c c' : Cfg) (s k : Text) : Prop :=
  exists a old pre new b, EditedAt c c' s k a old pre new b

theorem Edited.length {c c' : Cfg} {s k : Text} (h : Edited c c' s k) :
    c'.line.length ≤ c.line.length + 3 := by
  rcases h with ⟨a, old, pre, new, b, hat⟩
  have hnew := hat.newFew
  have hpre := hat.preFew
  rw [hat.before, hat.after]
  simp only [List.length_append]
  lia

section
variable {c : Cfg} {sec key : Text} {n : Nat}

theorem scSetN_index {i : Int} {val : Option Text} (hok : (scSetN c sec key i val).1 = true) :
    exists n : Nat, i = n ∧ n ≤ (c.occ (loweredTo secLen sec) (loweredTo keyLen key)).length := by
  have hs : loweredTo secLen (loweredTo secLen sec) = loweredTo secLen sec :=
    loweredTo_loweredTo (by decide) sec
  have hk : loweredTo keyLen (loweredTo keyLen key) = loweredTo keyLen key :=
    loweredTo_loweredTo (by decide) key
  unfold scSetN at hok
  dsimp only at hok
  rw [scCount_eq, hs, hk] at hok
  split at hok
  · cases hok
  · next hin =>
    rcases not_or.mp hin with ⟨hneg, hpast⟩
    exact ⟨i.toNat, by lia, by lia⟩

theorem sets_madeLine {s k : Text} (hlow : loweredTo secLen s = s) (hk : PlainKey k) (v : Text) :
    Line.sets s k (madeLine s (keyText k v)) = true := by
  have hshort : s.length < secLen := by
    rw [← hlow]
    exact loweredTo_length (by decide) s
  refine decide_eq_true ⟨?_, bounded_short hshort, hk.madeLine_key s v⟩
  rw [hk.madeLine_key]
  exact hk.nonempty

theorem scSetN_edited (hk : PlainKey (loweredTo keyLen key)) {i : Int} {val : Option Text}
    (hok : (scSetN c sec key i val).1 = true) :
    Edited c (scSetN c sec key i val).2 (loweredTo secLen sec) (loweredTo keyLen key) := by
  rcases scSetN_index hok with ⟨n, rfl, hn⟩
  rcases Nat.lt_or_ge n (c.occ (loweredTo secLen sec) (loweredTo keyLen key)).length with hlt | hge
  · cases val with
    | none =>
        rcases scSetN_remove hlt with ⟨a, l, b, hsplit, heq⟩
        refine ⟨a, [l], [], [], b, ?_, ?_, le_refl 1, Nat.zero_le 1, ?_, fun x hx => (by cases hx),
          Nat.zero_le 2, Or.inl rfl⟩
        · rw [hsplit.line]
          simp
        · rw [heq]
          simp
        · rintro x (hold | hnew)
          · rw [List.mem_singleton.mp hold]
            exact hsplit.sets
          · cases hnew
    | some v =>
        rcases scSetN_change hlt v with ⟨a, l, b, hsplit, _, heq⟩
        refine ⟨a, [l], [], [{ l with text := keyText (loweredTo keyLen key) v }], b, ?_, ?_,
          le_refl 1, le_refl 1, ?_, fun x hx => (by cases hx), Nat.zero_le 2, Or.inl rfl⟩
        · rw [hsplit.line]
          simp
        · rw [heq]
          simp
        · rintro x (hold | hnew)
          · rw [List.mem_singleton.mp hold]
            exact hsplit.sets
          · rw [List.mem_singleton.mp hnew]
            exact hsplit.sets
  · rw [scSetN_next (Nat.le_antisymm hn hge)] at hok ⊢
    cases val with
    | none =>
        exact ⟨c.line, [], [], [], [], by simp, by simp, Nat.zero_le 1, Nat.zero_le 1,
          fun x hx => hx.elim (fun h => (by cases h)) (fun h => (by cases h)),
          fun x hx => (by cases hx), Nat.zero_le 2, Or.inl rfl⟩
    | some v =>
        have hlow : loweredTo secLen (loweredTo secLen sec) = loweredTo secLen sec :=
          loweredTo_loweredTo (by decide) sec
        rcases addLine_added hlow hok with ⟨a, pre, b, hadd⟩
        refine ⟨a, [], pre, [madeLine (loweredTo secLen sec) (keyText (loweredTo keyLen key) v)], b,
          ?_, hadd.after, Nat.zero_le 1, le_refl 1, ?_, hadd.opens, hadd.few, hadd.fresh⟩
        · rw [hadd.before, List.append_nil]
        · rintro x (hold | hnew)
          · cases hold
          · rw [List.mem_singleton.mp hnew]
            exact sets_madeLine hlow hk v

/-!
## The occurrences of the key
-/

theorem occ_remove (hn : n ≤ (c.occ (loweredTo secLen sec) (loweredTo keyLen key)).length) :
    (scSetN c sec key n none).2.occ (loweredTo secLen sec) (loweredTo keyLen key) =
      (c.occ (loweredTo secLen sec) (loweredTo keyLen key)).eraseIdx n := by
  rcases Nat.lt_or_ge n (c.occ (loweredTo secLen sec) (loweredTo keyLen key)).length with hlt | hge
  · rcases scSetN_remove hlt with ⟨a, l, b, hsplit, heq⟩
    rw [heq]
    unfold Cfg.occ
    rw [hsplit.line]
    show (a ++ b).filter _ = _
    rw [List.filter_append, List.filter_append, List.filter_cons_of_pos hsplit.sets,
      ← hsplit.before, eraseIdx_at]
  · rw [scSetN_next (Nat.le_antisymm hn hge), List.eraseIdx_of_length_le hge]

theorem occ_change (hn : n < (c.occ (loweredTo secLen sec) (loweredTo keyLen key)).length)
    (v : Text) :
    exists l : Line, l.text = keyText (loweredTo keyLen key) v ∧
      (scSetN c sec key n (some v)).2.occ (loweredTo secLen sec) (loweredTo keyLen key) =
        (c.occ (loweredTo secLen sec) (loweredTo keyLen key)).set n l := by
  rcases scSetN_change hn v with ⟨a, l, b, hsplit, _, heq⟩
  have hsame : Line.sets (loweredTo secLen sec) (loweredTo keyLen key)
      { l with text := keyText (loweredTo keyLen key) v } = true := hsplit.sets
  refine ⟨{ l with text := keyText (loweredTo keyLen key) v }, rfl, ?_⟩
  unfold Cfg.occ
  rw [heq, hsplit.line, List.filter_append, List.filter_append,
    List.filter_cons_of_pos hsplit.sets, List.filter_cons_of_pos hsame, ← hsplit.before, set_at]

theorem Added.occ {c' : Cfg} {s k : Text} {l : Line} {a pre b : List Line}
    (hadd : Added c c' s l a pre b) (hc : c.Cached) (hsets : Line.sets s k l = true) :
    c'.occ s k = c.occ s k ++ [l] := by
  have hpre : pre.filter (Line.sets s k) = [] := by
    apply List.filter_eq_nil_iff.mpr
    intro x hx hyes
    exact (of_decide_eq_true hyes).1 (hadd.opens x hx).key
  -- the lines of the section behind the new one are blank
  have hb : b.filter (Line.sets s k) = [] := by
    apply List.filter_eq_nil_iff.mpr
    intro x hx hyes
    have hall := of_decide_eq_true hyes
    have hkey := hc.key x (by rw [hadd.before]; exact List.mem_append_right _ hx)
    rw [hadd.last x hx hall.2.1] at hkey
    exact hall.1 hkey
  unfold Cfg.occ
  rw [hadd.after, hadd.before]
  simp only [List.filter_append]
  rw [hpre, hb, List.filter_cons_of_pos hsets]
  simp

theorem getElem?_concat (ls : List Line) (l : Line) (m : Nat) :
    (ls ++ [l])[m]? = if m = ls.length then some l else ls[m]? := by
  rw [List.getElem?_append]
  by_cases hm : m < ls.length
  · rw [if_pos hm, if_neg (Nat.ne_of_lt hm)]
  · rw [if_neg hm]
    by_cases hlast : m = ls.length
    · rw [if_pos hlast, hlast, Nat.sub_self]
      rfl
    · rw [if_neg hlast, List.getElem?_eq_none (Nat.not_lt.mp hm), List.getElem?_eq_none]
      rw [List.length_singleton]
      lia

theorem occ_set (hc : c.Cached) (hk : PlainKey (loweredTo keyLen key))
    (hn : n ≤ (c.occ (loweredTo secLen sec) (loweredTo keyLen key)).length) {v : Text}
    (hok : (scSetN c sec key n (some v)).1 = true) :
    exists l : Line, l.text = keyText (loweredTo keyLen key) v ∧
      forall m, ((scSetN c sec key n (some v)).2.occ (loweredTo secLen sec) (loweredTo keyLen key))[m]? =
        if m = n then some l
        else (c.occ (loweredTo secLen sec) (loweredTo keyLen key))[m]? := by
  rcases Nat.lt_or_ge n (c.occ (loweredTo secLen sec) (loweredTo keyLen key)).length with hlt | hge
  · rcases occ_change hlt v with ⟨l, htext, hset⟩
    refine ⟨l, htext, fun m => ?_⟩
    rw [hset, List.getElem?_set]
    by_cases hm : n = m
    · rw [if_pos hm, if_pos hlt, if_pos hm.symm]
    · rw [if_neg hm, if_neg fun h => hm h.symm]
  · have heq := Nat.le_antisymm hn hge
    have hlow : loweredTo secLen (loweredTo secLen sec) = loweredTo secLen sec :=
      loweredTo_loweredTo (by decide) sec
    have htext : (madeLine (loweredTo secLen sec) (keyText (loweredTo keyLen key) v)).text =
        keyText (loweredTo keyLen key) v := bounded_short (bounded_length (by decide) _)
    rw [scSetN_next heq] at hok ⊢
    rcases addLine_added hlow hok with ⟨a, pre, b, hadd⟩
    refine ⟨madeLine (loweredTo secLen sec) (keyText (loweredTo keyLen key) v), htext, fun m => ?_⟩
    dsimp only
    rw [hadd.occ hc (sets_madeLine hlow hk v), getElem?_concat, ← heq]

theorem occ_other (hk : PlainKey (loweredTo keyLen key))
    (hn : n ≤ (c.occ (loweredTo secLen sec) (loweredTo keyLen key)).length) {s' k' : Text}
    (hother : ¬ (s' = loweredTo secLen sec ∧ k' = loweredTo keyLen key)) (val : Option Text) :
    (scSetN c sec key n val).2.occ s' k' = c.occ s' k' := by
  refine scSetN_filter hk hn ?_ val
  rintro l hsec (hnone | hkey)
  · exact decide_eq_false fun hall => hall.1 hnone
  · exact decide_eq_false fun hall => hother
      ⟨hall.2.1.symm.trans hsec, hall.2.2.symm.trans hkey⟩

/-!
## The values
-/

theorem lineValue_keyText {k v : Text} (hk : PlainKey k)
    (hblank : forall ch, v.head? = some ch -> isBlank ch = false)
    (hfit : k.length + 1 + v.length < lineLen) : lineValue (keyText k v) = v := by
  have hword : forall ch, ch ∈ k -> (!isspace ch) = true := by
    intro ch hch
    rw [hk.word ch hch]
    rfl
  have hv : skipBlanks v = v := by
    cases v with
    | nil => rfl
    | cons ch chs => exact List.dropWhile_cons_of_neg (by rw [hblank ch rfl]; decide)
  unfold keyText lineValue
  split
  · next hnil =>
    rw [bounded_short (by lia), hnil, ← List.append_nil k, hk.skipBlanks_append, List.append_nil,
      List.dropWhile_eq_nil_iff.mpr hword]
    rfl
  · rw [bounded_short (by rw [List.length_append, List.length_cons]; lia), hk.skipBlanks_append,
      List.dropWhile_append_of_pos hword]
    exact hv

theorem scGetN_neg {i : Int} (h : i < 0) (c : Cfg) (sec key : Text) : scGetN c sec key i = none := by
  have hnone : forall (p : Line -> Bool) (ls : List Line) (i : Int), i < 0 ->
      nthIndex p i ls = none := by
    intro p ls
    induction ls with
    | nil => exact fun _ _ => rfl
    | cons l ls ih =>
        intro i hi
        unfold nthIndex
        rw [if_neg (show ¬ i = 0 by lia), ih (i - 1) (by lia), ih i hi]
        split
        · rfl
        · rfl
  unfold scGetN
  rw [Cfg.findN_eq, hnone _ _ _ h]

theorem scGetN_congr {c' : Cfg} {sec key : Text}
    (h : c'.occ (loweredTo secLen sec) (loweredTo keyLen key) =
      c.occ (loweredTo secLen sec) (loweredTo keyLen key)) (i : Int) :
    scGetN c' sec key i = scGetN c sec key i := by
  rcases Int.lt_or_le i 0 with hneg | hpos
  · rw [scGetN_neg hneg, scGetN_neg hneg]
  · rcases Int.eq_ofNat_of_zero_le hpos with ⟨m, rfl⟩
    rw [scGetN_eq, scGetN_eq, h]

abbrev SameKey (sec key sec' key' : Text) : Prop :=
  loweredTo secLen sec' = loweredTo secLen sec ∧ loweredTo keyLen key' = loweredTo keyLen key

theorem scGetN_set (hc : c.Cached) (hk : PlainKey (loweredTo keyLen key)) {v : Text}
    (hblank : forall ch, v.head? = some ch -> isBlank ch = false)
    (hfit : (loweredTo keyLen key).length + 1 + v.length < lineLen) {i : Int}
    (hok : (scSetN c sec key i (some v)).1 = true) (sec' key' : Text) (j : Int) :
    scGetN (scSetN c sec key i (some v)).2 sec' key' j =
      if SameKey sec key sec' key' ∧ j = i then some v else scGetN c sec' key' j := by
  rcases scSetN_index hok with ⟨n, rfl, hn⟩
  by_cases hsame : SameKey sec key sec' key'
  · rcases Int.lt_or_le j 0 with hneg | hpos
    · rw [scGetN_neg hneg, scGetN_neg hneg, if_neg fun h => (by lia)]
    · rcases Int.eq_ofNat_of_zero_le hpos with ⟨m, rfl⟩
      rcases occ_set hc hk hn hok with ⟨l, htext, hocc⟩
      rw [scGetN_eq, scGetN_eq]
      by_cases hm : m = n
      · rw [if_pos ⟨hsame, congrArg Nat.cast hm⟩, hsame.1, hsame.2, hocc, if_pos hm]
        show some (lineValue l.text) = some v
        rw [htext, lineValue_keyText hk hblank hfit]
      · rw [if_neg fun h => hm (Int.ofNat.inj h.2), hsame.1, hsame.2, hocc, if_neg hm]
  · rw [if_neg fun h => hsame h.1]
    exact scGetN_congr (occ_other hk hn hsame (some v)) j

theorem scGetN_remove (hk : PlainKey (loweredTo keyLen key)) {i : Int}
    (hok : (scSetN c sec key i none).1 = true) (sec' key' : Text) (j : Int) :
    scGetN (scSetN c sec key i none).2 sec' key' j =
      if SameKey sec key sec' key' ∧ i ≤ j then scGetN c sec' key' (j + 1)
      else scGetN c sec' key' j := by
  rcases scSetN_index hok with ⟨n, rfl, hn⟩
  by_cases hsame : SameKey sec key sec' key'
  · rcases Int.lt_or_le j 0 with hneg | hpos
    · rw [scGetN_neg hneg, scGetN_neg hneg, if_neg fun h => (by lia)]
    · rcases Int.eq_ofNat_of_zero_le hpos with ⟨m, rfl⟩
      have hnext : ((m : Int) + 1) = ((m + 1 : Nat) : Int) := rfl
      rw [hnext, scGetN_eq, scGetN_eq, scGetN_eq]
      by_cases hm : m < n
      · rw [if_neg fun h => (by lia), hsame.1, hsame.2, occ_remove hn, List.getElem?_eraseIdx,
          if_pos hm]
      · rw [if_pos ⟨hsame, by lia⟩, hsame.1, hsame.2, occ_remove hn, List.getElem?_eraseIdx,
          if_neg hm]
  · rw [if_neg fun h => hsame h.1]
    exact scGetN_congr (occ_other hk hn hsame none) j

end

end Setup
end PistormAtari
