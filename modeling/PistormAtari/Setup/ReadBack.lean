import Mathlib
import PistormAtari.Setup.MapLaws

/-!
# What is saved is loaded

A file that is loaded, edited and saved has the same values when it is loaded again.  A
blank line that is put in front of a new section belongs to that section in memory and to
the one before it in the file, so only the lines that are not blank are compared.
-/

namespace PistormAtari
namespace Setup

open Foundation

/-!
## The section in force
-/

def secAfter (sec : Text) (ls : List Line) : Text :=
  ls.foldl (fun s l => (sectionHeader l.text).getD s) sec

/-- Every line that is not blank has the section in force at it. -/
def Placed : Text -> List Line -> Prop
  | _, [] => True
  | sec, l :: ls =>
      (l.text ≠ [] -> l.sec = (sectionHeader l.text).getD sec) ∧
        Placed ((sectionHeader l.text).getD sec) ls

theorem secAfter_append (sec : Text) (a b : List Line) :
    secAfter sec (a ++ b) = secAfter (secAfter sec a) b :=
  List.foldl_append

theorem placed_append {sec : Text} {a b : List Line} :
    Placed sec (a ++ b) <-> Placed sec a ∧ Placed (secAfter sec a) b := by
  induction a generalizing sec with
  | nil => exact ⟨fun h => ⟨trivial, h⟩, fun h => h.2⟩
  | cons l a ih =>
      have hstep : Placed sec (l :: (a ++ b)) <->
          (l.text ≠ [] -> l.sec = (sectionHeader l.text).getD sec) ∧
            Placed ((sectionHeader l.text).getD sec) (a ++ b) := Iff.rfl
      rw [List.cons_append, hstep, ih, ← and_assoc]
      rfl

theorem placed_loadLines (sec : Text) (raws : List Text) : Placed sec (loadLines sec raws) := by
  induction raws generalizing sec with
  | nil => trivial
  | cons raw rest ih => exact ⟨fun _ => rfl, ih _⟩

theorem sectionHeader_of_key {t : Text} (h : lineKey t ≠ []) : sectionHeader t = none := by
  unfold sectionHeader
  split
  · next rest hskip =>
    apply absurd _ h
    unfold lineKey
    rw [hskip]
    rfl
  · rfl

theorem sectionHeader_written {s : Text} (hne : s ≠ []) (hlen : s.length < secLen)
    (hlow : lowercase s = s) (hclose : ']' ∉ s) :
    sectionHeader ('[' :: s ++ [']']) = some s := by
  have hname : (s ++ [']']).takeWhile (· != ']') = s := by
    rw [takeWhile_append_stop (by decide)]
    apply List.takeWhile_eq_self_iff.mpr
    intro c hc
    rw [bne_iff_ne]
    rintro rfl
    exact hclose hc
  have hcut : s.take (secLen - 1) = s := List.take_of_length_le (Nat.le_sub_one_of_lt hlen)
  have hskip : skipBlanks ('[' :: s ++ [']']) = '[' :: (s ++ [']']) := rfl
  unfold sectionHeader
  rw [hskip]
  show (if _ then some (lowercase (((s ++ [']']).takeWhile (· != ']')).take (secLen - 1)))
    else none) = some s
  rw [hname, hcut, List.drop_left, if_pos ⟨rfl, hne⟩, hlow]

/-!
## Texts that a file keeps
-/

structure Clean (t : Text) : Prop where
  short : t.length < lineLen
  newline : newline ∉ t
  nul : nul ∉ t
  last : t.getLast? ≠ some '\r'

theorem clean_nil : Clean [] :=
  ⟨by decide, by decide, by decide, by decide⟩

theorem Clean.lineText {t : Text} (h : Clean t) : lineText t = t := by
  unfold Setup.lineText
  rw [if_neg h.last]
  exact List.take_of_length_le (Nat.le_sub_one_of_lt h.short)

structure ReadsBack (c : Cfg) : Prop where
  cached : c.Cached
  placed : Placed [] c.line
  clean : forall l, l ∈ c.line -> Clean l.text

theorem loadLines_sets {sec : Text} {ls : List Line} (hplaced : Placed sec ls)
    (hkey : forall l, l ∈ ls -> l.key = lineKey l.text)
    (hclean : forall l, l ∈ ls -> Clean l.text) (s k : Text) :
    (loadLines sec (ls.map Line.text)).filter (Line.sets s k) = ls.filter (Line.sets s k) := by
  induction ls generalizing sec with
  | nil => rfl
  | cons l ls ih =>
      have htext := (hclean l List.mem_cons_self).lineText
      have hk := hkey l List.mem_cons_self
      have hrest := ih hplaced.2 (fun l' hl' => hkey l' (List.mem_cons_of_mem _ hl'))
        (fun l' hl' => hclean l' (List.mem_cons_of_mem _ hl'))
      have hload : loadLine sec l.text =
          { sec := (sectionHeader l.text).getD sec, key := l.key, text := l.text } := by
        unfold loadLine
        rw [htext, hk]
      have hlines : loadLines sec ((l :: ls).map Line.text) =
          loadLine sec l.text :: loadLines ((sectionHeader l.text).getD sec) (ls.map Line.text) := by
        rw [List.map_cons, loadLines, hload]
      rw [hlines, hload]
      by_cases hblank : l.text = []
      · have hnone : l.key = [] := by
          rw [hk, hblank]
          rfl
        have hno : forall sec' : Text, ¬ Line.sets s k
            { sec := sec', key := l.key, text := l.text } = true := by
          intro sec'
          unfold Line.sets
          rw [decide_eq_true_iff]
          exact fun hall => hall.1 hnone
        rw [List.filter_cons_of_neg (hno _), List.filter_cons_of_neg (hno l.sec)]
        exact hrest
      · rw [List.filter_cons, List.filter_cons, hrest, ← hplaced.1 hblank]

section
variable {c : Cfg}

theorem ReadsBack.reload (h : ReadsBack c) :
    exists c', scLoadText (putLines c) = some c' ∧ forall s k, c'.occ s k = c.occ s k := by
  have hline : forall t, t ∈ c.line.map Line.text -> newline ∉ t ∧ nul ∉ t := by
    intro t ht
    rcases List.mem_map.mp ht with ⟨l, hl, rfl⟩
    exact ⟨(h.clean l hl).newline, (h.clean l hl).nul⟩
  refine ⟨{ line := loadLines [] (c.line.map Line.text) }, ?_, fun s k => ?_⟩
  · unfold scLoadText
    dsimp only
    rw [putLines, cstr_of_notMem (nul_notMem_unlines hline),
      textLines_unlines fun t ht => (hline t ht).1, if_pos]
    rw [List.length_map]
    exact h.cached.room
  · exact loadLines_sets h.placed h.cached.key h.clean s k

theorem ReadsBack.length_putLines (h : ReadsBack c) :
    (putLines c).length ≤ c.line.length * lineLen := by
  have hall : forall ls : List Line, (forall l, l ∈ ls -> Clean l.text) ->
      (unlines (ls.map Line.text)).length ≤ ls.length * lineLen := by
    intro ls hclean
    induction ls with
    | nil => exact Nat.zero_le _
    | cons l ls ih =>
        have hshort := (hclean l List.mem_cons_self).short
        have hrest := ih fun x hx => hclean x (List.mem_cons_of_mem _ hx)
        rw [List.map_cons, unlines_cons, List.length_append, List.length_cons, List.length_cons,
          Nat.succ_mul]
        lia
  exact hall c.line h.clean

end

/-!
## Edits that are kept
-/

section
variable {c c' : Cfg} {a b : List Line} {l : Line}

theorem ReadsBack.header_none (h : ReadsBack c) (hl : l ∈ c.line) (hkey : l.key ≠ []) :
    sectionHeader l.text = none := by
  apply sectionHeader_of_key
  rw [← h.cached.key l hl]
  exact hkey

theorem ReadsBack.remove (h : ReadsBack c) (hline : c.line = a ++ l :: b) (hkey : l.key ≠ [])
    (hline' : c'.line = a ++ b) : ReadsBack c' := by
  have hmem : l ∈ c.line := by
    rw [hline]
    exact List.mem_append_right _ List.mem_cons_self
  have hsub : forall x, x ∈ c'.line -> x ∈ c.line := by
    intro x hx
    rw [hline'] at hx
    rw [hline]
    rcases List.mem_append.mp hx with hbefore | hafter
    · exact List.mem_append_left _ hbefore
    · exact List.mem_append_right _ (List.mem_cons_of_mem _ hafter)
  have hplaced := h.placed
  have hroom := h.cached.room
  rw [hline] at hplaced hroom
  rcases placed_append.mp hplaced with ⟨ha, _, hb⟩
  rw [h.header_none hmem hkey] at hb
  refine ⟨⟨fun x hx => h.cached.key x (hsub x hx), ?_⟩, ?_, fun x hx => h.clean x (hsub x hx)⟩
  · rw [hline', List.length_append]
    rw [List.length_append, List.length_cons] at hroom
    lia
  · rw [hline']
    exact placed_append.mpr ⟨ha, hb⟩

theorem ReadsBack.insert (h : ReadsBack c) (hline : c.line = a ++ b)
    (hline' : c'.line = a ++ l :: b) (hroom : c.line.length < maxLines) (hclean : Clean l.text)
    (hkey : l.key = lineKey l.text)
    (hsec : l.text ≠ [] -> l.sec = (sectionHeader l.text).getD (secAfter [] a))
    (hafter : Placed ((sectionHeader l.text).getD (secAfter [] a)) b) : ReadsBack c' := by
  have hall : forall x, x ∈ c'.line -> x ∈ c.line ∨ x = l := by
    intro x hx
    rw [hline'] at hx
    rw [hline]
    rcases List.mem_append.mp hx with hbefore | hrest
    · exact Or.inl (List.mem_append_left _ hbefore)
    · rcases List.mem_cons.mp hrest with hnew | hafter
      · exact Or.inr hnew
      · exact Or.inl (List.mem_append_right _ hafter)
  have hplaced := h.placed
  rw [hline] at hplaced hroom
  refine ⟨⟨?_, ?_⟩, ?_, ?_⟩
  · intro x hx
    rcases hall x hx with hold | hnew
    · exact h.cached.key x hold
    · rw [hnew]
      exact hkey
  · rw [hline', List.length_append, List.length_cons]
    rw [List.length_append] at hroom
    lia
  · rw [hline']
    exact placed_append.mpr ⟨(placed_append.mp hplaced).1, hsec, hafter⟩
  · intro x hx
    rcases hall x hx with hold | hnew
    · exact h.clean x hold
    · rw [hnew]
      exact hclean

theorem ReadsBack.change (h : ReadsBack c) (hline : c.line = a ++ l :: b) (hkey : l.key ≠ [])
    {t : Text} (hclean : Clean t) (ht : lineKey t = l.key)
    (hline' : c'.line = a ++ { l with text := t } :: b) : ReadsBack c' := by
  have hmem : l ∈ c.line := by
    rw [hline]
    exact List.mem_append_right _ List.mem_cons_self
  have hnone : sectionHeader t = none := sectionHeader_of_key (by rw [ht]; exact hkey)
  have htext : l.text ≠ [] := by
    intro hblank
    apply hkey
    rw [h.cached.key l hmem, hblank]
    rfl
  have hplaced := h.placed
  have hroom := h.cached.room
  rw [hline] at hplaced hroom
  rcases placed_append.mp hplaced with ⟨_, hl, hb⟩
  rw [h.header_none hmem hkey] at hl hb
  have hshort : ReadsBack { c with line := a ++ b } := h.remove hline hkey rfl
  have hlen : ({ c with line := a ++ b } : Cfg).line.length < maxLines := by
    show (a ++ b).length < maxLines
    rw [List.length_append]
    rw [List.length_append, List.length_cons] at hroom
    lia
  refine hshort.insert rfl hline' hlen hclean ht.symm ?_ ?_
  · intro _
    rw [hnone]
    exact hl htext
  · rw [hnone]
    exact hb

end

/-!
## A key that is added
-/

structure SectionName (s : Text) : Prop where
  lower : loweredTo secLen s = s
  close : ']' ∉ s
  newline : newline ∉ s
  nul : nul ∉ s

namespace SectionName

variable {s : Text}

theorem short (h : SectionName s) : s.length < secLen := by
  have hlen := loweredTo_length (show 0 < secLen by decide) s
  rw [h.lower] at hlen
  exact hlen

theorem bound (h : SectionName s) : bounded secLen s = s := bounded_short h.short

theorem lowercase (h : SectionName s) : lowercase s = s := by
  have hlow := h.lower
  unfold loweredTo at hlow
  rw [h.bound] at hlow
  exact hlow

theorem clean_header (h : SectionName s) : Clean ('[' :: s ++ [']']) := by
  have hmem : forall c, c ∈ '[' :: s ++ [']'] -> c = '[' ∨ c ∈ s ∨ c = ']' := by
    intro c hc
    rcases List.mem_append.mp hc with hfront | hback
    · rcases List.mem_cons.mp hfront with heq | hin
      · exact Or.inl heq
      · exact Or.inr (Or.inl hin)
    · exact Or.inr (Or.inr (List.mem_singleton.mp hback))
  refine ⟨?_, fun hin => ?_, fun hin => ?_, ?_⟩
  · have hshort := h.short
    unfold secLen at hshort
    unfold lineLen
    rw [List.length_append, List.length_cons, List.length_singleton]
    lia
  · rcases hmem _ hin with heq | hins | heq
    · exact absurd heq (by decide)
    · exact h.newline hins
    · exact absurd heq (by decide)
  · rcases hmem _ hin with heq | hins | heq
    · exact absurd heq (by decide)
    · exact h.nul hins
    · exact absurd heq (by decide)
  · rw [List.getLast?_append]
    show (some ']').or _ ≠ some '\r'
    rw [Option.some_or]
    decide

end SectionName

section
variable {c : Cfg} {s : Text}

theorem insert_at_end (c : Cfg) (s t : Text) (h : c.line.length < maxLines) :
    c.insert c.line.length s t = (true, { c with line := c.line ++ [madeLine s t] }) := by
  rw [insert_line, if_neg (Nat.not_le.mpr h), List.take_length, List.drop_length]

theorem madeLine_eq (hs : SectionName s) {t : Text} (ht : Clean t) :
    madeLine s t = { sec := s, key := lineKey t, text := t } := by
  unfold madeLine
  rw [hs.bound, bounded_short ht.short]

theorem ReadsBack.append (h : ReadsBack c) (hs : SectionName s) {t : Text} (ht : Clean t)
    (hroom : c.line.length < maxLines)
    (hsec : t ≠ [] -> s = (sectionHeader t).getD (secAfter [] c.line)) :
    ReadsBack { c with line := c.line ++ [madeLine s t] } := by
  rw [madeLine_eq hs ht]
  exact h.insert (List.append_nil _).symm rfl hroom ht rfl hsec trivial

theorem ReadsBack.putLine (h : ReadsBack c) (hs : SectionName s) {t : Text} (ht : Clean t)
    {a b : List Line} (hline : c.line = a ++ b)
    (hsec : t ≠ [] -> s = (sectionHeader t).getD (secAfter [] a))
    (hafter : Placed ((sectionHeader t).getD (secAfter [] a)) b)
    (hok : (putLine c a.length s t).1 = true) : ReadsBack (putLine c a.length s t).2 := by
  have hput := putLine_line hline hok
  rw [madeLine_eq hs ht] at hput
  exact h.insert hline hput (putLine_eq hok).1 ht rfl hsec hafter

theorem ReadsBack.spaced (h : ReadsBack c) (hs : SectionName s) : ReadsBack (spaced c s).2 := by
  unfold Setup.spaced
  split
  · by_cases hroom : c.line.length < maxLines
    · rw [insert_at_end c s [] hroom]
      exact h.append hs clean_nil hroom (fun hno => absurd rfl hno)
    · rw [insert_line, if_pos (Nat.not_lt.mp hroom)]
      exact h
  · exact h

theorem ReadsBack.scAddSection (h : ReadsBack c) (hs : SectionName s)
    (hnew : c.sectionEnd s = none) (hok : (scAddSection c s).1 = true) :
    ReadsBack (scAddSection c s).2 ∧ secAfter [] (scAddSection c s).2.line = s := by
  have hne := scAddSection_nonempty hs.lower hok
  have hheader := sectionHeader_written hne hs.short hs.lowercase hs.close
  rw [scAddSection_of_new hs.lower hne hnew] at hok ⊢
  cases hspaced : (Setup.spaced c s).1 with
  | false =>
      rw [hspaced, if_pos rfl] at hok
      cases hok
  | true =>
      rw [hspaced, if_neg (by decide)] at hok
      rw [if_neg (by decide)]
      refine ⟨(h.spaced hs).putLine hs hs.clean_header (List.append_nil _).symm ?_ trivial hok, ?_⟩
      · intro _
        rw [hheader]
        rfl
      · rw [putLine_line (List.append_nil _).symm hok, secAfter_append,
          madeLine_eq hs hs.clean_header]
        show (sectionHeader (headerText s)).getD _ = s
        rw [hheader]
        rfl

theorem ReadsBack.addLine {k v : Text} (h : ReadsBack c) (hs : SectionName s)
    (ht : Clean (keyText k v)) (hnone : sectionHeader (keyText k v) = none)
    (hok : (c.addLine s k v).1 = true) : ReadsBack (c.addLine s k v).2 := by
  cases hend : c.sectionEnd s with
  | some pos =>
      rcases sectionEnd_split hs.lower hend with ⟨a, z, b, hline, hpos, hzsec, hztext, _⟩
      have hline' : c.line = (a ++ [z]) ++ b := by
        rw [List.append_assoc]
        exact hline
      have hlen : (a ++ [z]).length = pos := by
        rw [List.length_append]
        exact hpos
      have hplaced := h.placed
      rw [hline'] at hplaced
      -- the section's last line that is not blank is where its section is in force
      have hz := (placed_append.mp (placed_append.mp hplaced).1).2.1 hztext
      have hforce : secAfter [] (a ++ [z]) = s := by
        rw [secAfter_append, ← hzsec]
        exact hz.symm
      rw [addLine_of_end hend, ← hlen] at hok ⊢
      refine h.putLine hs ht hline' ?_ ?_ hok
      · intro _
        rw [hnone]
        exact hforce.symm
      · rw [hnone]
        exact (placed_append.mp hplaced).2
  | none =>
      rw [addLine_of_new hend] at hok ⊢
      cases hnew : (Setup.scAddSection c s).1 with
      | false =>
          rw [hnew, if_pos rfl] at hok
          cases hok
      | true =>
          rw [hnew, if_neg (by decide)] at hok
          rw [if_neg (by decide)]
          rcases h.scAddSection hs hend hnew with ⟨hkept, hforce⟩
          refine hkept.putLine hs ht (List.append_nil _).symm ?_ trivial hok
          intro _
          rw [hnone]
          exact hforce.symm

end

/-!
## Setting a key
-/

section
variable {c : Cfg} {sec key : Text}

structure Holds (k v : Text) : Prop where
  fit : k.length + 1 + v.length < lineLen
  newline : newline ∉ v
  nul : nul ∉ k ∧ nul ∉ v
  last : v.getLast? ≠ some '\r'

theorem Holds.clean {k v : Text} (h : Holds k v) (hk : PlainKey k) : Clean (keyText k v) := by
  have hword : forall ch, isspace ch = true -> ch ∉ k := by
    intro ch hyes hin
    rw [hk.word ch hin] at hyes
    cases hyes
  have hfit := h.fit
  unfold keyText
  split
  · rw [bounded_short (by lia)]
    refine ⟨by lia, hword _ (by decide), h.nul.1, fun hlast => ?_⟩
    exact hword '\r' (by decide) (List.mem_of_getLast? hlast)
  · next hne =>
    have hlen : (k ++ ' ' :: v).length < lineLen := by
      rw [List.length_append, List.length_cons]
      lia
    have hmem : forall ch, ch ≠ ' ' -> ch ∉ k -> ch ∉ v -> ch ∉ k ++ ' ' :: v := by
      intro ch hblank hkey hvalue hin
      rcases List.mem_append.mp hin with hin | hin
      · exact hkey hin
      · rcases List.mem_cons.mp hin with heq | hin
        · exact hblank heq
        · exact hvalue hin
    rw [bounded_short hlen]
    refine ⟨hlen, hmem _ (by decide) (hword _ (by decide)) h.newline,
      hmem _ (by decide) h.nul.1 h.nul.2, ?_⟩
    rw [List.getLast?_append_of_ne_nil _ (List.cons_ne_nil _ _), List.getLast?_cons_of_ne_nil hne]
    exact h.last

theorem ReadsBack.scSetN (h : ReadsBack c) (hk : PlainKey (loweredTo keyLen key))
    (hs : SectionName (loweredTo secLen sec)) {i : Int} {val : Option Text}
    (hval : forall v, val = some v -> Clean (keyText (loweredTo keyLen key) v))
    (hok : (scSetN c sec key i val).1 = true) : ReadsBack (scSetN c sec key i val).2 := by
  rcases scSetN_index hok with ⟨n, rfl, hn⟩
  rcases Nat.lt_or_ge n (c.occ (loweredTo secLen sec) (loweredTo keyLen key)).length with hlt | hge
  · cases val with
    | none =>
        rcases scSetN_remove hlt with ⟨a, l, b, hsplit, heq⟩
        have hkey := (of_decide_eq_true hsplit.sets).1
        rw [heq]
        exact h.remove hsplit.line hkey rfl
    | some v =>
        rcases scSetN_change hlt v with ⟨a, l, b, hsplit, _, heq⟩
        have hall := of_decide_eq_true hsplit.sets
        refine h.change hsplit.line hall.1 (hval v rfl) ?_ heq
        rw [hall.2.2]
        exact hk.lineKey_keyText v
  · rw [scSetN_next (Nat.le_antisymm hn hge)] at hok ⊢
    cases val with
    | none => exact h
    | some v =>
        have hkey : lineKey (keyText (loweredTo keyLen key) v) ≠ [] := by
          rw [hk.lineKey_keyText v]
          exact hk.nonempty
        exact h.addLine hs (hval v rfl) (sectionHeader_of_key hkey) hok

/-!
## From a loaded file
-/

/-- A text's line without its CR, if it does not end in two. -/
theorem clean_lineText {raw : Text} (hlen : raw.length < lineLen) (hnewline : newline ∉ raw)
    (hnul : nul ∉ raw) (hlast : ¬ ['\r', '\r'] <:+ raw) : Clean (lineText raw) := by
  unfold lineText
  split
  · next hcr =>
    have hcut : raw.dropLast ++ ['\r'] = raw := List.dropLast_append_getLast? _ hcr
    have hshort : raw.dropLast.length ≤ lineLen - 1 := by
      rw [List.length_dropLast]
      lia
    rw [List.take_of_length_le hshort]
    refine ⟨by rw [List.length_dropLast]; lia,
      fun h => hnewline (List.mem_of_mem_dropLast h), fun h => hnul (List.mem_of_mem_dropLast h), ?_⟩
    intro htwo
    apply hlast
    refine ⟨raw.dropLast.dropLast, ?_⟩
    have hcut' := List.dropLast_append_getLast? _ htwo
    calc raw.dropLast.dropLast ++ ['\r', '\r']
        = (raw.dropLast.dropLast ++ ['\r']) ++ ['\r'] := by simp
      _ = raw := by rw [hcut', hcut]
  · next hcr =>
    rw [List.take_of_length_le (Nat.le_sub_one_of_lt hlen)]
    exact ⟨hlen, hnewline, hnul, hcr⟩

theorem exists_raw {sec : Text} {raws : List Text} {l : Line} (hl : l ∈ loadLines sec raws) :
    exists raw, raw ∈ raws ∧ l.text = lineText raw := by
  induction raws generalizing sec with
  | nil => cases hl
  | cons raw rest ih =>
      rcases List.mem_cons.mp hl with heq | htail
      · exact ⟨raw, List.mem_cons_self, by rw [heq]; rfl⟩
      · rcases ih htail with ⟨r, hr, htext⟩
        exact ⟨r, List.mem_cons_of_mem _ hr, htext⟩

theorem scLoadText_line {text : Text} (hload : scLoadText text = some c) :
    c.line = loadLines [] (textLines (cstr text)) := by
  unfold scLoadText at hload
  dsimp only at hload
  split at hload
  · rw [← Option.some.inj hload]
  · cases hload

theorem readsBack_scLoadText {text : Text} (hload : scLoadText text = some c)
    (hraws : forall raw, raw ∈ textLines (cstr text) -> raw.length < lineLen)
    (hlast : forall raw, raw ∈ textLines (cstr text) -> ¬ ['\r', '\r'] <:+ raw) :
    ReadsBack c := by
  have hline := scLoadText_line hload
  have hclean := clean_lines (nul_notMem_cstr text)
  refine ⟨cached_scLoadText hload, ?_, ?_⟩
  · rw [hline]
    exact placed_loadLines [] _
  · intro l hl
    rw [hline] at hl
    rcases exists_raw hl with ⟨raw, hraw, htext⟩
    rw [htext]
    exact clean_lineText (hraws raw hraw) (hclean raw hraw).1 (hclean raw hraw).2 (hlast raw hraw)

theorem ReadsBack.load (h : ReadsBack c) (hfew : c.line.length < maxLines - 1) (path : Text) :
    exists c', scLoad path (putLines c) = some c' ∧
      forall sec' key' j, scGetN c' sec' key' j = scGetN c sec' key' j := by
  rcases h.reload with ⟨c', hload, hocc⟩
  have hlen := h.length_putLines
  refine ⟨{ c' with path := bounded 512 path }, ?_, fun sec' key' j => ?_⟩
  · unfold scLoad
    rw [hload, if_pos]
    · rfl
    · unfold maxLines lineLen at *
      lia
  · exact @scGetN_congr c { c' with path := bounded 512 path } _ _ (hocc _ _) j

/-- The laws of an edit of a file that was loaded: the value that is set is read back and
every other one is kept, a removal moves the later occurrences of its key down, all other
lines stay in place, and the values come back from the saved file. -/
theorem scSetN_reads_back {text : Text} (hload : scLoadText text = some c)
    (hraws : forall raw, raw ∈ textLines (cstr text) -> raw.length < lineLen)
    (hfew : (textLines (cstr text)).length < maxLines - 4)
    (hk : PlainKey (loweredTo keyLen key)) {i : Int} {val : Option Text}
    (hval : forall v, val = some v -> (forall ch, v.head? = some ch -> isBlank ch = false) ∧
      (loweredTo keyLen key).length + 1 + v.length < lineLen)
    (hok : (scSetN c sec key i val).1 = true) :
    (forall v, val = some v -> forall sec' key' j,
      scGetN (scSetN c sec key i val).2 sec' key' j =
        if SameKey sec key sec' key' ∧ j = i then some v else scGetN c sec' key' j) ∧
    (val = none -> forall sec' key' j,
      scGetN (scSetN c sec key i val).2 sec' key' j =
        if SameKey sec key sec' key' ∧ i ≤ j then scGetN c sec' key' (j + 1)
        else scGetN c sec' key' j) ∧
    Edited c (scSetN c sec key i val).2 (loweredTo secLen sec) (loweredTo keyLen key) ∧
    ((forall raw, raw ∈ textLines (cstr text) -> ¬ ['\r', '\r'] <:+ raw) ->
      SectionName (loweredTo secLen sec) ->
      (forall v, val = some v -> Holds (loweredTo keyLen key) v) ->
      forall path, exists c', scLoad path (putLines (scSetN c sec key i val).2) = some c' ∧
        forall sec' key' j, scGetN c' sec' key' j =
          scGetN (scSetN c sec key i val).2 sec' key' j) := by
  have hedit := scSetN_edited hk hok
  refine ⟨?_, ?_, hedit, ?_⟩
  · rintro v rfl
    rcases hval v rfl with ⟨hblank, hfit⟩
    exact scGetN_set (cached_scLoadText hload) hk hblank hfit hok
  · rintro rfl
    exact scGetN_remove hk hok
  · intro hlast hs hholds path
    have hkept := (readsBack_scLoadText hload hraws hlast).scSetN hk hs
      (fun v hv => (hholds v hv).clean hk) hok
    apply hkept.load
    have hgrown := hedit.length
    have hlen : c.line.length = (textLines (cstr text)).length := by
      rw [scLoadText_line hload, length_loadLines]
    unfold maxLines at *
    lia

/-- An edit of a file with two sections, under every law. -/
theorem scSetN_reads_back_small :
    (let c : Cfg := (scLoadText "a 1\r\n\n[s]\n# note\nx 1\nx 2\n".toList).getD {}
    scGetN (scSetN c "S".toList "X".toList 1 (some "9 9".toList)).2 "s".toList "x".toList 1 =
        some "9 9".toList ∧
      exists c', scLoad "f".toList
          (putLines (scSetN c "S".toList "X".toList 1 (some "9 9".toList)).2) = some c' ∧
        scGetN c' "s".toList "x".toList 1 = some "9 9".toList) := by
  have hk : PlainKey (loweredTo keyLen "X".toList) :=
    PlainKey.of_all (by decide) (by decide) (by decide) (by rintro ch ⟨⟩; decide) (by decide)
  have hlaws := @scSetN_reads_back _ "S".toList "X".toList
    "a 1\r\n\n[s]\n# note\nx 1\nx 2\n".toList rfl (by decide) (by decide) hk 1
    (some "9 9".toList) (by rintro v ⟨⟩; exact ⟨by rintro ch ⟨⟩; decide, by decide⟩) (by decide)
  have hread := hlaws.1 _ rfl "s".toList "x".toList 1
  rw [if_pos (by decide)] at hread
  rcases hlaws.2.2.2 (by decide) ⟨by decide, by decide, by decide, by decide⟩
    (by rintro v ⟨⟩; exact ⟨by decide, by decide, by decide, by decide⟩) "f".toList with
    ⟨c', hload, hsame⟩
  exact ⟨hread, c', hload, (hsame _ _ _).trans hread⟩

/-- What the laws leave out: a key with a blank or a comment's sign is not read back, a
value's or a line's last CR and a section with a closing bracket do not survive the
file. -/
theorem scSetN_lost :
    (let c : Cfg := (scLoadText "[s]\nx 1\r\r\n".toList).getD {}
    let reload (c : Cfg) : Cfg := (scLoad "f".toList (putLines c)).getD {}
    let set (sec key v : String) : Bool × Cfg := scSetN c sec.toList key.toList 0 (some v.toList)
    let get (c : Cfg) (sec key : String) : Option Text := scGetN c sec.toList key.toList 0
    ((set "s" "a b" "1").1 = true ∧ get (set "s" "a b" "1").2 "s" "a b" = none) ∧
      ((set "s" "#a" "1").1 = true ∧ get (set "s" "#a" "1").2 "s" "#a" = none) ∧
      ((set "s" "a" "1\r").1 = true ∧
        get (set "s" "a" "1\r").2 "s" "a" = some "1\r".toList ∧
        get (reload (set "s" "a" "1\r").2) "s" "a" = some "1".toList) ∧
      ((set "a]b" "a" "1").1 = true ∧
        get (set "a]b" "a" "1").2 "a]b" "a" = some "1".toList ∧
        get (reload (set "a]b" "a" "1").2) "a]b" "a" = none) ∧
      ((set "s" "a" "1").1 = true ∧
        get (set "s" "a" "1").2 "s" "x" = some "1\r".toList ∧
        get (reload (set "s" "a" "1").2) "s" "x" = some "1".toList)) := by
  decide

end

end Setup
end PistormAtari
