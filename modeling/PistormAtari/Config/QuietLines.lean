import PistormAtari.Config.Loader

/-!
# Lines that set nothing

A line is without effect when the loop passes over all the pieces that `fgets` cuts it
into.  A blank line of two characters or more is not passed over in the section that is
loaded: the command of an earlier line runs again, with an empty argument.  The later
pieces of a long comment are read as lines of their own.
-/

namespace PistormAtari
namespace Config

open Foundation

def blankLine (l : Text) : Bool := l.all (fun c => isBlank c || c == '\r')

def commentLine (l : Text) : Bool := l.head? = some '#' ∨ l.head? = some '/'

def setsNothing (l : Text) : Bool := blankLine l || commentLine l

def linePieces (l : Text) : List Text := fgets 512 (l ++ [newline])

def keyword (p : Text) : Text := (getNextString (cstr p) 0 ' ').held []

/-- The loop passes over what it skips, over the header of a section, and in a section
that is not loaded over all but the path variables. -/
def PassedOver (wantSection : Option Text) (sec p : Text) : Prop :=
  skippedLine (cstr p) = true ∨ (configSectionHeader 32 (cstr p)).isSome = true ∨
    (isPathVariable (keyword p) = false ∧
      sectionWanted wantSection sec = false)

def AllPassedOver (wantSection : Option Text) : Text -> List Text -> Prop
  | _, [] => True
  | sec, p :: ps =>
      PassedOver wantSection sec p ∧ AllPassedOver wantSection (sectionBehind sec (cstr p)) ps

/-- The loop passes over a line under the section `sec`, and what follows the line is
loaded as if it followed `sec`. -/
structure Quiet (wantSection : Option Text) (sec l : Text) : Prop where
  passed : AllPassedOver wantSection sec (linePieces l)
  wanted : sectionWanted wantSection (sectionAfter sec (linePieces l)) =
    sectionWanted wantSection sec

/-- The lines that set nothing are quiet; `sec` is the section in force. -/
def AllQuiet (wantSection : Option Text) : Text -> List Text -> Prop
  | _, [] => True
  | sec, l :: ls =>
      (setsNothing l = true -> Quiet wantSection sec l) ∧
        AllQuiet wantSection (sectionAfter sec (linePieces l)) ls

def Lines (ls : List Text) : Prop := forall l, l ∈ ls -> newline ∉ l

def sectionOf (before : List Text) : Text := sectionAfter [] (fgets 512 (unlines before))

/-- In every file a line can be inserted or removed where the section `sec` is in force. -/
def Inert (wantSection : Option Text) (sec l : Text) : Prop :=
  forall (host : LoaderHost) (curCmd : Text) (e : LoadedElsewhere) (before after : List Text)
    (u : Text), Lines before -> Lines after -> sectionOf before = sec ->
      loadConfigFile host wantSection curCmd e (unlines (before ++ l :: after) ++ u) =
        loadConfigFile host wantSection curCmd e (unlines (before ++ after) ++ u)

def emptyHost : LoaderHost where
  userHome := []
  file := fun _ => none

/-!
## Passing over a line
-/

section
variable {host : LoaderHost} {wantSection : Option Text} {s s' : LoaderState}

theorem loadConfigLine_curSection (raw : Text) :
    (loadConfigLine host wantSection s raw).curSection = sectionBehind s.curSection (cstr raw) :=
  (congrArg LoopState.curSection (loadConfigLine_loop host wantSection s raw)).trans
    (loadLine_curSection wantSection s.loop raw)

theorem foldl_curSection (host : LoaderHost) (wantSection : Option Text) (s : LoaderState)
    (raws : List Text) :
    (raws.foldl (loadConfigLine host wantSection) s).curSection =
      sectionAfter s.curSection raws := by
  induction raws generalizing s with
  | nil => rfl
  | cons raw raws ih =>
      rw [List.foldl_cons, ih, loadConfigLine_curSection]
      rfl

theorem loadConfigLine_passedOver {p : Text} (h : PassedOver wantSection s.curSection p) :
    loadConfigLine host wantSection s p =
      { s with curSection := sectionBehind s.curSection (cstr p) } := by
  unfold loadConfigLine sectionBehind
  dsimp only
  cases hskip : skippedLine (cstr p) with
  | true => rw [if_pos rfl, if_pos rfl]
  | false =>
      rw [if_neg Bool.false_ne_true, if_neg Bool.false_ne_true]
      cases hheader : configSectionHeader 32 (cstr p) with
      | some name => rfl
      | none =>
          rcases h with hskipped | hsome | ⟨hpath, hunwanted⟩
          · rw [hskip] at hskipped
            cases hskipped
          · rw [hheader] at hsome
            cases hsome
          · unfold keyword at hpath
            dsimp only
            rw [hpath, hunwanted, if_neg Bool.false_ne_true, if_pos Bool.false_ne_true]
            rfl

theorem foldl_passedOver {ps : List Text} (h : AllPassedOver wantSection s.curSection ps) :
    ps.foldl (loadConfigLine host wantSection) s =
      { s with curSection := sectionAfter s.curSection ps } := by
  induction ps generalizing s with
  | nil => rfl
  | cons p ps ih =>
      rcases h with ⟨hfirst, hrest⟩
      rw [List.foldl_cons, loadConfigLine_passedOver hfirst]
      exact ih hrest

/-!
## Files that differ in quiet lines
-/

/-- The states differ in the section's name alone, and both are in a section that is loaded,
or both in one that is not. -/
structure Alike (wantSection : Option Text) (s s' : LoaderState) : Prop where
  same : s' = { s with curSection := s'.curSection }
  wanted : sectionWanted wantSection s'.curSection = sectionWanted wantSection s.curSection

theorem loadItem_curSection (host : LoaderHost) (line : Text) (strpos : Nat) (item : ConfigItem)
    (s : LoaderState) (sec : Text) :
    loadItem host line strpos item { s with curSection := sec } =
      { loadItem host line strpos item s with curSection := sec } := by
  cases item with
  | hdd =>
      unfold loadItem loadHdd
      dsimp only
      split <;> rfl
  | fdd =>
      unfold loadItem loadFdd
      dsimp only
      generalize (fddSlotPrefix (line.drop strpos)).1.getD
        (if s.cfg.fdd.imgPath.chars = [] then 0 else 1) = drv
      split
      · rfl
      · split <;> rfl
  | acsi =>
      unfold loadItem loadAcsi
      dsimp only
      split
      · rfl
      · split <;> rfl
  | hddOrder =>
      unfold loadItem
      dsimp only
      split <;> rfl
  | acsiOrder =>
      unfold loadItem
      dsimp only
      split <;> rfl
  | none =>
      unfold loadItem
      dsimp only
      split <;> rfl
  | _ => rfl

theorem Alike.next (h : Alike wantSection s s') (raw : Text) :
    Alike wantSection (loadConfigLine host wantSection s raw)
      (loadConfigLine host wantSection s' raw) := by
  have hwanted := h.wanted
  have hsame := h.same
  generalize s'.curSection = sec at hsame hwanted
  subst hsame
  unfold loadConfigLine
  dsimp only
  split
  · exact ⟨rfl, hwanted⟩
  · split
    · exact ⟨rfl, rfl⟩
    · split
      · unfold setPathVariable
        split
        · exact ⟨rfl, hwanted⟩
        · split
          · exact ⟨rfl, hwanted⟩
          · exact ⟨rfl, hwanted⟩
      · rw [hwanted]
        split
        · exact ⟨rfl, hwanted⟩
        · have hitem := fun line strpos item cmd =>
            loadItem_curSection host line strpos item { s with curCmd := cmd } sec
          have hsection := fun line strpos item cmd =>
            congrArg LoopState.curSection
              (loadItem_loop host line strpos item { s with curCmd := cmd })
          dsimp only [LoaderState.loop] at hitem hsection
          rw [hitem]
          refine ⟨rfl, ?_⟩
          rw [hsection]
          exact hwanted

theorem Alike.foldl (h : Alike wantSection s s') (raws : List Text) :
    Alike wantSection (raws.foldl (loadConfigLine host wantSection) s)
      (raws.foldl (loadConfigLine host wantSection) s') := by
  induction raws generalizing s s' with
  | nil => exact h
  | cons raw raws ih =>
      rw [List.foldl_cons, List.foldl_cons]
      exact ih (h.next raw)

theorem Alike.loadEnd_eq (h : Alike wantSection s s') : loadEnd s = loadEnd s' := by
  rw [h.same]
  rfl

/-- A file loads as it does without its quiet lines. -/
theorem Alike.without (h : Alike wantSection s s') {ls : List Text} (hls : Lines ls) (u : Text)
    (hquiet : AllQuiet wantSection s.curSection ls) :
    Alike wantSection ((fgets 512 (unlines ls ++ u)).foldl (loadConfigLine host wantSection) s)
      ((fgets 512 (unlines (ls.filter (fun l => !setsNothing l)) ++ u)).foldl
        (loadConfigLine host wantSection) s') := by
  induction ls generalizing s s' with
  | nil => exact h.foldl _
  | cons l ls ih =>
      rcases hquiet with ⟨hfirst, hrest⟩
      have hl := hls l List.mem_cons_self
      have htail : Lines ls := fun l' hl' => hls l' (List.mem_cons_of_mem _ hl')
      rw [unlines_cons, List.append_assoc, List.cons_append, fgets_line_append hl,
        List.foldl_append]
      have hsection := foldl_curSection host wantSection s (linePieces l)
      rw [← hsection] at hrest
      cases hsets : setsNothing l with
      | true =>
          rw [List.filter_cons_of_neg (by rw [hsets]; decide)]
          have hline := hfirst hsets
          refine ih ?_ htail hrest
          show Alike wantSection ((linePieces l).foldl _ s) s'
          rw [foldl_passedOver hline.passed]
          exact ⟨h.same, h.wanted.trans hline.wanted.symm⟩
      | false =>
          rw [List.filter_cons_of_pos (by rw [hsets]; rfl), unlines_cons, List.append_assoc,
            List.cons_append, fgets_line_append hl (unlines (ls.filter _) ++ u),
            List.foldl_append]
          exact ih (h.foldl _) htail hrest

/-!
## Blank lines and comments
-/

theorem cstr_length_le (t : Text) : (cstr t).length ≤ t.length := by
  unfold cstr
  exact (List.takeWhile_sublist _).length_le

theorem comment_skipped {l : Text} (h : commentLine l = true) :
    skippedLine (cstr (l ++ [newline])) = true := by
  have hhead := of_decide_eq_true h
  cases l with
  | nil =>
      rcases hhead with hnone | hnone
      · cases hnone
      · cases hnone
  | cons c cs =>
      have hc : c = '#' ∨ c = '/' := by
        rcases hhead with h' | h'
        · exact Or.inl (Option.some.inj h')
        · exact Or.inr (Option.some.inj h')
      have hkept : (cstr (c :: cs ++ [newline])).head? = some c := by
        unfold cstr
        rw [List.cons_append, List.takeWhile_cons_of_pos]
        · rfl
        · rcases hc with rfl | rfl
          · decide
          · decide
      refine decide_eq_true (Or.inr ?_)
      rw [hkept]
      rcases hc with rfl | rfl
      · exact Or.inl rfl
      · exact Or.inr rfl

def Empty (p : Text) : Prop := forall c, c ∈ p -> c = ' ' ∨ c = '\t' ∨ c = '\r' ∨ c = newline

theorem Empty.of_subset {p q : Text} (h : Empty q) (hsub : forall c, c ∈ p -> c ∈ q) : Empty p :=
  fun c hc => h c (hsub c hc)

theorem Empty.noHeader {p : Text} (h : Empty p) (n : Nat) : configSectionHeader n p = none := by
  unfold configSectionHeader
  split
  · next rest hskip =>
    have hmem : '[' ∈ p := by
      apply (List.dropWhile_sublist isBlank).subset
      show '[' ∈ skipBlanks p
      rw [hskip]
      exact List.mem_cons_self
    rcases h _ hmem with heq | heq | heq | heq <;> exact absurd heq (by decide)
  · rfl

theorem cutWord_subset {p w rest : Text} (h : cutWord p = some (w, rest)) :
    forall c, c ∈ w -> c ∈ p := by
  intro c hc
  unfold cutWord at h
  dsimp only at h
  generalize hfrom : (if decide ((skipBlanks p).head? = some quote) = true then
    (skipBlanks p).drop 1 else skipBlanks p) = r at h
  split at h
  · cases h
  · rw [← (Prod.mk.inj (Option.some.inj h)).1] at hc
    have hin : c ∈ r := (List.takeWhile_sublist _).subset hc
    apply (List.dropWhile_sublist isBlank).subset
    show c ∈ skipBlanks p
    rw [← hfrom] at hin
    split at hin
    · exact List.mem_of_mem_drop hin
    · exact hin

theorem Empty.noPath {p : Text} (h : Empty p) :
    isPathVariable ((getNextString p 0 ' ').held []) = false := by
  have hspec := getNextString_spec p 0
  rw [List.drop_zero] at hspec
  have hword : Empty ((getNextString p 0 ' ').held []) := by
    cases hcut : cutWord p with
    | none =>
        rw [hcut] at hspec
        dsimp only at hspec
        rw [hspec]
        intro c hc
        cases hc
    | some q =>
        rw [hcut] at hspec
        rw [hspec.2.1]
        exact h.of_subset (cutWord_subset hcut)
  have hunder : forall t : Text, '_' ∈ t -> sameCase ((getNextString p 0 ' ').held []) t = false := by
    intro t ht
    rw [Bool.eq_false_iff]
    intro hsame
    have hmem := mem_of_sameCase hsame ht (by decide) (by decide)
    rcases hword _ hmem with heq | heq | heq | heq <;> exact absurd heq (by decide)
  unfold isPathVariable
  rw [hunder _ (by decide), hunder _ (by decide), hunder _ (by decide)]
  rfl

theorem Empty.blankLine {l : Text} (h : blankLine l = true) : Empty (l ++ [newline]) := by
  intro c hc
  rcases List.mem_append.mp hc with hin | hend
  · have hone := List.all_eq_true.mp h c hin
    unfold isBlank at hone
    simp only [Bool.or_eq_true, beq_iff_eq] at hone
    tauto
  · exact Or.inr (Or.inr (Or.inr (List.mem_singleton.mp hend)))

theorem allPassedOver_of_forall {sec : Text} {ps : List Text}
    (h : forall p, p ∈ ps -> PassedOver wantSection sec p ∧ sectionBehind sec (cstr p) = sec) :
    AllPassedOver wantSection sec ps ∧ sectionAfter sec ps = sec := by
  induction ps with
  | nil => exact ⟨trivial, rfl⟩
  | cons p ps ih =>
      rcases h p List.mem_cons_self with ⟨hpassed, hsection⟩
      have hrest := ih fun q hq => h q (List.mem_cons_of_mem _ hq)
      constructor
      · refine ⟨hpassed, ?_⟩
        rw [hsection]
        exact hrest.1
      · show sectionAfter (sectionBehind sec (cstr p)) ps = sec
        rw [hsection]
        exact hrest.2

theorem quiet_of_forall {sec l : Text} (h : forall p, p ∈ linePieces l ->
    PassedOver wantSection sec p ∧ sectionBehind sec (cstr p) = sec) :
    Quiet wantSection sec l := by
  have hall := allPassedOver_of_forall h
  exact ⟨hall.1, by rw [hall.2]⟩

theorem sectionBehind_skipped {sec p : Text} (h : skippedLine (cstr p) = true) :
    sectionBehind sec (cstr p) = sec := by
  unfold sectionBehind
  rw [if_pos h]

theorem quiet_comment {sec l : Text} (hl : newline ∉ l) (h : commentLine l = true)
    (hfits : l.length ≤ 510) : Quiet wantSection sec l := by
  refine quiet_of_forall fun p hp => ?_
  unfold linePieces at hp
  rw [fgets_short_line hl (by lia)] at hp
  rw [List.mem_singleton.mp hp]
  exact ⟨Or.inl (comment_skipped h), sectionBehind_skipped (comment_skipped h)⟩

theorem quiet_blank {sec l : Text} (hl : newline ∉ l) (h : blankLine l = true)
    (hshort : l.length ≤ 1 ∨ sectionWanted wantSection sec = false) :
    Quiet wantSection sec l := by
  refine quiet_of_forall fun p hp => ?_
  unfold linePieces at hp
  rcases hshort with hshort | hunwanted
  · rw [fgets_short_line hl (by lia)] at hp
    have hskip : skippedLine (cstr (l ++ [newline])) = true := by
      refine decide_eq_true (Or.inl ((cstr_length_le _).trans ?_))
      rw [List.length_append, List.length_singleton]
      lia
    rw [List.mem_singleton.mp hp]
    exact ⟨Or.inl hskip, sectionBehind_skipped hskip⟩
  · have hempty : Empty (cstr p) := by
      apply (Empty.blankLine h).of_subset
      intro c hc
      rw [← flatten_fgets 512 (l ++ [newline])]
      exact List.mem_flatten.mpr ⟨p, hp, (List.takeWhile_sublist _).subset hc⟩
    refine ⟨Or.inr (Or.inr ⟨hempty.noPath, hunwanted⟩), ?_⟩
    unfold sectionBehind
    rw [hempty.noHeader, Option.getD_none, ite_self]

end

end Config
end PistormAtari
