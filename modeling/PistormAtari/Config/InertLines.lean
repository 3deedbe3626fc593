import PistormAtari.Config.QuietLines

/-!
# Lines without effect

A line that can be inserted and removed in every file is one the loop passes over.  A piece
that sets a path shows at once; a header shows in the lines behind it; and a piece that runs
as a setting leaves its command behind, which a blank line runs again.
-/

namespace PistormAtari
namespace Config

open Foundation

section
variable {host : LoaderHost} {wantSection : Option Text} {s s' : LoaderState}

/-!
## What a piece does that is not passed over
-/

inductive PathVar
  | rom | disk | fdd
deriving DecidableEq

def PathVar.of (kw : Text) : PathVar :=
  if sameCase kw "rom_path".toList then .rom
  else if sameCase kw "disk_path".toList then .disk
  else .fdd

def LoaderState.path (s : LoaderState) : PathVar -> Text
  | .rom => s.gRomPath
  | .disk => s.gDiskPath
  | .fdd => s.gFddPath

def Read (p : Text) : Prop :=
  skippedLine (cstr p) = false ∧ configSectionHeader 32 (cstr p) = none

def SetsPath (p : Text) : Prop := Read p ∧ isPathVariable (keyword p) = true

def Runs (wantSection : Option Text) (sec p : Text) : Prop :=
  Read p ∧ isPathVariable (keyword p) = false ∧ sectionWanted wantSection sec = true

def SomeRuns (wantSection : Option Text) : Text -> List Text -> Prop
  | _, [] => False
  | sec, p :: ps =>
      Runs wantSection sec p ∨ SomeRuns wantSection (sectionBehind sec (cstr p)) ps

theorem passedOver_or_runs {sec p : Text} (h : ¬ SetsPath p) :
    PassedOver wantSection sec p ∨ Runs wantSection sec p := by
  cases hskip : skippedLine (cstr p) with
  | true => exact Or.inl (Or.inl hskip)
  | false =>
      cases hheader : configSectionHeader 32 (cstr p) with
      | some name => exact Or.inl (Or.inr (Or.inl (by rw [hheader]; rfl)))
      | none =>
          have hread : Read p := ⟨hskip, hheader⟩
          cases hpath : isPathVariable (keyword p) with
          | true => exact absurd ⟨hread, hpath⟩ h
          | false =>
              cases hwanted : sectionWanted wantSection sec with
              | true => exact Or.inr ⟨hread, hpath, hwanted⟩
              | false => exact Or.inl (Or.inr (Or.inr ⟨hpath, hwanted⟩))

theorem allPassedOver_of_not_someRuns {sec : Text} {ps : List Text}
    (hpaths : forall p, p ∈ ps -> ¬ SetsPath p) (h : ¬ SomeRuns wantSection sec ps) :
    AllPassedOver wantSection sec ps := by
  induction ps generalizing sec with
  | nil => trivial
  | cons p ps ih =>
      refine ⟨?_, ih (fun q hq => hpaths q (List.mem_cons_of_mem _ hq)) fun hr => h (Or.inr hr)⟩
      exact (passedOver_or_runs (hpaths p List.mem_cons_self)).resolve_right
        fun hr => h (Or.inl hr)

theorem loadConfigLine_setsPath {p : Text} (h : SetsPath p) :
    loadConfigLine host wantSection s p =
      setPathVariable (keyword p)
        (pathValue (cstr p) (getNextString (cstr p) 0 ' ').strpos) s := by
  rcases h with ⟨⟨hskip, hheader⟩, hpath⟩
  unfold loadConfigLine
  dsimp only
  rw [hskip, hheader, if_neg Bool.false_ne_true]
  exact if_pos hpath

theorem loadConfigLine_runs {p : Text} (h : Runs wantSection s.curSection p) :
    loadConfigLine host wantSection s p =
      (let line := trimWhitespace (cstr p)
       let cmd := getNextString line 0 ' '
       let curCmd := cmd.held s.curCmd
       loadItem host line cmd.strpos (getConfigItemType curCmd) { s with curCmd := curCmd }) := by
  rcases h with ⟨⟨hskip, hheader⟩, hpath, hwanted⟩
  unfold keyword at hpath
  unfold loadConfigLine
  dsimp only
  rw [hskip, hheader, if_neg Bool.false_ne_true]
  dsimp only
  rw [if_neg (ne_true_of_eq_false hpath), hwanted, if_neg (by decide)]

theorem path_setPathVariable (kw val : Text) (s : LoaderState) (v : PathVar) :
    (setPathVariable kw val s).path v = if v = PathVar.of kw then val else s.path v := by
  unfold setPathVariable PathVar.of
  split
  · cases v <;> rfl
  · split
    · cases v <;> rfl
    · cases v <;> rfl

theorem path_loadItem (line : Text) (strpos : Nat) (item : ConfigItem) (s : LoaderState)
    (v : PathVar) : (loadItem host line strpos item s).path v = s.path v := by
  rw [loadItem_frame]
  cases v <;> rfl

theorem hddIdx_loadItem (line : Text) (strpos : Nat) {item : ConfigItem} (s : LoaderState)
    (h : item ≠ .hdd) :
    (loadItem host line strpos item s).elsewhere.hddIdx = s.elsewhere.hddIdx := by
  cases item with
  | hdd => exact absurd rfl h
  | fdd =>
      unfold loadItem loadFdd
      dsimp only
      generalize (fddSlotPrefix (line.drop strpos)).1.getD
        (if s.cfg.fdd.imgPath.chars = [] then 0 else 1) = drv
      split
      · rfl
      · split <;> rfl
  | acsi =>
      unfold loadItem loadAcsi
      dsimp only
      split
      · rfl
      · split <;> rfl
  | hddOrder =>
      unfold loadItem
      dsimp only
      split <;> rfl
  | acsiOrder =>
      unfold loadItem
      dsimp only
      split <;> rfl
  | none =>
      unfold loadItem
      dsimp only
      split <;> rfl
  | _ => rfl

/-- A `hdd` line without a slot takes the next one. -/
theorem hddIdx_hdd {line : Text} {strpos : Nat} (s : LoaderState)
    (h : (slotPrefix (line.drop strpos)).1 = none) :
    (loadItem host line strpos .hdd s).elsewhere.hddIdx =
      if s.elsewhere.hddIdx < 8 then s.elsewhere.hddIdx + 1 else s.elsewhere.hddIdx := by
  show (loadHdd host (line.drop strpos) s).elsewhere.hddIdx = _
  unfold loadHdd
  dsimp only
  rw [h]
  dsimp only
  by_cases hroom : s.elsewhere.hddIdx < 8
  · rw [if_pos hroom, if_pos hroom]
  · rw [if_neg hroom, if_neg hroom]

/-!
## The path variables
-/

theorem path_passedOver {p : Text} (h : PassedOver wantSection s.curSection p) (v : PathVar) :
    (loadConfigLine host wantSection s p).path v = s.path v := by
  rw [loadConfigLine_passedOver h]
  cases v <;> rfl

theorem path_loadConfigLine (p : Text) (v : PathVar) (s : LoaderState)
    (h : ¬ (SetsPath p ∧ v = PathVar.of (keyword p))) :
    (loadConfigLine host wantSection s p).path v = s.path v := by
  by_cases hsets : SetsPath p
  · rw [loadConfigLine_setsPath hsets, path_setPathVariable, if_neg fun hv => h ⟨hsets, hv⟩]
  · rcases @passedOver_or_runs wantSection s.curSection p hsets with hpassed | hruns
    · exact path_passedOver hpassed v
    · rw [loadConfigLine_runs hruns]
      dsimp only
      rw [path_loadItem]
      cases v <;> rfl

theorem path_foldl_kept {ps : List Text} {v : PathVar}
    (h : forall p, p ∈ ps -> ¬ (SetsPath p ∧ v = PathVar.of (keyword p))) (s : LoaderState) :
    (ps.foldl (loadConfigLine host wantSection) s).path v = s.path v := by
  induction ps generalizing s with
  | nil => rfl
  | cons p ps ih =>
      rw [List.foldl_cons, ih fun q hq => h q (List.mem_cons_of_mem _ hq)]
      exact path_loadConfigLine p v s (h p List.mem_cons_self)

/-- A path that some piece sets is the same behind the pieces, whatever it was before. -/
theorem path_foldl_fixed {ps : List Text} {v : PathVar}
    (h : exists p, p ∈ ps ∧ SetsPath p ∧ v = PathVar.of (keyword p)) :
    exists val, forall s, (ps.foldl (loadConfigLine host wantSection) s).path v = val := by
  induction ps with
  | nil =>
      rcases h with ⟨p, hp, _⟩
      cases hp
  | cons p ps ih =>
      by_cases hlater : exists q, q ∈ ps ∧ SetsPath q ∧ v = PathVar.of (keyword q)
      · rcases ih hlater with ⟨val, hval⟩
        exact ⟨val, fun s => hval _⟩
      · rcases h with ⟨q, hq, hsets, hv⟩
        rcases List.mem_cons.mp hq with rfl | hin
        · refine ⟨pathValue (cstr q) (getNextString (cstr q) 0 ' ').strpos, fun s => ?_⟩
          rw [List.foldl_cons, path_foldl_kept fun r hr hsets => hlater ⟨r, hr, hsets⟩,
            loadConfigLine_setsPath hsets, path_setPathVariable, if_pos hv]
        · exact absurd ⟨q, hin, hsets, hv⟩ hlater

/-!
## The command
-/

theorem slotPrefix_of_no_word {line : Text} (h : cutWord line = none) :
    (slotPrefix line).1 = none := by
  have hword : skipBlanks line = [] ∨ skipBlanks line = [quote] := by
    unfold cutWord at h
    dsimp only at h
    generalize skipBlanks line = r at h ⊢
    cases hquoted : decide (r.head? = some quote) with
    | false =>
        simp only [hquoted, Bool.false_eq_true, if_false, ite_eq_left_iff, reduceCtorEq,
          imp_false, not_not] at h
        exact Or.inl h
    | true =>
        simp only [hquoted, if_true, ite_eq_left_iff, reduceCtorEq, imp_false, not_not] at h
        have hhead := of_decide_eq_true hquoted
        cases r with
        | nil => cases hhead
        | cons c cs =>
            rw [Option.some.inj hhead, show cs = [] from h]
            exact Or.inr rfl
  unfold slotPrefix slotInFront
  rcases hword with h | h
  · rw [h]
  · rw [h]

/-- A piece without a word runs the command again. -/
theorem runs_no_word {p : Text} (h : Runs wantSection s.curSection p)
    (hword : cutWord (trimWhitespace (cstr p)) = none) :
    (loadConfigLine host wantSection s p).curCmd = s.curCmd ∧
      (getConfigItemType s.curCmd = .hdd ->
        0 < (loadConfigLine host wantSection s p).elsewhere.hddIdx) ∧
      (getConfigItemType s.curCmd ≠ .hdd ->
        (loadConfigLine host wantSection s p).elsewhere.hddIdx = s.elsewhere.hddIdx) := by
  have hspec := getNextString_spec (trimWhitespace (cstr p)) 0
  rw [List.drop_zero, hword] at hspec
  dsimp only at hspec
  rw [loadConfigLine_runs h]
  dsimp only
  rw [hspec]
  refine ⟨?_, fun hitem => ?_, fun hitem => ?_⟩
  · rw [loadItem_frame]
    rfl
  · have hheld : getConfigItemType (({ stores := [], strpos := 0 } : Token).held s.curCmd) = .hdd :=
      hitem
    rw [hheld, hddIdx_hdd _ (by rw [List.drop_zero]; exact slotPrefix_of_no_word hword)]
    split
    · exact Nat.succ_pos _
    · next hfull => exact lt_of_lt_of_le (by decide) (Nat.not_lt.mp hfull)
  · rw [hddIdx_loadItem]
    exact hitem

theorem runs_word {p w rest : Text} (h : Runs wantSection s.curSection p)
    (hword : cutWord (trimWhitespace (cstr p)) = some (w, rest)) :
    (loadConfigLine host wantSection s p).curCmd = w := by
  have hspec := getNextString_spec (trimWhitespace (cstr p)) 0
  rw [List.drop_zero, hword] at hspec
  rw [loadConfigLine_runs h, loadItem_frame]
  exact hspec.2.1 s.curCmd

theorem curCmd_foldl {ps : List Text} (hpaths : forall p, p ∈ ps -> ¬ SetsPath p) (sec : Text) :
    (forall s, s.curSection = sec ->
      (ps.foldl (loadConfigLine host wantSection) s).curCmd = s.curCmd ∧
        (getConfigItemType s.curCmd = .hdd -> SomeRuns wantSection sec ps ->
          0 < (ps.foldl (loadConfigLine host wantSection) s).elsewhere.hddIdx)) ∨
      exists cmd, forall s, s.curSection = sec ->
        (ps.foldl (loadConfigLine host wantSection) s).curCmd = cmd := by
  induction ps generalizing sec with
  | nil => exact Or.inl fun s _ => ⟨rfl, fun _ hno => False.elim hno⟩
  | cons p ps ih =>
      have hlater := fun q hq => hpaths q (List.mem_cons_of_mem _ hq)
      have hsection : forall s : LoaderState, s.curSection = sec ->
          (loadConfigLine host wantSection s p).curSection = sectionBehind sec (cstr p) := by
        intro s hs
        rw [loadConfigLine_curSection, hs]
      rcases ih hlater (sectionBehind sec (cstr p)) with hkept | ⟨cmd, hcmd⟩
      · by_cases hruns : Runs wantSection sec p
        · cases hword : cutWord (trimWhitespace (cstr p)) with
          | none =>
              refine Or.inl fun s hs => ?_
              have hrest := hkept _ (hsection s hs)
              have hline := @runs_no_word host wantSection s p (hs ▸ hruns) hword
              rw [List.foldl_cons]
              rw [hline.1] at hrest
              refine ⟨hrest.1, fun hitem _ => ?_⟩
              by_cases hmore : SomeRuns wantSection (sectionBehind sec (cstr p)) ps
              · exact hrest.2 hitem hmore
              · rw [foldl_passedOver (by
                  rw [hsection s hs]
                  exact allPassedOver_of_not_someRuns hlater hmore)]
                exact hline.2.1 hitem
          | some word =>
              refine Or.inr ⟨word.1, fun s hs => ?_⟩
              rw [List.foldl_cons, (hkept _ (hsection s hs)).1]
              exact runs_word (hs ▸ hruns) hword
        · have hpassed := (passedOver_or_runs (hpaths p List.mem_cons_self)).resolve_right hruns
          refine Or.inl fun s hs => ?_
          have hrest := hkept _ (hsection s hs)
          rw [List.foldl_cons]
          rw [loadConfigLine_passedOver (hs ▸ hpassed)] at hrest ⊢
          exact ⟨hrest.1, fun hitem hsome => hrest.2 hitem (hsome.resolve_left hruns)⟩
      · exact Or.inr ⟨cmd, fun s hs => hcmd _ (hsection s hs)⟩

/-!
## Headers
-/

def headerLine (name : Text) : Text := '[' :: name ++ [']']

structure Headed (name : Text) : Prop where
  line : newline ∉ headerLine name
  short : (headerLine name).length ≤ 33
  skipped : skippedLine (cstr (headerLine name ++ [newline])) = false
  header : configSectionHeader 32 (cstr (headerLine name ++ [newline])) = some name

theorem notMem_lowercase {c : Char} {t : Text} (h : c ∉ t) (hc : ¬ (97 ≤ c.toNat ∧ c.toNat ≤ 122)) :
    c ∉ lowercase t := by
  intro hmem
  rcases List.mem_map.mp hmem with ⟨d, hd, hlow⟩
  rw [tolower_eq hlow hc] at hd
  exact h hd

theorem headed_of_name {name : Text} (hne : name ≠ []) (hlen : name.length ≤ 31)
    (hclose : ']' ∉ name) (hnul : nul ∉ name) (hend : newline ∉ name) : Headed (lowercase name) := by
  have hlow : (lowercase name).length = name.length := List.length_map _
  have hline : newline ∉ headerLine (lowercase name) := by
    intro hmem
    rcases List.mem_cons.mp hmem with heq | hin
    · exact absurd heq (by decide)
    · rcases List.mem_append.mp hin with hname | hlast
      · exact notMem_lowercase hend (by decide) hname
      · exact absurd (List.mem_singleton.mp hlast) (by decide)
  have hcstr : cstr (headerLine (lowercase name) ++ [newline]) =
      headerLine (lowercase name) ++ [newline] := by
    apply cstr_of_notMem
    intro hmem
    rcases List.mem_append.mp hmem with hin | hlast
    · rcases List.mem_cons.mp hin with heq | hin
      · exact absurd heq (by decide)
      · rcases List.mem_append.mp hin with hname | hlast
        · exact notMem_lowercase hnul (by decide) hname
        · exact absurd (List.mem_singleton.mp hlast) (by decide)
    · exact absurd (List.mem_singleton.mp hlast) (by decide)
  have hfull : headerLine (lowercase name) ++ [newline] =
      '[' :: (lowercase name ++ ']' :: [newline]) := by
    unfold headerLine
    rw [List.append_assoc]
    rfl
  refine ⟨hline, ?_, ?_, ?_⟩
  · unfold headerLine
    rw [List.length_append, List.length_cons, List.length_singleton, hlow]
    lia
  · rw [hcstr, hfull]
    refine decide_eq_false ?_
    have hpos := List.length_pos_iff.mpr hne
    rw [List.length_cons, List.length_append, hlow]
    rintro (hshort | hhead | hhead)
    · simp only [List.length_cons, List.length_nil] at hshort
      lia
    · exact absurd (Option.some.inj hhead) (by decide)
    · exact absurd (Option.some.inj hhead) (by decide)
  · have htake : (lowercase name ++ ']' :: [newline]).takeWhile (· != ']') = lowercase name := by
      rw [takeWhile_append_stop (by decide), List.takeWhile_eq_self_iff]
      intro c hc
      refine bne_iff_ne.mpr fun heq => ?_
      rw [heq] at hc
      exact notMem_lowercase hclose (by decide) hc
    have hdrop : (lowercase name ++ ']' :: [newline]).drop (lowercase name).length =
        ']' :: [newline] := List.drop_left
    have hnonempty : lowercase name ≠ [] := by
      rw [← List.length_pos_iff, hlow]
      exact List.length_pos_iff.mpr hne
    rw [hcstr, hfull]
    unfold configSectionHeader
    have hskip : skipBlanks ('[' :: (lowercase name ++ ']' :: [newline])) =
        '[' :: (lowercase name ++ ']' :: [newline]) := List.dropWhile_cons_of_neg (by decide)
    have hname : ((lowercase name ++ ']' :: [newline]).takeWhile (· != ']')).take 31 =
        lowercase name := by
      rw [htake, List.take_of_length_le (hlow.trans_le hlen)]
    rw [hskip]
    show (if ((lowercase name ++ ']' :: [newline]).drop
        (((lowercase name ++ ']' :: [newline]).takeWhile (· != ']')).take 31).length).head? =
          some ']' ∧ _ then _ else none) = _
    rw [hname, hdrop, if_pos ⟨rfl, hnonempty⟩, lowercase_lowercase]

theorem headed_of_header {p name : Text} (hend : newline ∉ p.dropLast)
    (h : configSectionHeader 32 (cstr p) = some name) : Headed name := by
  unfold configSectionHeader at h
  split at h
  · next rest hskip =>
    dsimp only at h
    generalize hname : (rest.takeWhile (· != ']')).take (32 - 1) = t at h
    split at h
    · next hclosed =>
      rw [← Option.some.inj h]
      have hsub : forall c, c ∈ rest -> c ∈ cstr p := by
        intro c hc
        apply (List.dropWhile_sublist isBlank).subset
        show c ∈ skipBlanks (cstr p)
        rw [hskip]
        exact List.mem_cons_of_mem _ hc
      have hhead : t <+: rest := by
        rw [← hname]
        exact (List.take_prefix _ _).trans (List.takeWhile_prefix _)
      refine headed_of_name hclosed.2 ?_ ?_ ?_ ?_
      · rw [← hname]
        exact List.length_take_le _ _
      · intro hmem
        rw [← hname] at hmem
        have hno := List.mem_takeWhile_imp (List.mem_of_mem_take hmem)
        exact absurd hno (by decide)
      · intro hmem
        exact nul_notMem_cstr p (hsub _ (hhead.subset hmem))
      · intro hmem
        -- The name stands before a bracket, so its characters are not the last one.
        have hbefore : t ++ [']'] <+: rest := by
          rcases hhead with ⟨tail, htail⟩
          rw [← htail, List.drop_left] at hclosed
          cases tail with
          | nil => cases hclosed.1
          | cons c cs =>
              rw [← htail, Option.some.inj hclosed.1]
              exact ⟨cs, by rw [List.append_assoc]; rfl⟩
        have hinfix : t ++ [']'] <:+: p := by
          have hrest : rest <:+: p := by
            have hcons : rest <:+ cstr p := by
              have hsuffix : skipBlanks (cstr p) <:+ cstr p := List.dropWhile_suffix _
              rw [hskip] at hsuffix
              exact (List.suffix_cons _ _).trans hsuffix
            exact hcons.isInfix.trans (List.takeWhile_prefix _).isInfix
          exact hbefore.isInfix.trans hrest
        rcases hinfix with ⟨left, right, hsplit⟩
        apply hend
        rw [← hsplit]
        rw [List.append_assoc, List.append_assoc, List.dropLast_append_of_ne_nil (by simp),
          List.dropLast_append_of_ne_nil (by simp)]
        exact List.mem_append_right _ (List.mem_append_left _ hmem)
    · cases h
  · cases h

theorem sectionAfter_headed {ps : List Text} (hps : forall p, p ∈ ps -> newline ∉ p.dropLast)
    (sec : Text) : sectionAfter sec ps = sec ∨ Headed (sectionAfter sec ps) := by
  induction ps generalizing sec with
  | nil => exact Or.inl rfl
  | cons p ps ih =>
      have hrest := ih (fun q hq => hps q (List.mem_cons_of_mem _ hq)) (sectionBehind sec (cstr p))
      show sectionAfter (sectionBehind sec (cstr p)) ps = sec ∨
        Headed (sectionAfter (sectionBehind sec (cstr p)) ps)
      rcases hrest with hsame | hheaded
      · rw [hsame]
        unfold sectionBehind
        split
        · exact Or.inl rfl
        · cases hheader : configSectionHeader 32 (cstr p) with
          | none => exact Or.inl rfl
          | some name => exact Or.inr (headed_of_header (hps p List.mem_cons_self) hheader)
      · exact Or.inr hheaded

theorem wanted_of_someRuns {sec : Text} {ps : List Text}
    (hps : forall p, p ∈ ps -> newline ∉ p.dropLast) (h : SomeRuns wantSection sec ps) :
    sectionWanted wantSection sec = true ∨
      exists name, Headed name ∧ sectionWanted wantSection name = true := by
  induction ps generalizing sec with
  | nil => exact False.elim h
  | cons p ps ih =>
      rcases h with hruns | hmore
      · exact Or.inl hruns.2.2
      · rcases ih (fun q hq => hps q (List.mem_cons_of_mem _ hq)) hmore with hwanted | hother
        · have hhere : forall q, q ∈ [p] -> newline ∉ q.dropLast := fun q hq =>
            hps q (by rw [List.mem_singleton.mp hq]; exact List.mem_cons_self)
          have hone := sectionAfter_headed hhere sec
          have hbehind : sectionAfter sec [p] = sectionBehind sec (cstr p) := rfl
          rw [hbehind] at hone
          rcases hone with hsame | hheaded
          · rw [hsame] at hwanted
            exact Or.inl hwanted
          · exact Or.inr ⟨_, hheaded, hwanted⟩
        · exact Or.inr hother

/-!
## Files that tell whether a line is there
-/

def loadOn (host : LoaderHost) (wantSection : Option Text) (ls : List Text) (s : LoaderState) :
    LoaderState :=
  (fgets 512 (unlines ls)).foldl (loadConfigLine host wantSection) s

theorem lines_nil : Lines [] := fun _ hl => (by cases hl)

theorem fgets_unlines_append {ls : List Text} (h : Lines ls) (t : Text) :
    fgets 512 (unlines ls ++ t) = fgets 512 (unlines ls) ++ fgets 512 t := by
  induction ls with
  | nil => rfl
  | cons l ls ih =>
      have hl := h l List.mem_cons_self
      rw [unlines_cons, List.append_assoc, List.cons_append, fgets_line_append hl (unlines ls ++ t),
        fgets_line_append hl (unlines ls), List.append_assoc,
        ih fun l' hl' => h l' (List.mem_cons_of_mem _ hl')]

theorem loadOn_nil (s : LoaderState) : loadOn host wantSection [] s = s := rfl

theorem loadOn_append {ls ls' : List Text} (h : Lines ls) (s : LoaderState) :
    loadOn host wantSection (ls ++ ls') s =
      loadOn host wantSection ls' (loadOn host wantSection ls s) := by
  unfold loadOn
  rw [unlines_append, fgets_unlines_append h, List.foldl_append]

theorem loadOn_short {l : Text} (h : newline ∉ l) (hlen : l.length ≤ 33) (s : LoaderState) :
    loadOn host wantSection [l] s = loadConfigLine host wantSection s (l ++ [newline]) := by
  unfold loadOn
  rw [unlines_cons, unlines_nil, fgets_short_line h (by lia)]
  rfl

theorem loadOn_curSection (ls : List Text) (s : LoaderState) :
    (loadOn host wantSection ls s).curSection =
      sectionAfter s.curSection (fgets 512 (unlines ls)) :=
  foldl_curSection _ _ _ _

theorem loadOn_header {name : Text} (h : Headed name) (s : LoaderState) :
    loadOn host wantSection [headerLine name] s = { s with curSection := name } := by
  have hheader := h.header
  have hpassed : PassedOver wantSection s.curSection (headerLine name ++ [newline]) :=
    Or.inr (Or.inl (by rw [hheader]; rfl))
  rw [loadOn_short h.line h.short, loadConfigLine_passedOver hpassed]
  unfold sectionBehind
  rw [h.skipped, if_neg Bool.false_ne_true, hheader]
  rfl

def placed (sec curCmd : Text) : LoaderState :=
  { loadStart curCmd {} with curSection := sec }

theorem exists_lead (before : List Text) : exists lead, Lines lead ∧
    forall wantSection curCmd,
      loadOn emptyHost wantSection lead (loadStart curCmd {}) = placed (sectionOf before) curCmd := by
  have hpieces : forall p, p ∈ fgets 512 (unlines before) -> newline ∉ p.dropLast :=
    fun _ hp => newline_notMem_dropLast hp
  rcases sectionAfter_headed hpieces [] with hsame | hheaded
  · refine ⟨[], lines_nil, fun _ _ => ?_⟩
    unfold sectionOf placed
    rw [hsame]
    rfl
  · refine ⟨[headerLine (sectionOf before)], ?_, fun _ _ => loadOn_header hheaded _⟩
    intro l hl
    rw [List.mem_singleton.mp hl]
    exact hheaded.line

theorem Inert.same {l : Text} {before : List Text} (hl : newline ∉ l)
    (h : Inert wantSection (sectionOf before) l) (curCmd : Text) {extra after : List Text}
    (hextra : Lines extra) (hafter : Lines after)
    (hsec : sectionAfter (sectionOf before) (fgets 512 (unlines extra)) = sectionOf before) :
    loadEnd (loadOn emptyHost wantSection after
        ((linePieces l).foldl (loadConfigLine emptyHost wantSection)
          (loadOn emptyHost wantSection extra (placed (sectionOf before) curCmd)))) =
      loadEnd (loadOn emptyHost wantSection after
        (loadOn emptyHost wantSection extra (placed (sectionOf before) curCmd))) := by
  rcases exists_lead before with ⟨lead, hlead, hplaced⟩
  have hall : Lines (lead ++ extra) := fun l hl => (List.mem_append.mp hl).elim (hlead l) (hextra l)
  have hsection : sectionOf (lead ++ extra) = sectionOf before := by
    have hrun := congrArg LoaderState.curSection
      (@loadOn_append emptyHost none lead extra hlead (loadStart [] {}))
    rw [loadOn_curSection, hplaced, loadOn_curSection] at hrun
    exact hrun.trans hsec
  have hsame := h emptyHost curCmd {} (lead ++ extra) after [] hall hafter hsection
  unfold loadConfigFile at hsame
  rw [List.append_nil, List.append_nil, unlines_append (lead ++ extra) (l :: after),
    unlines_append (lead ++ extra) after, unlines_cons,
    fgets_unlines_append hall, fgets_unlines_append hall, fgets_line_append hl, List.foldl_append,
    List.foldl_append, List.foldl_append] at hsame
  have hfront := @loadOn_append emptyHost wantSection lead extra hlead (loadStart curCmd {})
  rw [hplaced] at hfront
  unfold loadOn at hfront ⊢
  rw [hfront] at hsame
  exact hsame

theorem Inert.same_placed {l : Text} {before : List Text} (hl : newline ∉ l)
    (h : Inert wantSection (sectionOf before) l) (curCmd : Text) {after : List Text}
    (hafter : Lines after) :
    loadEnd (loadOn emptyHost wantSection after
        ((linePieces l).foldl (loadConfigLine emptyHost wantSection)
          (placed (sectionOf before) curCmd))) =
      loadEnd (loadOn emptyHost wantSection after (placed (sectionOf before) curCmd)) := by
  have hsame := h.same hl curCmd lines_nil hafter rfl
  simp only [loadOn_nil] at hsame
  exact hsame

/-!
### Lines that bring out a difference
-/

def pathLine : PathVar -> Text
  | .rom => "rom_path A".toList
  | .disk => "disk_path A".toList
  | .fdd => "fdd_path A".toList

theorem setsPath_pathLine (v : PathVar) : SetsPath (pathLine v ++ [newline]) := by
  cases v with
  | rom => exact ⟨⟨by decide, by decide⟩, by decide⟩
  | disk => exact ⟨⟨by decide, by decide⟩, by decide⟩
  | fdd => exact ⟨⟨by decide, by decide⟩, by decide⟩

theorem lines_pathLine (v : PathVar) : Lines [pathLine v] := by
  intro l hl
  rw [List.mem_singleton.mp hl]
  cases v <;> decide

theorem fgets_pathLine (v : PathVar) :
    fgets 512 (unlines [pathLine v]) = [pathLine v ++ [newline]] := by
  rw [unlines_cons, unlines_nil]
  exact fgets_short_line (lines_pathLine v _ List.mem_cons_self) (by cases v <;> decide)

theorem sectionAfter_pathLine (v : PathVar) (sec : Text) :
    sectionAfter sec (fgets 512 (unlines [pathLine v])) = sec := by
  have hread := (setsPath_pathLine v).1
  rw [fgets_pathLine]
  show sectionBehind sec (cstr (pathLine v ++ [newline])) = sec
  unfold sectionBehind
  rw [hread.1, hread.2]
  rfl

theorem loadOn_pathLine (v : PathVar) (s : LoaderState) :
    (loadOn host wantSection [pathLine v] s).path v = ['A'] := by
  unfold loadOn
  rw [fgets_pathLine, List.foldl_cons, List.foldl_nil,
    loadConfigLine_setsPath (setsPath_pathLine v), path_setPathVariable,
    if_pos (by cases v <;> decide)]
  cases v <;> decide

theorem path_of_loadEnd (h : loadEnd s = loadEnd s') (v : PathVar) : s.path v = s'.path v := by
  cases v with
  | rom => exact congrArg Loaded.gRomPath h
  | disk => exact congrArg Loaded.gDiskPath h
  | fdd => exact congrArg Loaded.gFddPath h

theorem hddIdx_of_loadEnd (h : loadEnd s = loadEnd s') :
    s.elsewhere.hddIdx = s'.elsewhere.hddIdx :=
  congrArg (fun r : Loaded => r.elsewhere.hddIdx) h

def hddLine : Text := "hdd".toList

theorem loadOn_hddLine (s : LoaderState) (h : s.elsewhere.hddIdx = 0) :
    (loadOn host wantSection [hddLine] s).elsewhere.hddIdx =
      if sectionWanted wantSection s.curSection then 1 else 0 := by
  rw [loadOn_short (by decide) (by decide)]
  have hread : Read (hddLine ++ [newline]) := ⟨by decide, by decide⟩
  have hpath : isPathVariable (keyword (hddLine ++ [newline])) = false := by decide
  cases hwanted : sectionWanted wantSection s.curSection with
  | true =>
      rw [loadConfigLine_runs ⟨hread, hpath, hwanted⟩, if_pos rfl]
      show (loadItem host _ _ .hdd _).elsewhere.hddIdx = 1
      rw [hddIdx_hdd _ (by decide)]
      show (if s.elsewhere.hddIdx < 8 then s.elsewhere.hddIdx + 1 else s.elsewhere.hddIdx) = 1
      rw [h]
      rfl
  | false =>
      rw [loadConfigLine_passedOver (Or.inr (Or.inr ⟨hpath, hwanted⟩)), if_neg Bool.false_ne_true]
      exact h

def blanks : Text := "   ".toList

theorem loadOn_blanks (hwanted : sectionWanted wantSection s.curSection = true) :
    (getConfigItemType s.curCmd = .hdd ->
      0 < (loadOn host wantSection [blanks] s).elsewhere.hddIdx) ∧
    (getConfigItemType s.curCmd ≠ .hdd ->
      (loadOn host wantSection [blanks] s).elsewhere.hddIdx = s.elsewhere.hddIdx) := by
  rw [loadOn_short (by decide) (by decide)]
  have hruns : Runs wantSection s.curSection (blanks ++ [newline]) :=
    ⟨⟨by decide, by decide⟩, by decide, hwanted⟩
  exact (runs_no_word hruns (by decide)).2

/-!
### What an inert line does not do
-/

section
variable {before : List Text} {l : Text}

theorem Inert.setsNoPath (hl : newline ∉ l) (h : Inert wantSection (sectionOf before) l) :
    forall p, p ∈ linePieces l -> ¬ SetsPath p := by
  intro p hp hsets
  rcases @path_foldl_fixed emptyHost wantSection _ _ ⟨p, hp, hsets, rfl⟩ with ⟨val, hval⟩
  by_cases hempty : val = []
  · have hsec := sectionAfter_pathLine (PathVar.of (keyword p)) (sectionOf before)
    have hsame := path_of_loadEnd (h.same hl [] (lines_pathLine _) lines_nil hsec)
      (PathVar.of (keyword p))
    have hwith := hval (loadOn emptyHost wantSection [pathLine (PathVar.of (keyword p))]
      (placed (sectionOf before) []))
    have hwithout := @loadOn_pathLine emptyHost wantSection (PathVar.of (keyword p))
      (placed (sectionOf before) [])
    rw [hempty] at hwith
    rw [loadOn_nil] at hsame
    have habsurd := hwith.symm.trans (hsame.trans hwithout)
    cases habsurd
  · have hsame := path_of_loadEnd (h.same_placed hl [] lines_nil) (PathVar.of (keyword p))
    rw [loadOn_nil, loadOn_nil] at hsame
    have hwith := hval (placed (sectionOf before) [])
    have hwithout : (placed (sectionOf before) []).path (PathVar.of (keyword p)) = [] := by
      cases PathVar.of (keyword p) with
      | rom => rfl
      | disk => rfl
      | fdd => rfl
    exact hempty (hwith.symm.trans (hsame.trans hwithout))

theorem Inert.hddIdx (hl : newline ∉ l) (h : Inert wantSection (sectionOf before) l)
    (curCmd : Text) :
    ((linePieces l).foldl (loadConfigLine emptyHost wantSection)
      (placed (sectionOf before) curCmd)).elsewhere.hddIdx = 0 := by
  exact hddIdx_of_loadEnd (h.same_placed hl curCmd lines_nil)

theorem Inert.wanted (hl : newline ∉ l) (h : Inert wantSection (sectionOf before) l) :
    sectionWanted wantSection (sectionAfter (sectionOf before) (linePieces l)) =
      sectionWanted wantSection (sectionOf before) := by
  have hline : Lines [hddLine] := by
    intro l hl
    rw [List.mem_singleton.mp hl]
    decide
  have hsame := hddIdx_of_loadEnd (h.same_placed hl [] hline)
  have hwith := @loadOn_hddLine emptyHost wantSection _ (h.hddIdx hl [])
  have hwithout := @loadOn_hddLine emptyHost wantSection (placed (sectionOf before) []) rfl
  rw [foldl_curSection] at hwith
  have hcount := hwith.symm.trans (hsame.trans hwithout)
  show sectionWanted wantSection (sectionAfter (placed (sectionOf before) []).curSection _) =
    sectionWanted wantSection (placed (sectionOf before) []).curSection
  cases hbehind : sectionWanted wantSection
      (sectionAfter (placed (sectionOf before) []).curSection (linePieces l)) with
  | true =>
      cases hfront : sectionWanted wantSection (placed (sectionOf before) []).curSection with
      | true => rfl
      | false =>
          rw [hbehind, hfront] at hcount
          cases hcount
  | false =>
      cases hfront : sectionWanted wantSection (placed (sectionOf before) []).curSection with
      | false => rfl
      | true =>
          rw [hbehind, hfront] at hcount
          cases hcount

theorem exists_wanted (h : sectionWanted wantSection (sectionOf before) = true ∨
      exists name, Headed name ∧ sectionWanted wantSection name = true) :
    exists lead, Lines lead ∧ forall s : LoaderState,
      sectionWanted wantSection s.curSection = sectionWanted wantSection (sectionOf before) ->
        exists sec, sectionWanted wantSection sec = true ∧
          loadOn emptyHost wantSection lead s = { s with curSection := sec } := by
  rcases h with hwanted | ⟨name, hheaded, hwanted⟩
  · exact ⟨[], lines_nil, fun s hs => ⟨s.curSection, hs.trans hwanted, rfl⟩⟩
  · refine ⟨[headerLine name], ?_, fun s _ => ⟨name, hwanted, loadOn_header hheaded s⟩⟩
    intro l hl
    rw [List.mem_singleton.mp hl]
    exact hheaded.line

theorem Inert.runsNothing (hl : newline ∉ l) (h : Inert wantSection (sectionOf before) l) :
    ¬ SomeRuns wantSection (sectionOf before) (linePieces l) := by
  intro hruns
  have hpieces : forall p, p ∈ linePieces l -> newline ∉ p.dropLast :=
    fun _ hp => newline_notMem_dropLast hp
  rcases exists_wanted (wanted_of_someRuns hpieces hruns) with ⟨lead, hlead, hwanted⟩
  have hlines : Lines (lead ++ [blanks]) := by
    intro l hl
    rcases List.mem_append.mp hl with hin | hlast
    · exact hlead l hin
    · rw [List.mem_singleton.mp hlast]
      decide
  -- A line of blanks in the section that is loaded runs the command once more.
  have hblanks : forall s : LoaderState,
      sectionWanted wantSection s.curSection = sectionWanted wantSection (sectionOf before) ->
        (getConfigItemType s.curCmd = .hdd ->
          0 < (loadOn emptyHost wantSection (lead ++ [blanks]) s).elsewhere.hddIdx) ∧
        (getConfigItemType s.curCmd ≠ .hdd ->
          (loadOn emptyHost wantSection (lead ++ [blanks]) s).elsewhere.hddIdx =
            s.elsewhere.hddIdx) := by
    intro s hs
    rcases hwanted s hs with ⟨sec, hsec, hload⟩
    rw [loadOn_append hlead, hload]
    exact @loadOn_blanks _ _ { s with curSection := sec } hsec
  have hlater := fun cmd => hddIdx_of_loadEnd (h.same_placed hl cmd hlines)
  have hback : forall cmd, sectionWanted wantSection
      ((linePieces l).foldl (loadConfigLine emptyHost wantSection)
        (placed (sectionOf before) cmd)).curSection =
        sectionWanted wantSection (sectionOf before) := by
    intro cmd
    rw [foldl_curSection]
    exact h.wanted hl
  have hhdd : getConfigItemType "hdd".toList = .hdd := by decide
  rcases @curCmd_foldl emptyHost wantSection _ (h.setsNoPath hl) (sectionOf before) with
    hkept | ⟨cmd, hcmd⟩
  · have hcounted := (hkept (placed (sectionOf before) "hdd".toList) rfl).2 hhdd hruns
    rw [h.hddIdx hl] at hcounted
    exact Nat.lt_irrefl 0 hcounted
  · by_cases hitem : getConfigItemType cmd = .hdd
    · have hwith := (hblanks _ (hback "fps".toList)).1 (by rw [hcmd _ rfl]; exact hitem)
      have hwithout := (hblanks (placed (sectionOf before) "fps".toList) rfl).2
        (show getConfigItemType "fps".toList ≠ .hdd by decide)
      rw [hlater, hwithout] at hwith
      exact Nat.lt_irrefl 0 hwith
    · have hwith := (hblanks _ (hback "hdd".toList)).2 (by rw [hcmd _ rfl]; exact hitem)
      have hwithout := (hblanks (placed (sectionOf before) "hdd".toList) rfl).1 hhdd
      rw [h.hddIdx hl] at hwith
      rw [← hlater, hwith] at hwithout
      exact Nat.lt_irrefl 0 hwithout

theorem Inert.quiet (hl : newline ∉ l) (h : Inert wantSection (sectionOf before) l) :
    Quiet wantSection (sectionOf before) l :=
  ⟨allPassedOver_of_not_someRuns (h.setsNoPath hl) (h.runsNothing hl), h.wanted hl⟩

end

/-!
## Which lines are without effect
-/

theorem Quiet.inert {sec l : Text} (hl : newline ∉ l) (h : Quiet wantSection sec l) :
    Inert wantSection sec l := by
  intro host curCmd e before after u hbefore _ hsec
  have hfront := foldl_curSection host wantSection (loadStart curCmd e) (fgets 512 (unlines before))
  unfold loadConfigFile
  rw [unlines_append, unlines_append, unlines_cons, List.append_assoc,
    List.append_assoc (unlines before) (unlines after), fgets_unlines_append hbefore,
    fgets_unlines_append hbefore, List.append_assoc, List.cons_append, fgets_line_append hl,
    List.foldl_append, List.foldl_append, List.foldl_append]
  have hcur : ((fgets 512 (unlines before)).foldl (loadConfigLine host wantSection)
      (loadStart curCmd e)).curSection = sec := hfront.trans hsec
  generalize (fgets 512 (unlines before)).foldl (loadConfigLine host wantSection)
    (loadStart curCmd e) = s at hcur
  rw [← hcur] at h
  have hline := @foldl_passedOver host wantSection s _ h.passed
  unfold linePieces at hline
  rw [hline]
  have hsame : Alike wantSection s
      { s with curSection := sectionAfter s.curSection (linePieces l) } := ⟨rfl, h.wanted⟩
  exact (hsame.foldl _).loadEnd_eq.symm

end

end Config
end PistormAtari
