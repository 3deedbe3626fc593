import PistormAtari.Config.SavedText

/-!
# When a save is faithful

Three shapes of a file defeat the saver: a last line without a newline that the
missing keys are written behind, a booted section that is opened again after keys were
added where it ended, and repeated lines for a key that the saver does not write
there.  A section name that no header can spell is added on every save.
-/

namespace PistormAtari
namespace Config

open Foundation
open Psctrl

variable {job : SaveJob} {text : Text}

/-!
## Section names
-/

theorem headerName_eq {n : Nat} {t s : Text} (h : headerName n t = some s) :
    exists rest, t = s ++ ']' :: rest ∧ ']' ∉ s := by
  induction t generalizing n s with
  | nil =>
      cases n <;> cases h
  | cons c cs ih =>
      cases n with
      | zero =>
          simp only [headerName] at h
          split at h
          · rename_i hc
            cases h
            exact ⟨cs, by rw [hc]; rfl, by simp⟩
          · cases h
      | succ n =>
          simp only [headerName] at h
          split at h
          · rename_i hc
            cases h
            exact ⟨cs, by rw [hc]; rfl, by simp⟩
          · rename_i hc
            rcases Option.map_eq_some_iff.mp h with ⟨s', hs', rfl⟩
            rcases ih hs' with ⟨rest, rfl, hnot⟩
            refine ⟨rest, rfl, ?_⟩
            intro hmem
            rcases List.mem_cons.mp hmem with heq | hmem
            · exact hc heq.symm
            · exact hnot hmem

theorem headerName_print {n : Nat} {s : Text} (hlen : s.length ≤ n) (h : ']' ∉ s) (rest : Text) :
    headerName n (s ++ ']' :: rest) = some s := by
  induction s generalizing n with
  | nil => cases n <;> simp [headerName]
  | cons c cs ih =>
      have hc : c ≠ ']' := fun heq => h (by simp [heq])
      have hcs : ']' ∉ cs := fun hmem => h (by simp [hmem])
      cases n with
      | zero => simp at hlen
      | succ n =>
          rw [List.length_cons] at hlen
          rw [List.cons_append, headerName, if_neg hc, ih (by lia) hcs]
          rfl

theorem name_of_header {l : Text} (hl : newline ∉ l.dropLast) (h : job.role l = Role.header true) :
    ']' ∉ job.want.chars ∧ newline ∉ job.want.chars := by
  unfold SaveJob.role at h
  split at h
  · rename_i sec hsec
    have hsame : sameCase sec job.want.chars = true := by simpa using h
    have hhead : saveSectionHeader l = some sec := by
      split at hsec
      · exact hsec
      · cases hsec
    unfold saveSectionHeader at hhead
    split at hhead
    · rename_i rest hrest
      have hname : headerName 31 rest = some sec := by
        split at hhead
        · cases hhead
        · exact hhead
      rcases headerName_eq hname with ⟨tail, rfl, hnot⟩
      refine ⟨fun hmem => hnot (mem_of_sameCase hsame hmem (by decide) (by decide)), ?_⟩
      intro hmem
      have hsec' : newline ∈ sec := mem_of_sameCase hsame hmem (by decide) (by decide)
      have hsuf : ('[' :: (sec ++ ']' :: tail)) <:+ l := by
        rw [← hrest]
        exact List.dropWhile_suffix _
      rcases hsuf with ⟨before, rfl⟩
      refine hl ?_
      rw [List.dropLast_append_of_ne_nil (by simp), List.dropLast_cons_of_ne_nil (by simp),
        List.dropLast_append_of_ne_nil (by simp)]
      simp [hsec']
    · cases hhead
  · split at h <;> cases h

/-!
## A section that is not in the text
-/

theorem saveLine_outside {st : SaveState} {q : Text} (hin : st.inTarget = false) (hq : nul ∉ q)
    (h : job.role q ≠ Role.header true) : saveLine job st q = (q, st) := by
  rcases st with ⟨inTarget, targetSeen, seen⟩
  subst hin
  unfold SaveJob.role at h
  unfold saveLine
  simp only [cstr_of_notMem hq]
  cases hsec : (if job.scoped then saveSectionHeader q else none) with
  | some sec =>
      rw [hsec] at h
      have hmine : sameCase sec job.want.chars = false := by simpa using h
      simp [hmine]
  | none => cases lineKey q <;> simp

theorem saveLoop_outside {st : SaveState} {ps : List Text} (hin : st.inTarget = false)
    (hnul : nul ∉ ps.flatten) (h : forall q, q ∈ ps -> job.role q ≠ Role.header true) :
    saveLoop job st ps = ps.flatten ++ saveEnd job st := by
  induction ps with
  | nil => rfl
  | cons q ps ih =>
      rw [List.flatten_cons, List.mem_append, not_or] at hnul
      have htail := ih hnul.2 (fun q' hq' => h q' (by simp [hq']))
      rw [saveLoop, saveLine_outside hin hnul.1 (h q (by simp)), htail, List.flatten_cons,
        List.append_assoc]

def SaveJob.header (job : SaveJob) : Text :=
  '[' :: (job.want.chars ++ [']'])

theorem save_absent (hs : job.scoped = true) (hnul : nul ∉ text)
    (h : forall q, q ∈ fgets maxline text -> job.role q ≠ Role.header true) :
    configFileSave job text =
      text ++ newline :: (job.header ++ newline :: unlines (job.editor.flush [])) := by
  have hflat := flatten_fgets maxline text
  have hend : saveEnd job (saveStart job) =
      newline :: (job.header ++ newline :: unlines (job.editor.flush [])) := by
    simp [saveEnd, saveStart, hs, SaveJob.header, flushUnseen_eq, newline]
  have hout : (saveStart job).inTarget = false := by simp [saveStart, hs]
  have hloop := saveLoop_outside hout (by rw [hflat]; exact hnul) h
  rw [hflat, hend] at hloop
  exact hloop

theorem role_piece {inside : Bool} {ls : List Text} {u q : Text}
    (hnl : forall l, l ∈ ls -> newline ∉ l) (hunl : newline ∉ u)
    (hreads : job.Reads inside (ls ++ if u = [] then [] else [u]))
    (h : ¬ job.editor.Entered (ls ++ if u = [] then [] else [u]))
    (hq : q ∈ fgets maxline (unlines ls ++ u)) : job.role q ≠ Role.header true := by
  induction ls generalizing inside with
  | nil =>
      rw [unlines_nil, List.nil_append] at hq
      rw [List.nil_append] at hreads h
      rcases Decidable.em (u = []) with hu | hu
      · rw [hu] at hq
        cases hq
      · rw [if_neg hu] at hreads h
        have hrole : job.role u ≠ Role.header true := (Editor.not_entered_cons h).1
        rcases hreads.1 with hshort | hquiet
        · rw [fgets_short_of_notMem hunl hu (by lia)] at hq
          rw [List.mem_singleton.mp hq]
          exact hrole
        · rcases mem_fgets_newline hq with hq' | hq'
          · exact (hquiet q (by simp [hq'])).1 true
          · exact (quiet_newline.mp (hquiet _ (by simp [hq']))).1 true
  | cons l ls ih =>
      rcases Editor.not_entered_cons h with ⟨hl, hls⟩
      rw [unlines_cons, List.append_assoc, List.cons_append,
        fgets_line_append (hnl l (by simp))] at hq
      rcases List.mem_append.mp hq with hq | hq
      · rcases hreads.1 with hshort | hquiet
        · rw [fgets_short_line (hnl l (by simp)) hshort] at hq
          have hrole : job.role (l ++ [newline]) = job.role l := role_newline l
          rw [List.mem_singleton.mp hq, hrole]
          exact hl
        · exact (hquiet q (by simp [hq])).1 true
      · exact ih (fun l' hl' => hnl l' (by simp [hl'])) hreads.2 hls hq

theorem role_header (hs : job.scoped = true) (h : ']' ∉ job.want.chars) :
    job.role job.header = Role.header true := by
  have hne : job.want.chars ≠ [] := by simpa [SaveJob.scoped] using hs
  have hfits := job.want.fits
  have hname := headerName_print (n := 31) (s := job.want.chars) (by lia) h []
  have hsec : saveSectionHeader job.header = some job.want.chars := by
    have hblank : isBlank '[' = false := by decide
    have hskip : skipBlanks job.header = '[' :: (job.want.chars ++ [']']) := by
      simp [skipBlanks, SaveJob.header, hblank]
    unfold saveSectionHeader
    rw [hskip]
    simp only [hname]
    split
    · rename_i heq
      exact absurd (Option.some.inj heq) hne
    · rfl
  simp [SaveJob.role, hs, hsec]

/-!
## Saving again
-/

theorem save_settled {ls : List Text} (hls : forall l, l ∈ ls -> newline ∉ l ∧ nul ∉ l)
    (hc : PlainPaths job.cfg) (hreads : job.Reads job.start.inside ls)
    (hset : job.editor.Settled job.start ls)
    (hent : job.scoped = true -> job.editor.Entered ls) :
    configFileSave job (unlines ls) = unlines ls := by
  have hlines := textLines_unlines (fun l hl => (hls l hl).1)
  have hr : Readable job (unlines ls) :=
    ⟨nul_notMem_unlines hls, hc, by rw [hlines]; exact hreads⟩
  have hp : job.Present (unlines ls) := by
    intro hs
    rw [hlines]
    exact hent hs
  cases savedAs hr hp with
  | closed h _ => rw [h, hlines, hset.edit_eq]
  | unclosed ls' u hu htext hlines' =>
      have hlen : (unlines (ls' ++ [u])).length = (unlines ls' ++ u).length := by
        rw [← hlines', hlines, ← htext]
      simp at hlen

theorem save_settled_unclosed {ls : List Text} {u : Text} (hu : u ≠ [])
    (hls : forall l, l ∈ ls ++ [u] -> newline ∉ l ∧ nul ∉ l)
    (hc : PlainPaths job.cfg) (hreads : job.Reads job.start.inside (ls ++ [u]))
    (hset : job.editor.Settled job.start (ls ++ [u]))
    (hkept : job.editor.kept (job.editor.place job.start ls).inside [u] = [u])
    (hent : job.scoped = true -> job.editor.Entered (ls ++ [u])) :
    configFileSave job (unlines ls ++ u) = unlines ls ++ u := by
  have hlines : textLines (unlines ls ++ u) = ls ++ [u] := by
    have hunl := (hls u (by simp)).1
    rw [textLines_unlines_append (fun l hl => (hls l (by simp [hl])).1), textLines_of_notMem hunl,
      if_neg hu]
  have hnul : nul ∉ unlines ls ++ u := by
    rw [List.mem_append, not_or]
    exact ⟨nul_notMem_unlines (fun l hl => hls l (by simp [hl])), (hls u (by simp)).2⟩
  have hr : Readable job (unlines ls ++ u) := ⟨hnul, hc, by rw [hlines]; exact hreads⟩
  have hp : job.Present (unlines ls ++ u) := by
    intro hs
    rw [hlines]
    exact hent hs
  cases savedAs hr hp with
  | closed _ hend =>
      rw [hend ls u hlines rfl] at hkept
      cases hkept
  | unclosed ls' u' hu' htext hlines' hkept' added hemit hadded h =>
      rcases cut_unique (hlines.symm.trans hlines') with ⟨rfl, rfl⟩
      have hedit := hset.edit_eq
      have hfin : job.editor.finish (job.editor.place job.start (ls ++ [u])) = [] :=
        hset.finish_eq_nil
      rw [Editor.edit, hfin, List.append_nil, Editor.body_append] at hedit
      have hone : job.editor.body (job.editor.place job.start ls) [u] =
          job.editor.emit (job.editor.place job.start ls) u := by
        simp [Editor.body]
      rw [hone, hemit, ← List.append_assoc] at hedit
      rw [h, hlines, hfin, (cut_unique hedit).1]
      simp

/-!
## The booted section is in the text
-/

theorem body_unclosed {ls added : List Text} {u : Text}
    (hemit : job.editor.emit (job.editor.place job.start ls) u = added ++ [u]) :
    job.editor.body job.start (ls ++ [u]) = (job.editor.body job.start ls ++ added) ++ [u] := by
  rw [Editor.body_append, Editor.body, Editor.body, hemit]
  simp

theorem edit_unclosed {ls added : List Text} {u : Text} (hlines : textLines text = ls ++ [u])
    (hemit : job.editor.emit (job.editor.place job.start ls) u = added ++ [u])
    (hfin : job.editor.finish (job.editor.place job.start (textLines text)) = []) :
    job.editor.edit job.start (textLines text) =
      (job.editor.body job.start ls ++ added) ++ [u] := by
  rw [Editor.edit, hfin, List.append_nil, hlines, body_unclosed hemit]

theorem textLines_saved (hr : Readable job text) (hp : job.Present text) (hend : ¬ job.Runs text) :
    textLines (configFileSave job text) = job.editor.edit job.start (textLines text) := by
  have hclean := clean_edit (p := job.start) hr.paths (clean_lines hr.noNul)
  cases savedAs hr hp with
  | closed h _ => rw [h, textLines_unlines (fun l hl => (hclean l hl).1)]
  | unclosed ls u hu htext hlines hkept added hemit hadded h =>
      have hfin : job.editor.finish (job.editor.place job.start (textLines text)) = [] := by
        by_contra hne
        exact hend ⟨ls, u, hlines, htext, hkept, hne⟩
      have hedit := edit_unclosed hlines hemit hfin
      rw [hedit] at hclean
      rw [h, hfin, hedit, unlines_nil, List.append_nil,
        textLines_unlines_append (fun l hl => (hclean l (List.mem_append_left _ hl)).1),
        textLines_of_notMem (hclean u (by simp)).1, if_neg hu]

theorem save_again (hr : Readable job text) (hp : job.Present text)
    (htidy : job.editor.Tidy job.start (textLines text)) (hend : ¬ job.Runs text) :
    configFileSave job (configFileSave job text) = configFileSave job text := by
  have hclean := clean_edit (p := job.start) hr.paths (clean_lines hr.noNul)
  have hreads := reads_edit hr.paths hr.lines
  have hset := Editor.settled_edit htidy
  have hent : job.scoped = true ->
      job.editor.Entered (job.editor.edit job.start (textLines text)) :=
    fun hs => entered_edit (hp hs)
  cases savedAs hr hp with
  | closed h _ =>
      rw [h]
      exact save_settled hclean hr.paths hreads hset hent
  | unclosed ls u hu htext hlines hkept added hemit hadded h =>
      have hfin : job.editor.finish (job.editor.place job.start (textLines text)) = [] := by
        by_contra hne
        exact hend ⟨ls, u, hlines, htext, hkept, hne⟩
      have hedit := edit_unclosed hlines hemit hfin
      have hinside : (job.editor.place job.start (job.editor.body job.start ls ++ added)).inside =
          (job.editor.place job.start ls).inside := by
        rw [Editor.place_inside, Editor.place_inside, List.foldl_append, Editor.foldl_turn_body,
          Editor.foldl_turn_not_header hadded]
      rw [hedit] at hclean hreads hset hent
      rw [h, hfin, unlines_nil, List.append_nil]
      exact save_settled_unclosed hu hclean hr.paths hreads hset (by rw [hinside]; exact hkept) hent

theorem faithful_of_present (hr : Readable job text) (hp : job.Present text)
    (h : Editable job text) : Faithful job text := by
  have hlines := textLines_saved hr hp h.ended
  refine ⟨?_, ?_, save_again hr hp h.tidy h.ended⟩
  · rw [hlines]
    exact Editor.kept_sublist_edit
  · intro k hk
    rw [hlines]
    rcases Decidable.em (k ∈ settingsKeys ∧ (job.render k).isSome = true) with hwrite | hno
    · have hocc := (Editor.settled_edit h.tidy).occ_le hwrite.1 hwrite.2
      simpa [SaveJob.start] using hocc
    · rw [Editor.occ_edit_other hno]
      exact h.single k hk hno

theorem finish_eq_mark {p : Place Text} (h : job.editor.finish p ≠ []) :
    p.inside = true ∧ exists rest, job.editor.finish p = markLine :: rest ∧
      forall l, l ∈ rest -> exists k, job.editor.render k = some l := by
  have hin : p.inside = true := by
    by_contra hout
    exact h (by simp [Editor.finish, hout])
  refine ⟨hin, (job.editor.missing p.seen).filterMap job.editor.render, ?_, ?_⟩
  · have hflush : job.editor.finish p = job.editor.flush p.seen := by simp [Editor.finish, hin]
    have hmiss : job.editor.missing p.seen ≠ [] := by
      intro heq
      exact h (by rw [hflush, Editor.flush_eq_nil.mpr heq])
    rw [hflush, Editor.flush, if_neg hmiss]
    rfl
  · intro l hl
    rcases List.mem_filterMap.mp hl with ⟨k, _, hr⟩
    exact ⟨k, hr⟩

theorem textLines_runs (hr : Readable job text) (hp : job.Present text) (hruns : job.Runs text) :
    exists (ls : List Text) (u : Text) (before rest : List Text),
      textLines text = ls ++ [u] ∧ u ≠ [] ∧
      job.editor.kept (job.editor.place job.start ls).inside [u] = [u] ∧
      job.editor.body job.start (textLines text) = before ++ [u] ∧
      job.editor.finish (job.editor.place job.start (textLines text)) = markLine :: rest ∧
      (forall l, l ∈ rest -> exists k, job.editor.render k = some l) ∧
      textLines (configFileSave job text) = before ++ (u ++ markLine) :: rest := by
  rcases hruns with ⟨ls, u, hlines, htext, hkept, hfin⟩
  cases savedAs hr hp with
  | closed _ hend =>
      rw [hend ls u hlines htext] at hkept
      cases hkept
  | unclosed ls' u' hu htext' hlines' hkept' added hemit hadded h =>
      rcases cut_unique (hlines.symm.trans hlines') with ⟨rfl, rfl⟩
      rcases finish_eq_mark hfin with ⟨_, rest, hmark, hrest⟩
      have hbody := body_unclosed hemit
      have hclean := clean_lines hr.noNul
      have hedit := clean_edit (p := job.start) hr.paths hclean
      rw [Editor.edit, hmark, hlines, hbody] at hedit
      refine ⟨ls, u, _, rest, hlines, hu, hkept, by rw [hlines, hbody], hmark, hrest, ?_⟩
      have hunl : newline ∉ u ++ markLine := by
        rw [List.mem_append, not_or]
        exact ⟨(hedit u (by simp)).1, by decide⟩
      rw [h, hmark, unlines_cons, List.append_assoc, textLines_unlines_append
          (fun l hl => (hedit l (List.mem_append_left _ (List.mem_append_left _ hl))).1),
        ← List.append_assoc, textLines_line_append hunl,
        textLines_unlines (fun l hl => (hedit l (by simp [hl])).1)]

theorem rendered_ne_kept {inside : Bool} {u k r : Text}
    (hkept : job.editor.kept inside [u] = [u]) (hin : job.editor.turn inside u = true)
    (hr : job.editor.render k = some r) : r ≠ u := by
  rintro rfl
  have hrole := job.editor.role_render k r hr
  rw [Editor.turn_not_header (Editor.not_header_of_key hrole)] at hin
  rw [Editor.kept_rewritten hin hrole hr] at hkept
  cases hkept

theorem tidy_of_mark {before rest : List Text}
    (hbody : job.editor.body job.start (textLines text) = before ++ [markLine])
    (hfin : job.editor.finish (job.editor.place job.start (textLines text)) = markLine :: rest)
    (hsaved : textLines (configFileSave job text) = before ++ (markLine ++ markLine) :: rest)
    (hf : Faithful job text) : job.editor.Tidy job.start (textLines text) := by
  by_contra hno
  rcases Editor.two_le_occ_edit hno with ⟨k, hk, htwo⟩
  have hmark : job.editor.role markLine = Role.plain := job.editor.role_mark
  have htwice : job.editor.role (markLine ++ markLine) = Role.plain :=
    role_of_plain (by decide) (by decide)
  have honce := hf.once k (List.mem_append_left _ hk)
  rw [hsaved, Editor.occ_plain _ htwice] at honce
  rw [Editor.edit, hbody, hfin, List.append_assoc, List.singleton_append,
    Editor.occ_plain _ hmark, Editor.occ_plain _ hmark] at htwo
  lia

theorem not_faithful_of_runs (hr : Readable job text) (hp : job.Present text)
    (hruns : job.Runs text) : ¬ Faithful job text := by
  intro hf
  rcases textLines_runs hr hp hruns with
    ⟨ls, u, before, rest, hlines, hu, hkept, hbody, hfin, hrest, hsaved⟩
  have hin : (job.editor.place job.start (textLines text)).inside = true :=
    (finish_eq_mark (by rw [hfin]; simp)).1
  have hturn : job.editor.turn (job.editor.place job.start ls).inside u = true := by
    rw [hlines, Editor.place_inside, List.foldl_append, ← Editor.place_inside] at hin
    exact hin
  have hne : forall k r, job.editor.render k = some r -> decide (r = u) = false := by
    intro k r hkr
    simpa using rendered_ne_kept hkept hturn hkr
  -- the marks that the editor adds may read as the lost line does
  have htest : job.editor.Tidy job.start (textLines text) ∧
      (job.editor.place job.start (textLines text)).inside = true ∨
      decide (job.editor.mark = u) = false ∧ decide (job.editor.blank = u) = false := by
    rcases Decidable.em (u = markLine) with rfl | hum
    · exact Or.inl ⟨tidy_of_mark hbody hfin hsaved hf, hin⟩
    · have h1 : job.editor.mark ≠ u := Ne.symm hum
      have h2 : job.editor.blank ≠ u := Ne.symm hu
      exact Or.inr ⟨by simpa using h1, by simpa using h2⟩
  have hcount := Editor.countP_body (q := fun l => decide (l = u)) hne htest
  have hle := hf.kept.countP_le (p := fun l => decide (l = u))
  have hzero : rest.countP (fun l => decide (l = u)) = 0 := by
    rw [List.countP_eq_zero]
    intro l hl
    rcases hrest l hl with ⟨k, hk⟩
    simp [hne k l hk]
  have hglued : u ++ markLine ≠ u := by
    have hmark : markLine ≠ [] := by decide
    simpa using hmark
  rw [hsaved, ← hcount, hbody, List.countP_append, List.countP_append, List.countP_cons,
    List.countP_cons, hzero] at hle
  simp [hglued] at hle

theorem editable_of_present (hr : Readable job text) (hp : job.Present text)
    (hf : Faithful job text) : Editable job text := by
  have hend : ¬ job.Runs text := fun hruns => not_faithful_of_runs hr hp hruns hf
  have hlines := textLines_saved hr hp hend
  refine ⟨?_, ?_, ?_, hend⟩
  · intro hs
    rcases hp hs with ⟨l, hl, hrole⟩
    refine name_of_header ?_ hrole
    exact fun hmem => (clean_lines hr.noNul l hl).1 (List.mem_of_mem_dropLast hmem)
  · by_contra hno
    rcases Editor.two_le_occ_edit hno with ⟨k, hk, htwo⟩
    have honce := hf.once k (List.mem_append_left _ hk)
    rw [hlines] at honce
    lia
  · intro k hk hno
    have honce := hf.once k hk
    rw [hlines, Editor.occ_edit_other hno] at honce
    exact honce

/-!
## The booted section is not in the text
-/

theorem save_absent_lines {ls : List Text} {u : Text} (htext : text = unlines ls ++ u)
    (h : configFileSave job text =
      text ++ newline :: (job.header ++ newline :: unlines (job.editor.flush []))) :
    configFileSave job text = unlines ((ls ++ [u]) ++ job.header :: job.editor.flush []) := by
  rw [h, htext]
  simp

theorem faithful_of_absent (hr : Readable job text) (hs : job.scoped = true)
    (hno : ¬ job.editor.Entered (textLines text))
    (hname : ']' ∉ job.want.chars ∧ newline ∉ job.want.chars) : Faithful job text := by
  rcases exists_cut hr.noNul with ⟨ls, u, hlsnl, hunl, hlsnul, hunul, htext, hlines⟩
  have hreads := hr.lines
  rw [hlines] at hno hreads
  have hsave := save_absent_lines htext (save_absent hs hr.noNul (by
    intro q hq
    rw [htext] at hq
    exact role_piece hlsnl hunl hreads hno hq))
  have hstart : job.start.inside = false := by simp [SaveJob.start, hs]
  have hrole := role_header hs hname.1
  have hopen : ¬ job.editor.Entered (ls ++ [u]) := by
    rcases Decidable.em (u = []) with hu | hu
    · rw [if_pos hu, List.append_nil] at hno
      rintro ⟨l, hl, hhead⟩
      rcases List.mem_append.mp hl with hl | hl
      · exact hno ⟨l, hl, hhead⟩
      · have hblank : job.editor.role [] = Role.plain := job.editor.role_blank
        rw [List.mem_singleton.mp hl, hu, hblank] at hhead
        cases hhead
    · rw [if_neg hu] at hno
      exact hno
  have hclean : forall l, l ∈ (ls ++ [u]) ++ job.header :: job.editor.flush [] ->
      newline ∉ l ∧ nul ∉ l := by
    intro l hl
    rcases List.mem_append.mp hl with hl | hl
    · rcases List.mem_append.mp hl with hl | hl
      · exact ⟨hlsnl l hl, hlsnul l hl⟩
      · rw [List.mem_singleton.mp hl]
        exact ⟨hunl, hunul⟩
    · rcases List.mem_cons.mp hl with rfl | hl
      · have hnul := job.want.noNul
        have h1 : newline ≠ '[' ∧ newline ≠ ']' ∧ nul ≠ '[' ∧ nul ≠ ']' := by decide
        simp [SaveJob.header, hname.2, hnul, h1]
      · exact (short_flush hr.paths hl).2
  have hfalse : job.Reads false (ls ++ [u]) := by
    rw [hstart] at hreads
    rcases Decidable.em (u = []) with hu | hu
    · rw [if_pos hu, List.append_nil] at hreads
      rw [reads_append, hu]
      exact ⟨hreads, Or.inl (by decide), trivial⟩
    · rw [if_neg hu] at hreads
      exact hreads
  have hread : job.Reads job.start.inside ((ls ++ [u]) ++ job.header :: job.editor.flush []) := by
    rw [hstart, reads_append]
    refine ⟨hfalse, Or.inl ?_, reads_short (fun l hl => (short_flush hr.paths hl).1)⟩
    have hfits := job.want.fits
    simp only [SaveJob.header, List.length_cons, List.length_append, List.length_nil, maxline]
    lia
  have hnext : job.editor.next job.start job.header = ⟨true, []⟩ := by
    have hrole' : job.editor.role job.header = Role.header true := hrole
    simp [Editor.next, hrole', SaveJob.start]
  have hset : job.editor.Settled job.start ((ls ++ [u]) ++ job.header :: job.editor.flush []) := by
    refine Editor.settled_append hstart hopen ⟨Editor.emit_outside hstart, ?_⟩
    rw [hnext]
    exact Editor.settled_finish (p := ⟨true, []⟩)
  refine ⟨?_, ?_, ?_⟩
  · rw [hsave, textLines_unlines (fun l hl => (hclean l hl).1), hlines, hstart,
      Editor.kept_of_not_entered hno]
    refine List.Sublist.trans ?_ (List.sublist_append_left _ _)
    refine List.Sublist.append (List.Sublist.refl ls) ?_
    split
    · exact List.nil_sublist _
    · exact List.Sublist.refl _
  · intro k _
    have hcount := Editor.occ_append (E := job.editor) (k := k) []
      (fun l (hl : l ∈ job.editor.flush []) => Editor.flush_not_header hl)
    rw [List.append_nil, Editor.countP_flush] at hcount
    rw [hsave, textLines_unlines (fun l hl => (hclean l hl).1), hstart,
      Editor.occ_append_of_not_entered hopen, Editor.occ_header hrole, hcount]
    exact Editor.count_missing_le_one
  · rw [hsave]
    refine save_settled hclean hr.paths hread hset ?_
    intro _
    exact ⟨job.header, by simp, hrole⟩

theorem not_faithful_of_name (hr : Readable job text) (hs : job.scoped = true)
    (hname : ¬ (']' ∉ job.want.chars ∧ newline ∉ job.want.chars)) : ¬ Faithful job text := by
  intro hf
  have hrole : forall t q, q ∈ fgets maxline t -> job.role q ≠ Role.header true := by
    intro t q hq hhead
    exact hname (name_of_header (newline_notMem_dropLast hq) hhead)
  have hsave := save_absent hs hr.noNul (hrole text)
  have hnul : nul ∉ configFileSave job text := by
    have hwant := job.want.noNul
    have hne : nul ≠ newline ∧ nul ≠ '[' ∧ nul ≠ ']' := by decide
    have hflush : nul ∉ unlines (job.editor.flush []) :=
      nul_notMem_unlines (fun l hl => (short_flush hr.paths hl).2)
    rw [hsave]
    simp [SaveJob.header, hr.noNul, hwant, hne, hflush]
  have hagain := save_absent hs hnul (hrole _)
  rw [hf.again] at hagain
  have hlen := congrArg List.length hagain
  rw [List.length_append, List.length_cons] at hlen
  lia

theorem editable_of_absent (hr : Readable job text) (hs : job.scoped = true)
    (hno : ¬ job.editor.Entered (textLines text)) (hf : Faithful job text) : Editable job text := by
  have hstart : job.start.inside = false := by simp [SaveJob.start, hs]
  refine ⟨?_, Editor.tidy_of_not_entered hno, ?_, ?_⟩
  · intro _
    by_contra hname
    exact not_faithful_of_name hr hs hname hf
  · intro k _ _
    have hocc := Editor.occ_append_of_not_entered (k := k) hno []
    rw [List.append_nil] at hocc
    rw [hstart, hocc]
    simp [Editor.occ, Editor.owned]
  · rintro ⟨_, _, _, _, _, hfin⟩
    have hout := Editor.place_outside hstart hno
    exact hfin (by simp [Editor.finish, hout])

/-!
## The condition
-/

/-- A readable text is saved faithfully just when it has none of the shapes that defeat the
saver. -/
theorem configFileSave_faithful_iff (hr : Readable job text) :
    Faithful job text <-> Editable job text := by
  rcases Classical.em (job.Present text) with hp | hp
  · exact ⟨editable_of_present hr hp, faithful_of_present hr hp⟩
  · have habs : job.scoped = true ∧ ¬ job.editor.Entered (textLines text) := by
      simpa [SaveJob.Present] using hp
    rcases habs with ⟨hs, hno⟩
    exact ⟨editable_of_absent hr hs hno, fun h => faithful_of_absent hr hs hno (h.name hs)⟩

def gemJob : SaveJob where
  want := sectionBuf "gem".toList
  cfg := {}
  state := PsState.startup

theorem configFileSave_faithful_gem : Faithful gemJob "[gem]\n# note\n".toList := by
  have hlines : textLines "[gem]\n# note\n".toList = ["[gem]".toList, "# note".toList] := by
    decide +kernel
  have hrole : gemJob.editor.role "# note".toList = Role.plain := by decide +kernel
  have hreads : gemJob.Reads gemJob.start.inside ["[gem]".toList, "# note".toList] :=
    reads_short (by decide +kernel)
  have hpaths : PlainPaths gemJob.cfg := ⟨by decide +kernel, by decide +kernel⟩
  refine (configFileSave_faithful_iff ⟨by decide +kernel, hpaths, by rw [hlines]; exact hreads⟩).mpr
    ⟨fun _ => by decide +kernel, ?_, ?_, ?_⟩
  · rw [hlines]
    refine ⟨fun _ hin => ?_, ⟨fun hhead => ?_, trivial⟩⟩
    · exact absurd hin (by decide +kernel)
    · rcases hhead with ⟨mine, hmine⟩
      cases hrole.symm.trans hmine
  · intro k _ _
    have hlen : (gemJob.editor.owned gemJob.start.inside
        (textLines "[gem]\n# note\n".toList)).length ≤ 1 := by decide +kernel
    exact List.countP_le_length.trans hlen
  · rintro ⟨ls, u, hcut, htext, _⟩
    have hwhole : unlines (textLines "[gem]\n# note\n".toList) = "[gem]\n# note\n".toList := by
      decide +kernel
    have hlen := congrArg List.length (hwhole.trans htext)
    rw [hcut, List.length_append] at hlen
    simp [List.length_append] at hlen

/-- The comment at the end of the file has no newline and ends up in front of the first
line that is added. -/
theorem configFileSave_runs_on : ¬ Faithful gemJob "[gem]\n# end".toList := by
  intro h
  have hkept : "# end".toList ∈
      gemJob.editor.kept gemJob.start.inside (textLines "[gem]\n# end".toList) := by
    decide +kernel
  have hlost : "# end".toList ∉ textLines (configFileSave gemJob "[gem]\n# end".toList) := by
    decide +kernel
  exact hlost (h.kept.subset hkept)

end Config
end PistormAtari
