import PistormAtari.Config.LineEditor

/-!
# The saved text

What `config_file_save` makes of a whole text, and when it is a faithful editor of
it.  A text may lack its last newline, and a line that does not fit the buffer reaches
the saver in pieces.
-/

namespace PistormAtari
namespace Config

open Foundation
open Psctrl

variable {job : SaveJob} {text : Text}

/-- Every line reaches the saver whole, or it and all its pieces are copied. -/
def SaveJob.Reads (job : SaveJob) : Bool -> List Text -> Prop
  | _, [] => True
  | inside, l :: ls =>
      (l.length + 1 < maxline ∨
        forall q, q ∈ l :: fgets maxline (l ++ [newline]) -> job.Quiet inside q) ∧
      Reads job (job.editor.turn inside l) ls

/-- A text file that the saver reads line by line, and settings that it renders as
lines. -/
structure Readable (job : SaveJob) (text : Text) : Prop where
  noNul : nul ∉ text
  paths : PlainPaths job.cfg
  lines : job.Reads job.start.inside (textLines text)

/-- The saved text keeps the lines that are outside the booted section or not rendered,
has every managed key once at most, and is saved again as it is. -/
structure Faithful (job : SaveJob) (text : Text) : Prop where
  kept : (job.editor.kept job.start.inside (textLines text)).Sublist
    (textLines (configFileSave job text))
  once : forall k, k ∈ managedKeys ->
    job.editor.occ k job.start.inside (textLines (configFileSave job text)) ≤ 1
  again : configFileSave job (configFileSave job text) = configFileSave job text

/-- The last line has no newline, it is kept, and the missing keys follow it. -/
def SaveJob.Runs (job : SaveJob) (text : Text) : Prop :=
  exists ls u, textLines text = ls ++ [u] ∧ text = unlines ls ++ u ∧
    job.editor.kept (job.editor.place job.start ls).inside [u] = [u] ∧
    job.editor.finish (job.editor.place job.start (textLines text)) ≠ []

structure Editable (job : SaveJob) (text : Text) : Prop where
  /-- The name of the booted section can be read back from a header. -/
  name : job.scoped = true -> ']' ∉ job.want.chars ∧ newline ∉ job.want.chars
  /-- The booted section is not opened again after a key was missing where it ended. -/
  tidy : job.editor.Tidy job.start (textLines text)
  /-- A key that has no line of the saver's, or one that it never adds, stands there
  once at most. -/
  single : forall k, k ∈ managedKeys -> ¬ (k ∈ settingsKeys ∧ (job.render k).isSome = true) ->
    job.editor.occ k job.start.inside (textLines text) ≤ 1
  ended : ¬ job.Runs text

/-!
## Reading
-/

theorem quiet_newline {inside : Bool} {l : Text} :
    job.Quiet inside (l ++ [newline]) <-> job.Quiet inside l := by
  have hrole : job.role (l ++ [newline]) = job.role l := role_newline l
  unfold SaveJob.Quiet
  rw [hrole]

theorem saveLine_quiet {st : SaveState} {l : Text} (hl : nul ∉ l) (h : job.Quiet st.inTarget l) :
    saveLine job st l = (l, st) := by
  rcases h with ⟨hhead, hkey⟩
  unfold saveLine
  simp only [cstr_of_notMem hl]
  unfold SaveJob.role at hhead hkey
  cases hsec : (if job.scoped then saveSectionHeader l else none) with
  | some sec =>
      rw [hsec] at hhead
      exact absurd rfl (hhead _)
  | none =>
      rw [hsec] at hkey
      dsimp only at hkey ⊢
      cases hk : lineKey l with
      | none => rfl
      | some key =>
          rw [hk] at hkey
          have hnone : (if st.inTarget then job.render key else none) = none := by
            split
            · rename_i hin
              exact hkey hin key rfl
            · rfl
          simp only [hnone]

theorem saveLoop_quiet {st : SaveState} {ps : List Text} (hnul : nul ∉ ps.flatten)
    (h : forall q, q ∈ ps -> job.Quiet st.inTarget q) (rest : List Text) :
    saveLoop job st (ps ++ rest) = ps.flatten ++ saveLoop job st rest := by
  induction ps with
  | nil => rfl
  | cons q ps ih =>
      rw [List.flatten_cons, List.mem_append, not_or] at hnul
      have htail := ih hnul.2 (fun q' hq' => h q' (by simp [hq']))
      rw [List.cons_append, saveLoop, saveLine_quiet hnul.1 (h q (by simp)), htail,
        List.flatten_cons, List.append_assoc]

variable {p : Place Text} {l : Text}

theorem emit_quiet (h : job.Quiet p.inside l) :
    job.editor.emit p l = [l] ∧ job.editor.next p l = p ∧
      job.editor.kept p.inside [l] = [l] := by
  rcases h with ⟨hhead, hkey⟩
  have hkept : job.editor.kept p.inside [l] = [l] := Editor.kept_copied hhead hkey
  have hstep := job.editor.step p l
  refine ⟨?_, ?_, hkept⟩
  all_goals
    generalize job.editor.emit p l = out at hstep ⊢
    generalize job.editor.next p l = q at hstep ⊢
    cases hstep with
    | header hrole => exact absurd hrole (hhead _)
    | copy _ _ => rfl
    | rewrite hin hrole hr _ =>
        cases hkept.symm.trans (Editor.kept_rewritten hin hrole hr)
    | put hin hrole hr _ _ =>
        cases hkept.symm.trans (Editor.kept_rewritten hin hrole hr)
    | drop hin hrole hr _ _ =>
        cases hkept.symm.trans (Editor.kept_rewritten hin hrole hr)

theorem saveLoop_line {st : SaveState} (hnl : newline ∉ l) (hnul : nul ∉ l)
    (h : l.length + 1 < maxline ∨
      forall q, q ∈ l :: fgets maxline (l ++ [newline]) -> job.Quiet st.inTarget q) :
    exists st' : SaveState, st'.place = job.editor.next st.place l ∧
      (st'.targetSeen = true <-> st.targetSeen = true ∨ job.role l = Role.header true) ∧
      forall t, saveLoop job st (fgets maxline (l ++ newline :: t)) =
        unlines (job.editor.emit st.place l) ++ saveLoop job st' (fgets maxline t) := by
  rcases h with hshort | hquiet
  · have hplace := saveLine_place job hnul (Or.inr rfl) st
    refine ⟨(saveLine job st (l ++ [newline])).2, hplace.1, by simp [hplace.2], ?_⟩
    intro t
    have hout : (saveLine job st (l ++ [newline])).1 = unlines (job.editor.emit st.place l) := by
      rcases saveLine_eq job hnul (Or.inr rfl) st with ⟨out, hout, hemit, _⟩ | ⟨hout, _⟩
      · rw [hout, hemit]
      · exact hout
    rw [fgets_line_append hnl, fgets_short_line hnl hshort, List.singleton_append, saveLoop, hout]
  · have hl : job.Quiet st.place.inside l := hquiet l (by simp)
    rcases emit_quiet hl with ⟨hemit, hnext, _⟩
    refine ⟨st, hnext.symm, ?_, ?_⟩
    · have hhead := hl.1 true
      simp [hhead]
    · intro t
      have hflat := flatten_fgets maxline (l ++ [newline])
      have hnul' : nul ∉ (fgets maxline (l ++ [newline])).flatten := by
        have hne : nul ≠ newline := by decide
        rw [hflat]
        simp [hnul, hne]
      rw [fgets_line_append hnl, saveLoop_quiet hnul' (fun q hq => hquiet q (by simp [hq])), hflat,
        hemit]
      simp

variable {ls : List Text}

theorem saveLoop_lines {st : SaveState} (hnl : forall l, l ∈ ls -> newline ∉ l)
    (hnul : forall l, l ∈ ls -> nul ∉ l) (h : job.Reads st.inTarget ls) :
    exists st' : SaveState, st'.place = job.editor.place st.place ls ∧
      (st'.targetSeen = true <-> st.targetSeen = true ∨ job.editor.Entered ls) ∧
      forall t, saveLoop job st (fgets maxline (unlines ls ++ t)) =
        unlines (job.editor.body st.place ls) ++ saveLoop job st' (fgets maxline t) := by
  induction ls generalizing st with
  | nil => exact ⟨st, rfl, by simp [Editor.Entered], fun t => rfl⟩
  | cons l ls ih =>
      rcases saveLoop_line (hnl l (by simp)) (hnul l (by simp)) h.1 with ⟨st', hplace, hseen, hloop⟩
      have hin : st'.inTarget = job.editor.turn st.inTarget l := by
        have hturn := Editor.next_inside (E := job.editor) (p := st.place) (l := l)
        rw [← hplace] at hturn
        exact hturn
      rcases @ih st' (fun l' hl' => hnl l' (by simp [hl'])) (fun l' hl' => hnul l' (by simp [hl']))
        (by rw [hin]; exact h.2) with ⟨st'', hplace', hseen', hloop'⟩
      refine ⟨st'', ?_, ?_, ?_⟩
      · rw [hplace', hplace]
        rfl
      · have hrole : job.editor.role l = job.role l := rfl
        rw [hseen', hseen, Editor.entered_cons, hrole, or_assoc]
      · intro t
        rw [unlines_cons, List.append_assoc, List.cons_append, hloop, hloop', Editor.body,
          unlines_append, List.append_assoc, hplace]

theorem saveLoop_last {u : Text} {st : SaveState} (hnl : newline ∉ u) (hne : u ≠ [])
    (hnul : nul ∉ u)
    (h : u.length + 1 < maxline ∨
      forall q, q ∈ u :: fgets maxline (u ++ [newline]) -> job.Quiet st.inTarget q) :
    exists (st' : SaveState) (out : Text), st'.place = job.editor.next st.place u ∧
      (st'.targetSeen = true <-> st.targetSeen = true ∨ job.role u = Role.header true) ∧
      saveLoop job st (fgets maxline u) = out ++ saveEnd job st' ∧
      ((unlines (job.editor.emit st.place u) = out ++ [newline] ∧
          job.editor.kept st.inTarget [u] = [u]) ∨
        (unlines (job.editor.emit st.place u) = out ∧ job.editor.kept st.inTarget [u] = [])) := by
  rcases h with hshort | hquiet
  · have hplace := saveLine_place job hnul (Or.inl rfl) st
    have hline := saveLine_eq job hnul (Or.inl rfl) st
    rw [List.append_nil] at hplace hline
    refine ⟨(saveLine job st u).2, (saveLine job st u).1, hplace.1, by simp [hplace.2], ?_, ?_⟩
    · rw [fgets_short_of_notMem hnl hne (by lia), saveLoop, saveLoop]
    · rcases hline with ⟨out, hout, hemit, hkept⟩ | ⟨hout, hkept⟩
      · rw [List.append_nil] at hout
        rw [hout]
        exact Or.inl ⟨hemit, hkept⟩
      · exact Or.inr ⟨hout.symm, hkept⟩
  · have hu : job.Quiet st.place.inside u := hquiet u (by simp)
    rcases emit_quiet hu with ⟨hemit, hnext, hkept⟩
    refine ⟨st, u, hnext.symm, ?_, ?_, Or.inl ⟨?_, hkept⟩⟩
    · have hhead := hu.1 true
      simp [hhead]
    · have hflat := flatten_fgets maxline u
      have hpieces : forall q, q ∈ fgets maxline u -> job.Quiet st.inTarget q := by
        intro q hq
        rcases mem_fgets_newline hq with hq' | hq'
        · exact hquiet q (by simp [hq'])
        · exact quiet_newline.mp (hquiet _ (by simp [hq']))
      have hloop := saveLoop_quiet (by rw [hflat]; exact hnul) hpieces []
      rw [List.append_nil, hflat] at hloop
      exact hloop
    · rw [hemit]
      simp

/-!
## The whole text
-/

/-- The booted section is in the text, or there is none to look for. -/
def SaveJob.Present (job : SaveJob) (text : Text) : Prop :=
  job.scoped = true -> job.editor.Entered (textLines text)

theorem reads_append {inside : Bool} {ls ls' : List Text} :
    job.Reads inside (ls ++ ls') <->
      job.Reads inside ls ∧ job.Reads (ls.foldl job.editor.turn inside) ls' := by
  induction ls generalizing inside with
  | nil => simp [SaveJob.Reads]
  | cons l ls ih => rw [List.cons_append, SaveJob.Reads, SaveJob.Reads, ih, and_assoc, List.foldl_cons]

theorem saveEnd_present {st : SaveState} (h : job.scoped = true -> st.targetSeen = true) :
    saveEnd job st = unlines (job.editor.finish st.place) := by
  unfold saveEnd Editor.finish SaveState.place
  split
  · exact flushUnseen_eq st.seen
  · cases hs : job.scoped with
    | false => simp
    | true => simp [h hs]

/-- What is saved when the booted section is there: the edited lines.  A last line that
was kept and had no newline does not get one. -/
inductive SavedAs (job : SaveJob) (text : Text) : Prop where
  | closed (h : configFileSave job text = unlines (job.editor.edit job.start (textLines text)))
      (hend : forall ls u, textLines text = ls ++ [u] -> text = unlines ls ++ u ->
        job.editor.kept (job.editor.place job.start ls).inside [u] = [])
  | unclosed (ls : List Text) (u : Text) (hu : u ≠ []) (htext : text = unlines ls ++ u)
      (hlines : textLines text = ls ++ [u])
      (hkept : job.editor.kept (job.editor.place job.start ls).inside [u] = [u])
      (added : List Text)
      (hemit : job.editor.emit (job.editor.place job.start ls) u = added ++ [u])
      (hadded : forall l, l ∈ added -> forall mine, job.editor.role l ≠ Role.header mine)
      (h : configFileSave job text = unlines (job.editor.body job.start ls ++ added) ++ u ++
        unlines (job.editor.finish (job.editor.place job.start (textLines text))))

theorem cut_unique {ls ls' : List Text} {u u' : Text} (h : ls ++ [u] = ls' ++ [u']) :
    ls = ls' ∧ u = u' := by
  rcases List.append_inj' h rfl with ⟨h1, h2⟩
  exact ⟨h1, List.singleton_inj.mp h2⟩

theorem savedAs (hr : Readable job text) (hp : job.Present text) : SavedAs job text := by
  rcases exists_cut hr.noNul with ⟨ls, u, hlsnl, hunl, hlsnul, hunul, htext, hlines⟩
  have hreads := hr.lines
  rw [hlines, reads_append] at hreads
  have hstart : (saveStart job).place = job.start := rfl
  rcases @saveLoop_lines job ls (saveStart job) hlsnl hlsnul hreads.1 with ⟨st, hplace, hseen, hloop⟩
  have hloop' := hloop u
  rw [← htext, hstart] at hloop'
  rw [hstart] at hplace
  have hin : st.inTarget = ls.foldl job.editor.turn job.start.inside := by
    have hfold : (job.editor.place job.start ls).inside = _ := Editor.place_inside
    rw [← hplace] at hfold
    exact hfold
  have hscoped : job.scoped = true -> (saveStart job).targetSeen = false := by
    intro hs
    simp [saveStart, hs]
  rcases Decidable.em (u = []) with hu | hu
  · rw [if_pos hu, List.append_nil] at hlines
    have hlast : job.scoped = true -> st.targetSeen = true := by
      intro hs
      have hent := hp hs
      rw [hlines] at hent
      exact hseen.mpr (Or.inr hent)
    refine SavedAs.closed ?_ ?_
    · have hend : saveLoop job st (fgets maxline u) = saveEnd job st := by
        rw [hu]
        rfl
      rw [hlines, configFileSave, hloop', hend, saveEnd_present hlast, Editor.edit, unlines_append,
        hplace]
    · intro ls' u' hlines' htext'
      have hlen : (unlines (ls' ++ [u'])).length = (unlines ls' ++ u').length := by
        rw [← hlines', hlines, ← htext', htext, hu, List.append_nil]
      simp at hlen
  · rw [if_neg hu] at hlines hreads
    have hread := hreads.2.1
    rw [← hin] at hread
    rcases saveLoop_last hunl hu hunul hread with ⟨st', out, hplace', hseen', hloop'', hout⟩
    have hall : st'.place = job.editor.place job.start (ls ++ [u]) := by
      rw [hplace', hplace, Editor.place, Editor.place, List.foldl_append]
      rfl
    have hlast : job.scoped = true -> st'.targetSeen = true := by
      intro hs
      rcases hp hs with ⟨l, hl, hrole⟩
      rw [hlines] at hl
      rcases List.mem_append.mp hl with hl | hl
      · exact hseen'.mpr (Or.inl (hseen.mpr (Or.inr ⟨l, hl, hrole⟩)))
      · rw [List.mem_singleton.mp hl] at hrole
        exact hseen'.mpr (Or.inr hrole)
    have hsave : configFileSave job text = unlines (job.editor.body job.start ls) ++ (out ++
        unlines (job.editor.finish (job.editor.place job.start (textLines text)))) := by
      rw [configFileSave, hloop', hloop'', saveEnd_present hlast, hlines, hall]
    have hinside : st.inTarget = (job.editor.place job.start ls).inside := by
      rw [← hplace]
      rfl
    rw [hplace, hinside] at hout
    rcases hout with ⟨hemit, hkept⟩ | ⟨hemit, hkept⟩
    · rcases Editor.emit_of_kept hkept with ⟨added, hadd, hnot⟩
      refine SavedAs.unclosed ls u hu htext hlines hkept added hadd hnot ?_
      have hcut : out = unlines added ++ u := by
        rw [hadd, unlines_append] at hemit
        have hone : unlines [u] = u ++ [newline] := by simp
        rw [hone, ← List.append_assoc] at hemit
        exact (List.append_cancel_right hemit).symm
      rw [hsave, hcut, unlines_append]
      simp only [List.append_assoc]
    · refine SavedAs.closed ?_ ?_
      · rw [hsave, hlines, Editor.edit, Editor.body_append, unlines_append, unlines_append]
        have hone : job.editor.body (job.editor.place job.start ls) [u] =
            job.editor.emit (job.editor.place job.start ls) u := by
          simp [Editor.body]
        rw [hone, hemit, List.append_assoc]
      · intro ls' u' hlines' htext'
        rw [hlines] at hlines'
        rcases cut_unique hlines' with ⟨rfl, rfl⟩
        exact hkept

/-!
## The edited lines
-/

theorem length_rendered {k r : Text} (hc : PlainPaths job.cfg) (h : job.editor.render k = some r) :
    r.length + 1 < maxline ∧ newline ∉ r ∧ nul ∉ r := by
  rcases tame_renderKey hc h with ⟨hlen, hrest⟩
  exact ⟨by rw [maxline]; lia, hrest⟩

theorem short_flush {seen : List Text} (hc : PlainPaths job.cfg)
    (h : l ∈ job.editor.flush seen) : l.length + 1 < maxline ∧ newline ∉ l ∧ nul ∉ l := by
  unfold Editor.flush at h
  split at h
  · cases h
  · rcases List.mem_cons.mp h with rfl | h
    · exact (by decide : markLine.length + 1 < maxline ∧ newline ∉ markLine ∧ nul ∉ markLine)
    · rcases List.mem_filterMap.mp h with ⟨k, _, hr⟩
      exact length_rendered hc hr

theorem short_leave {seen : List Text} (hc : PlainPaths job.cfg)
    (h : l ∈ job.editor.leave seen) : l.length + 1 < maxline ∧ newline ∉ l ∧ nul ∉ l := by
  unfold Editor.leave at h
  split at h
  · cases h
  · rcases List.mem_append.mp h with h | h
    · exact short_flush hc h
    · rw [List.mem_singleton.mp h]
      exact (by decide : ([] : Text).length + 1 < maxline ∧ newline ∉ ([] : Text) ∧ nul ∉ ([] : Text))

theorem short_finish {p : Place Text} (hc : PlainPaths job.cfg)
    (h : l ∈ job.editor.finish p) : l.length + 1 < maxline ∧ newline ∉ l ∧ nul ∉ l := by
  unfold Editor.finish at h
  split at h
  · exact short_flush hc h
  · cases h

theorem mem_emit {l l' : Text} {p : Place Text} (hc : PlainPaths job.cfg)
    (h : l' ∈ job.editor.emit p l) :
    l' = l ∨ l'.length + 1 < maxline ∧ newline ∉ l' ∧ nul ∉ l' := by
  have hstep := job.editor.step p l
  generalize job.editor.emit p l = out at hstep h
  generalize job.editor.next p l = q at hstep
  cases hstep with
  | header _ =>
      rcases List.mem_append.mp h with h | h
      · split at h
        · exact Or.inr (short_leave hc h)
        · cases h
      · exact Or.inl (List.mem_singleton.mp h)
  | copy _ _ => exact Or.inl (List.mem_singleton.mp h)
  | rewrite _ _ hr _ =>
      rw [List.mem_singleton.mp h]
      exact Or.inr (length_rendered hc hr)
  | put _ _ hr _ _ =>
      rw [List.mem_singleton.mp h]
      exact Or.inr (length_rendered hc hr)
  | drop _ _ _ _ _ => cases h

theorem mem_body {l' : Text} {p : Place Text} {ls : List Text} (hc : PlainPaths job.cfg)
    (h : l' ∈ job.editor.body p ls) :
    l' ∈ ls ∨ l'.length + 1 < maxline ∧ newline ∉ l' ∧ nul ∉ l' := by
  induction ls generalizing p with
  | nil => cases h
  | cons l ls ih =>
      rcases List.mem_append.mp h with h | h
      · rcases mem_emit hc h with rfl | h
        · exact Or.inl (by simp)
        · exact Or.inr h
      · rcases ih h with h | h
        · exact Or.inl (by simp [h])
        · exact Or.inr h

theorem clean_edit (hc : PlainPaths job.cfg) (h : forall l, l ∈ ls -> newline ∉ l ∧ nul ∉ l) :
    forall l, l ∈ job.editor.edit p ls -> newline ∉ l ∧ nul ∉ l := by
  intro l hl
  rcases List.mem_append.mp hl with hl | hl
  · rcases mem_body hc hl with hl | hl
    · exact h l hl
    · exact hl.2
  · exact (short_finish hc hl).2

theorem reads_short {inside : Bool} {ls : List Text}
    (h : forall l, l ∈ ls -> l.length + 1 < maxline) : job.Reads inside ls := by
  induction ls generalizing inside with
  | nil => trivial
  | cons l ls ih => exact ⟨Or.inl (h l (by simp)), ih (fun l' hl' => h l' (by simp [hl']))⟩

theorem reads_emit {p : Place Text} (hc : PlainPaths job.cfg)
    (h : job.Reads p.inside [l]) : job.Reads p.inside (job.editor.emit p l) := by
  have hstep := job.editor.step p l
  generalize job.editor.emit p l = out at hstep
  generalize job.editor.next p l = q at hstep
  cases hstep with
  | header _ =>
      rw [reads_append]
      split
      · have hfold : (job.editor.leave p.seen).foldl job.editor.turn p.inside = p.inside :=
          Editor.foldl_turn_not_header (fun l' hl' => Editor.leave_not_header hl')
        rw [hfold]
        exact ⟨reads_short (fun l' hl' => (short_leave hc hl').1), h⟩
      · exact ⟨trivial, h⟩
  | copy _ _ => exact h
  | rewrite _ _ hr _ => exact ⟨Or.inl (length_rendered hc hr).1, trivial⟩
  | put _ _ hr _ _ => exact ⟨Or.inl (length_rendered hc hr).1, trivial⟩
  | drop _ _ _ _ _ => trivial

theorem reads_body (hc : PlainPaths job.cfg)
    (h : job.Reads p.inside ls) : job.Reads p.inside (job.editor.body p ls) := by
  induction ls generalizing p with
  | nil => trivial
  | cons l ls ih =>
      have hnext := Editor.next_inside (E := job.editor) (p := p) (l := l)
      have htail := @ih (job.editor.next p l) (by rw [hnext]; exact h.2)
      rw [Editor.body, reads_append, Editor.foldl_turn_emit, ← hnext]
      exact ⟨reads_emit hc ⟨h.1, trivial⟩, htail⟩

theorem reads_edit (hc : PlainPaths job.cfg)
    (h : job.Reads p.inside ls) : job.Reads p.inside (job.editor.edit p ls) := by
  rw [Editor.edit, reads_append]
  exact ⟨reads_body hc h, reads_short (fun l hl => (short_finish hc hl).1)⟩

theorem entered_edit (h : job.editor.Entered ls) :
    job.editor.Entered (job.editor.edit p ls) := by
  rcases h with ⟨l, hl, hrole⟩
  have hmem : forall inside, l ∈ job.editor.kept inside ls := fun _ => Editor.mem_kept_header hrole hl
  exact ⟨l, Editor.kept_sublist_edit.subset (hmem p.inside), hrole⟩

end Config
end PistormAtari
