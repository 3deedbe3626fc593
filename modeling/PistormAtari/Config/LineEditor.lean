import PistormAtari.Foundation.SectionEdit
import PistormAtari.Config.RenderedLines

/-!
# The saver as a line editor

A text whose lines are read one by one is saved as an editor of its booted section
edits them.
-/

namespace PistormAtari
namespace Config

open Foundation
open Psctrl

variable {job : SaveJob}

def SaveJob.role (job : SaveJob) (line : Text) : Role Text :=
  match if job.scoped then saveSectionHeader line else none with
  | some sec => Role.header (sameCase sec job.want.chars)
  | none =>
      match lineKey line with
      | some key => Role.key key
      | none => Role.plain

def markLine : Text := "# --- written by PSCTRL ---".toList

theorem role_of_key {line key : Text} (h : saveSectionHeader line = none)
    (hkey : lineKey line = some key) : job.role line = Role.key key := by
  have hnone : (if job.scoped then saveSectionHeader line else none) = none := by
    rw [h]
    split <;> rfl
  simp only [SaveJob.role, hnone, hkey]

theorem role_of_plain {line : Text} (h : saveSectionHeader line = none)
    (hkey : lineKey line = none) : job.role line = Role.plain := by
  have hnone : (if job.scoped then saveSectionHeader line else none) = none := by
    rw [h]
    split <;> rfl
  simp only [SaveJob.role, hnone, hkey]

def SaveJob.editor (job : SaveJob) : Editor Text Text where
  role := job.role
  render := job.render
  keys := settingsKeys
  mark := markLine
  blank := []
  nodup := nodup_settingsKeys
  role_render := by
    intro key line h
    rcases renderKey_eq h with ⟨hkey, v, rfl⟩
    have hplain := plainKey_of_managed hkey
    exact role_of_key (saveSectionHeader_rendered hplain _) (lineKey_rendered hplain _)
  role_mark := role_of_plain (by decide) (by decide)
  role_blank := role_of_plain (by decide) (by decide)

def SaveJob.start (job : SaveJob) : Place Text :=
  ⟨!job.scoped, []⟩

/-!
## Lines with and without their newline
-/

theorem headerName_newline (n : Nat) (t : Text) : headerName n (t ++ ['\n']) = headerName n t := by
  induction t generalizing n with
  | nil => cases n <;> simp [headerName]
  | cons c cs ih => cases n <;> simp [headerName, ih]

theorem saveSectionHeader_newline (t : Text) :
    saveSectionHeader (t ++ ['\n']) = saveSectionHeader t := by
  unfold saveSectionHeader skipBlanks
  rw [List.dropWhile_append]
  cases ht : t.dropWhile isBlank with
  | nil =>
      have hnl : isBlank '\n' = false := by decide
      simp [hnl]
  | cons c cs =>
      simp only [List.isEmpty_cons, Bool.false_eq_true, if_false, List.cons_append]
      rcases Decidable.em (c = '[') with rfl | hc
      · simp only [headerName_newline]
      · split
        · rename_i heq
          cases heq
          exact absurd rfl hc
        · split
          · rename_i heq
            cases heq
            exact absurd rfl hc
          · rfl

theorem lineKey_newline (t : Text) : lineKey (t ++ ['\n']) = lineKey t := by
  unfold lineKey skipBlanks
  rw [List.dropWhile_append]
  cases ht : t.dropWhile isBlank with
  | nil =>
      have hblank : isBlank '\n' = false := by decide
      simp [hblank]
  | cons c cs =>
      have htoken := takeWhile_append_stop (p := fun c => !isspace c) (c := '\n') (by decide)
        (c :: cs) []
      simp only [List.isEmpty_cons, Bool.false_eq_true, if_false]
      rw [List.cons_append] at htoken ⊢
      simp only [htoken]

theorem role_newline (t : Text) : job.role (t ++ ['\n']) = job.role t := by
  simp only [SaveJob.role, saveSectionHeader_newline, lineKey_newline]

/-!
## One line
-/

def SaveState.place (st : SaveState) : Place Text :=
  ⟨st.inTarget, st.seen⟩

/-- The saver copies a line, with or without a newline behind it, as it is. -/
def SaveJob.Quiet (job : SaveJob) (inside : Bool) (l : Text) : Prop :=
  (forall mine, job.role l ≠ Role.header mine) ∧
    (inside = true -> forall k, job.role l = Role.key k -> job.render k = none)

theorem filterMap_missing (seen keys : List Text) :
    (keys.filter (fun k => (job.render k).isSome && decide (k ∉ seen))).filterMap job.render =
      (keys.filter (· ∉ seen)).filterMap job.render := by
  induction keys with
  | nil => rfl
  | cons k keys ih =>
      rcases Decidable.em (k ∈ seen) with hk | hk
      · simpa [List.filter_cons, hk] using ih
      · cases hr : job.render k with
        | none => simpa [List.filter_cons, hk, hr] using ih
        | some line => simpa [List.filter_cons, hk, hr] using ih

variable (seen : List Text)

theorem missing_eq : job.editor.missing seen =
    settingsKeys.filter (fun k => (job.render k).isSome && decide (k ∉ seen)) := by
  unfold Editor.missing
  refine List.filter_congr ?_
  intro k _
  have hrender : job.editor.render k = job.render k := rfl
  simp [hrender]

theorem missing_eq_nil_iff :
    job.editor.missing seen = [] <-> (settingsKeys.filter (· ∉ seen)).filterMap job.render = [] := by
  rw [← filterMap_missing, ← missing_eq]
  constructor
  · intro h
    rw [h]
    rfl
  · intro h
    rw [List.eq_nil_iff_forall_not_mem]
    intro k hk
    rcases Editor.mem_missing.mp hk with ⟨_, hren, _⟩
    rcases Option.isSome_iff_exists.mp hren with ⟨r, hr⟩
    have hmem : r ∈ (job.editor.missing seen).filterMap job.render :=
      List.mem_filterMap.mpr ⟨k, hk, hr⟩
    simp [h] at hmem

theorem flushUnseen_eq :
    flushUnseen job seen = unlines (job.editor.flush seen) := by
  have hlines : (job.editor.missing seen).filterMap job.render =
      (settingsKeys.filter (· ∉ seen)).filterMap job.render := by
    rw [missing_eq, filterMap_missing]
  have hrender : job.editor.render = job.render := rfl
  unfold flushUnseen Editor.flush
  split
  · rename_i hempty
    rw [if_pos ((missing_eq_nil_iff seen).mpr hempty)]
    rfl
  · rename_i hne
    rw [if_neg (fun h => hne ((missing_eq_nil_iff seen).mp h)), hrender, hlines, unlines_cons]
    rfl

theorem flushUnseen_isEmpty :
    (flushUnseen job seen).isEmpty = decide (job.editor.missing seen = []) := by
  rw [flushUnseen_eq, Editor.flush]
  split
  · rename_i h
    simp [h]
  · rename_i h
    simp [h]

theorem reads_end {l e : Text} (hl : nul ∉ l) (he : e = [] ∨ e = [newline]) :
    cstr (l ++ e) = l ++ e ∧ saveSectionHeader (l ++ e) = saveSectionHeader l ∧
      lineKey (l ++ e) = lineKey l := by
  rcases he with rfl | rfl
  · rw [List.append_nil]
    exact ⟨cstr_of_notMem hl, rfl, rfl⟩
  · have hnul : nul ≠ newline := by decide
    exact ⟨cstr_of_notMem (by simp [hl, hnul]), saveSectionHeader_newline l, lineKey_newline l⟩

theorem saveLine_eq (job : SaveJob) {l e : Text} (hl : nul ∉ l)
    (he : e = [] ∨ e = [newline]) (st : SaveState) :
    (exists out, (saveLine job st (l ++ e)).1 = out ++ e ∧
        unlines (job.editor.emit st.place l) = out ++ [newline] ∧
        job.editor.kept st.inTarget [l] = [l]) ∨
      ((saveLine job st (l ++ e)).1 = unlines (job.editor.emit st.place l) ∧
        job.editor.kept st.inTarget [l] = []) := by
  have hread := reads_end hl he
  have hrole : job.editor.role l = job.role l := rfl
  unfold saveLine Editor.emit
  simp only [Editor.kept, hrole, hread.1, hread.2.1, hread.2.2]
  unfold SaveJob.role
  cases hhead : (if job.scoped then saveSectionHeader l else none) with
  | some sec =>
      dsimp only
      have hempty : (flushUnseen job st.seen).isEmpty = _ := flushUnseen_isEmpty st.seen
      refine Or.inl ⟨(if st.inTarget then unlines (job.editor.leave st.seen) else []) ++ l, ?_, ?_, rfl⟩
      · cases hin : st.inTarget with
        | false => simp
        | true =>
            have hblank : job.editor.blank = [] := rfl
            simp only [if_true, hempty, Editor.leave]
            rcases Decidable.em (job.editor.missing st.seen = []) with hm | hm
            · simp [hm, flushUnseen_eq, Editor.flush]
            · simp [hm, flushUnseen_eq, hblank, newline]
      · cases hin : st.inTarget <;> simp [SaveState.place, hin]
  | none =>
      dsimp only
      cases hkey : lineKey l with
      | none => exact Or.inl ⟨l, rfl, by simp, by simp⟩
      | some key =>
          have hren : job.editor.render key = job.render key := rfl
          have hkeys : job.editor.keys = settingsKeys := rfl
          cases hin : st.inTarget with
          | false => exact Or.inl ⟨l, by simp, by simp [SaveState.place, hin], by simp⟩
          | true =>
              cases hr : job.render key with
              | none =>
                  exact Or.inl ⟨l, by simp [hr], by simp [SaveState.place, hin, hren, hr],
                    by simp [hren, hr]⟩
              | some line =>
                  refine Or.inr ⟨?_, by simp [hren, hr]⟩
                  rcases Decidable.em (key ∈ settingsKeys) with hk | hk
                  · rcases Decidable.em (key ∈ st.seen) with hs | hs
                    · simp [SaveState.place, hin, hren, hr, hkeys, hk, hs]
                    · simp [SaveState.place, hin, hren, hr, hkeys, hk, hs, newline]
                  · simp [SaveState.place, hin, hren, hr, hkeys, hk, newline]

theorem saveLine_place (job : SaveJob) {l e : Text} (hl : nul ∉ l)
    (he : e = [] ∨ e = [newline]) (st : SaveState) :
    (saveLine job st (l ++ e)).2.place = job.editor.next st.place l ∧
      (saveLine job st (l ++ e)).2.targetSeen =
        (st.targetSeen || decide (job.role l = Role.header true)) := by
  have hread := reads_end hl he
  have hrole : job.editor.role l = job.role l := rfl
  unfold saveLine Editor.next
  simp only [hrole, hread.1, hread.2.1, hread.2.2]
  unfold SaveJob.role
  cases hhead : (if job.scoped then saveSectionHeader l else none) with
  | some sec =>
      refine ⟨rfl, ?_⟩
      cases sameCase sec job.want.chars <;> simp
  | none =>
      dsimp only
      cases hkey : lineKey l with
      | none => exact ⟨rfl, by simp⟩
      | some key =>
          have hren : job.editor.render key = job.render key := rfl
          have hkeys : job.editor.keys = settingsKeys := rfl
          cases hin : st.inTarget with
          | false => simp [SaveState.place, hin]
          | true =>
              cases hr : job.render key with
              | none => simp [SaveState.place, hin, hren, hr]
              | some line =>
                  rcases Decidable.em (key ∈ settingsKeys) with hk | hk
                  · rcases Decidable.em (key ∈ st.seen) with hs | hs
                    · simp [SaveState.place, hin, hren, hr, hkeys, hk, hs]
                    · simp [SaveState.place, hin, hren, hr, hkeys, hk, hs]
                  · simp [SaveState.place, hin, hren, hr, hkeys, hk]

end Config
end PistormAtari
