import PistormAtari.Foundation.SegmentCut
import PistormAtari.Setup.CfgLaws

/-!
# Removing a build

{lit}`sc_del_section` counts the lines of a section and removes that many from the
first of them on.
-/

namespace PistormAtari
namespace Setup

open Foundation

def Line.inSection (s : Text) (l : Line) : Bool := l.sec = s

/-- The lines of the section are gone and the others are there in their order; one
blank line may have been put between two of them. -/
def Removes (s : Text) (c c' : Cfg) : Prop :=
  exists before after, c.line.filter (fun l => !l.inSection s) = before ++ after ∧
    (c'.line = before ++ after ∨
      exists l : Line, l.text = [] ∧ l.sec ≠ s ∧ c'.line = before ++ l :: after)

theorem Removes.gone {s : Text} {c c' : Cfg} (h : Removes s c c') {l : Line} (hl : l ∈ c'.line) :
    l.sec ≠ s := by
  rcases h with ⟨before, after, hothers, hline⟩
  have hother : forall x, x ∈ before ++ after -> x.sec ≠ s := by
    intro x hx
    rw [← hothers] at hx
    have hout := (List.mem_filter.mp hx).2
    unfold Line.inSection at hout
    simpa using hout
  rcases hline with heq | ⟨blank, _, hsec, heq⟩
  · rw [heq] at hl
    exact hother l hl
  · rw [heq] at hl
    rcases List.mem_append.mp hl with hbefore | hrest
    · exact hother l (List.mem_append_left _ hbefore)
    · rcases List.mem_cons.mp hrest with hblank | hafter
      · rw [hblank]
        exact hsec
      · exact hother l (List.mem_append_right _ hafter)

/-!
## Loaded files
-/

theorem length_lowercase (s : Text) : (lowercase s).length = s.length := by
  unfold lowercase
  rw [List.length_map]

theorem sectionHeader_length {line name : Text} (h : sectionHeader line = some name) :
    name.length < secLen := by
  unfold sectionHeader at h
  split at h
  · dsimp only at h
    split at h
    · rw [← Option.some.inj h, length_lowercase, List.length_take]
      unfold secLen
      lia
    · cases h
  · cases h

theorem loadLine_sec {sec : Text} (raw : Text) (h : sec.length < secLen) :
    (loadLine sec raw).sec.length < secLen := by
  unfold loadLine
  dsimp only
  cases hheader : sectionHeader (lineText raw) with
  | none => exact h
  | some name => exact sectionHeader_length hheader

theorem loadLines_sec {sec : Text} {raws : List Text} (h : sec.length < secLen) {l : Line}
    (hl : l ∈ loadLines sec raws) : l.sec.length < secLen := by
  induction raws generalizing sec with
  | nil => cases hl
  | cons raw rest ih =>
      have hfirst := loadLine_sec raw h
      rcases List.mem_cons.mp hl with heq | htail
      · rw [heq]
        exact hfirst
      · exact ih hfirst htail

theorem scLoadText_sec {text : Text} {c : Cfg} (h : scLoadText text = some c) {l : Line}
    (hl : l ∈ c.line) : l.sec.length < secLen := by
  unfold scLoadText at h
  dsimp only at h
  split at h
  · rw [← Option.some.inj h] at hl
    exact loadLines_sec (by decide) hl
  · cases h

/-!
## The removal
-/

/-- What `sc_del_section` leaves: the cut list, with a blank line after a line before
the cut or without it. -/
theorem scDelSection_line {c : Cfg} {sec : Text} {pos : Nat}
    (h : c.line.findIdx? (Line.inSection (loweredTo secLen sec)) = some pos) :
    (scDelSection c sec).1 = true ∧
      ((scDelSection c sec).2.line = cutAt (Line.inSection (loweredTo secLen sec)) pos c.line ∨
        exists l, l ∈ c.line.take pos ∧
          (scDelSection c sec).2.line =
            (cutAt (Line.inSection (loweredTo secLen sec)) pos c.line).take pos ++
              madeLine l.sec [] ::
                (cutAt (Line.inSection (loweredTo secLen sec)) pos c.line).drop pos) := by
  have hlt := (findIdx?_split h).2.1
  have hrest : c.line.take pos ++ c.line.drop (pos + c.line.countP fun l =>
      decide (l.sec = loweredTo secLen sec)) =
        cutAt (Line.inSection (loweredTo secLen sec)) pos c.line := rfl
  have hfind : (c.line.findIdx? fun l => decide (l.sec = loweredTo secLen sec)) = some pos := h
  unfold scDelSection
  dsimp only
  rw [hfind]
  dsimp only
  rw [hrest]
  split
  · next l l' hbefore _ =>
    refine ⟨rfl, ?_⟩
    split
    · next hrun =>
      unfold Cfg.insert
      split
      · exact Or.inl rfl
      · refine Or.inr ⟨l, ?_, rfl⟩
        unfold cutAt at hbefore
        rw [List.getElem?_append_left (by rw [List.length_take]; lia)] at hbefore
        exact List.mem_of_getElem? hbefore
    · exact Or.inl rfl
  · exact ⟨rfl, Or.inl rfl⟩

/-- Of every loaded file and section in it, the section is removed exactly when its
lines stand together. -/
theorem scDelSection_removes_iff (text sec : Text) (c : Cfg) (hload : scLoadText text = some c)
    (hoccurs : exists l, l ∈ c.line ∧ l.sec = loweredTo secLen sec) :
    ((scDelSection c sec).1 = true ∧ Removes (loweredTo secLen sec) c (scDelSection c sec).2) <->
      Together (Line.inSection (loweredTo secLen sec)) c.line := by
  have hfound : (c.line.findIdx? (Line.inSection (loweredTo secLen sec))).isSome = true := by
    rcases hoccurs with ⟨l, hl, hsec⟩
    rw [List.findIdx?_isSome, List.any_eq_true]
    exact ⟨l, hl, decide_eq_true hsec⟩
  rcases Option.isSome_iff_exists.mp hfound with ⟨pos, hpos⟩
  rcases scDelSection_line hpos with ⟨hok, hline⟩
  rw [← cutAt_clear_iff hpos]
  constructor
  · rintro ⟨_, hremoves⟩ l hl
    have hleft : l ∈ (scDelSection c sec).2.line := by
      rcases hline with heq | ⟨l', _, heq⟩
      · rw [heq]
        exact hl
      · rw [heq]
        rw [← List.take_append_drop pos (cutAt _ pos c.line)] at hl
        rcases List.mem_append.mp hl with hbefore | hafter
        · exact List.mem_append_left _ hbefore
        · exact List.mem_append_right _ (List.mem_cons_of_mem _ hafter)
    exact decide_eq_false (hremoves.gone hleft)
  · intro hclear
    have hothers := cutAt_eq_filter hpos ((cutAt_clear_iff hpos).mp hclear)
    refine ⟨hok, ?_⟩
    rcases hline with heq | ⟨l, hl, heq⟩
    · refine ⟨cutAt (Line.inSection (loweredTo secLen sec)) pos c.line, [], ?_, Or.inl ?_⟩
      · rw [List.append_nil]
        exact hothers.symm
      · rw [List.append_nil]
        exact heq
    · refine ⟨_, _, ?_, Or.inr ⟨_, rfl, ?_, heq⟩⟩
      · rw [List.take_append_drop]
        exact hothers.symm
      · have hfits := scLoadText_sec hload (List.mem_of_mem_take hl)
        have hout := (findIdx?_split hpos).1 l hl
        unfold madeLine
        dsimp only
        rw [bounded_short hfits]
        exact of_decide_eq_false hout

def threeBuilds : Text := "[a]\nx\n\n[b]\ny\n\n[c]\nz\n".toList

theorem scDelSection_removes_b :
    exists c, scLoadText threeBuilds = some c ∧ (scDelSection c "b".toList).1 = true ∧
      Removes (loweredTo secLen "b".toList) c (scDelSection c "b".toList).2 := by
  refine ⟨_, rfl, ?_⟩
  apply (scDelSection_removes_iff threeBuilds "b".toList _ rfl
    ⟨{ sec := "b".toList, key := "y".toList, text := "y".toList }, by decide, by decide⟩).mpr
  exact ⟨loadLines [] ["[a]".toList, "x".toList, []],
    loadLines "b".toList ["[b]".toList, "y".toList, []],
    loadLines "c".toList ["[c]".toList, "z".toList], by decide, by decide, by decide, by decide⟩

/-- A build whose header stands in the file twice, with another one between. -/
def splitBuild : Text := "[a]\nx\n[b]\ny\n[a]\nz\n".toList

/-- The other build is removed, and lines of the build are left. -/
theorem split_build_left :
    exists c, scLoadText splitBuild = some c ∧
      (exists l, l ∈ c.line ∧ l.sec = loweredTo secLen "a".toList) ∧
      ¬ ((scDelSection c "a".toList).1 = true ∧
        Removes (loweredTo secLen "a".toList) c (scDelSection c "a".toList).2) := by
  refine ⟨_, rfl, ⟨{ sec := "a".toList, key := "x".toList, text := "x".toList }, by decide,
    by decide⟩, ?_⟩
  rintro ⟨_, hremoves⟩
  have hleft : ({ sec := "a".toList, key := "z".toList, text := "z".toList } : Line) ∈
      (scDelSection { line := loadLines [] (textLines (cstr splitBuild)) } "a".toList).2.line := by
    decide
  exact hremoves.gone hleft (by decide)

end Setup
end PistormAtari
