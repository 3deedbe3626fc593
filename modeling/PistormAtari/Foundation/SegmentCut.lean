import Mathlib

/-!
# Cutting a segment out of a list

The elements that have a property are cut out by their number: as many elements go
as have it, from the first of them on.  That leaves the others exactly when those
that have it stand together.
-/

namespace PistormAtari
namespace Foundation

variable {α : Type _}

def Together (p : α -> Bool) (l : List α) : Prop :=
  exists before mine after, l = before ++ mine ++ after ∧ (forall x, x ∈ before -> p x = false) ∧
    (forall x, x ∈ mine -> p x = true) ∧ forall x, x ∈ after -> p x = false

/-- The list without as many elements as have the property, from a place on. -/
def cutAt (p : α -> Bool) (pos : Nat) (l : List α) : List α :=
  l.take pos ++ l.drop (pos + l.countP p)

variable {p : α -> Bool} {l : List α} {pos : Nat}

theorem findIdx?_split (h : l.findIdx? p = some pos) :
    (forall x, x ∈ l.take pos -> p x = false) ∧ pos < l.length ∧ 0 < l.countP p := by
  rcases List.findIdx?_eq_some_iff_getElem.mp h with ⟨hpos, hat, hbefore⟩
  refine ⟨?_, hpos, List.countP_pos_iff.mpr ⟨l[pos], List.getElem_mem hpos, hat⟩⟩
  intro x hx
  rcases List.mem_iff_getElem.mp hx with ⟨j, hj, rfl⟩
  rw [List.length_take] at hj
  rw [List.getElem_take]
  exact Bool.eq_false_iff.mpr (hbefore j (by lia))

/-- A block as long as the number of elements that have the property holds all of
them, if none is left behind it. -/
theorem all_taken (h : forall x, x ∈ l.drop (l.countP p) -> p x = false) :
    forall x, x ∈ l.take (l.countP p) -> p x = true := by
  have hrest : (l.drop (l.countP p)).countP p = 0 := by
    rw [List.countP_eq_zero]
    intro x hx
    rw [h x hx]
    decide
  have hsum : (l.take (l.countP p)).countP p + (l.drop (l.countP p)).countP p = l.countP p := by
    rw [← List.countP_append, List.take_append_drop]
  have hlength : (l.take (l.countP p)).length = l.countP p :=
    List.length_take_of_le List.countP_le_length
  apply List.countP_eq_length.mp
  lia

theorem cutAt_segment {before mine after : List α} (hbefore : forall x, x ∈ before -> p x = false)
    (hmine : forall x, x ∈ mine -> p x = true) (hafter : forall x, x ∈ after -> p x = false)
    (h : (before ++ mine ++ after).findIdx? p = some pos) :
    cutAt p pos (before ++ mine ++ after) = before ++ after := by
  have hcount : (before ++ mine ++ after).countP p = mine.length := by
    have hnone : before.countP p = 0 := List.countP_eq_zero.mpr fun x hx => by simp [hbefore x hx]
    have hnone' : after.countP p = 0 := List.countP_eq_zero.mpr fun x hx => by simp [hafter x hx]
    have hall : mine.countP p = mine.length := List.countP_eq_length.mpr hmine
    rw [List.countP_append, List.countP_append]
    lia
  have hpos : pos = before.length := by
    rcases findIdx?_split h with ⟨hout, hlt, hsome⟩
    rcases List.findIdx?_eq_some_iff_getElem.mp h with ⟨_, hat, _⟩
    rw [hcount] at hsome
    rcases Nat.lt_trichotomy pos before.length with hless | heq | hmore
    · have hleft : (before ++ mine ++ after)[pos] = before[pos] := by simp [hless]
      rw [hleft, hbefore _ (List.getElem_mem hless)] at hat
      cases hat
    · exact heq
    · have hmem : mine[0] ∈ (before ++ mine ++ after).take pos := by
        rw [List.mem_iff_getElem]
        refine ⟨before.length, by rw [List.length_take]; lia, ?_⟩
        simp [hsome]
      have hfalse := hout _ hmem
      rw [hmine _ (List.getElem_mem hsome)] at hfalse
      cases hfalse
  unfold cutAt
  rw [hcount, hpos, List.append_assoc, List.take_left, ← List.append_assoc,
    List.drop_left' (List.length_append)]

theorem cutAt_clear_iff (h : l.findIdx? p = some pos) :
    (forall x, x ∈ cutAt p pos l -> p x = false) <-> Together p l := by
  constructor
  · intro hclear
    rcases findIdx?_split h with ⟨hbefore, _, _⟩
    have hcount : (l.drop pos).countP p = l.countP p := by
      have hsum : (l.take pos).countP p + (l.drop pos).countP p = l.countP p := by
        rw [← List.countP_append, List.take_append_drop]
      have hnone : (l.take pos).countP p = 0 :=
        List.countP_eq_zero.mpr fun x hx => by simp [hbefore x hx]
      lia
    have hafter : forall x, x ∈ (l.drop pos).drop ((l.drop pos).countP p) -> p x = false := by
      intro x hx
      rw [hcount, List.drop_drop] at hx
      exact hclear x (List.mem_append_right _ hx)
    refine ⟨l.take pos, _, _, ?_, hbefore, all_taken hafter, hafter⟩
    rw [List.append_assoc, List.take_append_drop, List.take_append_drop]
  · rintro ⟨before, mine, after, rfl, hbefore, hmine, hafter⟩ x hx
    rw [cutAt_segment hbefore hmine hafter h] at hx
    rcases List.mem_append.mp hx with hx | hx
    · exact hbefore x hx
    · exact hafter x hx

theorem cutAt_eq_filter (h : l.findIdx? p = some pos) (htogether : Together p l) :
    cutAt p pos l = l.filter (fun x => !p x) := by
  rcases htogether with ⟨before, mine, after, rfl, hbefore, hmine, hafter⟩
  have hkeep : before.filter (fun x => !p x) = before :=
    List.filter_eq_self.mpr fun x hx => by simp [hbefore x hx]
  have hdrop : mine.filter (fun x => !p x) = [] :=
    List.filter_eq_nil_iff.mpr fun x hx => by simp [hmine x hx]
  have hkeep' : after.filter (fun x => !p x) = after :=
    List.filter_eq_self.mpr fun x hx => by simp [hafter x hx]
  rw [cutAt_segment hbefore hmine hafter h, List.filter_append, List.filter_append, hkeep, hdrop,
    hkeep', List.append_nil]

end Foundation
end PistormAtari
