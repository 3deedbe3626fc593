import Mathlib

/-!
# Records in a stream

Records are written one after the other and read in pieces of any length.  What has been
read and not used is the start of the records that are left.
-/

namespace PistormAtari
namespace Foundation

variable {α β : Type _}

/-- The records that are not handled yet lie in the buffer and behind it. -/
def StreamSplit (enc : α -> List β) (sent handled : List α) (buf wire : List β) : Prop :=
  exists rest, sent = handled ++ rest ∧ rest.flatMap enc = buf ++ wire

def CutRecord (enc : α -> List β) (sent : List α) (buf : List β) : Prop :=
  buf = [] ∨ exists a tail, a ∈ sent ∧ tail ≠ [] ∧ enc a = buf ++ tail

/-- No record is the start of another one, and none is empty. -/
structure SelfDelimiting (enc : α -> List β) (sent : List α) : Prop where
  nonempty : forall a, a ∈ sent -> enc a ≠ []
  ends : forall a b tail, a ∈ sent -> b ∈ sent -> enc b = enc a ++ tail -> tail = []

variable {enc : α -> List β} {sent handled : List α} {buf wire : List β}

theorem StreamSplit.start : StreamSplit enc [] [] [] [] := ⟨[], rfl, rfl⟩

section

variable (h : StreamSplit enc sent handled buf wire)

include h

theorem StreamSplit.send (a : α) :
    StreamSplit enc (sent ++ [a]) handled buf (wire ++ enc a) := by
  rcases h with ⟨rest, hsent, hbytes⟩
  refine ⟨rest ++ [a], ?_, ?_⟩
  · rw [hsent, List.append_assoc]
  · rw [List.flatMap_append, hbytes, List.flatMap_singleton, List.append_assoc]

theorem StreamSplit.receive (n : Nat) :
    StreamSplit enc sent handled (buf ++ wire.take n) (wire.drop n) := by
  rcases h with ⟨rest, hsent, hbytes⟩
  refine ⟨rest, hsent, ?_⟩
  rw [hbytes, List.append_assoc, List.take_append_drop]

/-- A whole record lies at the front of the buffer, or the buffer ends inside one. -/
theorem StreamSplit.front :
    (exists a tail, a ∈ sent ∧ buf = enc a ++ tail ∧
        StreamSplit enc sent (handled ++ [a]) tail wire) ∨
      CutRecord enc sent buf := by
  rcases h with ⟨rest, hsent, hbytes⟩
  cases rest with
  | nil =>
      right
      left
      exact (List.append_eq_nil_iff.mp hbytes.symm).1
  | cons a rest =>
      have hmem : a ∈ sent := by
        rw [hsent]
        exact List.mem_append_right _ List.mem_cons_self
      rw [List.flatMap_cons] at hbytes
      rcases List.append_eq_append_iff.mp hbytes with ⟨tail, hbuf, hrest⟩ | ⟨tail, hrecord, hwire⟩
      · left
        refine ⟨a, tail, hmem, hbuf, rest, ?_, hrest⟩
        rw [hsent, List.append_assoc]
        rfl
      · cases tail with
        | nil =>
            left
            rw [List.append_nil] at hrecord
            refine ⟨a, [], hmem, by rw [hrecord, List.append_nil], rest, ?_, hwire.symm⟩
            rw [hsent, List.append_assoc]
            rfl
        | cons first tail =>
            right
            right
            exact ⟨a, first :: tail, hmem, List.cons_ne_nil _ _, hrecord⟩

theorem StreamSplit.in_order : handled <+: sent := by
  rcases h with ⟨rest, hsent, _⟩
  exact ⟨rest, hsent.symm⟩

end

theorem CutRecord.send (h : CutRecord enc sent buf) (a : α) : CutRecord enc (sent ++ [a]) buf := by
  rcases h with hempty | ⟨b, tail, hmem, hne, hrecord⟩
  · exact Or.inl hempty
  · exact Or.inr ⟨b, tail, List.mem_append_left _ hmem, hne, hrecord⟩

theorem StreamSplit.all_handled (h : StreamSplit enc sent handled buf [])
    (hcut : CutRecord enc sent buf) (hself : SelfDelimiting enc sent) : handled = sent := by
  rcases h with ⟨rest, hsent, hbytes⟩
  cases rest with
  | nil => rw [hsent, List.append_nil]
  | cons a rest =>
      rw [List.flatMap_cons, List.append_nil] at hbytes
      have hmem : a ∈ sent := by
        rw [hsent]
        exact List.mem_append_right _ List.mem_cons_self
      rcases hcut with hempty | ⟨b, tail, hmem', hne, hrecord⟩
      · rw [hempty] at hbytes
        exact absurd (List.append_eq_nil_iff.mp hbytes).1 (hself.nonempty a hmem)
      · rw [← hbytes, List.append_assoc] at hrecord
        have hnone := hself.ends a b _ hmem hmem' hrecord
        exact absurd (List.append_eq_nil_iff.mp hnone).2 hne

theorem CutRecord.length_lt {longest : Nat} (h : CutRecord enc sent buf)
    (hpos : 0 < longest) (hle : forall a, a ∈ sent -> (enc a).length ≤ longest) :
    buf.length < longest := by
  rcases h with rfl | ⟨a, tail, hmem, hne, hrecord⟩
  · exact hpos
  · have hlen := hle a hmem
    have hpos' := List.length_pos_iff.mpr hne
    rw [hrecord, List.length_append] at hlen
    lia

end Foundation
end PistormAtari
