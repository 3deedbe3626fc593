import PistormAtari.Foundation.Run
import PistormAtari.Foundation.WrapRing

/-!
# A ring that outlives its sessions

Producers put values into a ring whether or not somebody is there to take them; a session
takes them once it has been accepted.  The history numbers the values in the order in which
they entered.
-/

namespace PistormAtari
namespace Foundation

variable {ε : Type _}

/-- A value that left for a session: its number, and how many values had entered when the
session was accepted. -/
structure Sent (ε : Type _) where
  number : Nat
  opened : Nat
  value : ε
deriving DecidableEq

/-- The ring, whether a session is accepted, and their history: what entered, how much of it
has left the ring, how much of it is older than the session, and what was sent. -/
structure SessionRing (ε : Type _) where
  ring : WrapRing ε
  connected : Bool
  pushes : List ε
  taken : Nat
  opened : Nat
  sent : List (Sent ε)

namespace SessionRing

def push (size : Nat) (s : SessionRing ε) (v : ε) : SessionRing ε :=
  match s.ring.push size v with
  | none => s
  | some ring => { s with ring := ring, pushes := s.pushes ++ [v] }

def accept (s : SessionRing ε) : SessionRing ε :=
  if s.connected then s else { s with connected := true, opened := s.pushes.length }

def send (size : Nat) (s : SessionRing ε) : SessionRing ε :=
  if s.connected then
    match s.ring.peek size with
    | none => s
    | some v =>
        { s with
          ring := s.ring.pop
          taken := s.taken + 1
          sent := s.sent ++ [{ number := s.taken, opened := s.opened, value := v }] }
  else s

def close (s : SessionRing ε) : SessionRing ε := { s with connected := false }

def clear (s : SessionRing ε) : SessionRing ε :=
  { s with ring := { s.ring with tail := s.ring.head }, taken := s.pushes.length }

def empty (w : Nat -> ε) : SessionRing ε :=
  { ring := { w := w, head := 0, tail := 0 }
    connected := false
    pushes := []
    taken := 0
    opened := 0
    sent := [] }

/-- Every value sent to a session is one that entered after the session was accepted, each at
most once and in the order in which they entered. -/
structure Separate (s : SessionRing ε) : Prop where
  entered : forall x, x ∈ s.sent -> s.pushes[x.number]? = some x.value ∧ x.opened ≤ x.number
  ordered : s.sent.Pairwise fun x y => x.number < y.number

structure Orderly (size : Nat) (s : SessionRing ε) : Prop where
  holds : s.ring.Holds size (s.pushes.drop s.taken)
  taken_le : s.taken ≤ s.pushes.length
  sent_lt : forall x, x ∈ s.sent -> x.number < s.taken
  entered : forall x, x ∈ s.sent -> s.pushes[x.number]? = some x.value
  ordered : s.sent.Pairwise fun x y => x.number < y.number

structure Apart (s : SessionRing ε) : Prop where
  current : s.connected = true -> s.opened ≤ s.taken
  own : forall x, x ∈ s.sent -> x.opened ≤ x.number

theorem separate_of_apart {size : Nat} {s : SessionRing ε} (horderly : Orderly size s)
    (hapart : Apart s) : Separate s :=
  { entered := fun x hx => ⟨horderly.entered x hx, hapart.own x hx⟩
    ordered := horderly.ordered }

section
variable {size : Nat} {s : SessionRing ε}

theorem orderly_empty (size : Nat) (w : Nat -> ε) : Orderly size (empty w) :=
  { holds := WrapRing.holds_nil size w 0
    taken_le := le_refl 0
    sent_lt := fun _ hx => absurd hx List.not_mem_nil
    entered := fun _ hx => absurd hx List.not_mem_nil
    ordered := List.Pairwise.nil }

theorem apart_empty (w : Nat -> ε) : Apart (empty w) :=
  { current := fun h => Bool.noConfusion h
    own := fun _ hx => absurd hx List.not_mem_nil }

/-!
## What each operation keeps
-/

theorem Orderly.push (h : Orderly size s) (hsize : size < 2 ^ 32) (hdvd : size ∣ 2 ^ 32) (v : ε) :
    Orderly size (s.push size v) := by
  unfold SessionRing.push
  cases hring : s.ring.push size v with
  | none => exact h
  | some ring =>
      have hholds := h.holds.push hsize hdvd hring
      rw [← List.drop_append_of_le_length h.taken_le] at hholds
      refine { h with holds := hholds, taken_le := ?_, entered := ?_ }
      · rw [List.length_append]
        exact le_trans h.taken_le (Nat.le_add_right _ _)
      · intro x hx
        have hlt := lt_of_lt_of_le (h.sent_lt x hx) h.taken_le
        dsimp only
        rw [List.getElem?_append_left hlt]
        exact h.entered x hx

theorem Apart.push (h : Apart s) (v : ε) : Apart (s.push size v) := by
  unfold SessionRing.push
  split
  · exact h
  · exact { current := h.current, own := h.own }

theorem Orderly.accept (h : Orderly size s) : Orderly size s.accept := by
  unfold SessionRing.accept
  split
  · exact h
  · exact { h with }

theorem Orderly.empty_iff (h : Orderly size s) (hsize : size < 2 ^ 32) :
    s.ring.tail = s.ring.head <-> s.taken = s.pushes.length := by
  have hle := h.taken_le
  rw [h.holds.empty_iff hsize, List.drop_eq_nil_iff]
  constructor
  · intro hge
    exact le_antisymm hle hge
  · intro heq
    exact le_of_eq heq.symm

theorem Apart.accept (h : Apart s) (horderly : Orderly size s) (hsize : size < 2 ^ 32)
    (hempty : s.connected = false -> s.ring.tail = s.ring.head) : Apart s.accept := by
  unfold SessionRing.accept
  split
  · exact h
  · next hclosed =>
    have htaken := (horderly.empty_iff hsize).mp (hempty (Bool.eq_false_iff.mpr hclosed))
    exact { current := fun _ => le_of_eq htaken.symm, own := h.own }

theorem Orderly.send (h : Orderly size s) (hsize : size < 2 ^ 32) (hdvd : size ∣ 2 ^ 32) :
    Orderly size (s.send size) := by
  unfold SessionRing.send
  split
  · rw [h.holds.peek hsize]
    cases hq : s.pushes.drop s.taken with
    | nil => exact h
    | cons v rest =>
        have hlt : s.taken < s.pushes.length := by
          by_contra hge
          rw [List.drop_eq_nil_of_le (not_lt.mp hge)] at hq
          cases hq
        have hvalue : s.pushes[s.taken]? = some v := by
          rw [← List.head?_drop, hq, List.head?_cons]
        have hholds := h.holds.pop hsize hdvd
        rw [List.tail_drop] at hholds
        dsimp only [List.head?_cons]
        constructor
        · exact hholds
        · exact hlt
        · intro x hx
          rcases List.mem_append.mp hx with hold | hnew
          · exact Nat.lt_succ_of_lt (h.sent_lt x hold)
          · rw [List.mem_singleton.mp hnew]
            exact Nat.lt_succ_self s.taken
        · intro x hx
          rcases List.mem_append.mp hx with hold | hnew
          · exact h.entered x hold
          · rw [List.mem_singleton.mp hnew]
            exact hvalue
        · apply List.pairwise_append.mpr
          refine ⟨h.ordered, List.pairwise_singleton _ _, ?_⟩
          intro x hx y hy
          rw [List.mem_singleton.mp hy]
          exact h.sent_lt x hx
  · exact h

theorem Apart.send (h : Apart s) : Apart (s.send size) := by
  unfold SessionRing.send
  split
  · next hconnected =>
    split
    · exact h
    · constructor
      · intro _
        exact Nat.le_succ_of_le (h.current hconnected)
      · intro x hx
        rcases List.mem_append.mp hx with hold | hnew
        · exact h.own x hold
        · rw [List.mem_singleton.mp hnew]
          exact h.current hconnected
  · exact h

theorem Orderly.close (h : Orderly size s) : Orderly size s.close := { h with }

theorem Apart.close (h : Apart s) : Apart s.close :=
  { current := fun hconnected => Bool.noConfusion hconnected, own := h.own }

theorem Orderly.clear (h : Orderly size s) : Orderly size s.clear := by
  unfold SessionRing.clear
  refine { h with holds := ?_, taken_le := le_refl _, sent_lt := ?_ }
  · dsimp only
    rw [List.drop_length]
    exact WrapRing.holds_nil size s.ring.w s.ring.head
  · intro x hx
    exact lt_of_lt_of_le (h.sent_lt x hx) h.taken_le

theorem Apart.clear (h : Apart s) (hclosed : s.connected = false) : Apart s.clear :=
  { current := fun hconnected => absurd (hclosed.symm.trans hconnected) Bool.false_ne_true
    own := h.own }

theorem not_separate_of_leftover (h : Orderly size s) (hsize : size < 2 ^ 32)
    (hclosed : s.connected = false) (hleft : s.ring.tail ≠ s.ring.head) :
    ¬ Separate (s.accept.send size) := by
  intro hseparate
  have hlt : s.taken < s.pushes.length := by
    rcases Nat.lt_or_eq_of_le h.taken_le with hlt | heq
    · exact hlt
    · exact absurd ((h.empty_iff hsize).mpr heq) hleft
  have hpeek : s.ring.peek size = s.pushes[s.taken]? := by
    rw [h.holds.peek hsize, List.head?_drop]
  rw [List.getElem?_eq_getElem hlt] at hpeek
  have hsent : (s.accept.send size).sent =
      s.sent ++ [{ number := s.taken, opened := s.pushes.length, value := s.pushes[s.taken] }] := by
    have haccept : s.accept = { s with connected := true, opened := s.pushes.length } := by
      unfold SessionRing.accept
      rw [hclosed, if_neg Bool.false_ne_true]
    rw [haccept]
    unfold SessionRing.send
    rw [if_pos rfl, hpeek]
  have hlast := hseparate.entered
    { number := s.taken, opened := s.pushes.length, value := s.pushes[s.taken] }
    (by rw [hsent]; exact List.mem_append_right _ (List.mem_singleton_self _))
  exact absurd hlast.2 (not_le.mpr hlt)

end
end SessionRing
end Foundation
end PistormAtari
