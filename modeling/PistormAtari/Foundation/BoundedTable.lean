import Mathlib

/-!
# Tables with little room

In a list of keys with values the first entry of a key counts.  A value that is put takes the
place of the key's, or goes behind the others while there is room.
-/

namespace PistormAtari
namespace Foundation

variable {κ ν : Type _} [DecidableEq κ]

/-- The entries with a value put under a key, when `n` others stand before them. -/
def put (room : Nat -> Bool) (k : κ) (v : ν) : Nat -> List (κ × ν) -> Option (List (κ × ν))
  | n, [] => if room n then some [(k, v)] else none
  | n, e :: es => if e.1 = k then some ((k, v) :: es) else (put room k v (n + 1) es).map (e :: ·)

/-- Several values put one after another, up to the first that finds no room. -/
def putAll (room : Nat -> Bool) : List (κ × ν) -> List (κ × ν) -> List (κ × ν)
  | [], es => es
  | f :: fs, es =>
      match put room f.1 f.2 0 es with
      | none => es
      | some es' => putAll room fs es'

variable {room : Nat -> Bool} {k : κ} {v : ν} {n : Nat} {es es' : List (κ × ν)}

def KeysPut (room : Nat -> Bool) (k : κ) (n : Nat) (es es' : List (κ × ν)) : Prop :=
  es'.map Prod.fst = es.map Prod.fst ∨
    room (n + es.length) = true ∧ k ∉ es.map Prod.fst ∧
      es'.map Prod.fst = es.map Prod.fst ++ [k]

theorem put_spec (h : put room k v n es = some es') :
    es'.lookup k = some v ∧ (forall j, j ≠ k -> es'.lookup j = es.lookup j) ∧
      KeysPut room k n es es' := by
  induction es generalizing n es' with
  | nil =>
      unfold put at h
      split at h
      · next hroom =>
        cases h
        refine ⟨by simp, fun j hj => by simp [hj], Or.inr ⟨hroom, by simp, rfl⟩⟩
      · cases h
  | cons e rest ih =>
      unfold put at h
      split at h
      · next hkey =>
        cases h
        refine ⟨by simp, fun j hj => ?_, Or.inl (by simp [hkey])⟩
        have hne : (j == k) = false := by simpa using hj
        rw [List.lookup_cons, List.lookup_cons, hkey, hne]
      · next hkey =>
        obtain ⟨rest', hrest, rfl⟩ := Option.map_eq_some_iff.mp h
        obtain ⟨hself, hother, hkeys⟩ := ih hrest
        refine ⟨?_, fun j hj => ?_, ?_⟩
        · have hne : (k == e.1) = false := by simpa using fun heq => hkey heq.symm
          rw [List.lookup_cons, hne]
          exact hself
        · rw [List.lookup_cons, List.lookup_cons, hother j hj]
        · rcases hkeys with hsame | ⟨hroom, hnew, hmore⟩
          · exact Or.inl (by simp [hsame])
          · refine Or.inr ⟨?_, by simp [hnew, Ne.symm hkey], by simp [hmore]⟩
            rw [List.length_cons, Nat.add_comm rest.length, ← Nat.add_assoc]
            exact hroom

theorem room_of_put_eq_none (h : put room k v n es = none) : room (n + es.length) = false := by
  induction es generalizing n with
  | nil =>
      unfold put at h
      split at h
      · cases h
      · next hroom => simpa using hroom
  | cons e rest ih =>
      unfold put at h
      split at h
      · cases h
      · have hrest := ih (Option.map_eq_none_iff.mp h)
        rw [List.length_cons, Nat.add_comm rest.length, ← Nat.add_assoc]
        exact hrest

omit [DecidableEq κ] in
theorem KeysPut.length_le (h : KeysPut room k n es es') : es'.length ≤ es.length + 1 := by
  rcases h with hsame | ⟨_, _, hmore⟩
  · have hlength := congrArg List.length hsame
    simp only [List.length_map] at hlength
    lia
  · have hlength := congrArg List.length hmore
    simp only [List.length_append, List.length_map, List.length_singleton] at hlength
    lia

omit [DecidableEq κ] in
theorem KeysPut.grows (h : KeysPut room k n es es') : es.map Prod.fst <+: es'.map Prod.fst := by
  rcases h with hsame | ⟨_, _, hmore⟩
  · exact ⟨[], by rw [hsame, List.append_nil]⟩
  · exact ⟨[k], hmore.symm⟩

theorem lookup_putAll_of_notMem {fs : List (κ × ν)} (hk : k ∉ fs.map Prod.fst) :
    (putAll room fs es).lookup k = es.lookup k := by
  induction fs generalizing es with
  | nil => rfl
  | cons f rest ih =>
      rw [List.map_cons, List.mem_cons, not_or] at hk
      unfold putAll
      split
      · rfl
      · next es' hput => rw [ih hk.2, (put_spec hput).2.1 k hk.1]

theorem keys_putAll (fs es : List (κ × ν)) :
    es.map Prod.fst <+: (putAll room fs es).map Prod.fst := by
  induction fs generalizing es with
  | nil => exact List.prefix_rfl
  | cons f rest ih =>
      unfold putAll
      split
      · exact List.prefix_rfl
      · next es' hput => exact (put_spec hput).2.2.grows.trans (ih es')

theorem lookup_putAll {fs : List (κ × ν)} (hkeys : (fs.map Prod.fst).Nodup)
    (hroom : forall i, i < es.length + fs.length -> room i = true) {f : κ × ν} (hf : f ∈ fs) :
    (putAll room fs es).lookup f.1 = some f.2 := by
  induction fs generalizing es with
  | nil => cases hf
  | cons g rest ih =>
      rw [List.map_cons, List.nodup_cons] at hkeys
      unfold putAll
      split
      · next hput =>
        have hfull := room_of_put_eq_none hput
        rw [Nat.zero_add, hroom es.length (by simp)] at hfull
        cases hfull
      · next es' hput =>
        obtain ⟨hself, hother, hput'⟩ := put_spec hput
        rcases List.mem_cons.mp hf with rfl | hrest
        · rw [lookup_putAll_of_notMem hkeys.1, hself]
        · have hlength := hput'.length_le
          refine ih hkeys.2 (fun i hi => hroom i ?_) hrest
          rw [List.length_cons]
          lia

end Foundation
end PistormAtari
