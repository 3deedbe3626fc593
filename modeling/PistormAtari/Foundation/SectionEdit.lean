import Mathlib

/-!
# Editing one section of a list of lines

A line is a section header, which opens the section that is edited or another
one, a line for a key, or neither.  Inside the section an editor puts its own line
in place of the first line for a key it writes and drops the later ones; every
other line is copied.  Where the section ends, the keys that had no line there are
added below a mark.
-/

namespace PistormAtari
namespace Foundation

/-- What an editor reads in a line.  A header says if it opens the edited section. -/
inductive Role (K : Type _)
  | header (mine : Bool)
  | key (k : K)
  | plain
deriving DecidableEq

/-- `render` has the line for a key, if the editor writes one, and `keys` are the
keys it adds when they are missing. -/
structure Editor (L K : Type _) where
  role : L -> Role K
  render : K -> Option L
  keys : List K
  mark : L
  blank : L
  nodup : keys.Nodup
  role_render : forall k r, render k = some r -> role r = Role.key k
  role_mark : role mark = Role.plain
  role_blank : role blank = Role.plain

/-- Where an editor is: inside the section or not, and the keys it has put there. -/
structure Place (K : Type _) where
  inside : Bool
  seen : List K

namespace Editor

variable {L K : Type _} [DecidableEq K] (E : Editor L K)

/-- The keys that the editor writes and that have no line yet. -/
def missing (seen : List K) : List K :=
  E.keys.filter (fun k => (E.render k).isSome && decide (k ∉ seen))

def flush (seen : List K) : List L :=
  if E.missing seen = [] then [] else E.mark :: (E.missing seen).filterMap E.render

def leave (seen : List K) : List L :=
  if E.missing seen = [] then [] else E.flush seen ++ [E.blank]

def emit (p : Place K) (l : L) : List L :=
  match E.role l with
  | Role.header _ => (if p.inside then E.leave p.seen else []) ++ [l]
  | Role.plain => [l]
  | Role.key k =>
      if p.inside then
        match E.render k with
        | none => [l]
        | some r => if k ∈ E.keys ∧ k ∈ p.seen then [] else [r]
      else [l]

def next (p : Place K) (l : L) : Place K :=
  match E.role l with
  | Role.header mine => ⟨mine, p.seen⟩
  | Role.plain => p
  | Role.key k =>
      if p.inside ∧ (E.render k).isSome ∧ k ∈ E.keys then ⟨p.inside, p.seen.insert k⟩ else p

def turn (inside : Bool) (l : L) : Bool :=
  match E.role l with
  | Role.header mine => mine
  | _ => inside

def finish (p : Place K) : List L :=
  if p.inside then E.flush p.seen else []

def body : Place K -> List L -> List L
  | _, [] => []
  | p, l :: ls => E.emit p l ++ body (E.next p l) ls

def place (p : Place K) (ls : List L) : Place K :=
  ls.foldl E.next p

def edit (p : Place K) (ls : List L) : List L :=
  E.body p ls ++ E.finish (E.place p ls)

def Entered (ls : List L) : Prop :=
  exists l, l ∈ ls ∧ E.role l = Role.header true

/-- The lines inside the edited section, its headers left out. -/
def owned : Bool -> List L -> List L
  | _, [] => []
  | inside, l :: ls =>
      match E.role l with
      | Role.header mine => owned mine ls
      | _ => if inside then l :: owned inside ls else owned inside ls

def occ (k : K) (inside : Bool) (ls : List L) : Nat :=
  (E.owned inside ls).countP (fun l => E.role l = Role.key k)

/-- The lines that are outside the section, or for which the editor has no line. -/
def kept : Bool -> List L -> List L
  | _, [] => []
  | inside, l :: ls =>
      match E.role l with
      | Role.header mine => l :: kept mine ls
      | Role.plain => l :: kept inside ls
      | Role.key k =>
          if inside ∧ (E.render k).isSome then kept inside ls else l :: kept inside ls

/-- When the section ends while a key is missing, it is not opened again. -/
def Tidy : Place K -> List L -> Prop
  | _, [] => True
  | p, l :: ls =>
      ((exists mine, E.role l = Role.header mine) -> p.inside = true ->
        E.missing p.seen ≠ [] -> ¬ E.Entered (l :: ls)) ∧ Tidy (E.next p l) ls

/-- The editor leaves every one of these lines as it is and adds none. -/
def Settled : Place K -> List L -> Prop
  | p, [] => E.finish p = []
  | p, l :: ls => E.emit p l = [l] ∧ Settled (E.next p l) ls

variable {E} {p : Place K} {l : L} {ls : List L} {k : K} {seen : List K} {inside : Bool}

/-!
## Runs
-/

theorem edit_nil : E.edit p [] = E.finish p := rfl

theorem edit_cons : E.edit p (l :: ls) = E.emit p l ++ E.edit (E.next p l) ls := by
  simp [edit, body, place]

theorem body_append (ls' : List L) :
    E.body p (ls ++ ls') = E.body p ls ++ E.body (E.place p ls) ls' := by
  induction ls generalizing p with
  | nil => rfl
  | cons l ls ih =>
      have htail := ih (p := E.next p l)
      simp only [List.cons_append, body, htail, List.append_assoc]
      rfl

theorem Settled.edit_eq (h : E.Settled p ls) : E.edit p ls = ls := by
  induction ls generalizing p with
  | nil => exact h
  | cons l ls ih =>
      rw [edit_cons, h.1, ih h.2]
      rfl

theorem Settled.finish_eq_nil (h : E.Settled p ls) : E.finish (E.place p ls) = [] := by
  induction ls generalizing p with
  | nil => exact h
  | cons l ls ih => exact ih h.2

theorem next_inside : (E.next p l).inside = E.turn p.inside l := by
  unfold next turn
  cases E.role l with
  | header _ => rfl
  | plain => rfl
  | key _ =>
      simp only
      split <;> rfl

/-!
## Missing keys
-/

theorem mem_missing :
    k ∈ E.missing seen <-> k ∈ E.keys ∧ (E.render k).isSome = true ∧ k ∉ seen := by
  simp [missing]

theorem flush_eq_nil : E.flush seen = [] <-> E.missing seen = [] := by
  unfold flush
  split <;> simp_all

theorem finish_of_missing (h : E.missing p.seen = []) : E.finish p = [] := by
  unfold finish
  split
  · exact flush_eq_nil.mpr h
  · rfl

theorem missing_filled (seen : List K) :
    E.missing ((E.missing seen).reverse ++ seen) = [] := by
  rw [List.eq_nil_iff_forall_not_mem]
  intro k hk
  rcases mem_missing.mp hk with ⟨hkeys, hren, hseen⟩
  have hnot : k ∉ seen := fun hmem => hseen (List.mem_append_right _ hmem)
  have hmem : k ∈ E.missing seen := mem_missing.mpr ⟨hkeys, hren, hnot⟩
  exact hseen (List.mem_append_left _ (List.mem_reverse.mpr hmem))

theorem count_missing_le_one : (E.missing seen).count k ≤ 1 :=
  List.nodup_iff_count_le_one.mp (E.nodup.filter _) k

/-!
## Lines outside the section
-/

theorem emit_outside (h : p.inside = false) : E.emit p l = [l] := by
  unfold emit
  split <;> simp [h]

theorem next_outside (h : p.inside = false) (hl : E.role l ≠ Role.header true) :
    (E.next p l).inside = false := by
  unfold next
  split
  · rename_i mine heq
    cases mine with
    | false => rfl
    | true => exact absurd heq hl
  · exact h
  · simp [h]

omit [DecidableEq K] in
theorem not_entered_cons (h : ¬ E.Entered (l :: ls)) :
    E.role l ≠ Role.header true ∧ ¬ E.Entered ls := by
  constructor
  · intro heq
    exact h ⟨l, by simp, heq⟩
  · rintro ⟨l', hl', heq⟩
    exact h ⟨l', by simp [hl'], heq⟩

theorem next_outside_eq (h : p.inside = false) (hl : E.role l ≠ Role.header true) :
    E.next p l = p := by
  have hin := next_outside h hl
  unfold next at hin ⊢
  split
  · rename_i mine heq
    rw [heq] at hin
    cases p
    simp_all
  · rfl
  · simp [h]

theorem settled_append (hp : p.inside = false) (h : ¬ E.Entered ls) {tail : List L}
    (htail : E.Settled p tail) : E.Settled p (ls ++ tail) := by
  induction ls with
  | nil => exact htail
  | cons l ls ih =>
      rcases not_entered_cons h with ⟨hl, hls⟩
      refine ⟨emit_outside hp, ?_⟩
      rw [next_outside_eq hp hl]
      exact ih hls

theorem settled_outside (hp : p.inside = false) (h : ¬ E.Entered ls) : E.Settled p ls := by
  induction ls generalizing p with
  | nil => simp [Settled, finish, hp]
  | cons l ls ih =>
      rcases not_entered_cons h with ⟨hl, htail⟩
      exact ⟨emit_outside hp, ih (next_outside hp hl) htail⟩

/-!
## One line

`Step` lists what the editor can do with a line.
-/

variable (E) in
inductive Step (p : Place K) (l : L) : List L -> Place K -> Prop where
  | header {mine : Bool} (hrole : E.role l = Role.header mine) :
      Step p l ((if p.inside then E.leave p.seen else []) ++ [l]) ⟨mine, p.seen⟩
  | copy (hrole : forall mine, E.role l ≠ Role.header mine)
      (hkey : p.inside = true -> forall k, E.role l = Role.key k -> E.render k = none) :
      Step p l [l] p
  | rewrite {k : K} {r : L} (hin : p.inside = true) (hrole : E.role l = Role.key k)
      (hr : E.render k = some r) (hkeys : k ∉ E.keys) : Step p l [r] p
  | put {k : K} {r : L} (hin : p.inside = true) (hrole : E.role l = Role.key k)
      (hr : E.render k = some r) (hkeys : k ∈ E.keys) (hseen : k ∉ p.seen) :
      Step p l [r] ⟨true, k :: p.seen⟩
  | drop {k : K} {r : L} (hin : p.inside = true) (hrole : E.role l = Role.key k)
      (hr : E.render k = some r) (hkeys : k ∈ E.keys) (hseen : k ∈ p.seen) : Step p l [] p

theorem step (p : Place K) (l : L) : E.Step p l (E.emit p l) (E.next p l) := by
  unfold emit next
  cases hrole : E.role l with
  | header mine => exact Step.header hrole
  | plain => exact Step.copy (by simp [hrole]) (by simp [hrole])
  | key k =>
      have hnh : forall mine, E.role l ≠ Role.header mine := by simp [hrole]
      cases hin : p.inside with
      | false => simpa using Step.copy hnh (by simp [hin])
      | true =>
          cases hr : E.render k with
          | none =>
              have hnone : forall k', E.role l = Role.key k' -> E.render k' = none := by
                intro k' hk'
                rw [hrole] at hk'
                cases hk'
                exact hr
              simpa [hr] using Step.copy hnh (fun _ => hnone)
          | some r =>
              rcases Decidable.em (k ∈ E.keys) with hkeys | hkeys
              · rcases Decidable.em (k ∈ p.seen) with hseen | hseen
                · have hp : (⟨true, p.seen⟩ : Place K) = p := by rw [← hin]
                  simpa [hr, hkeys, hseen, hp] using Step.drop hin hrole hr hkeys hseen
                · simpa [hr, hkeys, hseen] using Step.put hin hrole hr hkeys hseen
              · simpa [hr, hkeys] using Step.rewrite hin hrole hr hkeys

/-!
## Editing twice
-/

theorem settled_added {ks : List K} {tail : List L} (hnodup : ks.Nodup)
    (hks : forall k, k ∈ ks -> k ∈ E.keys ∧ (E.render k).isSome = true ∧ k ∉ seen)
    (htail : E.Settled ⟨true, ks.reverse ++ seen⟩ tail) :
    E.Settled ⟨true, seen⟩ (ks.filterMap E.render ++ tail) := by
  induction ks generalizing seen with
  | nil => exact htail
  | cons k ks ih =>
      rcases List.nodup_cons.mp hnodup with ⟨hk, hnodup'⟩
      rcases hks k (by simp) with ⟨hkeys, hren, hseen⟩
      rcases Option.isSome_iff_exists.mp hren with ⟨r, hr⟩
      have hrole := E.role_render k r hr
      rw [List.filterMap_cons_some hr]
      refine ⟨?_, ?_⟩
      · simp [emit, hrole, hr, hseen]
      · have hnext : E.next ⟨true, seen⟩ r = ⟨true, k :: seen⟩ := by
          simp [next, hrole, hr, hkeys, List.insert_of_not_mem hseen]
        rw [hnext]
        refine ih hnodup' ?_ ?_
        · intro k' hk'
          rcases hks k' (by simp [hk']) with ⟨h1, h2, h3⟩
          refine ⟨h1, h2, ?_⟩
          rintro (_ | ⟨_, hmem⟩)
          · exact hk hk'
          · exact h3 hmem
        · simpa using htail

theorem settled_flush {tail : List L} (h : E.missing seen ≠ [])
    (htail : E.Settled ⟨true, (E.missing seen).reverse ++ seen⟩ tail) :
    E.Settled ⟨true, seen⟩ (E.flush seen ++ tail) := by
  have hadded : E.Settled ⟨true, seen⟩ ((E.missing seen).filterMap E.render ++ tail) := by
    refine settled_added (E.nodup.filter _) ?_ htail
    intro k hk
    exact mem_missing.mp hk
  rw [flush, if_neg h]
  refine ⟨?_, ?_⟩
  · simp [emit, E.role_mark]
  · simpa [next, E.role_mark] using hadded

theorem settled_finish : E.Settled p (E.finish p) := by
  unfold finish
  split
  · rename_i hin
    rcases Decidable.em (E.missing p.seen = []) with h | h
    · rw [flush_eq_nil.mpr h]
      exact finish_of_missing h
    · have hp : p = ⟨true, p.seen⟩ := by rw [← hin]
      have hend : E.Settled ⟨true, (E.missing p.seen).reverse ++ p.seen⟩ [] :=
        finish_of_missing (missing_filled p.seen)
      have hset := settled_flush h hend
      rw [List.append_nil] at hset
      rw [hp]
      exact hset
  · rename_i hin
    simp [Settled, finish, hin]

/-- Editing settles the lines, when the section is not opened again after keys were
added to it. -/
theorem settled_edit (h : E.Tidy p ls) : E.Settled p (E.edit p ls) := by
  induction ls generalizing p with
  | nil => exact settled_finish
  | cons l ls ih =>
      have htail := ih h.2
      have hstep := E.step p l
      rw [edit_cons]
      generalize hout : E.emit p l = out at hstep ⊢
      generalize hnext : E.next p l = q at hstep htail ⊢
      cases hstep with
      | @header mine hrole =>
          rcases Decidable.em (p.inside = true ∧ E.missing p.seen ≠ []) with ⟨hin, hmiss⟩ | hno
          · rcases not_entered_cons (h.1 ⟨mine, hrole⟩ hin hmiss) with ⟨hl, hls⟩
            have hmine : mine = false := by
              cases mine with
              | false => rfl
              | true => exact absurd hrole hl
            have hcopy : E.edit ⟨mine, p.seen⟩ ls = ls :=
              (settled_outside (by simp [hmine]) hls).edit_eq
            have hfull := E.missing_filled p.seen
            have hp : p = ⟨true, p.seen⟩ := by rw [← hin]
            rw [hcopy, if_pos hin, leave, if_neg hmiss, hp]
            simp only [List.append_assoc, List.singleton_append]
            refine settled_flush hmiss ⟨by simp [emit, E.role_blank], ?_, ?_⟩
            · simp [emit, next, E.role_blank, hrole, leave, hfull]
            · refine settled_outside ?_ hls
              simp [next, E.role_blank, hrole, hmine]
          · have hnone : (if p.inside then E.leave p.seen else []) = [] := by
              split
              · rename_i hin
                rw [leave, if_pos]
                by_contra hne
                exact hno ⟨hin, hne⟩
              · rfl
            rw [hnone] at hout ⊢
            refine ⟨hout, ?_⟩
            rw [hnext]
            exact htail
      | copy _ _ =>
          refine ⟨hout, ?_⟩
          rw [hnext]
          exact htail
      | @rewrite k r hin hrole hr hkeys =>
          have hrole' := E.role_render k r hr
          refine ⟨by simp [emit, hrole', hin, hr, hkeys], ?_⟩
          have hsame : E.next p r = p := by simp [next, hrole', hkeys]
          rw [hsame]
          exact htail
      | @put k r hin hrole hr hkeys hseen =>
          have hrole' := E.role_render k r hr
          refine ⟨by simp [emit, hrole', hin, hr, hseen], ?_⟩
          have hsame : E.next p r = ⟨true, k :: p.seen⟩ := by
            simp [next, hrole', hin, hr, hkeys, List.insert_of_not_mem hseen]
          rw [hsame]
          exact htail
      | drop _ _ _ _ _ => exact htail

/-!
## Lines for a key
-/

variable {mine : Bool}

theorem occ_header (h : E.role l = Role.header mine) :
    E.occ k inside (l :: ls) = E.occ k mine ls := by
  simp [occ, owned, h]

theorem occ_cons (h : forall mine, E.role l ≠ Role.header mine) :
    E.occ k inside (l :: ls) =
      E.occ k inside ls + if inside = true ∧ E.role l = Role.key k then 1 else 0 := by
  unfold occ
  rw [owned]
  split
  · rename_i mine heq
    exact absurd heq (h mine)
  · cases inside <;> simp [List.countP_cons]

omit [DecidableEq K] in
theorem not_header_of_key (h : E.role l = Role.key k) (mine : Bool) :
    E.role l ≠ Role.header mine := by
  simp [h]

/-- Settled lines have at most one line for a key the editor adds, and none for one
that was seen before. -/
theorem Settled.occ_le (h : E.Settled p ls) (hkeys : k ∈ E.keys)
    (hren : (E.render k).isSome = true) :
    E.occ k p.inside ls ≤ if k ∈ p.seen then 0 else 1 := by
  induction ls generalizing p with
  | nil => simp [occ, owned]
  | cons l ls ih =>
      have htail := ih h.2
      have hemit := h.1
      have hstep := E.step p l
      generalize E.emit p l = out at hstep hemit
      generalize E.next p l = q at hstep htail
      cases hstep with
      | header hrole =>
          rw [occ_header hrole]
          exact htail
      | copy hrole hkey =>
          have hno : ¬ (p.inside = true ∧ E.role l = Role.key k) := by
            rintro ⟨hin, heq⟩
            simp [hkey hin k heq] at hren
          rw [occ_cons hrole, if_neg hno]
          exact htail
      | @rewrite k' r hin hrole hr hkeys' =>
          have hne : k' ≠ k := fun heq => hkeys' (heq ▸ hkeys)
          rw [occ_cons (not_header_of_key hrole), hrole]
          simpa [hne] using htail
      | @put k' r hin hrole hr hkeys' hseen =>
          rw [occ_cons (not_header_of_key hrole), hrole, hin]
          rcases Decidable.em (k' = k) with rfl | hne
          · simp only [List.mem_cons_self, if_true] at htail
            simp only [hseen, if_false]
            simpa using htail
          · simpa [hne, Ne.symm hne] using htail
      | drop _ _ _ _ _ => cases hemit

theorem flush_not_header (h : l ∈ E.flush seen) (mine : Bool) : E.role l ≠ Role.header mine := by
  unfold flush at h
  split at h
  · cases h
  · rcases List.mem_cons.mp h with rfl | h
    · simp [E.role_mark]
    · rcases List.mem_filterMap.mp h with ⟨k, _, hr⟩
      simp [E.role_render k l hr]

theorem leave_not_header (h : l ∈ E.leave seen) (mine : Bool) : E.role l ≠ Role.header mine := by
  unfold leave at h
  split at h
  · cases h
  · rcases List.mem_append.mp h with h | h
    · exact flush_not_header h mine
    · simp [List.mem_singleton.mp h, E.role_blank]

theorem occ_append {added : List L} (ls : List L)
    (h : forall l, l ∈ added -> forall mine, E.role l ≠ Role.header mine) :
    E.occ k true (added ++ ls) =
      added.countP (fun l => E.role l = Role.key k) + E.occ k true ls := by
  induction added with
  | nil => simp
  | cons l added ih =>
      have htail := ih (fun l' hl' => h l' (by simp [hl']))
      rw [List.cons_append, occ_cons (h l (by simp)), htail, List.countP_cons]
      simp only [decide_eq_true_eq, true_and]
      lia

theorem countP_missing (k : K) (ks : List K)
    (h : forall k', k' ∈ ks -> (E.render k').isSome = true) :
    (ks.filterMap E.render).countP (fun l => E.role l = Role.key k) = ks.count k := by
  induction ks with
  | nil => rfl
  | cons k' ks ih =>
      have htail := ih (fun k'' hk'' => h k'' (by simp [hk'']))
      rcases Option.isSome_iff_exists.mp (h k' (by simp)) with ⟨r, hr⟩
      rw [List.filterMap_cons_some hr, List.countP_cons, htail, E.role_render k' r hr]
      simp [List.count_cons]

theorem countP_flush (k : K) (seen : List K) :
    (E.flush seen).countP (fun l => E.role l = Role.key k) = (E.missing seen).count k := by
  unfold flush
  split
  · rename_i h
    simp [h]
  · rw [List.countP_cons, countP_missing k _ (fun k' hk' => (mem_missing.mp hk').2.1)]
    simp [E.role_mark]

theorem countP_leave (k : K) (seen : List K) :
    (E.leave seen).countP (fun l => E.role l = Role.key k) = (E.missing seen).count k := by
  unfold leave
  split
  · rename_i h
    simp [h]
  · rw [List.countP_append, countP_flush]
    simp [E.role_blank]

theorem occ_finish (p : Place K) : E.occ k p.inside (E.finish p) =
    if p.inside then (E.missing p.seen).count k else 0 := by
  unfold finish
  split
  · rename_i hin
    have happ := occ_append (k := k) [] (fun l (hl : l ∈ E.flush p.seen) => flush_not_header hl)
    rw [List.append_nil, countP_flush] at happ
    rw [hin, happ]
    rfl
  · rfl

theorem occ_left (hrole : E.role l = Role.header mine) (ls : List L) :
    E.occ k p.inside (((if p.inside then E.leave p.seen else []) ++ [l]) ++ ls) =
      (if p.inside then (E.missing p.seen).count k else 0) + E.occ k mine ls := by
  rw [List.append_assoc, List.singleton_append]
  split
  · rename_i hin
    rw [hin, occ_append _ (fun l hl => leave_not_header hl), countP_leave, occ_header hrole]
  · rw [List.nil_append, occ_header hrole, Nat.zero_add]

omit [DecidableEq K] in
theorem entered_cons :
    E.Entered (l :: ls) <-> E.role l = Role.header true ∨ E.Entered ls := by
  simp [Entered, or_and_right, exists_or]

/-- A key without a line gets one, in a section that is open or still to be opened. -/
theorem one_le_occ_edit (hk : k ∈ E.missing p.seen)
    (h : p.inside = true ∨ E.Entered ls) : 1 ≤ E.occ k p.inside (E.edit p ls) := by
  induction ls generalizing p with
  | nil =>
      rcases h with hin | ⟨l, hl, _⟩
      · rw [edit_nil, occ_finish, if_pos hin]
        exact List.one_le_count_iff.mpr hk
      · cases hl
  | cons l ls ih =>
      rw [entered_cons] at h
      have hstep := E.step p l
      rw [edit_cons]
      generalize E.emit p l = out at hstep ⊢
      generalize E.next p l = q at hstep ⊢
      cases hstep with
      | @header mine hrole =>
          rw [occ_left hrole]
          rcases Decidable.em (p.inside = true) with hin | hin
          · rw [if_pos hin]
            exact Nat.le_add_right_of_le (List.one_le_count_iff.mpr hk)
          · have hopen : mine = true ∨ E.Entered ls := by
              rcases h with h | h | h
              · exact absurd h hin
              · rw [hrole] at h
                cases h
                exact Or.inl rfl
              · exact Or.inr h
            exact Nat.le_add_left_of_le (ih (p := ⟨mine, p.seen⟩) hk hopen)
      | copy hrole _ =>
          have hopen : p.inside = true ∨ E.Entered ls := by
            rcases h with h | h | h
            · exact Or.inl h
            · exact absurd h (hrole true)
            · exact Or.inr h
          rw [List.singleton_append, occ_cons hrole]
          exact Nat.le_add_right_of_le (ih hk hopen)
      | @rewrite k' r hin hrole hr _ =>
          rw [List.singleton_append, occ_cons (not_header_of_key (E.role_render k' r hr))]
          exact Nat.le_add_right_of_le (ih hk (Or.inl hin))
      | @put k' r hin hrole hr _ _ =>
          have hrole' := E.role_render k' r hr
          rw [List.singleton_append, occ_cons (not_header_of_key hrole'), hin, hrole']
          rcases Decidable.em (k' = k) with rfl | hne
          · simp
          · rcases mem_missing.mp hk with ⟨hkeys, hren, hseen⟩
            have hk' : k ∈ E.missing (k' :: p.seen) :=
              mem_missing.mpr ⟨hkeys, hren, by simp [Ne.symm hne, hseen]⟩
            exact Nat.le_add_right_of_le (ih (p := ⟨true, k' :: p.seen⟩) hk' (Or.inl rfl))
      | drop hin _ _ _ _ => exact ih hk (Or.inl hin)

theorem two_le_occ_edit (h : ¬ E.Tidy p ls) :
    exists k, k ∈ E.keys ∧ 2 ≤ E.occ k p.inside (E.edit p ls) := by
  induction ls generalizing p with
  | nil => exact absurd trivial h
  | cons l ls ih =>
      have hlater : (forall mine, E.role l ≠ Role.header mine) -> ¬ E.Tidy (E.next p l) ls := by
        intro hrole htail
        exact h ⟨fun ⟨mine, hmine⟩ => absurd hmine (hrole mine), htail⟩
      rw [Tidy, not_and_or] at h
      have hstep := E.step p l
      rw [edit_cons]
      generalize E.emit p l = out at hstep ⊢
      generalize E.next p l = q at hstep h hlater ⊢
      cases hstep with
      | @header mine hrole =>
          simp only [occ_left hrole]
          rcases h with h | h
          · simp only [Classical.not_imp, not_not] at h
            rcases h with ⟨_, hin, hmiss, hent⟩
            rcases List.exists_mem_of_ne_nil _ hmiss with ⟨k, hk⟩
            have hopen : mine = true ∨ E.Entered ls := by
              rcases entered_cons.mp hent with h | h
              · rw [hrole] at h
                cases h
                exact Or.inl rfl
              · exact Or.inr h
            refine ⟨k, (mem_missing.mp hk).1, ?_⟩
            rw [if_pos hin]
            exact Nat.add_le_add (List.one_le_count_iff.mpr hk)
              (one_le_occ_edit (p := ⟨mine, p.seen⟩) hk hopen)
          · rcases ih h with ⟨k, hkeys, hk⟩
            exact ⟨k, hkeys, Nat.le_add_left_of_le hk⟩
      | copy hrole _ =>
          rcases ih (hlater hrole) with ⟨k, hkeys, hk⟩
          refine ⟨k, hkeys, ?_⟩
          rw [List.singleton_append, occ_cons hrole]
          exact Nat.le_add_right_of_le hk
      | @rewrite k' r hin hrole hr _ =>
          rcases ih (hlater (not_header_of_key hrole)) with ⟨k, hkeys, hk⟩
          refine ⟨k, hkeys, ?_⟩
          rw [List.singleton_append, occ_cons (not_header_of_key (E.role_render k' r hr))]
          exact Nat.le_add_right_of_le hk
      | @put k' r hin hrole hr _ _ =>
          rcases ih (hlater (not_header_of_key hrole)) with ⟨k, hkeys, hk⟩
          refine ⟨k, hkeys, ?_⟩
          rw [List.singleton_append, occ_cons (not_header_of_key (E.role_render k' r hr)), hin]
          exact Nat.le_add_right_of_le hk
      | drop _ hrole _ _ _ => exact ih (hlater (not_header_of_key hrole))

/-- The editor does not change how many lines there are for a key that it never
adds. -/
theorem occ_edit_other (h : ¬ (k ∈ E.keys ∧ (E.render k).isSome = true)) :
    E.occ k p.inside (E.edit p ls) = E.occ k p.inside ls := by
  have hzero : forall seen, (E.missing seen).count k = 0 := by
    intro seen
    refine List.count_eq_zero.mpr ?_
    intro hk
    rcases mem_missing.mp hk with ⟨hkeys, hren, _⟩
    exact h ⟨hkeys, hren⟩
  induction ls generalizing p with
  | nil =>
      rw [edit_nil, occ_finish, hzero]
      simp [occ, owned]
  | cons l ls ih =>
      have hstep := E.step p l
      rw [edit_cons]
      generalize E.emit p l = out at hstep ⊢
      generalize E.next p l = q at hstep ⊢
      cases hstep with
      | @header mine hrole =>
          have htail := ih (p := ⟨mine, p.seen⟩)
          rw [occ_left hrole, hzero, occ_header hrole, htail]
          simp
      | copy hrole _ => rw [List.singleton_append, occ_cons hrole, occ_cons hrole, ih]
      | @rewrite k' r hin hrole hr _ =>
          have hrole' := E.role_render k' r hr
          rw [List.singleton_append, occ_cons (not_header_of_key hrole'),
            occ_cons (not_header_of_key hrole), ih, hrole, hrole']
      | @put k' r hin hrole hr hkeys _ =>
          have hne : k' ≠ k := fun heq => h ⟨heq ▸ hkeys, heq ▸ by simp [hr]⟩
          have hrole' := E.role_render k' r hr
          have htail := ih (p := ⟨true, k' :: p.seen⟩)
          rw [List.singleton_append, occ_cons (not_header_of_key hrole'),
            occ_cons (not_header_of_key hrole), hrole, hrole', hin]
          rw [htail]
      | @drop k' r hin hrole hr hkeys _ =>
          have hne : k' ≠ k := fun heq => h ⟨heq ▸ hkeys, heq ▸ by simp [hr]⟩
          rw [List.nil_append, occ_cons (not_header_of_key hrole), ih, hrole]
          simp [hne]

/-!
## Kept lines
-/

omit [DecidableEq K] in
theorem kept_header (h : E.role l = Role.header mine) :
    E.kept inside (l :: ls) = l :: E.kept mine ls := by
  simp [kept, h]

omit [DecidableEq K] in
theorem kept_copied (hrole : forall mine, E.role l ≠ Role.header mine)
    (hkey : inside = true -> forall k, E.role l = Role.key k -> E.render k = none) :
    E.kept inside (l :: ls) = l :: E.kept inside ls := by
  rw [kept]
  split
  · rename_i mine heq
    exact absurd heq (hrole mine)
  · rfl
  · rename_i k heq
    have hno : ¬ (inside = true ∧ (E.render k).isSome = true) := by
      rintro ⟨hin, hren⟩
      simp [hkey hin k heq] at hren
    rw [if_neg hno]

omit [DecidableEq K] in
theorem kept_rewritten {r : L} (hin : inside = true) (hrole : E.role l = Role.key k)
    (hr : E.render k = some r) : E.kept inside (l :: ls) = E.kept inside ls := by
  simp [kept, hrole, hin, hr]

omit [DecidableEq K] in
theorem mem_kept_header (hrole : E.role l = Role.header mine) (h : l ∈ ls) :
    l ∈ E.kept inside ls := by
  induction ls generalizing inside with
  | nil => cases h
  | cons l' ls ih =>
      rcases List.mem_cons.mp h with rfl | h
      · rw [kept_header hrole]
        simp
      · rw [kept]
        split
        · exact List.mem_cons_of_mem _ (ih h)
        · exact List.mem_cons_of_mem _ (ih h)
        · split
          · exact ih h
          · exact List.mem_cons_of_mem _ (ih h)

theorem kept_sublist_edit : (E.kept p.inside ls).Sublist (E.edit p ls) := by
  induction ls generalizing p with
  | nil => exact List.nil_sublist _
  | cons l ls ih =>
      have hstep := E.step p l
      rw [edit_cons]
      generalize E.emit p l = out at hstep ⊢
      generalize E.next p l = q at hstep ⊢
      cases hstep with
      | @header mine hrole =>
          have htail := ih (p := ⟨mine, p.seen⟩)
          rw [kept_header hrole, List.append_assoc, List.singleton_append]
          exact (List.Sublist.cons_cons l htail).trans (List.sublist_append_right _ _)
      | copy hrole hkey =>
          rw [kept_copied hrole hkey]
          exact List.Sublist.cons_cons l ih
      | rewrite hin hrole hr _ =>
          rw [kept_rewritten hin hrole hr]
          exact List.Sublist.cons _ ih
      | @put k r hin hrole hr _ _ =>
          have htail := ih (p := ⟨true, k :: p.seen⟩)
          rw [kept_rewritten hin hrole hr, hin]
          exact List.Sublist.cons _ htail
      | drop hin hrole hr _ _ =>
          rw [kept_rewritten hin hrole hr]
          exact ih

theorem place_outside (hp : p.inside = false) (h : ¬ E.Entered ls) :
    (E.place p ls).inside = false := by
  induction ls generalizing p with
  | nil => exact hp
  | cons l ls ih =>
      rcases not_entered_cons h with ⟨hl, htail⟩
      exact ih (next_outside hp hl) htail

theorem leave_eq_nil (htidy : E.Tidy p (l :: ls)) (hrole : E.role l = Role.header mine)
    (hin : p.inside = true) (hend : (E.place ⟨mine, p.seen⟩ ls).inside = true) :
    E.leave p.seen = [] := by
  by_contra hne
  have hmiss : E.missing p.seen ≠ [] := by
    intro heq
    exact hne (by rw [leave, if_pos heq])
  rcases not_entered_cons (htidy.1 ⟨mine, hrole⟩ hin hmiss) with ⟨hl, hls⟩
  have hmine : mine = false := by
    cases mine with
    | false => rfl
    | true => exact absurd hrole hl
  rw [place_outside hmine hls] at hend
  cases hend

theorem countP_leave_of {q : L -> Bool} (hq : forall k r, E.render k = some r -> q r = false)
    (hmark : q E.mark = false) (hblank : q E.blank = false) : (E.leave seen).countP q = 0 := by
  rw [List.countP_eq_zero]
  intro l hl
  unfold leave flush at hl
  split at hl
  · cases hl
  · simp only [List.cons_append, List.mem_cons, List.mem_append, List.mem_filterMap,
      List.not_mem_nil, or_false] at hl
    rcases hl with rfl | ⟨k, _, hr⟩ | rfl
    · simp [hmark]
    · simp [hq k l hr]
    · simp [hblank]

/-- The lines a test picks in the edited lines are kept ones, if it picks none the editor
writes.  The marks need no test while the section stays open to the end. -/
theorem countP_body {q : L -> Bool} (hq : forall k r, E.render k = some r -> q r = false)
    (h : E.Tidy p ls ∧ (E.place p ls).inside = true ∨ q E.mark = false ∧ q E.blank = false) :
    (E.body p ls).countP q = (E.kept p.inside ls).countP q := by
  induction ls generalizing p with
  | nil => rfl
  | cons l ls ih =>
      have htail := ih (h.imp_left (fun ht => ⟨ht.1.2, ht.2⟩))
      have hstep := E.step p l
      rw [body, List.countP_append]
      generalize hout : E.emit p l = out at hstep ⊢
      generalize hnext : E.next p l = p' at hstep htail ⊢
      cases hstep with
      | @header mine hrole =>
          have hnone : (if p.inside then E.leave p.seen else []).countP q = 0 := by
            split
            · rename_i hin
              rcases h with ⟨htidy, hend⟩ | ⟨hmark, hblank⟩
              · have hend' : (E.place (E.next p l) ls).inside = true := hend
                rw [hnext] at hend'
                rw [leave_eq_nil htidy hrole hin hend']
                rfl
              · exact countP_leave_of hq hmark hblank
            · rfl
          rw [List.countP_append, hnone, kept_header hrole, List.countP_cons, htail]
          simp [List.countP_cons, Nat.add_comm]
      | copy hrole hkey =>
          rw [kept_copied hrole hkey, List.countP_cons, htail]
          simp [List.countP_cons, Nat.add_comm]
      | @rewrite k r hin hrole hr _ =>
          rw [kept_rewritten hin hrole hr, htail]
          simp [hq k r hr]
      | @put k r hin hrole hr _ _ =>
          rw [kept_rewritten hin hrole hr, htail, hin]
          simp [hq k r hr]
      | drop hin hrole hr _ _ =>
          rw [kept_rewritten hin hrole hr, htail]
          simp

/-!
## Inside or not
-/

omit [DecidableEq K] in
theorem turn_not_header (h : forall mine, E.role l ≠ Role.header mine) : E.turn inside l = inside := by
  unfold turn
  split
  · rename_i mine heq
    exact absurd heq (h mine)
  · rfl

theorem place_inside : (E.place p ls).inside = ls.foldl E.turn p.inside := by
  induction ls generalizing p with
  | nil => rfl
  | cons l ls ih =>
      have htail := ih (p := E.next p l)
      rw [next_inside] at htail
      exact htail

omit [DecidableEq K] in
theorem foldl_turn_not_header (h : forall l, l ∈ ls -> forall mine, E.role l ≠ Role.header mine) :
    ls.foldl E.turn inside = inside := by
  induction ls with
  | nil => rfl
  | cons l ls ih =>
      rw [List.foldl_cons, turn_not_header (h l (by simp))]
      exact ih (fun l' hl' => h l' (by simp [hl']))

theorem foldl_turn_emit : (E.emit p l).foldl E.turn p.inside = E.turn p.inside l := by
  have hstep := E.step p l
  have hsame : E.turn p.inside l = (E.next p l).inside := next_inside.symm
  rw [hsame]
  generalize E.emit p l = out at hstep ⊢
  generalize E.next p l = q at hstep ⊢
  cases hstep with
  | @header mine hrole =>
      rw [List.foldl_append]
      simp [turn, hrole]
  | copy hrole _ => exact turn_not_header hrole
  | @rewrite k r _ _ hr _ =>
      exact turn_not_header (not_header_of_key (E.role_render k r hr))
  | @put k r hin _ hr _ _ =>
      rw [hin]
      exact turn_not_header (not_header_of_key (E.role_render k r hr))
  | drop _ _ _ _ _ => rfl

theorem foldl_turn_body : (E.body p ls).foldl E.turn p.inside = ls.foldl E.turn p.inside := by
  induction ls generalizing p with
  | nil => rfl
  | cons l ls ih =>
      have htail := ih (p := E.next p l)
      rw [body, List.foldl_append, foldl_turn_emit, List.foldl_cons, ← next_inside]
      exact htail

theorem emit_of_kept (h : E.kept p.inside [l] = [l]) :
    exists added, E.emit p l = added ++ [l] ∧
      forall l', l' ∈ added -> forall mine, E.role l' ≠ Role.header mine := by
  have hstep := E.step p l
  generalize E.emit p l = out at hstep ⊢
  generalize E.next p l = q at hstep ⊢
  cases hstep with
  | header hrole =>
      refine ⟨_, rfl, ?_⟩
      split
      · exact fun l' hl' => leave_not_header hl'
      · simp
  | copy _ _ => exact ⟨[], rfl, by simp⟩
  | rewrite hin hrole hr _ =>
      rw [kept_rewritten hin hrole hr] at h
      cases h
  | put hin hrole hr _ _ =>
      rw [kept_rewritten hin hrole hr] at h
      cases h
  | drop hin hrole hr _ _ =>
      rw [kept_rewritten hin hrole hr] at h
      cases h

/-!
## A section that is not there
-/

theorem tidy_of_not_entered (h : ¬ E.Entered ls) : E.Tidy p ls := by
  induction ls generalizing p with
  | nil => trivial
  | cons l ls ih => exact ⟨fun _ _ _ => h, ih (not_entered_cons h).2⟩

omit [DecidableEq K] in
theorem kept_of_not_entered (h : ¬ E.Entered ls) : E.kept false ls = ls := by
  induction ls with
  | nil => rfl
  | cons l ls ih =>
      rcases not_entered_cons h with ⟨hl, htail⟩
      cases hrole : E.role l with
      | header mine =>
          have hmine : mine = false := by
            cases mine with
            | false => rfl
            | true => exact absurd hrole hl
          rw [kept_header hrole, hmine, ih htail]
      | plain => rw [kept_copied (by simp [hrole]) (by simp), ih htail]
      | key k => rw [kept_copied (by simp [hrole]) (by simp), ih htail]

theorem occ_append_of_not_entered (h : ¬ E.Entered ls) (ls' : List L) :
    E.occ k false (ls ++ ls') = E.occ k false ls' := by
  induction ls with
  | nil => rfl
  | cons l ls ih =>
      rcases not_entered_cons h with ⟨hl, htail⟩
      rw [List.cons_append]
      cases hrole : E.role l with
      | header mine =>
          have hmine : mine = false := by
            cases mine with
            | false => rfl
            | true => exact absurd hrole hl
          rw [occ_header hrole, hmine, ih htail]
      | plain =>
          rw [occ_cons (by simp [hrole]), ih htail]
          simp
      | key k' =>
          rw [occ_cons (by simp [hrole]), ih htail]
          simp

theorem occ_plain (before : List L) (h : E.role l = Role.plain) :
    E.occ k inside (before ++ l :: ls) = E.occ k inside (before ++ ls) := by
  induction before generalizing inside with
  | nil =>
      rw [List.nil_append, occ_cons (by simp [h])]
      simp [h]
  | cons l' before ih =>
      rw [List.cons_append, List.cons_append]
      cases hrole : E.role l' with
      | header mine => rw [occ_header hrole, occ_header hrole, ih]
      | plain => rw [occ_cons (by simp [hrole]), occ_cons (by simp [hrole]), ih]
      | key k' => rw [occ_cons (by simp [hrole]), occ_cons (by simp [hrole]), ih]

end Editor

end Foundation
end PistormAtari
