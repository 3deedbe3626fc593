import Mathlib

/-!
# Trees of paths

A tree is a finite set of paths, each with a node, in which every path but the
empty one hangs below a branch node.  Entries are inserted below a branch,
erased when nothing hangs below them, pruned with all that hangs below them, and
moved with all that hangs below them.
-/

namespace PistormAtari
namespace Foundation

variable {α ν : Type} [DecidableEq α] {branch : ν -> Bool}

structure PathTree (α : Type) {ν : Type} (branch : ν -> Bool) where
  entries : List (List α × ν)
  nodup : (entries.map Prod.fst).Nodup
  closed : forall d n v, (d ++ [n], v) ∈ entries ->
    exists w, (d, w) ∈ entries ∧ branch w = true

/-!
## Relocated paths
-/

def relocate (old new p : List α) : List α :=
  if old <+: p then new ++ p.drop old.length else p

theorem relocate_append (old new q : List α) : relocate old new (old ++ q) = new ++ q := by
  unfold relocate
  rw [if_pos (List.prefix_append old q), List.drop_left]

theorem relocate_outside {old p : List α} (new : List α) (h : ¬ old <+: p) :
    relocate old new p = p :=
  if_neg h

/-!
## Paths that links hold
-/

inductive PathHop (α : Type) where
  | here
  | up
  | down (n : α)
  deriving DecidableEq, Repr

structure LinkPath (α : Type) where
  absolute : Bool
  hops : List (PathHop α)
  deriving DecidableEq, Repr

/-- Why a walk ends early: a name is missing, a node on the way is no branch, or there
are too many links. -/
inductive WalkLost where
  | missing
  | leaf
  | loop
  deriving DecidableEq, Repr

namespace PathTree

/-!
## Lookup
-/

def get (t : PathTree α branch) (p : List α) : Option ν :=
  t.entries.lookup p

theorem lookup_eq_some_iff_mem {entries : List (List α × ν)}
    (hnodup : (entries.map Prod.fst).Nodup) {p : List α} {v : ν} :
    entries.lookup p = some v <-> (p, v) ∈ entries := by
  induction entries with
  | nil => simp
  | cons e rest ih =>
      rcases e with ⟨q, w⟩
      rw [List.map_cons, List.nodup_cons] at hnodup
      rw [List.lookup_cons, List.mem_cons]
      split
      · rename_i heq
        have hpq : p = q := by simpa using heq
        subst hpq
        constructor
        · intro h
          injection h with h
          exact Or.inl (by rw [h])
        · rintro (h | h)
          · rw [(Prod.mk.inj h).2]
          · exact absurd (List.mem_map.mpr ⟨(p, v), h, rfl⟩) hnodup.1
      · rename_i heq
        have hpq : p ≠ q := by simpa using heq
        rw [ih hnodup.2]
        constructor
        · exact Or.inr
        · rintro (h | h)
          · exact absurd (Prod.mk.inj h).1 hpq
          · exact h

variable {t : PathTree α branch}

variable {p : List α}

theorem get_eq_some_iff {v : ν} :
    t.get p = some v <-> (p, v) ∈ t.entries :=
  lookup_eq_some_iff_mem t.nodup

theorem get_eq_none_iff :
    t.get p = none <-> forall v, (p, v) ∉ t.entries := by
  rw [Option.eq_none_iff_forall_ne_some]
  constructor
  · intro h v hv
    exact h v (get_eq_some_iff.mpr hv)
  · intro h v hv
    exact h v (get_eq_some_iff.mp hv)

theorem exists_parent {d : List α} {n : α} {v : ν}
    (h : t.get (d ++ [n]) = some v) : exists w, t.get d = some w ∧ branch w = true := by
  rcases t.closed d n v (get_eq_some_iff.mp h) with ⟨w, hw, hbranch⟩
  exact ⟨w, get_eq_some_iff.mpr hw, hbranch⟩

theorem exists_above (rest : List α) {v : ν}
    (h : t.get (p ++ rest) = some v) : exists w, t.get p = some w := by
  induction rest using List.reverseRecOn generalizing v with
  | nil => exact ⟨v, by simpa using h⟩
  | append_singleton rest n ih =>
      rw [← List.append_assoc] at h
      rcases exists_parent h with ⟨w, hw, _⟩
      exact ih hw

theorem get_eq_none_below {p q : List α} (hp : t.get p = none)
    (hpre : p <+: q) : t.get q = none := by
  rcases hpre with ⟨rest, rfl⟩
  rw [Option.eq_none_iff_forall_ne_some]
  intro v hv
  rcases exists_above rest hv with ⟨w, hw⟩
  rw [hp] at hw
  cases hw

/-!
## Children
-/

/-- The last component of a path that lies directly in `d`. -/
def leafIn (d p : List α) : Option α :=
  match p.getLast? with
  | some n => if p = d ++ [n] then some n else none
  | none => none

theorem leafIn_eq_some_iff {d p : List α} {n : α} :
    leafIn d p = some n <-> p = d ++ [n] := by
  unfold leafIn
  constructor
  · intro h
    split at h
    · split at h
      · rename_i heq
        injection h with h
        rw [← h]
        exact heq
      · cases h
    · cases h
  · rintro rfl
    simp

def children (t : PathTree α branch) (d : List α) : List α :=
  (t.entries.map Prod.fst).filterMap (leafIn d)

theorem mem_children {d : List α} {n : α} :
    n ∈ t.children d <-> exists v, t.get (d ++ [n]) = some v := by
  unfold children
  rw [List.mem_filterMap]
  constructor
  · rintro ⟨p, hp, hleaf⟩
    rcases List.mem_map.mp hp with ⟨⟨q, v⟩, hmem, rfl⟩
    rw [leafIn_eq_some_iff] at hleaf
    subst hleaf
    exact ⟨v, get_eq_some_iff.mpr hmem⟩
  · rintro ⟨v, hv⟩
    have hmem := get_eq_some_iff.mp hv
    exact ⟨d ++ [n], List.mem_map.mpr ⟨_, hmem, rfl⟩, leafIn_eq_some_iff.mpr rfl⟩

theorem nodup_children (t : PathTree α branch) (d : List α) : (t.children d).Nodup := by
  apply List.Nodup.filterMap _ t.nodup
  intro p q n hp hq
  rw [leafIn_eq_some_iff.mp hp, leafIn_eq_some_iff.mp hq]

theorem children_eq_nil {v : ν}
    (hget : t.get p = some v) (hleaf : branch v = false) : t.children p = [] := by
  apply List.eq_nil_iff_forall_not_mem.mpr
  intro n hn
  rcases mem_children.mp hn with ⟨w, hw⟩
  rcases exists_parent hw with ⟨u, hu, hbranch⟩
  rw [hget] at hu
  injection hu with hu
  rw [← hu, hleaf] at hbranch
  cases hbranch

/-!
## Insertion and removal
-/

/-- A new entry goes below a branch, under a name that is free there. -/
structure Insertable (t : PathTree α branch) (d : List α) (n : α) : Prop where
  parent : exists w, t.get d = some w ∧ branch w = true
  free : t.get (d ++ [n]) = none

theorem insertable_iff {d : List α} {n : α} :
    ((t.get d).any branch = true ∧ (t.get (d ++ [n])).isNone = true) <->
      t.Insertable d n := by
  rw [Option.any_eq_true, Option.isNone_iff_eq_none]
  constructor
  · rintro ⟨hparent, hfree⟩
    exact ⟨hparent, hfree⟩
  · intro h
    exact ⟨h.parent, h.free⟩

instance (t : PathTree α branch) (d : List α) (n : α) : Decidable (t.Insertable d n) :=
  decidable_of_iff _ insertable_iff

def insert (t : PathTree α branch) (d : List α) (n : α) (v : ν)
    (h : t.Insertable d n) : PathTree α branch where
  entries := t.entries ++ [(d ++ [n], v)]
  nodup := by
    rw [List.map_append, List.nodup_append]
    refine ⟨t.nodup, by simp, ?_⟩
    intro p hp q hq
    rcases List.mem_map.mp hp with ⟨⟨p', w⟩, hmem, rfl⟩
    have hq : q = d ++ [n] := by simpa using hq
    subst hq
    intro heq
    dsimp only at heq
    subst heq
    exact get_eq_none_iff.mp h.free w hmem
  closed := by
    intro d' n' v' hmem
    rcases List.mem_append.mp hmem with hmem | hmem
    · rcases t.closed d' n' v' hmem with ⟨w, hw, hbranch⟩
      exact ⟨w, List.mem_append_left _ hw, hbranch⟩
    · have heq : d' ++ [n'] = d ++ [n] := (Prod.mk.inj (List.mem_singleton.mp hmem)).1
      rcases List.append_inj' heq rfl with ⟨rfl, _⟩
      rcases h.parent with ⟨w, hw, hbranch⟩
      exact ⟨w, List.mem_append_left _ (get_eq_some_iff.mp hw), hbranch⟩

theorem get_insert (t : PathTree α branch) {d : List α} {n : α} (v : ν)
    (h : t.Insertable d n) (q : List α) :
    (t.insert d n v h).get q = if q = d ++ [n] then some v else t.get q := by
  apply Option.ext
  intro w
  rw [get_eq_some_iff]
  show (q, w) ∈ t.entries ++ [(d ++ [n], v)] <-> _
  rw [List.mem_append, List.mem_singleton]
  split
  · rename_i hq
    subst hq
    have hfree := get_eq_none_iff.mp h.free w
    simp [hfree, eq_comm]
  · rename_i hq
    rw [get_eq_some_iff]
    simp [hq]

def prune (t : PathTree α branch) (p : List α) : PathTree α branch where
  entries := t.entries.filter (fun e => ¬ p <+: e.1)
  nodup := (List.filter_sublist.map Prod.fst).nodup t.nodup
  closed := by
    intro d n v hmem
    rw [List.mem_filter, decide_eq_true_eq] at hmem
    rcases t.closed d n v hmem.1 with ⟨w, hw, hbranch⟩
    have hnot : ¬ p <+: d := fun hpre => hmem.2 (hpre.trans (List.prefix_append d [n]))
    exact ⟨w, List.mem_filter.mpr ⟨hw, by simpa using hnot⟩, hbranch⟩

theorem get_prune (t : PathTree α branch) (p q : List α) :
    (t.prune p).get q = if p <+: q then none else t.get q := by
  apply Option.ext
  intro w
  rw [get_eq_some_iff]
  show (q, w) ∈ t.entries.filter _ <-> _
  rw [List.mem_filter, decide_eq_true_eq]
  split
  · rename_i hpre
    simp [hpre]
  · rename_i hpre
    rw [get_eq_some_iff]
    simp [hpre]

theorem eq_of_children_nil {p q : List α} {v : ν}
    (hnil : t.children p = []) (hget : t.get q = some v) (hpre : p <+: q) : q = p := by
  rcases hpre with ⟨rest, rfl⟩
  cases rest with
  | nil => simp
  | cons n rest =>
      rw [List.append_cons] at hget
      rcases exists_above rest hget with ⟨w, hw⟩
      have hmem := mem_children.mpr ⟨w, hw⟩
      rw [hnil] at hmem
      cases hmem

theorem get_prune_of_children_nil (hnil : t.children p = []) (q : List α) :
    (t.prune p).get q = if q = p then none else t.get q := by
  rw [get_prune]
  split
  · rename_i hpre
    split
    · rfl
    · rename_i hne
      symm
      rw [Option.eq_none_iff_forall_ne_some]
      intro v hv
      exact hne (eq_of_children_nil hnil hv hpre)
  · rename_i hpre
    rw [if_neg]
    rintro rfl
    exact hpre (List.prefix_refl q)

/-!
## Moves
-/

structure Movable (t : PathTree α branch) (old d : List α) (n : α) : Prop where
  insertable : t.Insertable d n
  outside : ¬ old <+: d ++ [n]

variable {old d : List α}

theorem movable_iff {n : α} :
    (t.Insertable d n ∧ ¬ old <+: d ++ [n]) <-> t.Movable old d n := by
  constructor
  · rintro ⟨hinsert, hout⟩
    exact ⟨hinsert, hout⟩
  · intro h
    exact ⟨h.insertable, h.outside⟩

instance (t : PathTree α branch) (old d : List α) (n : α) : Decidable (t.Movable old d n) :=
  decidable_of_iff _ movable_iff

theorem relocate_inj_on {n : α}
    (h : t.Movable old d n) {p q : List α} {v w : ν} (hp : t.get p = some v)
    (hq : t.get q = some w) (heq : relocate old (d ++ [n]) p = relocate old (d ++ [n]) q) :
    p = q := by
  have hfree : forall {r : List α} {u : ν}, t.get r = some u -> ¬ d ++ [n] <+: r := by
    intro r u hr hpre
    rw [get_eq_none_below h.insertable.free hpre] at hr
    cases hr
  rcases Decidable.em (old <+: p) with hop | hop
  · rcases Decidable.em (old <+: q) with hoq | hoq
    · rcases hop with ⟨p', rfl⟩
      rcases hoq with ⟨q', rfl⟩
      rw [relocate_append, relocate_append] at heq
      rw [List.append_cancel_left heq]
    · rcases hop with ⟨p', rfl⟩
      rw [relocate_append, relocate_outside _ hoq] at heq
      exact absurd ⟨p', heq⟩ (hfree hq)
  · rcases Decidable.em (old <+: q) with hoq | hoq
    · rcases hoq with ⟨q', rfl⟩
      rw [relocate_append, relocate_outside _ hop] at heq
      exact absurd ⟨q', heq.symm⟩ (hfree hp)
    · rwa [relocate_outside _ hop, relocate_outside _ hoq] at heq

def move (t : PathTree α branch) (old d : List α) (n : α) (h : t.Movable old d n) :
    PathTree α branch where
  entries := t.entries.map (fun e => (relocate old (d ++ [n]) e.1, e.2))
  nodup := by
    rw [List.map_map]
    have hmap : t.entries.map (Prod.fst ∘ fun e => (relocate old (d ++ [n]) e.1, e.2)) =
        (t.entries.map Prod.fst).map (relocate old (d ++ [n])) := by
      rw [List.map_map]
      rfl
    rw [hmap]
    apply List.Nodup.map_on _ t.nodup
    intro p hp q hq heq
    rcases List.mem_map.mp hp with ⟨⟨p', v⟩, hp', rfl⟩
    rcases List.mem_map.mp hq with ⟨⟨q', w⟩, hq', rfl⟩
    exact relocate_inj_on h (get_eq_some_iff.mpr hp') (get_eq_some_iff.mpr hq') heq
  closed := by
    intro d' n' v hmem
    rcases List.mem_map.mp hmem with ⟨⟨p, w⟩, hp, heq⟩
    rcases Prod.mk.inj heq with ⟨hpath, _⟩
    dsimp only at hpath
    have hkept : ¬ old <+: d := fun hpre =>
      h.outside (hpre.trans (List.prefix_append d [n]))
    rcases Decidable.em (old <+: p) with hpre | hpre
    · rcases hpre with ⟨rest, rfl⟩
      rw [relocate_append] at hpath
      cases rest using List.reverseRecOn with
      | nil =>
          rw [List.append_nil] at hpath
          rcases List.append_inj' hpath rfl with ⟨rfl, _⟩
          rcases h.insertable.parent with ⟨u, hu, hbranch⟩
          refine ⟨u, List.mem_map.mpr ⟨(d, u), get_eq_some_iff.mp hu, ?_⟩, hbranch⟩
          dsimp only
          rw [relocate_outside _ hkept]
      | append_singleton rest m =>
          rw [← List.append_assoc] at hpath hp
          rcases List.append_inj' hpath rfl with ⟨rfl, _⟩
          rcases t.closed _ m w hp with ⟨u, hu, hbranch⟩
          refine ⟨u, List.mem_map.mpr ⟨(old ++ rest, u), hu, ?_⟩, hbranch⟩
          dsimp only
          rw [relocate_append]
    · rw [relocate_outside _ hpre] at hpath
      subst hpath
      rcases t.closed d' n' w hp with ⟨u, hu, hbranch⟩
      have hnot : ¬ old <+: d' := fun hd => hpre (hd.trans (List.prefix_append d' [n']))
      refine ⟨u, List.mem_map.mpr ⟨(d', u), hu, ?_⟩, hbranch⟩
      dsimp only
      rw [relocate_outside _ hnot]

theorem get_move_eq_some_iff {n : α} {h : t.Movable old d n} {q : List α} {v : ν} :
    (t.move old d n h).get q = some v <->
      exists p, t.get p = some v ∧ relocate old (d ++ [n]) p = q := by
  rw [get_eq_some_iff]
  show (q, v) ∈ t.entries.map _ <-> _
  rw [List.mem_map]
  constructor
  · rintro ⟨⟨p, w⟩, hp, heq⟩
    rcases Prod.mk.inj heq with ⟨hpath, rfl⟩
    exact ⟨p, get_eq_some_iff.mpr hp, hpath⟩
  · rintro ⟨p, hp, rfl⟩
    exact ⟨(p, v), get_eq_some_iff.mp hp, rfl⟩

theorem get_move_outside {n : α} (h : t.Movable old d n) {q : List α} (hq : ¬ d ++ [n] <+: q) :
    (t.move old d n h).get q = (t.prune old).get q := by
  apply Option.ext
  intro v
  rw [get_move_eq_some_iff, get_prune]
  constructor
  · rintro ⟨p, hp, heq⟩
    rcases Decidable.em (old <+: p) with hpre | hpre
    · rcases hpre with ⟨rest, rfl⟩
      rw [relocate_append] at heq
      exact absurd ⟨rest, heq⟩ hq
    · rw [relocate_outside _ hpre] at heq
      subst heq
      rw [if_neg hpre]
      exact hp
  · intro hv
    split at hv
    · cases hv
    · rename_i hpre
      exact ⟨q, hv, relocate_outside _ hpre⟩

/-!
## Links

A node may be a link: a walk that meets it goes on along the path it holds, from
the branch the link is in or from the top.
-/

variable (t) (link : ν -> Option (LinkPath α))

/-- A walk that takes the links it meets to `follow`; `left` more may be followed. -/
def walkHops (follow : List α -> List (PathHop α) -> Except WalkLost (Nat × List α)) (left : Nat) :
    List α -> List (PathHop α) -> Except WalkLost (Nat × List α)
  | p, [] => .ok (left, p)
  | p, hop :: rest =>
      match t.get p with
      | none => .error .missing
      | some w =>
          if branch w = false then .error .leaf
          else
            match hop with
            | .here => walkHops follow left p rest
            | .up => walkHops follow left p.dropLast rest
            | .down n =>
                match (t.get (p ++ [n])).bind link with
                | none => walkHops follow left (p ++ [n]) rest
                | some held => follow (if held.absolute then [] else p) (held.hops ++ rest)

/-- The walk from `p` on which so many links may be followed: how many of them are
left, and the path it ends at, where the last name may be free. -/
def walk : Nat -> List α -> List (PathHop α) -> Except WalkLost (Nat × List α)
  | 0 => t.walkHops link (fun _ _ => .error .loop) 0
  | left + 1 => t.walkHops link (walk left) (left + 1)

theorem walkHops_append {follow : List α -> List (PathHop α) -> Except WalkLost (Nat × List α)}
    {left : Nat} {rest : List (PathHop α)}
    {after : Nat × List α -> Except WalkLost (Nat × List α)}
    (hfollow : forall p hops, follow p (hops ++ rest) = follow p hops >>= after)
    (hleft : forall p, t.walkHops link follow left p rest = after (left, p))
    (hops : List (PathHop α)) (p : List α) :
    t.walkHops link follow left p (hops ++ rest) =
      t.walkHops link follow left p hops >>= after := by
  induction hops generalizing p with
  | nil => exact hleft p
  | cons hop hops ih =>
      rw [List.cons_append]
      unfold walkHops
      cases t.get p with
      | none => rfl
      | some w =>
          dsimp only
          split
          · rfl
          · cases hop with
            | here => exact ih p
            | up => exact ih p.dropLast
            | down n =>
                dsimp only
                cases (t.get (p ++ [n])).bind link with
                | none => exact ih (p ++ [n])
                | some held =>
                    dsimp only
                    rw [← List.append_assoc]
                    exact hfollow _ _

theorem walk_append (left : Nat) (p : List α) (hops rest : List (PathHop α)) :
    t.walk link left p (hops ++ rest) =
      t.walk link left p hops >>= fun r => t.walk link r.1 r.2 rest := by
  induction left generalizing p hops with
  | zero => exact walkHops_append t link (fun _ _ => rfl) (fun _ => rfl) hops p
  | succ left ih => exact walkHops_append t link ih (fun _ => rfl) hops p

variable {t link} {left : Nat} {d : List α} {n : α}

theorem walk_nil (p : List α) : t.walk link left p [] = .ok (left, p) := by
  cases left with
  | zero => rfl
  | succ left => rfl

theorem walk_down (left : Nat) (d : List α) (n : α) :
    exists follow : List α -> List (PathHop α) -> Except WalkLost (Nat × List α),
      t.walk link left d [.down n] =
      match t.get d with
      | none => .error .missing
      | some w =>
          if branch w = false then .error .leaf
          else
            match (t.get (d ++ [n])).bind link with
            | none => .ok (left, d ++ [n])
            | some held => follow (if held.absolute then [] else d) (held.hops ++ []) := by
  cases left with
  | zero => exact ⟨fun _ _ => .error .loop, rfl⟩
  | succ left => exact ⟨t.walk link left, rfl⟩

/-- A walk to a name comes through the branch that the name is in, and ends there unless
the name is that of a link. -/
theorem exists_branch_of_walk {hops : List (PathHop α)} {r : Nat × List α}
    (h : t.walk link left p (hops ++ [.down n]) = .ok r) :
    exists left' d w, t.walk link left p hops = .ok (left', d) ∧ t.get d = some w ∧
      branch w = true ∧
      ((t.get (d ++ [n])).bind link = none -> r = (left', d ++ [n])) := by
  rw [walk_append] at h
  cases hhead : t.walk link left p hops with
  | error e =>
      rw [hhead] at h
      cases h
  | ok reached =>
      rcases reached with ⟨left', d⟩
      rw [hhead] at h
      have h : t.walk link left' d [.down n] = .ok r := h
      rcases walk_down left' d n with ⟨follow, heq⟩
      rw [heq] at h
      split at h
      · cases h
      · rename_i w hw
        split at h
        · cases h
        · rename_i hbranch
          refine ⟨left', d, w, rfl, hw, by simpa using hbranch, ?_⟩
          intro hplain
          rw [hplain] at h
          injection h with h
          exact h.symm

/-- On a path without links a walk ends where the path leads. -/
theorem eq_of_walk_plain (hplain : forall q v, q <+: p -> t.get q = some v -> link v = none)
    {r : Nat × List α} (h : t.walk link left [] (p.map .down) = .ok r) : r = (left, p) := by
  induction p using List.reverseRecOn generalizing r with
  | nil =>
      rw [List.map_nil, walk_nil] at h
      injection h with h
      exact h.symm
  | append_singleton d n ih =>
      rw [List.map_append, List.map_singleton] at h
      rcases exists_branch_of_walk h with ⟨left', d', w, hhead, _, _, hlast⟩
      have hd := ih (fun q v hq => hplain q v (hq.trans (List.prefix_append d [n]))) hhead
      rcases Prod.mk.inj hd with ⟨rfl, rfl⟩
      apply hlast
      cases hget : t.get (d' ++ [n]) with
      | none => rfl
      | some v => exact hplain _ v (List.prefix_refl _) hget

end PathTree
end Foundation
end PistormAtari
