import PistormAtari.Hostdos.HostFs

/-!
# What the kernel's calls change

A call that succeeds rewrites inodes, adds an entry, takes one away or moves one.
Each change is said once here, by what can be looked up afterwards.
-/

namespace PistormAtari
namespace Hostdos

open Foundation

/-!
## Inodes
-/

/-- Only contents of the inodes marked `written` may have changed. -/
structure Rewrites (fs fs' : HostFs) (written : Nat -> Prop) : Prop where
  tree : fs'.tree = fs.tree
  data : forall j, ¬ written j -> (fs'.inode j).data = (fs.inode j).data

theorem Rewrites.refl (fs : HostFs) (written : Nat -> Prop) : Rewrites fs fs written :=
  ⟨rfl, fun _ _ => rfl⟩

theorem Rewrites.trans {fs fs' fs'' : HostFs} {written : Nat -> Prop}
    (h : Rewrites fs fs' written) (h' : Rewrites fs' fs'' written) :
    Rewrites fs fs'' written :=
  ⟨h'.tree.trans h.tree, fun j hj => (h'.data j hj).trans (h.data j hj)⟩

theorem modify_rewrites (fs : HostFs) (i : Nat) (f : Inode -> Inode) :
    Rewrites fs (fs.modify i f) (fun j => j = i) := by
  refine ⟨rfl, ?_⟩
  intro j hj
  unfold HostFs.modify
  simp only [Function.update_of_ne hj]

theorem modify_rewrites_none (fs : HostFs) (i : Nat) {f : Inode -> Inode}
    (hf : forall x, (f x).data = x.data) :
    Rewrites fs (fs.modify i f) (fun _ => False) := by
  refine ⟨rfl, ?_⟩
  intro j _
  unfold HostFs.modify
  rcases Decidable.em (j = i) with rfl | hj
  · simp only [Function.update_self, hf]
  · simp only [Function.update_of_ne hj]

theorem touch_rewrites (fs : HostFs) (p : Path) (now : Int) :
    Rewrites fs (fs.touch p now) (fun _ => False) := by
  unfold HostFs.touch
  split
  · exact modify_rewrites_none fs _ (fun _ => rfl)
  · exact Rewrites.refl fs _

theorem fchmod_rewrites (fs : HostFs) (env : Env) (v : Node) (mode : BitVec 12) :
    Rewrites fs (fs.fchmod env v mode) (fun _ => False) := by
  unfold HostFs.fchmod
  split
  · exact Rewrites.refl fs _
  · exact modify_rewrites_none fs _ (fun _ => rfl)

variable {fs fs' : HostFs} {env : Env}

theorem chmodAt_rewrites {p : Path} {mode : BitVec 12}
    (h : fs.chmodAt env p mode = .ok fs') : Rewrites fs fs' (fun _ => False) := by
  unfold HostFs.chmodAt at h
  split at h
  · cases h
  · split at h
    · cases h
    · injection h with h
      rw [← h]
      exact modify_rewrites_none fs _ (fun _ => rfl)

/-!
## Entries taken away
-/

theorem unlinkAt_spec {p : Path} (h : fs.unlinkAt env p = .ok fs') :
    fs.tree.children p = [] ∧ Rewrites (fs.prune p) fs' (fun _ => False) := by
  unfold HostFs.unlinkAt at h
  split at h
  · cases h
  · split at h
    · cases h
    · rename_i v hget
      split at h
      · cases h
      · rename_i hdir
        injection h with h
        rw [← h]
        exact ⟨PathTree.children_eq_nil hget (by simpa using hdir), touch_rewrites _ _ _⟩

theorem rmdirAt_spec {p : Path} (h : fs.rmdirAt env p = .ok fs') :
    fs.tree.children p = [] ∧ Rewrites (fs.prune p) fs' (fun _ => False) := by
  unfold HostFs.rmdirAt at h
  split at h
  · cases h
  · split at h
    · cases h
    · split at h
      · cases h
      · split at h
        · cases h
        · split at h
          · cases h
          · rename_i hnil
            injection h with h
            rw [← h]
            exact ⟨by simpa using hnil, touch_rewrites _ _ _⟩

/-!
## Entries added
-/

/-- `fs'` has the entry `p` with node `v` in addition, and nothing else. -/
structure Added (fs fs' : HostFs) (p : Path) (v : Node) : Prop where
  absent : fs.tree.get p = none
  get : forall q, fs'.tree.get q = if q = p then some v else fs.tree.get q
  data : forall j, j < fs.nextIno -> (fs'.inode j).data = (fs.inode j).data

theorem create_spec {p : Path} {kind : Kind} {mode : BitVec 12}
    {v : Node} (h : fs.create env p kind mode = .ok (fs', v)) :
    v.kind = kind ∧ Added fs fs' p v := by
  unfold HostFs.create at h
  split at h
  · cases h
  · rename_i n hlast
    split at h
    · rename_i hins
      injection h with h
      rcases Prod.mk.inj h with ⟨rfl, rfl⟩
      have hp : p.dropLast ++ [n] = p := List.dropLast_append_getLast? n hlast
      have htouch := touch_rewrites
        (fs.addNode p.dropLast n kind (mode &&& ~~~ env.umask) env.now hins) p.dropLast env.now
      refine ⟨rfl, ?_, ?_, ?_⟩
      · have hfree := hins.free
        rwa [hp] at hfree
      · intro q
        rw [htouch.tree]
        show (fs.tree.insert p.dropLast n _ hins).get q = _
        rw [PathTree.get_insert, hp]
      · intro j hj
        rw [htouch.data j (fun h => h)]
        show (Function.update fs.inode fs.nextIno _ j).data = _
        rw [Function.update_of_ne (by lia)]
    · cases h

theorem openAt_spec {p : Path} {v : Node} (h : fs.openAt env p = .ok (fs', v)) :
    (fs.tree.get p = some v ∧ v.kind = Kind.reg ∧ Rewrites fs fs' (fun j => j = v.ino)) ∨
      (fs.tree.get p = some v ∧ v.kind = Kind.special ∧ fs' = fs) ∨
      (v.kind = Kind.reg ∧ Added fs fs' p v) := by
  unfold HostFs.openAt at h
  split at h
  · cases h
  · split at h
    · exact Or.inr (Or.inr (create_spec h))
    · rename_i w hget
      split at h
      · cases h
      · cases h
      · rename_i hkind
        injection h with h
        rcases Prod.mk.inj h with ⟨rfl, rfl⟩
        exact Or.inr (Or.inl ⟨hget, hkind, rfl⟩)
      · rename_i hkind
        injection h with h
        rcases Prod.mk.inj h with ⟨rfl, rfl⟩
        exact Or.inl ⟨hget, hkind, modify_rewrites fs _ _⟩

theorem mkdirAt_spec {p : Path} (h : fs.mkdirAt env p = .ok fs') :
    exists v, v.kind = Kind.dir ∧ Added fs fs' p v := by
  unfold HostFs.mkdirAt at h
  split at h
  · cases h
  · split at h
    · cases h
    · cases hcreate : fs.create env p Kind.dir 0o755 with
      | error e =>
          rw [hcreate] at h
          cases h
      | ok r =>
          rcases r with ⟨fs'', v⟩
          rw [hcreate] at h
          injection h with h
          subst h
          exact ⟨v, create_spec hcreate⟩

/-!
## Entries moved
-/

/-- `fs'` is `fs` with the entry `old`, and what is below it, at `new`. -/
structure Moved (fs fs' : HostFs) (old new : Path) : Prop where
  tree : exists d n, exists h : fs.tree.Movable old d n,
    new = d ++ [n] ∧ fs'.tree = fs.tree.move old d n h
  data : forall j, (fs'.inode j).data = (fs.inode j).data

theorem Moved.get {old new : Path} (h : Moved fs fs' old new) {p : Path}
    {v : Node} (hget : fs.tree.get p = some v) :
    fs'.tree.get (relocate old new p) = some v := by
  rcases h.tree with ⟨d, n, hmov, rfl, htree⟩
  rw [htree, PathTree.get_move_eq_some_iff]
  exact ⟨p, hget, rfl⟩

theorem renameTo_spec {old d : Path} {n : Name}
    (h : fs.renameTo env old d n = .ok fs') : Moved fs fs' old (d ++ [n]) := by
  unfold HostFs.renameTo at h
  split at h
  · rename_i hmov
    injection h with h
    subst h
    have hold := touch_rewrites (fs.move old d n hmov) old.dropLast env.now
    have hboth := hold.trans (touch_rewrites _ d env.now)
    exact ⟨⟨d, n, hmov, rfl, hboth.tree⟩, fun j => hboth.data j (fun h => h)⟩
  · cases h

/-- The entry `w` that a rename of `old` to `new` would replace. -/
structure Replaceable (t : Tree) (old : Path) (v : Node) (new : HostPath) (w : Node) :
    Prop where
  there : t.get new.path = some w
  other : w ≠ v
  alike : w.isDir = v.isDir
  empty : t.children new.path = []
  folder : v.isDir = false -> new.slash = false
  outside : ¬ old <+: new.path
  not_above : ¬ new.path <+: old

theorem renameAt_spec {old : Path} {new : HostPath} (h : fs.renameAt env old new = .ok fs') :
    exists v, fs.tree.get old = some v ∧
      ((fs' = fs ∧ fs.tree.get new.path = some v ∧ (old <+: new.path -> old = new.path)) ∨
        (fs.tree.get new.path = none ∧ Moved fs fs' old new.path) ∨
        (exists w, Replaceable fs.tree old v new w ∧
          Moved (fs.prune new.path) fs' old new.path)) := by
  unfold HostFs.renameAt at h
  split at h
  · cases h
  · split at h
    · cases h
    · cases h
    · rename_i v n hold hlast
      have hnew : new.path.dropLast ++ [n] = new.path := List.dropLast_append_getLast? n hlast
      refine ⟨v, hold, ?_⟩
      split at h
      · cases h
      · rename_i hslash
        split at h
        · cases h
        · rename_i hinside
          split at h
          · cases h
          · rename_i habove
            split at h
            · rename_i hfree
              have hmoved := renameTo_spec h
              rw [hnew] at hmoved
              exact Or.inr (Or.inl ⟨hfree, hmoved⟩)
            · rename_i w hthere
              split at h
              · rename_i hsame
                injection h with h
                refine Or.inl ⟨h.symm, by rw [hthere, hsame], ?_⟩
                intro hpre
                exact Decidable.byContradiction (fun hne => hinside ⟨hpre, hne⟩)
              · rename_i hother
                split at h
                · cases h
                · rename_i hdirFile
                  split at h
                  · cases h
                  · rename_i hfileDir
                    split at h
                    · cases h
                    · rename_i hempty
                      have hmoved := renameTo_spec h
                      rw [hnew] at hmoved
                      have hne : old ≠ new.path := by
                        intro heq
                        rw [← heq, hold] at hthere
                        injection hthere with hthere
                        exact hother hthere.symm
                      refine Or.inr (Or.inr ⟨w, ?_, hmoved⟩)
                      constructor
                      · exact hthere
                      · exact hother
                      · cases hv : v.isDir with
                        | true => simpa [hv] using hdirFile
                        | false => simpa [hv] using hfileDir
                      · simpa using hempty
                      · intro hv
                        simpa [hv] using hslash
                      · exact fun hpre => hinside ⟨hpre, hne⟩
                      · exact fun hpre => habove ⟨hpre, hne.symm⟩

/-!
## The calls

Each acts at the place its path leads to.
-/

theorem ok_of_bind {α β ε : Type} {x : Except ε α} {f : α -> Except ε β} {b : β}
    (h : x >>= f = .ok b) : exists a, x = .ok a ∧ f a = .ok b := by
  cases x with
  | error e => cases h
  | ok a => exact ⟨a, rfl, h⟩

theorem openCreate_ok {p : HostPath} {v : Node} (h : fs.openCreate env p = .ok (fs', v)) :
    p.slash = false ∧ exists q, namei fs.tree p.path = .ok q ∧
      fs.openAt env q = .ok (fs', v) := by
  unfold HostFs.openCreate at h
  split at h
  · cases h
  · rename_i hslash
    exact ⟨by simpa using hslash, ok_of_bind h⟩

theorem mkdir_ok {p : HostPath} (h : fs.mkdir env p = .ok fs') :
    exists q, entryOf fs.tree p.path = .ok q ∧ fs.mkdirAt env q = .ok fs' :=
  ok_of_bind h

theorem unlink_ok {p : Path} (h : fs.unlink env p = .ok fs') :
    exists q, entryOf fs.tree p = .ok q ∧ fs.unlinkAt env q = .ok fs' :=
  ok_of_bind h

theorem rmdir_ok {p : Path} (h : fs.rmdir env p = .ok fs') :
    exists q, entryOf fs.tree p = .ok q ∧ fs.rmdirAt env q = .ok fs' :=
  ok_of_bind h

theorem rename_ok {old : Path} {new : HostPath} (h : fs.rename env old new = .ok fs') :
    exists qold qnew, entryOf fs.tree old = .ok qold ∧ entryOf fs.tree new.path = .ok qnew ∧
      fs.renameAt env qold ⟨qnew, new.slash⟩ = .ok fs' := by
  rcases ok_of_bind h with ⟨qold, hold, h⟩
  rcases ok_of_bind h with ⟨qnew, hnew, h⟩
  exact ⟨qold, qnew, hold, hnew, h⟩

theorem chmod_ok {p : Path} {mode : BitVec 12} (h : fs.chmod env p mode = .ok fs') :
    exists q, namei fs.tree p = .ok q ∧ fs.chmodAt env q mode = .ok fs' :=
  ok_of_bind h

end Hostdos
end PistormAtari
