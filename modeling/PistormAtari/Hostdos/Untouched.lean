import PistormAtari.Hostdos.CreatedNames

/-!
# Files that a call does not name

The guard before a file is created or renamed looks the new name up in the
directory map.  The host is then given the name as it stands, which may be that
of an entry the map hides or shows under another name.  Where it is not, no call
loses anything but what it names.
-/

namespace PistormAtari
namespace Hostdos

open Foundation

/-- Every entry of `fs` that is not `removed` is in `fs'`, at its `place` there,
and every file that is not `written` has the contents it had. -/
structure Kept (fs fs' : HostFs) (removed : Path -> Prop) (written : Nat -> Prop)
    (place : Path -> Path) : Prop where
  entry : forall p v, fs.tree.get p = some v -> ¬ removed p ->
    fs'.tree.get (place p) = some v
  data : forall p v, fs.tree.get p = some v -> ¬ written v.ino ->
    (fs'.inode v.ino).data = (fs.inode v.ino).data

/-- What an operation names: entries it may take away, files it may write and
where it may move entries to; links on the way to an entry are followed.  A folder
that is made names nothing that is there; a file that is created names the listed
entry, if this is neither a folder nor read-only. -/
inductive Named (dos : Dos) (op : Op) :
    (Path -> Prop) -> (Nat -> Prop) -> (Path -> Path) -> Prop where
  | nothing : Named dos op (fun _ => False) (fun _ => False) id
  | fwrite {env : Env} {m : Mem} {a : Addr} {d : Nat}
      (hop : Dispatched dos op 0x40 env m a d) :
      Named dos op (fun _ => False)
        (fun j => exists i f, dos.fileOf (rd16 m (a + 2)) = some (i, f) ∧ j = f.node.ino) id
  | fcreate {env : Env} {m : Mem} {a : Addr} {d : Nat} {np : NewPath} {host : Path} {st : Stat}
      (hop : Dispatched dos op 0x3C env m a d)
      (hplace : (dos.resolveNewOn d (rdstr m (rd32 m (a + 2)))).1 = .ok np)
      (hlisted : np.exist = some host) (hstat : dos.fs.stat host = some st)
      (hfile : st.node.isDir = false) (hwritable : isRo st = false) :
      Named dos op (fun _ => False) (fun j => j = st.node.ino) id
  | frename {env : Env} {m : Mem} {a : Addr} {d : Nat} {host : Path} {st : Stat}
      {np : NewPath} {old new : Path} (hop : Dispatched dos op 0x56 env m a d)
      (hfound : (dos.resolveOn d (rdstr m (rd32 m (a + 4)))).1 = .ok (host, st))
      (hplace : (dos.resolveNewOn d (rdstr m (rd32 m (a + 8)))).1 = .ok np)
      (hold : entryOf dos.fs.tree host = .ok old)
      (hnew : entryOf dos.fs.tree (HostPath.join np.dir np.leaf).path = .ok new) :
      Named dos op (fun _ => False) (fun _ => False) (relocate old new)
  | delete {fn : Nat} {env : Env} {m : Mem} {a : Addr} {d : Nat} {host q : Path} {st : Stat}
      (hop : Dispatched dos op fn env m a d) (hfn : fn = 0x41 ∨ fn = 0x3A)
      (hfound : (dos.resolveOn d (rdstr m (rd32 m (a + 2)))).1 = .ok (host, st))
      (hentry : entryOf dos.fs.tree host = .ok q) :
      Named dos op (fun p => p = q) (fun _ => False) id

def Harmless (dos : Dos) (op : Op) : Prop :=
  exists removed written place, Named dos op removed written place ∧
    Kept dos.fs (step dos op).fs removed written place

/-- `Fcreate` of a name that is not listed, but leads to a file. -/
structure HitsFile (dos : Dos) (op : Op) (np : NewPath) (w : Node) : Prop where
  call : exists env m a d, Dispatched dos op 0x3C env m a d ∧ dos.driveOk d = true ∧
    dos.driveRo d = false ∧ rd16 m (a + 6) &&& (FA_LABEL ||| FA_DIR) = 0 ∧
    (dos.resolveNewOn d (rdstr m (rd32 m (a + 2)))).1 = .ok np
  unlisted : np.exist = none
  named : np.leaf ≠ []
  there : look dos.fs.tree (np.dir ++ [np.leaf]) = some w
  file : w.kind = Kind.reg

/-- `Frename` to a name that is not listed, but is that of an entry which the host
replaces. -/
structure HitsEntry (dos : Dos) (op : Op) (host : Path) (np : NewPath) (old new : Path)
    (v w : Node) : Prop where
  call : exists env m a d, Dispatched dos op 0x56 env m a d ∧ dos.driveOk d = true ∧
    dos.driveRo d = false ∧ otherDrive (rdstr m (rd32 m (a + 8))) d = false ∧
    (exists st, (dos.resolveOn d (rdstr m (rd32 m (a + 4)))).1 = .ok (host, st)) ∧
    (dos.resolveNewOn d (rdstr m (rd32 m (a + 8)))).1 = .ok np
  unlisted : np.exist = none
  entry : entryOf dos.fs.tree host = .ok old ∧ dos.fs.tree.get old = some v
  target : entryOf dos.fs.tree (HostPath.join np.dir np.leaf).path = .ok new
  replaceable : Replaceable dos.fs.tree old v
    ⟨new, (HostPath.join np.dir np.leaf).slash⟩ w

def Hits (dos : Dos) (op : Op) : Prop :=
  (exists np w, HitsFile dos op np w) ∨
    exists host np old new v w, HitsEntry dos op host np old new v w

/-!
## What is kept
-/

variable {fs fs' : HostFs}

theorem Kept.of_rewrites {written : Nat -> Prop}
    (h : Rewrites fs fs' written) : Kept fs fs' (fun _ => False) written id where
  entry := by
    intro p v hget _
    rw [h.tree]
    exact hget
  data := fun _ v _ hnot => h.data v.ino hnot

theorem Kept.of_added {p : Path} {v : Node} (h : Added fs fs' p v) :
    Kept fs fs' (fun _ => False) (fun _ => False) id where
  entry := by
    intro q w hget _
    rw [id, h.get, if_neg]
    · exact hget
    · rintro rfl
      rw [h.absent] at hget
      cases hget
  data := fun q w hget _ => h.data w.ino (fs.fresh q w hget)

theorem Kept.of_moved {old new : Path} (h : Moved fs fs' old new) :
    Kept fs fs' (fun _ => False) (fun _ => False) (relocate old new) where
  entry := fun _ _ hget _ => h.get hget
  data := fun _ v _ _ => h.data v.ino

theorem Kept.of_deleted {host : Path} (hnil : fs.tree.children host = [])
    (h : Rewrites (fs.prune host) fs' (fun _ => False)) :
    Kept fs fs' (fun p => p = host) (fun _ => False) id where
  entry := by
    intro p v hget hne
    rw [h.tree]
    show (fs.tree.prune host).get p = some v
    rw [PathTree.get_prune_of_children_nil hnil, if_neg hne]
    exact hget
  data := fun _ v _ _ => h.data v.ino (fun hfalse => hfalse)

theorem Kept.fchmod {removed : Path -> Prop} {written : Nat -> Prop}
    {place : Path -> Path} (h : Kept fs fs' removed written place) (attr : BitVec 16)
    (env : Env) (v : Node) (mode : BitVec 12) :
    Kept fs (if attr &&& FA_RDONLY ≠ 0 then fs'.fchmod env v mode else fs') removed written
      place := by
  split
  · have hmode := fchmod_rewrites fs' env v mode
    constructor
    · intro p w hget hnot
      rw [hmode.tree]
      exact h.entry p w hget hnot
    · intro p w hget hnot
      rw [hmode.data w.ino (fun hfalse => hfalse)]
      exact h.data p w hget hnot
  · exact h

theorem Fcreated.harmless {env : Env} {dos : Dos} (hgood : Good dos) {op : Op} {m : Mem}
    {a : Addr} {d : Nat} {np : NewPath} {fs : HostFs} {v : Node}
    (hop : Dispatched dos op 0x3C env m a d) (hdrive : dos.driveOk d = true)
    (h : Fcreated env dos d (rdstr m (rd32 m (a + 2))) (rd16 m (a + 6)) np fs v (step dos op))
    (hno : ¬ Hits dos op) : Harmless dos op := by
  have hplace : (dos.resolveNewOn d (rdstr m (rd32 m (a + 2)))).1 = .ok np := by
    rw [(resolveNewOn_spec hgood d _).1]
    exact h.place
  have hfs := h.changed.fs
  rcases openCreate_ok h.opened with ⟨hslash, q, hq, hat⟩
  rcases openAt_spec hat with ⟨hget, hkind, hrewrites⟩ | ⟨_, _, heq⟩ | ⟨_, hadded⟩
  · have hlook : look dos.fs.tree (createPath np).path = some v :=
      look_eq_some_iff.mpr ⟨q, hq, hget⟩
    cases hold : np.exist with
    | some host =>
        rw [createPath_listed hold] at hlook
        have hstat : dos.fs.stat host = some ⟨v, dos.fs.inode v.ino⟩ := by
          rw [HostFs.stat, hlook]
          rfl
        have hopen := h.unblocked
        unfold existBlocked at hopen
        rw [hold] at hopen
        dsimp only at hopen
        rw [hstat] at hopen
        dsimp only at hopen
        rw [Bool.or_eq_false_iff] at hopen
        refine ⟨_, _, _, .fcreate hop hplace hold hstat hopen.1 hopen.2, ?_⟩
        rw [hfs]
        exact (Kept.of_rewrites hrewrites).fchmod _ _ _ _
    | none =>
        rw [createPath_unlisted hold] at hslash hlook
        have hleaf := leaf_ne_nil hslash
        rw [path_join hleaf] at hlook
        exact absurd (Or.inl ⟨np, v, ⟨env, m, a, d, hop, hdrive, h.writable, h.attr_ok,
          hplace⟩, hold, hleaf, hlook, hkind⟩) hno
  · refine ⟨_, _, _, .nothing, ?_⟩
    rw [hfs, heq]
    exact (Kept.of_rewrites (Rewrites.refl dos.fs _)).fchmod _ _ _ _
  · refine ⟨_, _, _, .nothing, ?_⟩
    rw [hfs]
    exact (Kept.of_added hadded).fchmod _ _ _ _

theorem Frenamed.harmless {env : Env} {dos : Dos} (hgood : Good dos) {op : Op} {m : Mem}
    {a : Addr} {d : Nat} {host : Path} {v : Node} {np : NewPath} {fs : HostFs}
    (hop : Dispatched dos op 0x56 env m a d) (hdrive : dos.driveOk d = true)
    (h : Frenamed env dos d (rdstr m (rd32 m (a + 4))) (rdstr m (rd32 m (a + 8))) host v np fs
      (step dos op)) (hno : ¬ Hits dos op) : Harmless dos op := by
  have hfound : (dos.resolveOn d (rdstr m (rd32 m (a + 4)))).1 =
      .ok (host, ⟨v, dos.fs.inode v.ino⟩) := by
    rw [(resolveOn_spec hgood d _).1, h.found]
    rfl
  have hplace : (dos.resolveNewOn d (rdstr m (rd32 m (a + 8)))).1 = .ok np := by
    rw [(resolveNewOn_spec hgood d _).1]
    exact h.place
  have hfs := h.changed.fs
  rcases rename_ok h.renamed with ⟨old, new, hold, hnew, hat⟩
  rcases renameAt_spec hat with ⟨w, hw, ⟨heq, _⟩ | ⟨_, hmoved⟩ | ⟨u, hreplaced, _⟩⟩
  · refine ⟨_, _, _, .nothing, ?_⟩
    rw [hfs, heq]
    exact Kept.of_rewrites (Rewrites.refl dos.fs _)
  · refine ⟨_, _, _, .frename hop hfound hplace hold hnew, ?_⟩
    rw [hfs]
    exact Kept.of_moved hmoved
  · exact absurd (Or.inr ⟨host, np, old, new, w, u, ⟨env, m, a, d, hop, hdrive, h.writable,
      h.same_drive, ⟨_, hfound⟩, hplace⟩, h.unlisted, ⟨hold, hw⟩, hnew, hreplaced⟩) hno

theorem Deleted.harmless {dos : Dos} (hgood : Good dos) {op : Op} {fn : Nat} {env : Env}
    {m : Mem} {a : Addr} {d : Nat} {host q : Path} {fs : HostFs}
    (hop : Dispatched dos op fn env m a d) (hfn : fn = 0x41 ∨ fn = 0x3A)
    (h : Deleted dos d (rdstr m (rd32 m (a + 2))) host q fs (step dos op)) :
    Harmless dos op := by
  rcases h.found with ⟨v, hv⟩
  have hfound : (dos.resolveOn d (rdstr m (rd32 m (a + 2)))).1 =
      .ok (host, ⟨v, dos.fs.inode v.ino⟩) := by
    rw [(resolveOn_spec hgood d _).1, hv]
    rfl
  refine ⟨_, _, _, .delete hop hfn hfound h.entry, ?_⟩
  rw [h.changed.fs]
  exact Kept.of_deleted h.childless h.removed

theorem harmless_of_not_hits {dos : Dos} (hgood : Good dos) {op : Op}
    (hno : ¬ Hits dos op) : Harmless dos op := by
  cases step_effect hgood op with
  | still h =>
      refine ⟨_, _, _, .nothing, ?_⟩
      rw [h.fs]
      exact Kept.of_rewrites (Rewrites.refl dos.fs _)
  | inodes h => exact ⟨_, _, _, .nothing, Kept.of_rewrites h.fs⟩
  | fwrite hop h => exact ⟨_, _, _, .fwrite hop, Kept.of_rewrites h.fs⟩
  | fcreate hop hdrive h => exact h.harmless hgood hop hdrive hno
  | dcreate hop hdrive h =>
      rcases mkdir_ok h.made with ⟨q, _, hat⟩
      rcases mkdirAt_spec hat with ⟨v, _, hadded⟩
      refine ⟨_, _, _, .nothing, ?_⟩
      rw [h.changed.fs]
      exact Kept.of_added hadded
  | frename hop hdrive h => exact h.harmless hgood hop hdrive hno
  | fdelete hop _ h => exact h.harmless hgood hop (Or.inl rfl)
  | ddelete hop _ h => exact h.harmless hgood hop (Or.inr rfl)

/-- In a run whose operations hit nothing they do not name, each operation, in the
state it is taken in, loses nothing it does not name. -/
theorem unnamed_kept (drives : Nat -> Drive) (fs : HostFs) (ops : List Op)
    (hops : Steps step (fun dos op => ¬ Hits dos op) (Dos.init drives fs) ops) :
    forall pre op post, ops = pre ++ op :: post -> Harmless (runOps drives fs pre) op := by
  intro pre op post hsplit
  rw [hsplit] at hops
  exact harmless_of_not_hits (runOps_good drives fs pre) hops.at

/-- The guest's call of function `fn` on drive `C` with one path. -/
def pathCall (fn : BitVec 16) (name : Name) : Op :=
  .call willing (wr16 (pathArgs name) 0x100 fn) 2 (fun i => if i = 0 then 0x100 else
    if i = 1 then 2 else 0)

theorem Dispatched.pathCall {dos : Dos} {fn : BitVec 16} {name : Name} {n : Nat} {env : Env}
    {m : Mem} {a : Addr} {d : Nat}
    (h : Dispatched dos (Hostdos.pathCall fn name) n env m a d) :
    m = wr16 (pathArgs name) 0x100 fn ∧ a = 0x100 ∧ d = 2 := by
  rcases h.eq with ⟨p, hop, rfl, rfl⟩
  injection hop with henv hm _ hp
  subst hp
  exact ⟨hm.symm, rfl, rfl⟩

/-- Making the folder `AB.TXT` beside `A B.TXT` loses nothing. -/
theorem unnamed_kept_beside_spaced :
    Harmless (runOps wholeDisk spacedDisk []) (pathCall 0x39 plainName) := by
  apply unnamed_kept wholeDisk spacedDisk [pathCall 0x39 plainName] _ [] _ [] rfl
  refine ⟨?_, trivial⟩
  rintro (⟨np, w, hhit⟩ | ⟨host, np, old, new, v, w, hhit⟩)
  · rcases hhit.call with ⟨env, m, a, d, hop, _⟩
    rcases hop.pathCall with ⟨rfl, rfl, rfl⟩
    exact absurd hop.function (by decide +kernel)
  · rcases hhit.call with ⟨env, m, a, d, hop, _⟩
    rcases hop.pathCall with ⟨rfl, rfl, rfl⟩
    exact absurd hop.function (by decide +kernel)

def notesDisk : HostFs :=
  spacedDisk.modify 1 (fun x => { x with data := [ch 'A'] })

/-- `Fcreate` of `A B.TXT`, where the file of this name is listed as `AB~1.TXT`,
empties it. -/
theorem spaced_file_lost :
    ¬ Harmless (runOps wholeDisk notesDisk []) (pathCall 0x3C spacedName) := by
  rintro ⟨removed, written, place, hnamed, hkept⟩
  cases hnamed with
  | nothing =>
      have hdata := hkept.data [spacedName] ⟨1, .reg⟩ (by decide) (fun h => h)
      exact absurd hdata (by decide +kernel)
  | fwrite hop =>
      rcases hop.pathCall with ⟨rfl, rfl, rfl⟩
      exact absurd hop.function (by decide +kernel)
  | fcreate hop hplace hlisted =>
      rcases hop.pathCall with ⟨rfl, rfl, rfl⟩
      have hname : rdstr (wr16 (pathArgs spacedName) 0x100 0x3C)
          (rd32 (wr16 (pathArgs spacedName) 0x100 0x3C) (0x100 + 2)) = spacedName := by
        decide +kernel
      have hnp : ((runOps wholeDisk notesDisk []).resolveNewOn 2 spacedName).1 =
          .ok ⟨[], spacedName, none⟩ := by rfl
      rw [hname, hnp] at hplace
      injection hplace with hplace
      subst hplace
      cases hlisted
  | frename hop =>
      rcases hop.pathCall with ⟨rfl, rfl, rfl⟩
      exact absurd hop.function (by decide +kernel)
  | delete hop hfn =>
      rcases hop.pathCall with ⟨rfl, rfl, rfl⟩
      have hfunction := hop.function
      rcases hfn with rfl | rfl
      · exact absurd hfunction (by decide +kernel)
      · exact absurd hfunction (by decide +kernel)

end Hostdos
end PistormAtari
