import PistormAtari.Foundation.PathTree
import PistormAtari.Hostdos.Names

/-!
# The host's file system

A path names a node: the number of an inode and what kind of file it is.  The
inode holds the permissions, the time of the last change and the contents, and
outlives its last name while a handle is open on it.  The calls below are those
the engine makes, with the errors that the kernel gives them.  Symbolic links are
followed as the kernel does it: on the way to a name always, at the name itself
unless the call is about the entry.
-/

namespace PistormAtari
namespace Hostdos

open Foundation

abbrev Path := List Name

inductive Kind where
  | reg
  | dir
  | special
  | link (held : LinkPath Name)
  deriving DecidableEq, Repr

def Kind.plain : Kind -> Bool
  | .reg => true
  | .dir => true
  | _ => false

structure Node where
  ino : Nat
  kind : Kind
  deriving DecidableEq, Repr

def Node.isDir (v : Node) : Bool :=
  v.kind == Kind.dir

def Node.link (v : Node) : Option (LinkPath Name) :=
  match v.kind with
  | .link held => some held
  | _ => none

structure Inode where
  mode : BitVec 12
  mtime : Int
  data : List Byte

abbrev Tree := PathTree Name Node.isDir

structure HostFs where
  tree : Tree
  inode : Nat -> Inode
  nextIno : Nat
  fresh : forall p v, tree.get p = some v -> v.ino < nextIno

inductive Errno where
  | noent
  | notdir
  | loop
  | acces
  | perm
  | exist
  | notempty
  | isdir
  | rofs
  | mfile
  | nfile
  | nomem
  | xdev
  | inval
  | busy
  | nospc
  | io
  deriving DecidableEq, Repr

inductive Syscall where
  | open
  | fchmod
  | chmod
  | mkdir
  | rmdir
  | rename
  | unlink
  | read
  | write
  | lseek
  | futimens
  deriving DecidableEq, Repr

structure Tm where
  year : Int
  mon : Int
  mday : Int
  hour : Int
  min : Int
  sec : Int

/-- What the host contributes to one call of the engine: the time, which kernel
calls it refuses (by how many of that kind came before it), the room left on the
disk, what a device gives when it is read, and the time zone. -/
structure Env where
  now : Int
  refuse : Syscall -> Nat -> Option Errno
  room : Nat
  device : Nat -> List Byte
  umask : BitVec 12
  localtime : Int -> Tm
  mktime : Tm -> Int
  statvfs : Path -> Option (Nat × Nat × Nat)

/-- A path as the engine writes it, `dir + "/" + leaf`: with an empty leaf it is
the folder with a slash behind it. -/
structure HostPath where
  path : Path
  slash : Bool

def HostPath.join (dir : Path) (leaf : Name) : HostPath :=
  if leaf = [] then ⟨dir, true⟩ else ⟨dir ++ [leaf], false⟩

/-!
## Where a path leads

The names of a path are taken from the top, and no more than 40 links on the way.
-/

def MAXSYMLINKS : Nat := 40

/-- Where the kernel gets to along a path, all links followed; the last name may be
free. -/
def namei (t : Tree) (p : Path) : Except Errno Path :=
  match t.walk Node.link MAXSYMLINKS [] (p.map .down) with
  | .ok r => .ok r.2
  | .error .missing => .error .noent
  | .error .leaf => .error .notdir
  | .error .loop => .error .loop

def look (t : Tree) (p : Path) : Option Node :=
  match namei t p with
  | .ok q => t.get q
  | .error _ => none

def dirNames (t : Tree) (p : Path) : List Name :=
  match namei t p with
  | .ok q => t.children q
  | .error _ => []

def entryOf (t : Tree) (p : Path) : Except Errno Path :=
  match p.getLast? with
  | none => .ok []
  | some n =>
      match namei t p.dropLast with
      | .error e => .error e
      | .ok d =>
          match t.get d with
          | none => .error .noent
          | some v => if v.isDir then .ok (d ++ [n]) else .error .notdir

theorem look_eq_some_iff {t : Tree} {p : Path} {v : Node} :
    look t p = some v <-> exists q, namei t p = .ok q ∧ t.get q = some v := by
  unfold look
  cases namei t p with
  | error e => simp
  | ok q => simp

theorem namei_ok_iff {t : Tree} {p q : Path} :
    namei t p = .ok q <->
      exists left, t.walk Node.link MAXSYMLINKS [] (p.map .down) = .ok (left, q) := by
  unfold namei
  cases t.walk Node.link MAXSYMLINKS [] (p.map .down) with
  | ok r =>
      rcases r with ⟨left, q'⟩
      simp
  | error e =>
      cases e with
      | missing => simp
      | leaf => simp
      | loop => simp

theorem entryOf_of_namei {t : Tree} {p q : Path} {n : Name} (h : namei t (p ++ [n]) = .ok q) :
    exists d w, namei t p = .ok d ∧ t.get d = some w ∧ w.isDir = true ∧
      entryOf t (p ++ [n]) = .ok (d ++ [n]) ∧
      ((t.get (d ++ [n])).bind Node.link = none -> q = d ++ [n]) := by
  rcases namei_ok_iff.mp h with ⟨left, hwalk⟩
  rw [List.map_append, List.map_singleton] at hwalk
  rcases PathTree.exists_branch_of_walk hwalk with ⟨left', d, w, hhead, hw, hdir, hlast⟩
  have hd : namei t p = .ok d := namei_ok_iff.mpr ⟨left', hhead⟩
  refine ⟨d, w, hd, hw, hdir, ?_, fun hplain => (Prod.mk.inj (hlast hplain)).2⟩
  unfold entryOf
  rw [List.getLast?_concat, List.dropLast_concat]
  simp only [hd, hw, hdir, if_true]

theorem mem_dirNames_of_look {t : Tree} {p : Path} {n : Name} {v : Node}
    (h : look t (p ++ [n]) = some v) :
    n ∈ dirNames t p ∧ exists w, look t p = some w ∧ w.isDir = true := by
  rcases look_eq_some_iff.mp h with ⟨q, hq, hget⟩
  rcases entryOf_of_namei hq with ⟨d, w, hd, hw, hdir, _, hlast⟩
  refine ⟨?_, w, look_eq_some_iff.mpr ⟨d, hd, hw⟩, hdir⟩
  unfold dirNames
  rw [hd]
  apply PathTree.mem_children.mpr
  cases hentry : t.get (d ++ [n]) with
  | some u => exact ⟨u, rfl⟩
  | none =>
      rw [hlast (by rw [hentry]; rfl), hentry] at hget
      cases hget

theorem eq_of_namei {t : Tree} {p q : Path}
    (hplain : forall q v, q <+: p -> t.get q = some v -> v.link = none)
    (h : namei t p = .ok q) : q = p := by
  rcases namei_ok_iff.mp h with ⟨left, hwalk⟩
  exact (Prod.mk.inj (PathTree.eq_of_walk_plain hplain hwalk)).2

theorem eq_of_entryOf {t : Tree} {p q : Path}
    (hplain : forall q v, q <+: p -> t.get q = some v -> v.link = none)
    (h : entryOf t p = .ok q) : q = p := by
  unfold entryOf at h
  split at h
  · rename_i hnil
    injection h with h
    rw [← h, List.getLast?_eq_none_iff.mp hnil]
  · rename_i n hlast
    split at h
    · cases h
    · rename_i d hd
      have heq := eq_of_namei
        (fun r v hr => hplain r v (hr.trans (List.dropLast_prefix p))) hd
      split at h
      · cases h
      · split at h
        · injection h with h
          rw [← h, heq, List.dropLast_append_getLast? n hlast]
        · cases h

/-!
## Looking
-/

structure Stat where
  node : Node
  inode : Inode

namespace HostFs

def stat (fs : HostFs) (p : Path) : Option Stat :=
  (look fs.tree p).map (fun v => ⟨v, fs.inode v.ino⟩)

/-- `opendir` and `readdir`: the names in a folder, in no order. -/
def readdir (fs : HostFs) (p : Path) : Option (List Name) :=
  match look fs.tree p with
  | some v => if v.isDir then some (dirNames fs.tree p) else none
  | none => none

/-!
## Changing an inode
-/

def modify (fs : HostFs) (i : Nat) (f : Inode -> Inode) : HostFs :=
  { fs with inode := Function.update fs.inode i (f (fs.inode i)) }

def touch (fs : HostFs) (p : Path) (now : Int) : HostFs :=
  match fs.tree.get p with
  | some v => fs.modify v.ino (fun x => { x with mtime := now })
  | none => fs

/-!
## Changing the tree
-/

def addNode (fs : HostFs) (d : Path) (n : Name) (kind : Kind) (mode : BitVec 12) (now : Int)
    (h : fs.tree.Insertable d n) : HostFs where
  tree := fs.tree.insert d n ⟨fs.nextIno, kind⟩ h
  inode := Function.update fs.inode fs.nextIno ⟨mode, now, []⟩
  nextIno := fs.nextIno + 1
  fresh := by
    intro p v hv
    rw [PathTree.get_insert] at hv
    split at hv
    · injection hv with hv
      subst hv
      exact Nat.lt_succ_self _
    · exact Nat.lt_succ_of_lt (fs.fresh p v hv)

def prune (fs : HostFs) (p : Path) : HostFs where
  tree := fs.tree.prune p
  inode := fs.inode
  nextIno := fs.nextIno
  fresh := by
    intro q v hv
    rw [PathTree.get_prune] at hv
    split at hv
    · cases hv
    · exact fs.fresh q v hv

def move (fs : HostFs) (old d : Path) (n : Name) (h : fs.tree.Movable old d n) : HostFs where
  tree := fs.tree.move old d n h
  inode := fs.inode
  nextIno := fs.nextIno
  fresh := by
    intro q v hv
    rcases PathTree.get_move_eq_some_iff.mp hv with ⟨p, hp, _⟩
    exact fs.fresh p v hp

/-- The error for a name in a folder that is not there, or is none. -/
def parentError (fs : HostFs) (d : Path) : Errno :=
  if (fs.tree.get d).isSome then .notdir else .noent

def create (fs : HostFs) (env : Env) (p : Path) (kind : Kind) (mode : BitVec 12) :
    Except Errno (HostFs × Node) :=
  match p.getLast? with
  | none => .error .exist
  | some n =>
      if h : fs.tree.Insertable p.dropLast n then
        .ok ((fs.addNode p.dropLast n kind (mode &&& ~~~ env.umask) env.now h).touch
          p.dropLast env.now, ⟨fs.nextIno, kind⟩)
      else .error (fs.parentError p.dropLast)

def openAt (fs : HostFs) (env : Env) (p : Path) : Except Errno (HostFs × Node) :=
  match env.refuse .open 0 with
  | some e => .error e
  | none =>
      match fs.tree.get p with
      | none => fs.create env p .reg 0o644
      | some v =>
          match v.kind with
          | .dir => .error .isdir
          | .link _ => .error .loop
          | .special => .ok (fs, v)
          | .reg => .ok (fs.modify v.ino (fun x => { x with data := [], mtime := env.now }), v)

def mkdirAt (fs : HostFs) (env : Env) (p : Path) : Except Errno HostFs :=
  match env.refuse .mkdir 0 with
  | some e => .error e
  | none =>
      match fs.tree.get p with
      | some _ => .error .exist
      | none => (fs.create env p .dir 0o755).map Prod.fst

def unlinkAt (fs : HostFs) (env : Env) (p : Path) : Except Errno HostFs :=
  match env.refuse .unlink 0 with
  | some e => .error e
  | none =>
      match fs.tree.get p with
      | none => .error .noent
      | some v =>
          if v.isDir then .error .isdir
          else .ok ((fs.prune p).touch p.dropLast env.now)

def rmdirAt (fs : HostFs) (env : Env) (p : Path) : Except Errno HostFs :=
  match env.refuse .rmdir 0 with
  | some e => .error e
  | none =>
      match fs.tree.get p with
      | none => .error .noent
      | some v =>
          if p = [] then .error .busy
          else if v.isDir = false then .error .notdir
          else if fs.tree.children p ≠ [] then .error .notempty
          else .ok ((fs.prune p).touch p.dropLast env.now)

def renameTo (fs : HostFs) (env : Env) (old d : Path) (n : Name) : Except Errno HostFs :=
  if h : fs.tree.Movable old d n then
    .ok (((fs.move old d n h).touch old.dropLast env.now).touch d env.now)
  else .error (fs.parentError d)

/-- `rename`: a target that is there is replaced, a folder only by a folder and
only when it is empty; two names of one file are left as they are. -/
def renameAt (fs : HostFs) (env : Env) (old : Path) (new : HostPath) : Except Errno HostFs :=
  match env.refuse .rename 0 with
  | some e => .error e
  | none =>
      match fs.tree.get old, new.path.getLast? with
      | none, _ => .error .noent
      | some _, none => .error .busy
      | some v, some n =>
          if v.isDir = false ∧ new.slash then .error .notdir
          else if old <+: new.path ∧ old ≠ new.path then .error .inval
          else if new.path <+: old ∧ new.path ≠ old then .error .notempty
          else
            match fs.tree.get new.path with
            | none => fs.renameTo env old new.path.dropLast n
            | some w =>
                if w = v then .ok fs
                else if v.isDir ∧ w.isDir = false then .error .notdir
                else if v.isDir = false ∧ w.isDir then .error .isdir
                else if fs.tree.children new.path ≠ [] then .error .notempty
                else (fs.prune new.path).renameTo env old new.path.dropLast n

def chmodAt (fs : HostFs) (env : Env) (p : Path) (mode : BitVec 12) : Except Errno HostFs :=
  match env.refuse .chmod 0 with
  | some e => .error e
  | none =>
      match fs.tree.get p with
      | none => .error .noent
      | some v => .ok (fs.modify v.ino (fun x => { x with mode := mode }))

def fchmod (fs : HostFs) (env : Env) (v : Node) (mode : BitVec 12) : HostFs :=
  match env.refuse .fchmod 0 with
  | some _ => fs
  | none => fs.modify v.ino (fun x => { x with mode := mode })

/-!
## The calls

`open` and `chmod` are about what the path leads to, the others about the entry.
-/

/-- `open(p, O_RDWR | O_CREAT | O_TRUNC, 0644)`. -/
def openCreate (fs : HostFs) (env : Env) (p : HostPath) : Except Errno (HostFs × Node) :=
  if p.slash then .error .isdir
  else do
    let q <- namei fs.tree p.path
    fs.openAt env q

/-- `mkdir(p, 0755)`. -/
def mkdir (fs : HostFs) (env : Env) (p : HostPath) : Except Errno HostFs := do
  let q <- entryOf fs.tree p.path
  fs.mkdirAt env q

def unlink (fs : HostFs) (env : Env) (p : Path) : Except Errno HostFs := do
  let q <- entryOf fs.tree p
  fs.unlinkAt env q

def rmdir (fs : HostFs) (env : Env) (p : Path) : Except Errno HostFs := do
  let q <- entryOf fs.tree p
  fs.rmdirAt env q

def rename (fs : HostFs) (env : Env) (old : Path) (new : HostPath) : Except Errno HostFs := do
  let qold <- entryOf fs.tree old
  let qnew <- entryOf fs.tree new.path
  fs.renameAt env qold ⟨qnew, new.slash⟩

def chmod (fs : HostFs) (env : Env) (p : Path) (mode : BitVec 12) : Except Errno HostFs := do
  let q <- namei fs.tree p
  fs.chmodAt env q mode

def blank : HostFs where
  tree :=
    { entries := [([], ⟨0, .dir⟩)]
      nodup := List.nodup_singleton _
      closed := by
        intro d n v h
        simp at h }
  inode := fun _ => ⟨0o755, 0, []⟩
  nextIno := 1
  fresh := by
    intro p v h
    rw [PathTree.get_eq_some_iff, List.mem_singleton] at h
    rw [(Prod.mk.inj h).2]
    exact Nat.one_pos

end HostFs
end Hostdos
end PistormAtari
