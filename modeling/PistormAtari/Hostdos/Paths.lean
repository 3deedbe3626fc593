import PistormAtari.Hostdos.DirMap

/-!
# GEMDOS paths

`parse` turns what a program typed into TOS components, `walk` follows them
through the directory maps, and `resolve` and `resolve_new` find what is there
and what is about to be there.  The second half states the same without the
cache, and that the cache does not show.
-/

namespace PistormAtari
namespace Hostdos

open Foundation

def ERROR : Int := -1
def EWRPRO : Int := -13
def EFILNF : Int := -33
def EPTHNF : Int := -34
def ENHNDL : Int := -35
def EACCDN : Int := -36
def EIHNDL : Int := -37
def ENSMEM : Int := -39
def ENSAME : Int := -48
def ENMFIL : Int := -49
def ERANGE_T : Int := -64
def EPLFMT : Int := -66

def errnoTos (e : Errno) (dflt : Int) : Int :=
  match e with
  | .noent => dflt
  | .notdir => EPTHNF
  | .acces | .perm | .exist | .notempty | .isdir => EACCDN
  | .rofs => EWRPRO
  | .mfile | .nfile => ENHNDL
  | .nomem => ENSMEM
  | .xdev => ENSAME
  | .loop | .inval | .busy | .nospc | .io => ERROR

/-!
## Parsing
-/

def isSep (c : Byte) : Bool :=
  c == ch '\\' || c == ch '/'

def dropDrive (gem : Name) : Name :=
  if gem[1]? = some (ch ':') then gem.drop 2 else gem

def foldComp (c : List Name) (comp : Name) : List Name :=
  if comp = [] ∨ comp = [dot] then c
  else if comp = [dot, dot] then c.dropLast
  else c ++ [trunc83 comp]

def parse (cwd : List Name) (gem : Name) : List Name :=
  let s := dropDrive gem
  let c := if s.head?.any isSep then [] else cwd
  (pieces isSep s).foldl foldComp c

/-!
## Walking
-/

def walkFrom (fs : HostFs) : Path -> List Name -> StateM Cache (Except Int Path)
  | h, [] => return .ok h
  | h, c :: cs => do
      match <- lookup fs h c with
      | none => return .error EPTHNF
      | some e =>
          match fs.stat (h ++ [e.host]) with
          | none => return .error EPTHNF
          | some st =>
              if st.node.isDir = false then return .error EPTHNF
              else walkFrom fs (h ++ [e.host]) cs

def walk (fs : HostFs) (root : Path) (c : List Name) (n : Nat) :
    StateM Cache (Except Int Path) :=
  walkFrom fs root (c.take n)

/-- `resolve`: an existing file or folder; the root itself counts. -/
def resolve (fs : HostFs) (root : Path) (c : List Name) :
    StateM Cache (Except Int (Path × Stat)) :=
  match c.getLast? with
  | none =>
      match fs.stat root with
      | some st => return .ok (root, st)
      | none => return .error EPTHNF
  | some leaf => do
      match <- walk fs root c (c.length - 1) with
      | .error err => return .error err
      | .ok dir =>
          match <- lookup fs dir leaf with
          | none => return .error EFILNF
          | some e =>
              match fs.stat (dir ++ [e.host]) with
              | some st => return .ok (dir ++ [e.host], st)
              | none => return .error EFILNF

/-- What `resolve_new` finds: the folder, the name in it, and the entry that is
listed under this name already. -/
structure NewPath where
  dir : Path
  leaf : Name
  exist : Option Path

def resolveNew (fs : HostFs) (root : Path) (c : List Name) :
    StateM Cache (Except Int NewPath) :=
  match c.getLast? with
  | none => return .error EACCDN
  | some leaf => do
      match <- walk fs root c (c.length - 1) with
      | .error err => return .error err
      | .ok dir =>
          if leaf = [dot] ∨ leaf = [dot, dot] ∨ hasWild leaf then return .error EACCDN
          else
            let e <- lookup fs dir leaf
            return .ok ⟨dir, leaf, e.map (fun e => dir ++ [e.host])⟩

/-!
## The same without the cache
-/

def mapIn (t : Tree) (dir : Path) : Option (List Ent) :=
  match look t dir with
  | none => none
  | some v => if v.isDir = false then none else some (tableOf t dir)

def lookupIn (t : Tree) (dir : Path) (tos : Name) : Option Ent :=
  (mapIn t dir).bind (fun es => es.find? (fun e => e.tos == tos))

def walkIn (t : Tree) : Path -> List Name -> Except Int Path
  | h, [] => .ok h
  | h, c :: cs =>
      match lookupIn t h c with
      | none => .error EPTHNF
      | some e =>
          match look t (h ++ [e.host]) with
          | none => .error EPTHNF
          | some v => if v.isDir = false then .error EPTHNF else walkIn t (h ++ [e.host]) cs

def resolveIn (t : Tree) (root : Path) (c : List Name) : Except Int (Path × Node) :=
  match c.getLast? with
  | none =>
      match look t root with
      | some v => .ok (root, v)
      | none => .error EPTHNF
  | some leaf =>
      match walkIn t root c.dropLast with
      | .error err => .error err
      | .ok dir =>
          match lookupIn t dir leaf with
          | none => .error EFILNF
          | some e =>
              match look t (dir ++ [e.host]) with
              | some v => .ok (dir ++ [e.host], v)
              | none => .error EFILNF

def resolveNewIn (t : Tree) (root : Path) (c : List Name) : Except Int NewPath :=
  match c.getLast? with
  | none => .error EACCDN
  | some leaf =>
      match walkIn t root c.dropLast with
      | .error err => .error err
      | .ok dir =>
          if leaf = [dot] ∨ leaf = [dot, dot] ∨ hasWild leaf then .error EACCDN
          else .ok ⟨dir, leaf, (lookupIn t dir leaf).map (fun e => dir ++ [e.host])⟩

def Coherent (t : Tree) (cache : Cache) : Prop :=
  forall dir m, (dir, m) ∈ cache -> m.e = tableOf t dir

theorem Coherent.nil (t : Tree) : Coherent t [] :=
  fun _ _ h => absurd h List.not_mem_nil

theorem Coherent.store {t : Tree} {cache : Cache} (h : Coherent t cache) (dir : Path)
    (mtime : Int) : Coherent t (cache.store dir ⟨mtime, tableOf t dir⟩) := by
  intro dir' m hm
  rcases List.mem_cons.mp hm with heq | hm
  · rcases Prod.mk.inj heq with ⟨rfl, rfl⟩
    rfl
  · split at hm
    · cases hm
    · exact h dir' m (List.mem_of_mem_filter hm)

theorem mem_of_lookup {cache : Cache} {dir : Path} {m : DMap}
    (h : cache.lookup dir = some m) : (dir, m) ∈ cache := by
  rcases List.lookup_eq_some_iff.mp h with ⟨l, r, rfl, _⟩
  simp

variable (fs : HostFs)

theorem mapDir_computes (dir : Path) :
    Computes (Coherent fs.tree) (mapDir fs dir) (mapIn fs.tree dir) := by
  intro cache hcache
  unfold mapDir mapIn HostFs.stat HostFs.readdir
  cases hget : look fs.tree dir with
  | none => exact ⟨rfl, hcache⟩
  | some v =>
      cases hdir : v.isDir with
      | false =>
          simp only [Option.map_some, hdir, if_true]
          exact ⟨trivial, hcache⟩
      | true =>
          simp only [Option.map_some, hdir, Bool.true_eq_false, if_false, if_true]
          split
          · rename_i m hm
            rw [Option.filter_eq_some_iff] at hm
            have he := hcache dir m (mem_of_lookup hm.1)
            exact ⟨by simp [he], hcache⟩
          · exact ⟨rfl, hcache.store dir _⟩

theorem lookup_computes (dir : Path) (tos : Name) :
    Computes (Coherent fs.tree) (lookup fs dir tos) (lookupIn fs.tree dir tos) :=
  (mapDir_computes fs dir).bind (Computes.pure _ _)

theorem walkFrom_computes (c : List Name) (h : Path) :
    Computes (Coherent fs.tree) (walkFrom fs h c) (walkIn fs.tree h c) := by
  induction c generalizing h with
  | nil => exact Computes.pure _ _
  | cons n rest ih =>
      apply (lookup_computes fs h n).bind
      unfold walkIn HostFs.stat
      cases lookupIn fs.tree h n with
      | none => exact Computes.pure _ _
      | some e =>
          cases hget : look fs.tree (h ++ [e.host]) with
          | none =>
              simp only [hget, Option.map_none]
              exact Computes.pure _ _
          | some v =>
              simp only [hget, Option.map_some]
              split
              · exact Computes.pure _ _
              · exact ih _

def withStat (fs : HostFs) (r : Except Int (Path × Node)) : Except Int (Path × Stat) :=
  r.map (fun pv => (pv.1, ⟨pv.2, fs.inode pv.2.ino⟩))

theorem resolve_computes (root : Path) (c : List Name) :
    Computes (Coherent fs.tree) (resolve fs root c)
      (withStat fs (resolveIn fs.tree root c)) := by
  unfold resolve resolveIn
  cases c.getLast? with
  | none =>
      unfold HostFs.stat
      cases look fs.tree root with
      | none => exact Computes.pure _ _
      | some v => exact Computes.pure _ _
  | some leaf =>
      unfold walk
      rw [← List.dropLast_eq_take]
      apply (walkFrom_computes fs c.dropLast root).bind
      dsimp only
      cases walkIn fs.tree root c.dropLast with
      | error err => exact Computes.pure _ _
      | ok dir =>
          apply (lookup_computes fs dir leaf).bind
          dsimp only
          cases lookupIn fs.tree dir leaf with
          | none => exact Computes.pure _ _
          | some e =>
              unfold HostFs.stat
              dsimp only
              cases look fs.tree (dir ++ [e.host]) with
              | none => exact Computes.pure _ _
              | some v => exact Computes.pure _ _

theorem resolveNew_computes (root : Path) (c : List Name) :
    Computes (Coherent fs.tree) (resolveNew fs root c) (resolveNewIn fs.tree root c) := by
  unfold resolveNew resolveNewIn
  cases c.getLast? with
  | none => exact Computes.pure _ _
  | some leaf =>
      unfold walk
      rw [← List.dropLast_eq_take]
      apply (walkFrom_computes fs c.dropLast root).bind
      dsimp only
      cases walkIn fs.tree root c.dropLast with
      | error err => exact Computes.pure _ _
      | ok dir =>
          dsimp only
          split
          · exact Computes.pure _ _
          · exact (lookup_computes fs dir leaf).bind (Computes.pure _ _)

end Hostdos
end PistormAtari
