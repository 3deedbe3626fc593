import PistormAtari.Hostdos.Calls
import PistormAtari.Hostdos.FsChange

/-!
# What the calls do to the host

Most calls leave the host's files alone; the others are taken apart here, once
each, into the checks they pass and the change they make.  The directory tables
in the cache stay those of the tree throughout.
-/

namespace PistormAtari
namespace Hostdos

open Foundation

def Good (dos : Dos) : Prop :=
  Coherent dos.fs.tree dos.cache

/-- The host's files are as they were, and the cache is still good. -/
structure Still (dos dos' : Dos) : Prop where
  fs : dos'.fs = dos.fs
  cache : Coherent dos.fs.tree dos'.cache

variable {dos : Dos}

theorem Still.refl (h : Good dos) : Still dos dos :=
  ⟨rfl, h⟩

theorem Still.good {dos dos' : Dos} (h : Still dos dos') : Good dos' := by
  unfold Good
  rw [h.fs]
  exact h.cache

theorem Still.trans {dos dos' dos'' : Dos} (h : Still dos dos') (h' : Still dos' dos'') :
    Still dos dos'' :=
  ⟨h'.fs.trans h.fs, by rw [← h.fs]; exact h'.cache⟩

theorem Still.fileNew {dos dos' : Dos} (h : Still dos dos') (f : HFile) :
    Still dos (dos'.fileNew f).2 := by
  unfold Dos.fileNew
  split
  · exact ⟨h.fs, h.cache⟩
  · exact h

theorem onCache_still {α : Type} {dos : Dos} (h : Good dos) {x : StateM Cache α} {v : α}
    (hx : Computes (Coherent dos.fs.tree) x v) :
    (dos.onCache x).1 = v ∧ Still dos (dos.onCache x).2 := by
  rcases hx dos.cache h with ⟨hv, hcache⟩
  exact ⟨hv, rfl, hcache⟩

/-!
## Finding

Looking a name up may fill the cache, nothing else.
-/

/-- The state after a lookup differs from the one before in its cache only. -/
structure Looked (dos dos' : Dos) : Prop where
  still : Still dos dos'
  eq : dos' = { dos with cache := dos'.cache }

theorem onCache_looked {α : Type} {dos : Dos} (h : Good dos) {x : StateM Cache α} {v : α}
    (hx : Computes (Coherent dos.fs.tree) x v) :
    (dos.onCache x).1 = v ∧ Looked dos (dos.onCache x).2 := by
  rcases onCache_still h hx with ⟨hv, hstill⟩
  exact ⟨hv, hstill, rfl⟩

namespace Dos

def found (dos : Dos) (d : Nat) (gem : Name) : Except Int (Path × Node) :=
  resolveIn dos.fs.tree (dos.rootOf d) (dos.parseOn d gem)

def place (dos : Dos) (d : Nat) (gem : Name) : Except Int NewPath :=
  resolveNewIn dos.fs.tree (dos.rootOf d) (dos.parseOn d gem)

end Dos

theorem resolveOn_spec (h : Good dos) (d : Nat) (gem : Name) :
    (dos.resolveOn d gem).1 = withStat dos.fs (dos.found d gem) ∧
      Looked dos (dos.resolveOn d gem).2 :=
  onCache_looked h (resolve_computes dos.fs _ _)

theorem resolveNewOn_spec (h : Good dos) (d : Nat) (gem : Name) :
    (dos.resolveNewOn d gem).1 = dos.place d gem ∧ Looked dos (dos.resolveNewOn d gem).2 :=
  onCache_looked h (resolveNew_computes dos.fs _ _)

theorem resolveOn_cases (h : Good dos) (d : Nat) (gem : Name) :
    (exists err dos', dos.resolveOn d gem = (.error err, dos') ∧ Looked dos dos' ∧
      dos.found d gem = .error err) ∨
    (exists host v dos', dos.resolveOn d gem =
        (.ok (host, ⟨v, dos.fs.inode v.ino⟩), dos') ∧ Looked dos dos' ∧
      dos.found d gem = .ok (host, v)) := by
  rcases resolveOn_spec h d gem with ⟨hres, hlooked⟩
  cases hfound : dos.found d gem with
  | error err =>
      rw [hfound] at hres
      exact Or.inl ⟨err, _, Prod.ext hres rfl, hlooked, rfl⟩
  | ok pv =>
      rcases pv with ⟨host, v⟩
      rw [hfound] at hres
      exact Or.inr ⟨host, v, _, Prod.ext hres rfl, hlooked, rfl⟩

theorem resolveNewOn_cases (h : Good dos) (d : Nat) (gem : Name) :
    (exists err dos', dos.resolveNewOn d gem = (.error err, dos') ∧ Looked dos dos' ∧
      dos.place d gem = .error err) ∨
    (exists np dos', dos.resolveNewOn d gem = (.ok np, dos') ∧ Looked dos dos' ∧
      dos.place d gem = .ok np) := by
  rcases resolveNewOn_spec h d gem with ⟨hres, hlooked⟩
  cases hplace : dos.place d gem with
  | error err =>
      rw [hplace] at hres
      exact Or.inl ⟨err, _, Prod.ext hres rfl, hlooked, rfl⟩
  | ok np =>
      rw [hplace] at hres
      exact Or.inr ⟨np, _, Prod.ext hres rfl, hlooked, rfl⟩

theorem driveRo_looked {dos dos' : Dos} (h : Looked dos dos') (d : Nat) :
    dos'.driveRo d = dos.driveRo d := by
  rw [h.eq]
  rfl

theorem place_looked {dos dos' : Dos} (h : Looked dos dos') (d : Nat) (gem : Name) :
    dos'.place d gem = dos.place d gem := by
  rw [h.eq]
  rfl

/-!
## Calls that change nothing
-/

theorem doFopen_still (h : Good dos) (env : Env) (m : Mem) (d : Nat) (a : Addr)
    (bp : BitVec 32) : Still dos (doFopen env dos m d a bp).dos := by
  unfold doFopen
  rcases resolveOn_cases h d (rdstr m (rd32 m (a + 2))) with
    ⟨err, dos', hres, hlooked, _⟩ | ⟨host, v, dos', hres, hlooked, _⟩
  · simp only [hres]
    exact hlooked.still
  · simp only [hres]
    split
    · exact hlooked.still
    · split
      · exact hlooked.still
      · split
        · exact hlooked.still
        · exact hlooked.still.fileNew _

theorem doDsetpath_still (h : Good dos) (m : Mem) (d : Nat) (a : Addr) :
    Still dos (doDsetpath dos m d a).dos := by
  unfold doDsetpath
  dsimp only
  split
  · exact Still.refl h
  · rcases resolveOn_cases h d (rdstr m (rd32 m (a + 2))) with
      ⟨err, dos', hres, hlooked, _⟩ | ⟨host, v, dos', hres, hlooked, _⟩
    · simp only [hres]
      exact hlooked.still
    · simp only [hres]
      split
      · exact hlooked.still
      · exact ⟨hlooked.still.fs, hlooked.still.cache⟩

theorem doPexec_still (h : Good dos) (env : Env) (m : Mem) (d : Nat) (a : Addr) :
    Still dos (doPexec env dos m d a).dos := by
  unfold doPexec
  dsimp only
  split
  · exact Still.refl h
  · rcases resolveOn_cases h d (rdstr m (rd32 m (a + 4))) with
      ⟨err, dos', hres, hlooked, _⟩ | ⟨host, v, dos', hres, hlooked, _⟩
    · simp only [hres]
      exact hlooked.still
    · simp only [hres]
      split
      · exact hlooked.still
      · split
        · exact hlooked.still
        · split
          · exact hlooked.still
          · exact ⟨hlooked.still.fs, hlooked.still.cache⟩

theorem searchHits_computes (env : Env) (fs : HostFs) (dir : Path) (pat : Name)
    (attr : BitVec 16) (belowRoot : Bool) :
    Computes (Coherent fs.tree) (searchHits env fs dir pat attr belowRoot)
      (hitsIn env fs dir pat attr belowRoot (mapIn fs.tree dir)) :=
  (mapDir_computes fs dir).bind (Computes.pure _ _)

theorem doFsfirst_still (h : Good dos) (env : Env) (m : Mem) (d : Nat)
    (a dta : Addr) : Still dos (doFsfirst env dos m d a dta).dos := by
  unfold doFsfirst
  dsimp only
  split
  · exact Still.refl h
  · split
    · exact Still.refl h
    · split
      · exact Still.refl h
      · rename_i pat _
        have hwalk := onCache_still h (walkFrom_computes dos.fs
          ((dos.parseOn d (rdstr m (rd32 m (a + 2)))).take
            ((dos.parseOn d (rdstr m (rd32 m (a + 2)))).length - 1)) (dos.rootOf d))
        split
        · rename_i dos' heq
          unfold walk at heq
          rw [heq] at hwalk
          exact hwalk.2
        · rename_i dir dos' heq
          unfold walk at heq
          rw [heq] at hwalk
          have hstill := hwalk.2
          dsimp only at hstill
          have hsearch := (onCache_still hstill.good (searchHits_computes env dos'.fs dir pat
            (rd16 m (a + 6))
            (decide ((dos.parseOn d (rdstr m (rd32 m (a + 2)))).length > 1)))).2
          split
          · rename_i dos'' heq'
            rw [heq'] at hsearch
            have hboth := hstill.trans hsearch
            exact ⟨hboth.fs, hboth.cache⟩
          · rename_i hit rest dos'' heq'
            rw [heq'] at hsearch
            have hboth := hstill.trans hsearch
            exact ⟨hboth.fs, hboth.cache⟩

/-!
## Calls that change inodes

The tree, and so the tables, stay as they are.
-/

theorem writeFd_rewrites {env : Env} {fs fs' : HostFs} {v : Node} {pos k room put : Nat}
    {bs : List Byte} (h : writeFd env fs v pos k room bs = .ok (put, fs')) :
    Rewrites fs fs' (fun j => j = v.ino) := by
  unfold writeFd at h
  split at h
  · cases h
  · split at h
    · cases h
    · dsimp only at h
      split at h
      · injection h with h
        rw [← (Prod.mk.inj h).2]
        exact Rewrites.refl fs _
      · injection h with h
        rw [← (Prod.mk.inj h).2]
        exact modify_rewrites fs _ _

theorem fwriteLoop_rewrites (env : Env) (m : Mem) (v : Node) (count : Nat) (buf : Addr)
    (fuel k room pos total : Nat) (fs : HostFs) :
    Rewrites fs (fwriteLoop env m v count buf fuel k room pos total fs).2.2
      (fun j => j = v.ino) := by
  induction fuel generalizing k room pos total fs with
  | zero => exact Rewrites.refl fs _
  | succ fuel ih =>
      unfold fwriteLoop
      split
      · exact Rewrites.refl fs _
      · dsimp only
        split
        · exact Rewrites.refl fs _
        · rename_i put fs' hput
          have hwrite := writeFd_rewrites hput
          split
          · exact hwrite
          · exact hwrite.trans (ih _ _ _ _ fs')

structure Rewritten (dos dos' : Dos) (written : Nat -> Prop) : Prop where
  fs : Rewrites dos.fs dos'.fs written
  cache : Coherent dos.fs.tree dos'.cache

theorem Rewritten.good {dos dos' : Dos} {written : Nat -> Prop}
    (h : Rewritten dos dos' written) : Good dos' := by
  unfold Good
  rw [h.fs.tree]
  exact h.cache

theorem Still.rewritten {dos dos' : Dos} (h : Still dos dos') (written : Nat -> Prop) :
    Rewritten dos dos' written :=
  ⟨by rw [h.fs]; exact Rewrites.refl _ _, h.cache⟩

theorem doFattrib_rewritten (h : Good dos) (env : Env) (m : Mem) (d : Nat)
    (a : Addr) : Rewritten dos (doFattrib env dos m d a).dos (fun _ => False) := by
  unfold doFattrib
  rcases resolveOn_cases h d (rdstr m (rd32 m (a + 2))) with
    ⟨err, dos', hres, hlooked, _⟩ | ⟨host, v, dos', hres, hlooked, _⟩
  · simp only [hres]
    exact hlooked.still.rewritten _
  · simp only [hres]
    split
    · exact hlooked.still.rewritten _
    · split
      · exact hlooked.still.rewritten _
      · split
        · exact hlooked.still.rewritten _
        · split
          · exact hlooked.still.rewritten _
          · rename_i fs' hchmod
            rw [hlooked.still.fs] at hchmod
            rcases chmod_ok hchmod with ⟨q, _, hat⟩
            exact ⟨chmodAt_rewrites hat, hlooked.still.cache⟩

theorem doFdatime_rewritten (h : Good dos) (env : Env) (m : Mem) (a : Addr) :
    Rewritten dos (doFdatime env dos m a).dos (fun _ => False) := by
  have hstill := (Still.refl h).rewritten (fun _ => False)
  unfold doFdatime
  dsimp only
  split
  · exact hstill
  · split
    · split
      · exact hstill
      · split
        · exact hstill
        · refine ⟨?_, h⟩
          dsimp only
          apply modify_rewrites_none
          intro x
          rfl
    · exact hstill

theorem doFwrite_rewritten (h : Good dos) (env : Env) (m : Mem) (a : Addr) :
    Rewritten dos (doFwrite env dos m a).dos
      (fun j => exists i f, dos.fileOf (rd16 m (a + 2)) = some (i, f) ∧ j = f.node.ino) := by
  have hstill := (Still.refl h).rewritten
    (fun j => exists i f, dos.fileOf (rd16 m (a + 2)) = some (i, f) ∧ j = f.node.ino)
  unfold doFwrite
  dsimp only
  split
  · exact hstill
  · rename_i i f hfile
    split
    · exact hstill
    · have hloop := fwriteLoop_rewrites env m f.node (rd32 m (a + 4)).toNat (rd32 m (a + 8))
        (rd32 m (a + 4)).toNat 0 env.room f.pos 0 dos.fs
      refine ⟨⟨hloop.tree, ?_⟩, h⟩
      intro j hj
      apply hloop.data
      rintro rfl
      exact hj ⟨i, f, hfile, rfl⟩

theorem doFread_still (h : Good dos) (env : Env) (m : Mem) (a : Addr) :
    Still dos (doFread env dos m a).dos := by
  unfold doFread
  dsimp only
  split
  · exact Still.refl h
  · exact ⟨rfl, h⟩

theorem doFclose_still (h : Good dos) (m : Mem) (a : Addr) :
    Still dos (doFclose dos m a).dos := by
  unfold doFclose
  split
  · exact Still.refl h
  · exact ⟨rfl, h⟩

theorem doFseek_still (h : Good dos) (env : Env) (m : Mem) (a : Addr) :
    Still dos (doFseek env dos m a).dos := by
  unfold doFseek
  dsimp only
  split
  · exact Still.refl h
  · split
    · exact Still.refl h
    · split
      · exact Still.refl h
      · split
        · exact Still.refl h
        · exact ⟨rfl, h⟩

theorem doFsnext_still (h : Good dos) (m : Mem) (dta : Addr) :
    Still dos (doFsnext dos m dta).dos := by
  unfold doFsnext
  dsimp only
  split
  · exact Still.refl h
  · split
    · exact Still.refl h
    · split
      · exact ⟨rfl, h⟩
      · exact ⟨rfl, h⟩

theorem doLoad_still (h : Good dos) (env : Env) (m : Mem) (bp : Addr) :
    Still dos (doLoad env dos m bp).dos := by
  unfold doLoad
  dsimp only
  split
  · exact Still.refl h
  · split
    · exact ⟨rfl, h⟩
    · split
      · exact ⟨rfl, h⟩
      · exact ⟨rfl, h⟩
      · split
        · exact ⟨rfl, h⟩
        · split
          · exact ⟨rfl, h⟩
          · exact ⟨rfl, h⟩

/-!
## Calls that change the tree

They drop the cache.  Each is either refused, with an error and nothing changed,
or passes its checks and makes its change.
-/

structure Changed (dos : Dos) (fs' : HostFs) (dos' : Dos) : Prop where
  fs : dos'.fs = fs'
  cache : dos'.cache = []
  drives : dos'.drives = dos.drives
  cwd : dos'.cwd = dos.cwd

theorem Changed.good {dos dos' : Dos} {fs' : HostFs} (h : Changed dos fs' dos') :
    Good dos' := by
  unfold Good
  rw [h.cache]
  exact Coherent.nil _

theorem Changed.of_looked {dos dos' : Dos} (h : Looked dos dos') (fs' : HostFs) :
    Changed dos fs' { dos' with fs := fs' }.dcacheDrop := by
  rw [h.eq]
  exact ⟨rfl, rfl, rfl, rfl⟩

theorem Changed.fileNew {dos dos' : Dos} {fs' : HostFs} (h : Changed dos fs' dos')
    (f : HFile) : Changed dos fs' (dos'.fileNew f).2 := by
  unfold Dos.fileNew
  split
  · exact ⟨h.fs, h.cache, h.drives, h.cwd⟩
  · exact h

structure Refused (dos : Dos) (r : Reply) : Prop where
  still : Still dos r.dos
  negative : r.result < 0

theorem Refused.intro {dos dos' : Dos} {result : Int} (m : Mem) (h : Still dos dos')
    (hneg : result < 0) : Refused dos ⟨result, dos', m⟩ :=
  ⟨h, hneg⟩

theorem errnoTos_negative (e : Errno) {dflt : Int} (h : dflt < 0) : errnoTos e dflt < 0 := by
  cases e with
  | noent => exact h
  | _ =>
      dsimp only [errnoTos]
      decide

theorem walkIn_negative {t : Tree} {c : List Name} {h : Path} {err : Int}
    (hwalk : walkIn t h c = .error err) : err < 0 := by
  induction c generalizing h with
  | nil => cases hwalk
  | cons n rest ih =>
      unfold walkIn at hwalk
      split at hwalk
      · injection hwalk with hwalk
        rw [← hwalk]
        decide
      · split at hwalk
        · injection hwalk with hwalk
          rw [← hwalk]
          decide
        · split at hwalk
          · injection hwalk with hwalk
            rw [← hwalk]
            decide
          · exact ih hwalk

theorem place_negative {d : Nat} {gem : Name} {err : Int}
    (h : dos.place d gem = .error err) : err < 0 := by
  unfold Dos.place resolveNewIn at h
  split at h
  · injection h with h
    rw [← h]
    decide
  · split at h
    · rename_i err' hwalk
      injection h with h
      rw [← h]
      exact walkIn_negative hwalk
    · split at h
      · injection h with h
        rw [← h]
        decide
      · cases h

theorem found_negative {d : Nat} {gem : Name} {err : Int}
    (h : dos.found d gem = .error err) : err < 0 := by
  unfold Dos.found resolveIn at h
  split at h
  · split at h
    · cases h
    · injection h with h
      rw [← h]
      decide
  · split at h
    · rename_i err' hwalk
      injection h with h
      rw [← h]
      exact walkIn_negative hwalk
    · split at h
      · injection h with h
        rw [← h]
        decide
      · split at h
        · cases h
        · injection h with h
          rw [← h]
          decide

/-- What `Fcreate` leaves behind when it gets as far as opening the file. -/
structure Fcreated (env : Env) (dos : Dos) (d : Nat) (name : Name) (attr : BitVec 16)
    (np : NewPath) (fs : HostFs) (v : Node) (dos' : Dos) : Prop where
  attr_ok : attr &&& (FA_LABEL ||| FA_DIR) = 0
  writable : dos.driveRo d = false
  place : dos.place d name = .ok np
  unblocked : existBlocked dos.fs np = false
  opened : dos.fs.openCreate env (createPath np) = .ok (fs, v)
  changed : Changed dos (if attr &&& FA_RDONLY ≠ 0 then fs.fchmod env v 0o444 else fs) dos'

theorem doFcreate_cases (h : Good dos) (env : Env) (m : Mem) (d : Nat) (a : Addr)
    (bp : BitVec 32) :
    Refused dos (doFcreate env dos m d a bp) ∨
      exists np fs v, Fcreated env dos d (rdstr m (rd32 m (a + 2))) (rd16 m (a + 6)) np fs v
        (doFcreate env dos m d a bp).dos := by
  unfold doFcreate
  dsimp only
  split
  · exact Or.inl (Refused.intro m (Still.refl h) (by decide))
  · rename_i hattr
    split
    · exact Or.inl (Refused.intro m (Still.refl h) (by decide))
    · rename_i hro
      rcases resolveNewOn_cases h d (rdstr m (rd32 m (a + 2))) with
        ⟨err, dos', hres, hlooked, hplace⟩ | ⟨np, dos', hres, hlooked, hplace⟩
      · simp only [hres]
        exact Or.inl (Refused.intro m hlooked.still (place_negative hplace))
      · simp only [hres]
        split
        · exact Or.inl (Refused.intro m hlooked.still (by decide))
        · rename_i hblocked
          split
          · exact Or.inl (Refused.intro m hlooked.still (errnoTos_negative _ (by decide)))
          · rename_i fs v hopen
            rw [hlooked.still.fs] at hblocked hopen
            refine Or.inr ⟨np, fs, v, by simpa using hattr, by simpa using hro, hplace,
              by simpa using hblocked, hopen, ?_⟩
            exact (Changed.of_looked hlooked _).fileNew _

structure Dcreated (env : Env) (dos : Dos) (d : Nat) (name : Name) (np : NewPath)
    (fs : HostFs) (dos' : Dos) : Prop where
  writable : dos.driveRo d = false
  place : dos.place d name = .ok np
  unlisted : np.exist = none
  made : dos.fs.mkdir env (HostPath.join np.dir np.leaf) = .ok fs
  changed : Changed dos fs dos'

theorem doDcreate_cases (h : Good dos) (env : Env) (m : Mem) (d : Nat) (a : Addr) :
    Refused dos (doDcreate env dos m d a) ∨
      exists np fs, Dcreated env dos d (rdstr m (rd32 m (a + 2))) np fs
        (doDcreate env dos m d a).dos := by
  unfold doDcreate
  dsimp only
  split
  · exact Or.inl (Refused.intro m (Still.refl h) (by decide))
  · rename_i hro
    rcases resolveNewOn_cases h d (rdstr m (rd32 m (a + 2))) with
      ⟨err, dos', hres, hlooked, hplace⟩ | ⟨np, dos', hres, hlooked, hplace⟩
    · simp only [hres]
      exact Or.inl (Refused.intro m hlooked.still (place_negative hplace))
    · simp only [hres]
      split
      · exact Or.inl (Refused.intro m hlooked.still (by decide))
      · rename_i hexist
        split
        · exact Or.inl (Refused.intro m hlooked.still (errnoTos_negative _ (by decide)))
        · rename_i fs hmade
          rw [hlooked.still.fs] at hmade
          exact Or.inr ⟨np, fs, by simpa using hro, hplace, by simpa using hexist, hmade,
            Changed.of_looked hlooked _⟩

structure Frenamed (env : Env) (dos : Dos) (d : Nat) (oldn newn : Name) (host : Path)
    (v : Node) (np : NewPath) (fs : HostFs) (dos' : Dos) : Prop where
  same_drive : otherDrive newn d = false
  writable : dos.driveRo d = false
  found : dos.found d oldn = .ok (host, v)
  place : dos.place d newn = .ok np
  unlisted : np.exist = none
  renamed : dos.fs.rename env host (HostPath.join np.dir np.leaf) = .ok fs
  changed : Changed dos fs dos'

theorem Looked.trans {dos dos' dos'' : Dos} (h : Looked dos dos') (h' : Looked dos' dos'') :
    Looked dos dos'' := by
  refine ⟨h.still.trans h'.still, ?_⟩
  rw [h'.eq, h.eq]

theorem doFrename_cases (h : Good dos) (env : Env) (m : Mem) (d : Nat) (a : Addr) :
    Refused dos (doFrename env dos m d a) ∨
      exists host v np fs, Frenamed env dos d (rdstr m (rd32 m (a + 4)))
        (rdstr m (rd32 m (a + 8))) host v np fs (doFrename env dos m d a).dos := by
  unfold doFrename
  dsimp only
  split
  · exact Or.inl (Refused.intro m (Still.refl h) (by decide))
  · rename_i hdrive
    rcases resolveOn_cases h d (rdstr m (rd32 m (a + 4))) with
      ⟨err, dos', hres, hlooked, hfound⟩ | ⟨host, v, dos', hres, hlooked, hfound⟩
    · simp only [hres]
      exact Or.inl (Refused.intro m hlooked.still (found_negative hfound))
    · simp only [hres]
      split
      · exact Or.inl (Refused.intro m hlooked.still (by decide))
      · rename_i hro
        rcases resolveNewOn_cases hlooked.still.good d (rdstr m (rd32 m (a + 8))) with
          ⟨err, dos'', hnew, hlooked', hplace⟩ | ⟨np, dos'', hnew, hlooked', hplace⟩
        · simp only [hnew]
          exact Or.inl (Refused.intro m (hlooked.trans hlooked').still (place_negative hplace))
        · simp only [hnew]
          have hboth := hlooked.trans hlooked'
          split
          · exact Or.inl (Refused.intro m hboth.still (by decide))
          · rename_i hexist
            split
            · exact Or.inl (Refused.intro m hboth.still (errnoTos_negative _ (by decide)))
            · rename_i fs hrename
              rw [hboth.still.fs] at hrename
              rw [place_looked hlooked] at hplace
              have hwritable : dos.driveRo d = false := by
                rw [driveRo_looked hlooked] at hro
                simpa using hro
              exact Or.inr ⟨host, v, np, fs, by simpa using hdrive, hwritable, hfound, hplace,
                by simpa using hexist, hrename, Changed.of_looked hboth _⟩

/-- What `Fdelete` and `Ddelete` leave behind when they succeed: the tree without
the entry they name, below which there was nothing. -/
structure Deleted (dos : Dos) (d : Nat) (name : Name) (host q : Path) (fs : HostFs)
    (dos' : Dos) : Prop where
  writable : dos.driveRo d = false
  found : exists v, dos.found d name = .ok (host, v)
  entry : entryOf dos.fs.tree host = .ok q
  childless : dos.fs.tree.children q = []
  removed : Rewrites (dos.fs.prune q) fs (fun _ => False)
  changed : Changed dos fs dos'

theorem doFdelete_cases (h : Good dos) (env : Env) (m : Mem) (d : Nat) (a : Addr) :
    Still dos (doFdelete env dos m d a).dos ∨
      exists host q fs, Deleted dos d (rdstr m (rd32 m (a + 2))) host q fs
        (doFdelete env dos m d a).dos := by
  unfold doFdelete
  rcases resolveOn_cases h d (rdstr m (rd32 m (a + 2))) with
    ⟨err, dos', hres, hlooked, _⟩ | ⟨host, v, dos', hres, hlooked, hfound⟩
  · simp only [hres]
    exact Or.inl hlooked.still
  · simp only [hres]
    split
    · exact Or.inl hlooked.still
    · split
      · exact Or.inl hlooked.still
      · rename_i hro
        split
        · exact Or.inl hlooked.still
        · split
          · exact Or.inl hlooked.still
          · rename_i fs hunlink
            rw [hlooked.still.fs] at hunlink
            rcases unlink_ok hunlink with ⟨q, hentry, hat⟩
            rcases unlinkAt_spec hat with ⟨hnil, hremoved⟩
            have hwritable : dos.driveRo d = false := by
              rw [driveRo_looked hlooked] at hro
              simpa using hro
            exact Or.inr ⟨host, q, fs, hwritable, ⟨v, hfound⟩, hentry, hnil, hremoved,
              Changed.of_looked hlooked _⟩

theorem doDdelete_cases (h : Good dos) (env : Env) (m : Mem) (d : Nat) (a : Addr) :
    Still dos (doDdelete env dos m d a).dos ∨
      exists host q fs, Deleted dos d (rdstr m (rd32 m (a + 2))) host q fs
        (doDdelete env dos m d a).dos := by
  unfold doDdelete
  rcases resolveOn_cases h d (rdstr m (rd32 m (a + 2))) with
    ⟨err, dos', hres, hlooked, _⟩ | ⟨host, v, dos', hres, hlooked, hfound⟩
  · simp only [hres]
    exact Or.inl hlooked.still
  · simp only [hres]
    split
    · exact Or.inl hlooked.still
    · split
      · exact Or.inl hlooked.still
      · rename_i hro
        split
        · exact Or.inl hlooked.still
        · rename_i fs hrmdir
          rw [hlooked.still.fs] at hrmdir
          rcases rmdir_ok hrmdir with ⟨q, hentry, hat⟩
          rcases rmdirAt_spec hat with ⟨hnil, hremoved⟩
          have hwritable : dos.driveRo d = false := by
            rw [driveRo_looked hlooked] at hro
            simpa using hro
          exact Or.inr ⟨host, q, fs, hwritable, ⟨v, hfound⟩, hentry, hnil, hremoved,
            Changed.of_looked hlooked _⟩

/-!
## One operation

What any operation of the NatFeat can do to the host, with the call that does it.
-/

/-- A guest call that reaches the dispatcher with function number `fn`. -/
structure Dispatched (dos : Dos) (op : Op) (fn : Nat) (env : Env) (m : Mem) (a : Addr)
    (d : Nat) : Prop where
  eq : exists p, op = .call env m 2 p ∧ a = p 0 ∧ d = (p 1).toNat
  native : dos.mint = false
  function : (rd16 m a).toNat = fn

inductive Effect (dos : Dos) (op : Op) (dos' : Dos) : Prop where
  | still (h : Still dos dos')
  | inodes (h : Rewritten dos dos' (fun _ => False))
  | fwrite {env : Env} {m : Mem} {a : Addr} {d : Nat}
      (hop : Dispatched dos op 0x40 env m a d)
      (h : Rewritten dos dos' (fun j =>
        exists i f, dos.fileOf (rd16 m (a + 2)) = some (i, f) ∧ j = f.node.ino))
  | fcreate {env : Env} {m : Mem} {a : Addr} {d : Nat} {np : NewPath} {fs : HostFs} {v : Node}
      (hop : Dispatched dos op 0x3C env m a d) (hdrive : dos.driveOk d = true)
      (h : Fcreated env dos d (rdstr m (rd32 m (a + 2))) (rd16 m (a + 6)) np fs v dos')
  | dcreate {env : Env} {m : Mem} {a : Addr} {d : Nat} {np : NewPath} {fs : HostFs}
      (hop : Dispatched dos op 0x39 env m a d) (hdrive : dos.driveOk d = true)
      (h : Dcreated env dos d (rdstr m (rd32 m (a + 2))) np fs dos')
  | frename {env : Env} {m : Mem} {a : Addr} {d : Nat} {host : Path} {v : Node}
      {np : NewPath} {fs : HostFs}
      (hop : Dispatched dos op 0x56 env m a d) (hdrive : dos.driveOk d = true)
      (h : Frenamed env dos d (rdstr m (rd32 m (a + 4))) (rdstr m (rd32 m (a + 8))) host v np
        fs dos')
  | fdelete {env : Env} {m : Mem} {a : Addr} {d : Nat} {host q : Path} {fs : HostFs}
      (hop : Dispatched dos op 0x41 env m a d) (hdrive : dos.driveOk d = true)
      (h : Deleted dos d (rdstr m (rd32 m (a + 2))) host q fs dos')
  | ddelete {env : Env} {m : Mem} {a : Addr} {d : Nat} {host q : Path} {fs : HostFs}
      (hop : Dispatched dos op 0x3A env m a d) (hdrive : dos.driveOk d = true)
      (h : Deleted dos d (rdstr m (rd32 m (a + 2))) host q fs dos')

theorem dispatch_effect (h : Good dos) {op : Op} {env : Env} {m : Mem}
    {p : Nat -> BitVec 32} (hop : op = .call env m 2 p) (hnative : dos.mint = false) :
    Effect dos op (dispatch env dos m (p 0) (p 1).toNat (p 2) (p 3)).dos := by
  have hcall : forall fn, (rd16 m (p 0)).toNat = fn ->
      Dispatched dos op fn env m (p 0) (p 1).toNat :=
    fun fn hfn => ⟨⟨p, hop, rfl, rfl⟩, hnative, hfn⟩
  unfold dispatch
  split
  · exact .still (doFclose_still h m _)
  · exact .still (doFread_still h env m _)
  · rename_i hfn
    exact .fwrite (hcall _ hfn) (doFwrite_rewritten h env m _)
  · exact .still (doFseek_still h env m _)
  · exact .inodes (doFdatime_rewritten h env m _)
  · exact .still (doFsnext_still h m _)
  · split
    · exact .still (Still.refl h)
    · rename_i hdrive
      have hdrive : dos.driveOk (p 1).toNat = true := by simpa using hdrive
      split
      · exact .still ⟨rfl, h⟩
      · rename_i hfn
        rcases doDcreate_cases h env m (p 1).toNat (p 0) with hrefused | ⟨np, fs, hmade⟩
        · exact .still hrefused.still
        · exact .dcreate (hcall _ hfn) hdrive hmade
      · rename_i hfn
        rcases doDdelete_cases h env m (p 1).toNat (p 0) with hstill | ⟨host, q, fs, hdel⟩
        · exact .still hstill
        · exact .ddelete (hcall _ hfn) hdrive hdel
      · exact .still (doDsetpath_still h m _ _)
      · rename_i hfn
        rcases doFcreate_cases h env m (p 1).toNat (p 0) (p 2) with
          hrefused | ⟨np, fs, v, hmade⟩
        · exact .still hrefused.still
        · exact .fcreate (hcall _ hfn) hdrive hmade
      · exact .still (doFopen_still h env m _ _ _)
      · rename_i hfn
        rcases doFdelete_cases h env m (p 1).toNat (p 0) with hstill | ⟨host, q, fs, hdel⟩
        · exact .still hstill
        · exact .fdelete (hcall _ hfn) hdrive hdel
      · exact .inodes (doFattrib_rewritten h env m _ _)
      · exact .still ⟨rfl, h⟩
      · exact .still (doPexec_still h env m _ _)
      · exact .still (doFsfirst_still h env m _ _ _)
      · rename_i hfn
        rcases doFrename_cases h env m (p 1).toNat (p 0) with
          hrefused | ⟨host, v, np, fs, hmoved⟩
        · exact .still hrefused.still
        · exact .frename (hcall _ hfn) hdrive hmoved
      · exact .still (Still.refl h)

theorem step_effect (h : Good dos) (op : Op) : Effect dos op (step dos op) := by
  cases op with
  | mount =>
      refine .still ⟨?_, ?_⟩
      · unfold step noteMint
        dsimp only
        split
        · rfl
        · rfl
      · unfold step noteMint
        dsimp only
        split
        · exact h
        · exact Coherent.nil _
  | call env m subid p =>
      show Effect dos _ (hostdosCall env dos m subid p).dos
      unfold hostdosCall
      split
      · exact .still (Still.refl h)
      · exact .still ⟨rfl, Coherent.nil _⟩
      · split
        · exact .still (Still.refl h)
        · rename_i hmint
          exact dispatch_effect h rfl (by simpa using hmint)
      · exact .still ⟨rfl, h⟩
      · exact .still (Still.refl h)
      · exact .still (doLoad_still h env m _)
      · exact .still (Still.refl h)

theorem Effect.good {dos dos' : Dos} {op : Op} (h : Effect dos op dos') : Good dos' := by
  cases h with
  | still h => exact h.good
  | inodes h => exact h.good
  | fwrite _ h => exact h.good
  | fcreate _ _ h => exact h.changed.good
  | dcreate _ _ h => exact h.changed.good
  | frename _ _ h => exact h.changed.good
  | fdelete _ _ h => exact h.changed.good
  | ddelete _ _ h => exact h.changed.good

theorem init_good (drives : Nat -> Drive) (fs : HostFs) : Good (Dos.init drives fs) :=
  Coherent.nil _

/-- The cache never shows a table that is not the folder's, whatever is called. -/
theorem runOps_good (drives : Nat -> Drive) (fs : HostFs) (ops : List Op) :
    Good (runOps drives fs ops) := by
  have hstep : forall dos op, Good dos -> Good (step dos op) :=
    fun _ op h => (step_effect h op).good
  exact run_invariant hstep (init_good drives fs) ops

end Hostdos
end PistormAtari
