import PistormAtari.Hostdos.Session
import PistormAtari.Hostdos.Untouched

/-!
# Read-only drives

A drive is read-only by its letter: calls that would change it are refused, by
path or by handle.  Its folder stays as it is if no writable drive leads into it.
-/

namespace PistormAtari
namespace Hostdos

open Foundation

/-!
## Changes elsewhere

`r` is the folder that is to stay as it is.
-/

structure Apart (r p : Path) : Prop where
  not_below : ¬ r <+: p
  not_above : ¬ p <+: r

theorem Apart.below {r p q : Path} (h : Apart r p) (hpq : p <+: q) : Apart r q where
  not_below := by
    intro hrq
    rcases List.prefix_or_prefix_of_prefix hrq hpq with hrp | hpr
    · exact h.not_below hrp
    · exact h.not_above hpr
  not_above := fun hqr => h.not_above (hpq.trans hqr)

def Sealed (r : Path) (fs : HostFs) : Prop :=
  forall p q v w, r <+: p -> ¬ r <+: q -> fs.tree.get p = some v -> fs.tree.get q = some w ->
    v.ino ≠ w.ino

def Clear (r : Path) (fs : HostFs) (i : Nat) : Prop :=
  forall p v, r <+: p -> fs.tree.get p = some v -> v.ino ≠ i

/-- No file in `r` has a second name outside it, and there is no symbolic link along
the way. -/
structure Fenced (r : Path) (way : Path -> Prop) (fs : HostFs) : Prop where
  links : Sealed r fs
  plain : forall p v, way p -> fs.tree.get p = some v -> v.link = none

structure Spared (r : Path) (way : Path -> Prop) (fs fs' : HostFs) : Prop where
  get : forall p, r <+: p -> fs'.tree.get p = fs.tree.get p
  inode : forall p v, r <+: p -> fs.tree.get p = some v -> fs'.inode v.ino = fs.inode v.ino
  fenced : Fenced r way fs'

variable {r : Path} {way : Path -> Prop} {fs fs' : HostFs}

theorem Spared.refl (h : Fenced r way fs) : Spared r way fs fs :=
  ⟨fun _ _ => rfl, fun _ _ _ _ => rfl, h⟩

theorem Spared.trans {fs'' : HostFs} (h : Spared r way fs fs') (h' : Spared r way fs' fs'') :
    Spared r way fs fs'' where
  get := fun p hp => (h'.get p hp).trans (h.get p hp)
  inode := by
    intro p v hp hv
    rw [h'.inode p v hp (by rw [h.get p hp]; exact hv), h.inode p v hp hv]
  fenced := h'.fenced

/-- What is at a place in the tree, without following a link that is there. -/
def HostFs.lstat (fs : HostFs) (p : Path) : Option Stat :=
  (fs.tree.get p).map (fun v => ⟨v, fs.inode v.ino⟩)

theorem Spared.lstat (h : Spared r way fs fs') {p : Path} (hp : r <+: p) :
    fs'.lstat p = fs.lstat p := by
  unfold HostFs.lstat
  rw [h.get p hp]
  cases hget : fs.tree.get p with
  | none => rfl
  | some v =>
      dsimp only [Option.map_some]
      rw [h.inode p v hp hget]

theorem Spared.clear (h : Spared r way fs fs') {i : Nat} (hi : Clear r fs i) : Clear r fs' i := by
  intro p v hp hv
  rw [h.get p hp] at hv
  exact hi p v hp hv

theorem Fenced.clear (h : Fenced r way fs) {q : Path} {w : Node} (hq : ¬ r <+: q)
    (hw : fs.tree.get q = some w) : Clear r fs w.ino :=
  fun p v hp hv => h.links p q v w hp hq hv hw

theorem modify_spared (h : Fenced r way fs) {i : Nat} (hi : Clear r fs i)
    (f : Inode -> Inode) : Spared r way fs (fs.modify i f) where
  get := fun _ _ => rfl
  inode := fun p v hp hv => Function.update_of_ne (hi p v hp hv) _ _
  fenced := ⟨h.links, h.plain⟩

theorem touch_spared (h : Fenced r way fs) {q : Path} (hq : ¬ r <+: q) (now : Int) :
    Spared r way fs (fs.touch q now) := by
  unfold HostFs.touch
  split
  · rename_i w hw
    exact modify_spared h (h.clear hq hw) _
  · exact Spared.refl h

theorem link_of_plain {v : Node} (h : v.kind.plain = true) : v.link = none := by
  unfold Node.link
  cases hkind : v.kind with
  | link held =>
      rw [hkind] at h
      cases h
  | _ => rfl

theorem addNode_spared (h : Fenced r way fs) {d : Path} {n : Name} (hout : ¬ r <+: d ++ [n])
    {kind : Kind} (hkind : kind.plain = true) (mode : BitVec 12) (now : Int)
    (hins : fs.tree.Insertable d n) :
    Spared r way fs (fs.addNode d n kind mode now hins) := by
  have hget : forall q, (fs.addNode d n kind mode now hins).tree.get q =
      if q = d ++ [n] then some ⟨fs.nextIno, kind⟩ else fs.tree.get q :=
    PathTree.get_insert fs.tree _ hins
  have hbelow : forall p, r <+: p -> (fs.addNode d n kind mode now hins).tree.get p =
      fs.tree.get p := by
    intro p hp
    rw [hget, if_neg]
    rintro rfl
    exact hout hp
  refine ⟨hbelow, ?_, ?_, ?_⟩
  · intro p v _ hv
    exact Function.update_of_ne (Nat.ne_of_lt (fs.fresh p v hv)) _ _
  · intro p q v w hp hq hv hw
    rw [hbelow p hp] at hv
    rw [hget] at hw
    split at hw
    · injection hw with hw
      rw [← hw]
      exact Nat.ne_of_lt (fs.fresh p v hv)
    · exact h.links p q v w hp hq hv hw
  · intro p v hp hv
    rw [hget] at hv
    split at hv
    · injection hv with hv
      rw [← hv]
      exact link_of_plain hkind
    · exact h.plain p v hp hv

theorem prune_spared (h : Fenced r way fs) {p : Path} (hp : Apart r p) :
    Spared r way fs (fs.prune p) := by
  have hget : forall q, (fs.prune p).tree.get q = if p <+: q then none else fs.tree.get q :=
    PathTree.get_prune fs.tree p
  have hbelow : forall q, r <+: q -> (fs.prune p).tree.get q = fs.tree.get q := by
    intro q hq
    rw [hget, if_neg]
    intro hpq
    exact (hp.below hpq).not_below hq
  refine ⟨hbelow, fun _ _ _ _ => rfl, ?_, ?_⟩
  · intro a b v w ha hb hv hw
    rw [hbelow a ha] at hv
    rw [hget] at hw
    split at hw
    · cases hw
    · exact h.links a b v w ha hb hv hw
  · intro q v hq hv
    rw [hget] at hv
    split at hv
    · cases hv
    · exact h.plain q v hq hv

theorem move_spared (h : Fenced r way fs) {old d : Path} {n : Name} (hold : Apart r old)
    (hnew : Apart r (d ++ [n])) (hway : forall q, old <+: q -> way q)
    (hmove : fs.tree.Movable old d n) : Spared r way fs (fs.move old d n hmove) := by
  have hbelow : forall q, r <+: q -> (fs.move old d n hmove).tree.get q = fs.tree.get q := by
    intro q hq
    show (fs.tree.move old d n hmove).get q = _
    rw [PathTree.get_move_outside hmove (fun hpre => (hnew.below hpre).not_below hq),
      PathTree.get_prune, if_neg (fun hpre => (hold.below hpre).not_below hq)]
  refine ⟨hbelow, fun _ _ _ _ => rfl, ?_, ?_⟩
  · intro a b v w ha hb hv hw
    rw [hbelow a ha] at hv
    have hw : (fs.tree.move old d n hmove).get b = some w := hw
    rcases PathTree.get_move_eq_some_iff.mp hw with ⟨p, hp, hplace⟩
    refine h.links a p v w ha ?_ hv hp
    intro hrp
    rw [relocate_outside _ (fun hpre => (hold.below hpre).not_below hrp)] at hplace
    rw [hplace] at hrp
    exact hb hrp
  · intro q v hq hv
    have hv : (fs.tree.move old d n hmove).get q = some v := hv
    rcases PathTree.get_move_eq_some_iff.mp hv with ⟨p, hp, hplace⟩
    rcases Decidable.em (old <+: p) with hpre | hpre
    · exact h.plain p v (hway p hpre) hp
    · rw [relocate_outside _ hpre] at hplace
      exact h.plain p v (hplace ▸ hq) hp

/-!
## The kernel's calls
-/

theorem not_prefix_dropLast {p : Path} (h : ¬ r <+: p) : ¬ r <+: p.dropLast :=
  fun hpre => h (hpre.trans (List.dropLast_prefix p))

section

variable (h : Fenced r way fs)

include h

variable {env : Env}

theorem create_spared {p : Path} {kind : Kind} {mode : BitVec 12} {v : Node}
    (hkind : kind.plain = true) (hp : ¬ r <+: p)
    (hcreate : fs.create env p kind mode = .ok (fs', v)) : Spared r way fs fs' := by
  unfold HostFs.create at hcreate
  split at hcreate
  · cases hcreate
  · rename_i n hlast
    split at hcreate
    · rename_i hins
      injection hcreate with hcreate
      rw [← (Prod.mk.inj hcreate).1]
      have hout : ¬ r <+: p.dropLast ++ [n] := by
        rw [List.dropLast_append_getLast? n hlast]
        exact hp
      have hadd := addNode_spared h hout hkind (mode &&& ~~~ env.umask) env.now hins
      exact hadd.trans (touch_spared hadd.fenced (not_prefix_dropLast hp) _)
    · cases hcreate

theorem openAt_spared {p : Path} {v : Node}
    (hp : ¬ r <+: p) (hopen : fs.openAt env p = .ok (fs', v)) : Spared r way fs fs' := by
  unfold HostFs.openAt at hopen
  split at hopen
  · cases hopen
  · split at hopen
    · exact create_spared h rfl hp hopen
    · rename_i w hw
      split at hopen
      · cases hopen
      · cases hopen
      · injection hopen with hopen
        rw [← (Prod.mk.inj hopen).1]
        exact Spared.refl h
      · injection hopen with hopen
        rw [← (Prod.mk.inj hopen).1]
        exact modify_spared h (h.clear hp hw) _

theorem mkdirAt_spared {p : Path} (hp : ¬ r <+: p)
    (hmkdir : fs.mkdirAt env p = .ok fs') : Spared r way fs fs' := by
  unfold HostFs.mkdirAt at hmkdir
  split at hmkdir
  · cases hmkdir
  · split at hmkdir
    · cases hmkdir
    · cases hcreate : fs.create env p Kind.dir 0o755 with
      | error e =>
          rw [hcreate] at hmkdir
          cases hmkdir
      | ok made =>
          rw [hcreate] at hmkdir
          injection hmkdir with hmkdir
          rw [← hmkdir]
          exact create_spared h rfl hp hcreate

theorem pruned_spared {p : Path} (hp : Apart r p) (now : Int) :
    Spared r way fs ((fs.prune p).touch p.dropLast now) := by
  have hprune := prune_spared h hp
  exact hprune.trans (touch_spared hprune.fenced (not_prefix_dropLast hp.not_below) _)

theorem unlinkAt_spared {p : Path} (hp : Apart r p)
    (hunlink : fs.unlinkAt env p = .ok fs') : Spared r way fs fs' := by
  unfold HostFs.unlinkAt at hunlink
  split at hunlink
  · cases hunlink
  · split at hunlink
    · cases hunlink
    · split at hunlink
      · cases hunlink
      · injection hunlink with hunlink
        rw [← hunlink]
        exact pruned_spared h hp env.now

theorem rmdirAt_spared {p : Path} (hp : Apart r p)
    (hrmdir : fs.rmdirAt env p = .ok fs') : Spared r way fs fs' := by
  unfold HostFs.rmdirAt at hrmdir
  split at hrmdir
  · cases hrmdir
  · split at hrmdir
    · cases hrmdir
    · split at hrmdir
      · cases hrmdir
      · split at hrmdir
        · cases hrmdir
        · split at hrmdir
          · cases hrmdir
          · injection hrmdir with hrmdir
            rw [← hrmdir]
            exact pruned_spared h hp env.now

theorem renameTo_spared {old d : Path} {n : Name}
    (hold : Apart r old) (hnew : Apart r (d ++ [n])) (hway : forall q, old <+: q -> way q)
    (hrename : fs.renameTo env old d n = .ok fs') : Spared r way fs fs' := by
  unfold HostFs.renameTo at hrename
  split at hrename
  · rename_i hmove
    injection hrename with hrename
    rw [← hrename]
    have hd : ¬ r <+: d := fun hpre => hnew.not_below (hpre.trans (List.prefix_append d _))
    have hmoved := move_spared h hold hnew hway hmove
    have htouched := hmoved.trans (touch_spared hmoved.fenced
      (not_prefix_dropLast hold.not_below) env.now)
    exact htouched.trans (touch_spared htouched.fenced hd env.now)
  · cases hrename

theorem renameAt_spared {old : Path} {new : HostPath}
    (hold : Apart r old) (hnew : Apart r new.path) (hway : forall q, old <+: q -> way q)
    (hrename : fs.renameAt env old new = .ok fs') : Spared r way fs fs' := by
  unfold HostFs.renameAt at hrename
  split at hrename
  · cases hrename
  · split at hrename
    · cases hrename
    · cases hrename
    · rename_i v n _ hlast
      have hpath : new.path.dropLast ++ [n] = new.path := List.dropLast_append_getLast? n hlast
      have hplace : Apart r (new.path.dropLast ++ [n]) := by rwa [hpath]
      split at hrename
      · cases hrename
      · split at hrename
        · cases hrename
        · split at hrename
          · cases hrename
          · split at hrename
            · exact renameTo_spared h hold hplace hway hrename
            · split at hrename
              · injection hrename with hrename
                rw [← hrename]
                exact Spared.refl h
              · split at hrename
                · cases hrename
                · split at hrename
                  · cases hrename
                  · split at hrename
                    · cases hrename
                    · have hprune := prune_spared h hnew
                      exact hprune.trans
                        (renameTo_spared hprune.fenced hold hplace hway hrename)

theorem chmodAt_spared {p : Path} {mode : BitVec 12}
    (hp : ¬ r <+: p) (hchmod : fs.chmodAt env p mode = .ok fs') : Spared r way fs fs' := by
  unfold HostFs.chmodAt at hchmod
  split at hchmod
  · cases hchmod
  · split at hchmod
    · cases hchmod
    · rename_i v hv
      injection hchmod with hchmod
      rw [← hchmod]
      exact modify_spared h (h.clear hp hv) _

theorem fchmod_spared (env : Env) {v : Node} (hv : Clear r fs v.ino)
    (mode : BitVec 12) : Spared r way fs (fs.fchmod env v mode) := by
  unfold HostFs.fchmod
  split
  · exact Spared.refl h
  · exact modify_spared h hv _

theorem writeFd_spared {v : Node} {pos k room put : Nat} {bs : List Byte} (hv : Clear r fs v.ino)
    (hwrite : writeFd env fs v pos k room bs = .ok (put, fs')) : Spared r way fs fs' := by
  unfold writeFd at hwrite
  split at hwrite
  · cases hwrite
  · split at hwrite
    · cases hwrite
    · dsimp only at hwrite
      split at hwrite
      · injection hwrite with hwrite
        rw [← (Prod.mk.inj hwrite).2]
        exact Spared.refl h
      · injection hwrite with hwrite
        rw [← (Prod.mk.inj hwrite).2]
        exact modify_spared h hv _

end

theorem fwriteLoop_spared (env : Env) (m : Mem) {v : Node} (count : Nat) (buf : Addr)
    (fuel k room pos total : Nat) (h : Fenced r way fs) (hv : Clear r fs v.ino) :
    Spared r way fs (fwriteLoop env m v count buf fuel k room pos total fs).2.2 := by
  induction fuel generalizing k room pos total fs with
  | zero => exact Spared.refl h
  | succ fuel ih =>
      unfold fwriteLoop
      split
      · exact Spared.refl h
      · dsimp only
        split
        · exact Spared.refl h
        · rename_i put fs1 hput
          have hspared := writeFd_spared h hv hput
          split
          · exact hspared
          · exact hspared.trans (ih _ _ _ _ hspared.fenced (hspared.clear hv))

/-!
## The engine's calls
-/

/-- No writable drive leads into `r`, or has `r` on the way to its root. -/
def Walled (r : Path) (dos : Dos) : Prop :=
  forall d, dos.driveOk d = true -> dos.driveRo d = false -> Apart r (dos.rootOf d)

def SafeHandle (r : Path) (dos : Dos) (f : HFile) : Prop :=
  dos.driveRo f.drive = false -> Clear r dos.fs f.node.ino

def SafeHandles (r : Path) (dos : Dos) : Prop :=
  forall f, some f ∈ dos.files -> SafeHandle r dos f

variable {dos dos' : Dos}

/-- `p` is on the way to the folder of a writable drive, or below it. -/
def OnWay (dos : Dos) (p : Path) : Prop :=
  exists d, dos.driveOk d = true ∧ dos.driveRo d = false ∧
    (p <+: dos.rootOf d ∨ dos.rootOf d <+: p)

theorem OnWay.of_below {d : Nat} {host q : Path} (hdrive : dos.driveOk d = true)
    (hro : dos.driveRo d = false) (hroot : dos.rootOf d <+: host)
    (hq : q <+: host ∨ host <+: q) : OnWay dos q := by
  refine ⟨d, hdrive, hro, ?_⟩
  rcases hq with hq | hq
  · exact List.prefix_or_prefix_of_prefix hq hroot
  · exact Or.inr (hroot.trans hq)

section

variable (hf : Fenced r (OnWay dos) dos.fs) {d : Nat} {host q : Path}
  (hdrive : dos.driveOk d = true) (hro : dos.driveRo d = false) (hroot : dos.rootOf d <+: host)

include hf hdrive hro hroot

theorem Fenced.eq_of_namei (h : namei dos.fs.tree host = .ok q) : q = host :=
  Hostdos.eq_of_namei
    (fun p v hp hv => hf.plain p v (OnWay.of_below hdrive hro hroot (Or.inl hp)) hv) h

theorem Fenced.eq_of_entryOf (h : entryOf dos.fs.tree host = .ok q) : q = host :=
  Hostdos.eq_of_entryOf
    (fun p v hp hv => hf.plain p v (OnWay.of_below hdrive hro hroot (Or.inl hp)) hv) h

end

theorem Still.spared (h : Still dos dos') (hf : Fenced r way dos.fs) :
    Spared r way dos.fs dos'.fs := by
  rw [h.fs]
  exact Spared.refl hf

section

variable (h : Good dos) (hf : Fenced r (OnWay dos) dos.fs) (hwalled : Walled r dos)

include h hf hwalled

theorem doFcreate_spared (env : Env) (m : Mem) {d : Nat} (a : Addr) (bp : BitVec 32)
    (hdrive : dos.driveOk d = true) :
    Spared r (OnWay dos) dos.fs (doFcreate env dos m d a bp).dos.fs := by
  rcases doFcreate_cases h env m d a bp with hrefused | ⟨np, fs1, v, hmade⟩
  · exact hrefused.still.spared hf
  · have hroot := prefix_createPath hmade.place
    have hapart := (hwalled d hdrive hmade.writable).below hroot
    rcases openCreate_ok hmade.opened with ⟨_, q, hq, hat⟩
    have heq := hf.eq_of_namei hdrive hmade.writable hroot hq
    rw [← heq] at hapart
    have hspared := openAt_spared hf hapart.not_below hat
    rw [hmade.changed.fs]
    split
    · exact hspared.trans (fchmod_spared hspared.fenced env
        (hspared.fenced.clear hapart.not_below (get_openAt hat)) _)
    · exact hspared

theorem doDcreate_spared (env : Env) (m : Mem) {d : Nat} (a : Addr)
    (hdrive : dos.driveOk d = true) :
    Spared r (OnWay dos) dos.fs (doDcreate env dos m d a).dos.fs := by
  rcases doDcreate_cases h env m d a with hrefused | ⟨np, fs1, hmade⟩
  · exact hrefused.still.spared hf
  · have hroot := prefix_join hmade.place
    have hapart := (hwalled d hdrive hmade.writable).below hroot
    rcases mkdir_ok hmade.made with ⟨q, hq, hat⟩
    rw [← hf.eq_of_entryOf hdrive hmade.writable hroot hq] at hapart
    rw [hmade.changed.fs]
    exact mkdirAt_spared hf hapart.not_below hat

theorem doFrename_spared (env : Env) (m : Mem) {d : Nat} (a : Addr)
    (hdrive : dos.driveOk d = true) :
    Spared r (OnWay dos) dos.fs (doFrename env dos m d a).dos.fs := by
  rcases doFrename_cases h env m d a with hrefused | ⟨host, v, np, fs1, hmoved⟩
  · exact hrefused.still.spared hf
  · have hapart := hwalled d hdrive hmoved.writable
    have hroot := prefix_found hmoved.found
    have hplace := prefix_join hmoved.place
    rcases rename_ok hmoved.renamed with ⟨old, new, hold, hnew, hat⟩
    have heq := hf.eq_of_entryOf hdrive hmoved.writable hroot hold
    rw [hf.eq_of_entryOf hdrive hmoved.writable hplace hnew] at hat
    rw [heq] at hat
    rw [hmoved.changed.fs]
    exact renameAt_spared hf (hapart.below hroot) (hapart.below hplace)
      (fun q hq => OnWay.of_below hdrive hmoved.writable hroot (Or.inr hq)) hat

theorem doFdelete_spared (env : Env) (m : Mem) {d : Nat} (a : Addr)
    (hdrive : dos.driveOk d = true) :
    Spared r (OnWay dos) dos.fs (doFdelete env dos m d a).dos.fs := by
  unfold doFdelete
  rcases resolveOn_cases h d (rdstr m (rd32 m (a + 2))) with
    ⟨err, dos1, hres, hlooked, _⟩ | ⟨host, v, dos1, hres, hlooked, hfound⟩
  · simp only [hres]
    exact hlooked.still.spared hf
  · simp only [hres]
    split
    · exact hlooked.still.spared hf
    · split
      · exact hlooked.still.spared hf
      · rename_i hro
        split
        · exact hlooked.still.spared hf
        · split
          · exact hlooked.still.spared hf
          · rename_i fs1 hunlink
            rw [hlooked.still.fs] at hunlink
            rw [driveRo_looked hlooked, Bool.not_eq_true] at hro
            have hroot := prefix_found hfound
            rcases unlink_ok hunlink with ⟨q, hq, hat⟩
            rw [hf.eq_of_entryOf hdrive hro hroot hq] at hat
            exact unlinkAt_spared hf ((hwalled d hdrive hro).below hroot) hat

theorem doDdelete_spared (env : Env) (m : Mem) {d : Nat} (a : Addr)
    (hdrive : dos.driveOk d = true) :
    Spared r (OnWay dos) dos.fs (doDdelete env dos m d a).dos.fs := by
  unfold doDdelete
  rcases resolveOn_cases h d (rdstr m (rd32 m (a + 2))) with
    ⟨err, dos1, hres, hlooked, _⟩ | ⟨host, v, dos1, hres, hlooked, hfound⟩
  · simp only [hres]
    exact hlooked.still.spared hf
  · simp only [hres]
    split
    · exact hlooked.still.spared hf
    · split
      · exact hlooked.still.spared hf
      · rename_i hro
        split
        · exact hlooked.still.spared hf
        · rename_i fs1 hrmdir
          rw [hlooked.still.fs] at hrmdir
          rw [driveRo_looked hlooked, Bool.not_eq_true] at hro
          have hroot := prefix_found hfound
          rcases rmdir_ok hrmdir with ⟨q, hq, hat⟩
          rw [hf.eq_of_entryOf hdrive hro hroot hq] at hat
          exact rmdirAt_spared hf ((hwalled d hdrive hro).below hroot) hat

theorem doFattrib_spared (env : Env) (m : Mem) {d : Nat} (a : Addr)
    (hdrive : dos.driveOk d = true) :
    Spared r (OnWay dos) dos.fs (doFattrib env dos m d a).dos.fs := by
  unfold doFattrib
  rcases resolveOn_cases h d (rdstr m (rd32 m (a + 2))) with
    ⟨err, dos1, hres, hlooked, _⟩ | ⟨host, v, dos1, hres, hlooked, hfound⟩
  · simp only [hres]
    exact hlooked.still.spared hf
  · simp only [hres]
    split
    · exact hlooked.still.spared hf
    · split
      · exact hlooked.still.spared hf
      · rename_i hro
        split
        · exact hlooked.still.spared hf
        · split
          · exact hlooked.still.spared hf
          · rename_i fs1 hchmod
            rw [hlooked.still.fs] at hchmod
            rw [driveRo_looked hlooked, Bool.not_eq_true] at hro
            have hroot := prefix_found hfound
            rcases chmod_ok hchmod with ⟨q, hq, hat⟩
            rw [hf.eq_of_namei hdrive hro hroot hq] at hat
            exact chmodAt_spared hf ((hwalled d hdrive hro).below hroot).not_below hat

end

theorem doFwrite_spared (hf : Fenced r way dos.fs) (hon : HandlesOn dos)
    (hsafe : SafeHandles r dos) (env : Env) (m : Mem) (a : Addr) :
    Spared r way dos.fs (doFwrite env dos m a).dos.fs := by
  unfold doFwrite
  dsimp only
  split
  · exact Spared.refl hf
  · rename_i i f hfile
    split
    · exact Spared.refl hf
    · rename_i hwrite
      have hmem := mem_files_of_fileOf hfile
      exact fwriteLoop_spared env m _ _ _ _ _ _ _ hf
        (hsafe f hmem ((hon f hmem).2 (by simpa using hwrite)))

theorem doFdatime_spared (hf : Fenced r way dos.fs) (hsafe : SafeHandles r dos) (env : Env)
    (m : Mem) (a : Addr) : Spared r way dos.fs (doFdatime env dos m a).dos.fs := by
  unfold doFdatime
  dsimp only
  split
  · exact Spared.refl hf
  · rename_i i f hfile
    split
    · split
      · exact Spared.refl hf
      · rename_i hro
        split
        · exact Spared.refl hf
        · dsimp only
          exact modify_spared hf
            (hsafe f (mem_files_of_fileOf hfile) (by simpa using hro)) _
    · exact Spared.refl hf

theorem dispatch_spared (h : Good dos) (hf : Fenced r (OnWay dos) dos.fs)
    (hwalled : Walled r dos) (hon : HandlesOn dos) (hsafe : SafeHandles r dos) (env : Env)
    (m : Mem) (a : Addr) (d : Nat) (bp : BitVec 32) (dta : Addr) :
    Spared r (OnWay dos) dos.fs (dispatch env dos m a d bp dta).dos.fs := by
  unfold dispatch
  split
  · exact (doFclose_still h m _).spared hf
  · exact (doFread_still h env m _).spared hf
  · exact doFwrite_spared hf hon hsafe env m _
  · exact (doFseek_still h env m _).spared hf
  · exact doFdatime_spared hf hsafe env m _
  · exact (doFsnext_still h m _).spared hf
  · split
    · exact Spared.refl hf
    · rename_i hdrive
      have hdrive : dos.driveOk d = true := by simpa using hdrive
      split
      · exact Spared.refl hf
      · exact doDcreate_spared h hf hwalled env m _ hdrive
      · exact doDdelete_spared h hf hwalled env m _ hdrive
      · exact (doDsetpath_still h m _ _).spared hf
      · exact doFcreate_spared h hf hwalled env m _ _ hdrive
      · exact (doFopen_still h env m _ _ _).spared hf
      · exact doFdelete_spared h hf hwalled env m _ hdrive
      · exact doFattrib_spared h hf hwalled env m _ hdrive
      · exact Spared.refl hf
      · exact (doPexec_still h env m _ _).spared hf
      · exact (doFsfirst_still h env m _ _ _).spared hf
      · exact doFrename_spared h hf hwalled env m _ hdrive
      · exact Spared.refl hf

theorem step_spared (h : Good dos) (hf : Fenced r (OnWay dos) dos.fs) (hwalled : Walled r dos)
    (hon : HandlesOn dos) (hsafe : SafeHandles r dos) (op : Op) :
    Spared r (OnWay dos) dos.fs (step dos op).fs := by
  cases op with
  | mount =>
      unfold step noteMint
      dsimp only
      split
      · exact Spared.refl hf
      · exact Spared.refl hf
  | call env m subid p =>
      show Spared r (OnWay dos) dos.fs (hostdosCall env dos m subid p).dos.fs
      unfold hostdosCall
      split
      · exact Spared.refl hf
      · exact Spared.refl hf
      · split
        · exact Spared.refl hf
        · exact dispatch_spared h hf hwalled hon hsafe env m _ _ _ _
      · exact Spared.refl hf
      · exact Spared.refl hf
      · exact (doLoad_still h env m _).spared hf
      · exact Spared.refl hf

/-!
## Whole runs
-/

/-- What holds in every state: the handles are on the drives configured, `r` is as it was
and no handle that can write leads into it. -/
structure Guarded (r : Path) (drives : Nat -> Drive) (fs : HostFs) (dos : Dos) : Prop where
  on : OnDrives drives dos
  spared : Spared r (OnWay (Dos.init drives fs)) fs dos.fs
  handles : SafeHandles r dos

theorem driveRo_eq (h : dos'.drives = dos.drives) (d : Nat) :
    dos'.driveRo d = dos.driveRo d := by
  unfold Dos.driveRo
  rw [h]

theorem SafeHandle.keep {f : HFile} (h : SafeHandle r dos f)
    (hdrives : dos'.drives = dos.drives) (hspared : Spared r way dos.fs dos'.fs) (pos : Nat) :
    SafeHandle r dos' { f with pos := pos } := by
  intro hro
  rw [driveRo_eq hdrives] at hro
  exact hspared.clear (h hro)

theorem Opened.safe {f : HFile} (h : Opened dos dos' f) (hwalled : Walled r dos)
    (hdrives : dos'.drives = dos.drives) (hf : Fenced r (OnWay dos) dos.fs)
    (hf' : Fenced r way dos'.fs) : SafeHandle r dos' f := by
  intro hro
  rw [driveRo_eq hdrives] at hro
  rcases h.named with ⟨host, q, hroot, hq, hget⟩
  rw [hf.eq_of_namei h.drive hro hroot hq] at hget
  exact hf'.clear ((hwalled f.drive h.drive hro).below hroot).not_below hget

theorem SafeHandles.session {op : Op} (hsafe : SafeHandles r dos)
    (h : Session dos op dos') (hwalled : Walled r dos) (hf : Fenced r (OnWay dos) dos.fs)
    (hspared : Spared r way dos.fs dos'.fs) : SafeHandles r dos' := by
  intro f hmem
  rcases h.handle_cases hmem with ⟨f', pos, hf', rfl⟩ | hopened
  · exact (hsafe f' hf').keep h.drives_eq hspared pos
  · exact hopened.safe hwalled h.drives_eq hf hspared.fenced

theorem Guarded.step {drives : Nat -> Drive} (hwalled : Walled r (Dos.init drives fs))
    (h : Guarded r drives fs dos) (op : Op) :
    Guarded r drives fs (Hostdos.step dos op) := by
  have hwalled' : Walled r dos := by
    intro d
    unfold Dos.driveOk Dos.driveRo Dos.rootOf
    rw [h.on.drives]
    exact hwalled d
  have hway : OnWay dos = OnWay (Dos.init drives fs) := by
    unfold OnWay Dos.driveOk Dos.driveRo Dos.rootOf
    rw [h.on.drives]
    rfl
  have hf : Fenced r (OnWay dos) dos.fs := hway ▸ h.spared.fenced
  have hspared := step_spared h.on.good hf hwalled' h.on.handles h.handles op
  refine ⟨h.on.step op, h.spared.trans (hway ▸ hspared), ?_⟩
  exact h.handles.session (step_session h.on.good op) hwalled' hf hspared

theorem runOps_guarded {drives : Nat -> Drive} (hwalled : Walled r (Dos.init drives fs))
    (hf : Fenced r (OnWay (Dos.init drives fs)) fs) (ops : List Op) :
    Guarded r drives fs (runOps drives fs ops) := by
  have hstep : forall dos op, Guarded r drives fs dos -> Guarded r drives fs (step dos op) :=
    fun _ op h => h.step hwalled op
  refine run_invariant hstep ⟨OnDrives.init drives fs, Spared.refl hf, ?_⟩ ops
  intro f hmem
  cases List.eq_of_mem_replicate hmem

/-!
## Refused calls
-/

/-- A call that failed and changed neither the tables nor the host nor the memory. -/
structure Denied (dos : Dos) (m : Mem) (reply : Reply) : Prop where
  negative : reply.result < 0
  tables : SameTables dos reply.dos
  fs : reply.dos.fs = dos.fs
  mem : reply.mem = m

theorem Denied.looked {result : Int} (h : Looked dos dos') (hneg : result < 0)
    (m : Mem) : Denied dos m ⟨result, dos', m⟩ :=
  ⟨hneg, h.same, h.still.fs, rfl⟩

theorem Denied.here {result : Int} (dos : Dos) (m : Mem) (hneg : result < 0) :
    Denied dos m ⟨result, dos, m⟩ :=
  ⟨hneg, SameTables.refl dos, rfl, rfl⟩

/-- The call asks for a change on a read-only drive: it creates, removes or renames
by path, opens for writing, sets attributes, or it writes to a handle of such a
drive or sets its time. -/
inductive AsksChange (dos : Dos) (m : Mem) (a : Addr) (d : Nat) : Prop where
  | path (hfn : (rd16 m a).toNat ∈ [0x39, 0x3A, 0x3C, 0x41, 0x56])
      (hdrive : dos.driveOk d = true) (hro : dos.driveRo d = true)
  | fopen (hfn : (rd16 m a).toNat = 0x3D) (hmode : rd16 m (a + 6) &&& 3 ≠ 0)
      (hdrive : dos.driveOk d = true) (hro : dos.driveRo d = true)
  | fattrib (hfn : (rd16 m a).toNat = 0x43) (hflag : rd16 m (a + 6) ≠ 0)
      (hdrive : dos.driveOk d = true) (hro : dos.driveRo d = true)
  | fwrite {i : Nat} {f : HFile} (hfn : (rd16 m a).toNat = 0x40)
      (hfile : dos.fileOf (rd16 m (a + 2)) = some (i, f)) (hro : dos.driveRo f.drive = true)
  | fdatime {i : Nat} {f : HFile} (hfn : (rd16 m a).toNat = 0x57)
      (hflag : rd16 m (a + 8) ≠ 0)
      (hfile : dos.fileOf (rd16 m (a + 6)) = some (i, f)) (hro : dos.driveRo f.drive = true)

theorem doDcreate_denied (env : Env) (m : Mem) {d : Nat} (a : Addr)
    (hro : dos.driveRo d = true) : Denied dos m (doDcreate env dos m d a) := by
  unfold doDcreate
  dsimp only
  rw [if_pos hro]
  exact Denied.here dos m (by decide)

theorem doFcreate_denied (env : Env) (m : Mem) {d : Nat} (a : Addr) (bp : BitVec 32)
    (hro : dos.driveRo d = true) : Denied dos m (doFcreate env dos m d a bp) := by
  unfold doFcreate
  dsimp only
  rw [if_pos hro]
  split
  · exact Denied.here dos m (by decide)
  · exact Denied.here dos m (by decide)

theorem doDdelete_denied (h : Good dos) (env : Env) (m : Mem) {d : Nat} (a : Addr)
    (hro : dos.driveRo d = true) : Denied dos m (doDdelete env dos m d a) := by
  unfold doDdelete
  rcases resolveOn_cases h d (rdstr m (rd32 m (a + 2))) with
    ⟨err, dos1, hres, hlooked, _⟩ | ⟨host, v, dos1, hres, hlooked, _⟩
  · simp only [hres]
    exact Denied.looked hlooked (by decide) m
  · simp only [hres]
    rw [driveRo_looked hlooked, hro]
    split
    · exact Denied.looked hlooked (by decide) m
    · exact Denied.looked hlooked (by decide) m

theorem doFdelete_denied (h : Good dos) (env : Env) (m : Mem) {d : Nat} (a : Addr)
    (hro : dos.driveRo d = true) : Denied dos m (doFdelete env dos m d a) := by
  unfold doFdelete
  rcases resolveOn_cases h d (rdstr m (rd32 m (a + 2))) with
    ⟨err, dos1, hres, hlooked, hfound⟩ | ⟨host, v, dos1, hres, hlooked, _⟩
  · simp only [hres]
    exact Denied.looked hlooked (found_negative hfound) m
  · simp only [hres]
    rw [driveRo_looked hlooked, hro]
    split
    · exact Denied.looked hlooked (by decide) m
    · exact Denied.looked hlooked (by decide) m

theorem doFrename_denied (h : Good dos) (env : Env) (m : Mem) {d : Nat} (a : Addr)
    (hro : dos.driveRo d = true) : Denied dos m (doFrename env dos m d a) := by
  unfold doFrename
  dsimp only
  split
  · exact Denied.here dos m (by decide)
  · rcases resolveOn_cases h d (rdstr m (rd32 m (a + 4))) with
      ⟨err, dos1, hres, hlooked, hfound⟩ | ⟨host, v, dos1, hres, hlooked, _⟩
    · simp only [hres]
      exact Denied.looked hlooked (found_negative hfound) m
    · simp only [hres]
      rw [driveRo_looked hlooked, if_pos hro]
      exact Denied.looked hlooked (by decide) m

theorem doFopen_denied (h : Good dos) (env : Env) (m : Mem) {d : Nat} (a : Addr)
    (bp : BitVec 32) (hmode : rd16 m (a + 6) &&& 3 ≠ 0) (hro : dos.driveRo d = true) :
    Denied dos m (doFopen env dos m d a bp) := by
  unfold doFopen
  rcases resolveOn_cases h d (rdstr m (rd32 m (a + 2))) with
    ⟨err, dos1, hres, hlooked, hfound⟩ | ⟨host, v, dos1, hres, hlooked, _⟩
  · simp only [hres]
    exact Denied.looked hlooked (found_negative hfound) m
  · simp only [hres]
    split
    · exact Denied.looked hlooked (by decide) m
    · rw [if_pos ⟨hmode, by rw [driveRo_looked hlooked]; exact hro⟩]
      exact Denied.looked hlooked (by decide) m

theorem doFattrib_denied (h : Good dos) (env : Env) (m : Mem) {d : Nat} (a : Addr)
    (hflag : rd16 m (a + 6) ≠ 0) (hro : dos.driveRo d = true) :
    Denied dos m (doFattrib env dos m d a) := by
  unfold doFattrib
  rcases resolveOn_cases h d (rdstr m (rd32 m (a + 2))) with
    ⟨err, dos1, hres, hlooked, hfound⟩ | ⟨host, v, dos1, hres, hlooked, _⟩
  · simp only [hres]
    exact Denied.looked hlooked (found_negative hfound) m
  · simp only [hres]
    rw [if_neg hflag, driveRo_looked hlooked, if_pos hro]
    exact Denied.looked hlooked (by decide) m

theorem doFwrite_denied (hon : HandlesOn dos) (env : Env) (m : Mem) (a : Addr) {i : Nat}
    {f : HFile} (hfile : dos.fileOf (rd16 m (a + 2)) = some (i, f))
    (hro : dos.driveRo f.drive = true) : Denied dos m (doFwrite env dos m a) := by
  have hwrite : f.canwrite = false := by
    cases hcan : f.canwrite with
    | false => rfl
    | true =>
        have hrw := (hon f (mem_files_of_fileOf hfile)).2 hcan
        rw [hro] at hrw
        cases hrw
  unfold doFwrite
  dsimp only
  rw [hfile]
  dsimp only
  rw [if_pos hwrite]
  exact Denied.here dos m (by decide)

theorem doFdatime_denied (env : Env) (m : Mem) (a : Addr) {i : Nat} {f : HFile}
    (hflag : rd16 m (a + 8) ≠ 0) (hfile : dos.fileOf (rd16 m (a + 6)) = some (i, f))
    (hro : dos.driveRo f.drive = true) : Denied dos m (doFdatime env dos m a) := by
  unfold doFdatime
  dsimp only
  rw [hfile]
  dsimp only
  rw [if_pos hflag, if_pos hro]
  exact Denied.here dos m (by decide)

theorem denied_of_driveOk {m : Mem} {d : Nat} {reply : Reply} (hdrive : dos.driveOk d = true)
    (h : Denied dos m reply) :
    Denied dos m (if dos.driveOk d = false then ⟨HOSTDOS_PASS, dos, m⟩ else reply) := by
  rw [if_neg (by simp [hdrive])]
  exact h

theorem dispatch_denied (h : Good dos) (hon : HandlesOn dos) (env : Env) {m : Mem}
    {a : Addr} {d : Nat} (bp : BitVec 32) (dta : Addr) (hasks : AsksChange dos m a d) :
    Denied dos m (dispatch env dos m a d bp dta) := by
  unfold dispatch
  cases hasks with
  | path hfn hdrive hro =>
      simp only [List.mem_cons, List.not_mem_nil, or_false] at hfn
      rcases hfn with hfn | hfn | hfn | hfn | hfn
      · rw [hfn]
        exact denied_of_driveOk hdrive (doDcreate_denied env m a hro)
      · rw [hfn]
        exact denied_of_driveOk hdrive (doDdelete_denied h env m a hro)
      · rw [hfn]
        exact denied_of_driveOk hdrive (doFcreate_denied env m a bp hro)
      · rw [hfn]
        exact denied_of_driveOk hdrive (doFdelete_denied h env m a hro)
      · rw [hfn]
        exact denied_of_driveOk hdrive (doFrename_denied h env m a hro)
  | fopen hfn hmode hdrive hro =>
      rw [hfn]
      exact denied_of_driveOk hdrive (doFopen_denied h env m a bp hmode hro)
  | fattrib hfn hflag hdrive hro =>
      rw [hfn]
      exact denied_of_driveOk hdrive (doFattrib_denied h env m a hflag hro)
  | fwrite hfn hfile hro =>
      rw [hfn]
      exact doFwrite_denied hon env m a hfile hro
  | fdatime hfn hflag hfile hro =>
      rw [hfn]
      exact doFdatime_denied env m a hflag hfile hro

/-- Whatever is called, a call that asks for a change on a read-only drive fails and
changes nothing; and a folder that no writable drive leads into, by its folder, by a
second name of a file or by a symbolic link, stays as it is. -/
theorem readonly_unchanged (drives : Nat -> Drive) (fs : HostFs) (ops : List Op) :
    (forall env m p, AsksChange (runOps drives fs ops) m (p 0) (p 1).toNat ->
      Denied (runOps drives fs ops) m (hostdosCall env (runOps drives fs ops) m 2 p)) ∧
    forall r, Walled r (Dos.init drives fs) -> Fenced r (OnWay (Dos.init drives fs)) fs ->
      forall p, r <+: p -> (runOps drives fs ops).fs.lstat p = fs.lstat p := by
  constructor
  · intro env m p hasks
    have hstep : forall dos op, OnDrives drives dos -> OnDrives drives (step dos op) :=
      fun _ op h => h.step op
    have h := run_invariant hstep (OnDrives.init drives fs) ops
    show Denied _ m (if (runOps drives fs ops).mint then _ else _)
    split
    · exact Denied.here _ m (by decide)
    · exact dispatch_denied h.good h.handles env _ _ hasks
  · intro r hwalled hf p hp
    exact (runOps_guarded hwalled hf ops).spared.lstat hp

def twoFolders : HostFs :=
  (HostFs.blank.addNode [] [ch 'C'] .dir 0o755 0 (by decide)).addNode [] [ch 'D'] .dir 0o755 0
    (by decide)

/-- Drive `C` is the folder `C`, and drive `D` is the folder `D`, read-only. -/
def folderDrives : Nat -> Drive :=
  fun d => ⟨d == 2 || d == 3, d == 3, some [if d = 3 then [ch 'D'] else [ch 'C']]⟩

theorem folderDrives_walled (fs : HostFs) :
    Walled [[ch 'D']] (Dos.init folderDrives fs) := by
  intro d _ hro
  have hne : d ≠ 3 := by simpa [Dos.driveRo, Dos.init, folderDrives] using hro
  have hroot : (Dos.init folderDrives fs).rootOf d = [[ch 'C']] := by
    simp [Dos.rootOf, Dos.init, folderDrives, hne]
  rw [hroot]
  exact ⟨by decide, by decide⟩

/-- Making the file `AB.TXT` on drive `C` leaves the folder of drive `D` as it is,
and making it on drive `D` is refused. -/
theorem readonly_unchanged_two_folders :
    (runOps folderDrives twoFolders [pathCall 0x3C plainName]).fs.lstat [[ch 'D'], plainName] =
      none ∧
    Denied (runOps folderDrives twoFolders []) (wr16 (pathArgs plainName) 0x100 0x3C)
      (hostdosCall willing (runOps folderDrives twoFolders [])
        (wr16 (pathArgs plainName) 0x100 0x3C) 2 (fun i => if i = 0 then 0x100 else 3)) := by
  have hf : Fenced [[ch 'D']] (OnWay (Dos.init folderDrives twoFolders)) twoFolders := by
    have hentries : twoFolders.tree.entries =
      [([], ⟨0, .dir⟩), ([[ch 'C']], ⟨1, .dir⟩), ([[ch 'D']], ⟨2, .dir⟩)] := by rfl
    constructor
    · intro p q v w hp hq hv hw
      rw [PathTree.get_eq_some_iff, hentries] at hv hw
      simp only [List.mem_cons, Prod.mk.injEq, List.not_mem_nil, or_false] at hv hw
      rcases hv with ⟨rfl, _⟩ | ⟨rfl, _⟩ | ⟨rfl, rfl⟩
      · exact absurd hp (by decide)
      · exact absurd hp (by decide)
      · rcases hw with ⟨_, rfl⟩ | ⟨_, rfl⟩ | ⟨rfl, _⟩
        · decide
        · decide
        · exact absurd hp hq
    · intro p v _ hv
      rw [PathTree.get_eq_some_iff, hentries] at hv
      simp only [List.mem_cons, Prod.mk.injEq, List.not_mem_nil, or_false] at hv
      rcases hv with ⟨_, rfl⟩ | ⟨_, rfl⟩ | ⟨_, rfl⟩
      · rfl
      · rfl
      · rfl
  have h := readonly_unchanged folderDrives twoFolders
  constructor
  · rw [(h [pathCall 0x3C plainName]).2 _ (folderDrives_walled _) hf _ (by decide)]
    rfl
  · apply (h []).1
    exact .path (by decide +kernel) (by decide +kernel) (by decide +kernel)

/-- The same disk with one file under two names: `AB.TXT` in `C` and in `D`. -/
def linkedDisk : HostFs where
  tree := ((twoFolders.tree.insert [[ch 'C']] plainName ⟨3, .reg⟩ (by decide)).insert
    [[ch 'D']] plainName ⟨3, .reg⟩ (by decide))
  inode := fun _ => ⟨0o755, 0, [ch 'A']⟩
  nextIno := 4
  fresh := by
    intro p v hv
    rw [PathTree.get_insert, PathTree.get_insert] at hv
    split at hv
    · injection hv with hv
      rw [← hv]
      decide
    · split at hv
      · injection hv with hv
        rw [← hv]
        decide
      · exact Nat.lt_succ_of_lt (twoFolders.fresh p v hv)

/-- The same disk with a file in `D`, and a symbolic link to it in `C`. -/
def symlinkDisk : HostFs :=
  ((twoFolders.addNode [[ch 'D']] plainName .reg 0o644 0 (by decide)).addNode [[ch 'C']] plainName
    (.link ⟨false, [.up, .down [ch 'D'], .down plainName]⟩) 0o777 0 (by decide)).modify 3
    (fun x => { x with data := [ch 'A'] })

def sharedDrives : Nat -> Drive :=
  fun d => ⟨d == 2 || d == 3, d == 3, some []⟩

/-- A folder that drive `C` may write to is not protected by being the folder of a
read-only drive `D` too, nor is a file that has a name on both, nor one that a symbolic
link leads to. -/
theorem readonly_shared_changed :
    ((Dos.init sharedDrives HostFs.blank).driveOk 3 = true ∧
      (Dos.init sharedDrives HostFs.blank).driveRo 3 = true ∧
      HostFs.blank.tree.get [plainName] = none ∧
      (runOps sharedDrives HostFs.blank [pathCall 0x3C plainName]).fs.tree.get [plainName] =
        some ⟨1, .reg⟩) ∧
    ((Dos.init folderDrives linkedDisk).driveOk 3 = true ∧
      (Dos.init folderDrives linkedDisk).driveRo 3 = true ∧
      linkedDisk.tree.get [[ch 'D'], plainName] = some ⟨3, .reg⟩ ∧
      (linkedDisk.inode 3).data = [ch 'A'] ∧
      ((runOps folderDrives linkedDisk [pathCall 0x3C plainName]).fs.inode 3).data = []) ∧
    ((Dos.init folderDrives symlinkDisk).driveOk 3 = true ∧
      (Dos.init folderDrives symlinkDisk).driveRo 3 = true ∧
      symlinkDisk.tree.get [[ch 'D'], plainName] = some ⟨3, .reg⟩ ∧
      (symlinkDisk.inode 3).data = [ch 'A'] ∧
      ((runOps folderDrives symlinkDisk [pathCall 0x3C plainName]).fs.inode 3).data = []) := by
  refine ⟨⟨by decide +kernel, by decide +kernel, by decide +kernel, by decide +kernel⟩,
    ⟨by decide +kernel, by decide +kernel, by decide +kernel, by decide +kernel,
      by decide +kernel⟩, by decide +kernel, by decide +kernel, by decide +kernel,
    by decide +kernel, by decide +kernel⟩

end Hostdos
end PistormAtari
