import PistormAtari.Hostdos.NameMap

/-!
# Names that were created

A new entry gets the name the program gave, cut to 8.3, as its host name, and is
looked up through the directory map like any other.  Here is when the two agree.
-/

namespace PistormAtari
namespace Hostdos

open Foundation

/-- An upper-case 8.3 name: one that the directory map may show. -/
def tosName (n : Name) : Bool :=
  valid83 n && upper n == n

/-!
## Walking
-/

variable {t : Tree} {dir : Path}

theorem prefix_walkIn {c : List Name} {h dir : Path}
    (hwalk : walkIn t h c = .ok dir) : h <+: dir := by
  induction c generalizing h with
  | nil =>
      injection hwalk with hwalk
      rw [← hwalk]
  | cons n rest ih =>
      unfold walkIn at hwalk
      split at hwalk
      · cases hwalk
      · split at hwalk
        · cases hwalk
        · split at hwalk
          · cases hwalk
          · exact (List.prefix_append h _).trans (ih hwalk)

/-!
## What `resolve` finds
-/

theorem tos_of_lookupIn {n : Name} {e : Ent}
    (h : lookupIn t dir n = some e) : e ∈ tableOf t dir ∧ e.tos = n := by
  unfold lookupIn at h
  rw [Option.bind_eq_some_iff] at h
  rcases h with ⟨table, hmap, hfind⟩
  have htable : table = tableOf t dir := by
    unfold mapIn at hmap
    split at hmap
    · cases hmap
    · split at hmap
      · cases hmap
      · injection hmap with hmap
        exact hmap.symm
  subst htable
  refine ⟨List.mem_of_find?_eq_some hfind, ?_⟩
  have hpred := List.find?_some hfind
  simpa using hpred

theorem tosName_of_lookupIn {n : Name} {e : Ent}
    (h : lookupIn t dir n = some e) : tosName n = true := by
  rcases tos_of_lookupIn h with ⟨hmem, rfl⟩
  rcases (tosNames_nameTable _).valid e hmem with ⟨hvalid, hupper⟩
  simp [tosName, hvalid, hupper]

theorem resolveIn_ok_iff {root p : Path} {c : List Name} {leaf : Name} {v : Node} :
    resolveIn t root (c ++ [leaf]) = .ok (p, v) <->
      exists dir e, walkIn t root c = .ok dir ∧ lookupIn t dir leaf = some e ∧
        p = dir ++ [e.host] ∧ look t p = some v := by
  unfold resolveIn
  rw [List.getLast?_concat, List.dropLast_concat]
  dsimp only
  constructor
  · intro h
    split at h
    · cases h
    · rename_i dir hwalk
      split at h
      · cases h
      · rename_i e hent
        split at h
        · rename_i w hw
          injection h with h
          rcases Prod.mk.inj h with ⟨rfl, rfl⟩
          exact ⟨dir, e, hwalk, hent, rfl, hw⟩
        · cases h
  · rintro ⟨dir, e, hwalk, hent, rfl, hget⟩
    rw [hwalk]
    dsimp only
    rw [hent]
    dsimp only
    rw [hget]

theorem head_ne_dot_of_valid83 {n : Name} (h : valid83 n = true) : n.head? ≠ some dot := by
  rcases parts83_of_valid83 h with ⟨_, hparts⟩
  intro hhead
  cases n with
  | nil => cases hhead
  | cons c rest =>
      injection hhead with hhead
      subst hhead
      exact hparts.base_ne rfl

theorem lookupIn_tosName {n : Name} (hname : tosName n = true)
    (hshown : shown t dir n = true) : lookupIn t dir n = some ⟨n, n⟩ := by
  simp only [tosName, Bool.and_eq_true, beq_iff_eq] at hname
  have hlisted : n ∈ listed t dir := mem_listed.mpr (shown_iff.mp hshown)
  rcases shown_iff.mp hshown with ⟨_, v, hget, _⟩
  rcases (mem_dirNames_of_look hget).2 with ⟨w, hw, hdir⟩
  exact lookupIn_listed hw hdir
    (mem_nameTable_of_upper hlisted hname.1 hname.2 (nodup_listed t dir))

theorem listed_of_lookupIn {n : Name} {e : Ent} (h : lookupIn t dir n = some e) :
    e.host ∈ listed t dir := by
  have hmem : e.host ∈ (tableOf t dir).map Ent.host :=
    List.mem_map.mpr ⟨e, (tos_of_lookupIn h).1, rfl⟩
  exact (hosts_nameTable (nodup_listed t dir)).subset e.host hmem

theorem shown_of_lookupIn {n : Name} {e : Ent} (h : lookupIn t dir n = some e) :
    shown t dir e.host = true :=
  (List.mem_filter.mp (listed_of_lookupIn h)).2

/-- The folder part of a path leads to the folder `q`, where the map shows `leaf` as it
stands. -/
def LeadsBack (t : Tree) (root : Path) (c : List Name) (q : Path) (leaf : Name) : Prop :=
  tosName leaf = true ∧
    exists dir, walkIn t root c = .ok dir ∧ namei t dir = .ok q ∧ shown t dir leaf = true

theorem resolveIn_entry_iff {root q : Path} {c : List Name} {leaf : Name} :
    (exists p w, resolveIn t root (c ++ [leaf]) = .ok (p, w) ∧
        entryOf t p = .ok (q ++ [leaf])) <-> LeadsBack t root c q leaf := by
  constructor
  · rintro ⟨p, w, hres, hentry⟩
    rcases resolveIn_ok_iff.mp hres with ⟨dir, e, hwalk, hent, rfl, hlook⟩
    rcases look_eq_some_iff.mp hlook with ⟨r, hr, _⟩
    rcases entryOf_of_namei hr with ⟨d, _, hd, _, _, hentry', _⟩
    rw [hentry] at hentry'
    injection hentry' with hpath
    rcases List.append_inj' hpath rfl with ⟨rfl, hleaf⟩
    have hleaf : leaf = e.host := by simpa using hleaf
    refine ⟨tosName_of_lookupIn hent, dir, hwalk, hd, ?_⟩
    rw [hleaf]
    exact shown_of_lookupIn hent
  · rintro ⟨hname, dir, hwalk, hq, hshown⟩
    rcases shown_iff.mp hshown with ⟨_, v, hlook, _⟩
    refine ⟨dir ++ [leaf], v, resolveIn_ok_iff.mpr ⟨dir, ⟨leaf, leaf⟩, hwalk,
      lookupIn_tosName hname hshown, rfl, hlook⟩, ?_⟩
    rcases look_eq_some_iff.mp hlook with ⟨r, hr, _⟩
    rcases entryOf_of_namei hr with ⟨d, _, hd, _, _, hentry, _⟩
    rw [hq] at hd
    injection hd with hd
    rw [hentry, hd]

/-- A name that the map cannot show is not found. -/
theorem tosName_of_resolveIn {root p : Path} {c : List Name} {leaf : Name}
    (h : exists v, resolveIn t root (c ++ [leaf]) = .ok (p, v)) : tosName leaf = true := by
  rcases h with ⟨v, hv⟩
  rcases resolveIn_ok_iff.mp hv with ⟨dir, e, _, hent, _, _⟩
  exact tosName_of_lookupIn hent

/-!
## The calls
-/

theorem place_ok {dos : Dos} {d : Nat} {gem : Name} {np : NewPath}
    (h : dos.place d gem = .ok np) :
    exists c, dos.parseOn d gem = c ++ [np.leaf] ∧
      walkIn dos.fs.tree (dos.rootOf d) c = .ok np.dir ∧
      np.exist = (lookupIn dos.fs.tree np.dir np.leaf).map (fun e => np.dir ++ [e.host]) := by
  unfold Dos.place resolveNewIn at h
  split at h
  · cases h
  · rename_i leaf hlast
    split at h
    · cases h
    · rename_i dir hwalk
      split at h
      · cases h
      · injection h with h
        subst h
        exact ⟨_, (List.dropLast_append_getLast? leaf hlast).symm, hwalk, rfl⟩

theorem Changed.found_eq {dos dos' : Dos} {fs' : HostFs} (h : Changed dos fs' dos') (d : Nat)
    (gem : Name) :
    dos'.found d gem = resolveIn fs'.tree (dos.rootOf d) (dos.parseOn d gem) := by
  unfold Dos.found Dos.rootOf Dos.parseOn
  rw [h.fs, h.drives, h.cwd]

theorem resolveOn_ok_iff {dos : Dos} (h : Good dos) {d : Nat} {gem : Name}
    {P : Path -> Prop} :
    (exists p st, (dos.resolveOn d gem).1 = .ok (p, st) ∧ P p) <->
      exists p v, dos.found d gem = .ok (p, v) ∧ P p := by
  rcases resolveOn_cases h d gem with
    ⟨err, dos', hres, _, hfound⟩ | ⟨host, v, dos', hres, _, hfound⟩
  · rw [hres, hfound]
    simp
  · rw [hres, hfound]
    simp

theorem path_join {leaf : Name} (h : leaf ≠ []) :
    (HostPath.join dir leaf).path = dir ++ [leaf] := by
  rw [HostPath.join, if_neg h]

theorem leaf_ne_nil {leaf : Name} (h : (HostPath.join dir leaf).slash = false) :
    leaf ≠ [] := by
  intro hnil
  rw [HostPath.join, if_pos hnil] at h
  cases h

theorem createPath_listed {np : NewPath} {host : Path} (h : np.exist = some host) :
    createPath np = ⟨host, false⟩ := by
  rw [createPath, h]

theorem createPath_unlisted {np : NewPath} (h : np.exist = none) :
    createPath np = HostPath.join np.dir np.leaf := by
  rw [createPath, h]

theorem tosName_nil : tosName [] = false := by
  decide

theorem found_ok {dos : Dos} {d : Nat} {gem : Name} {host : Path} {v : Node}
    (h : dos.found d gem = .ok (host, v)) :
    look dos.fs.tree host = some v := by
  unfold Dos.found at h
  cases hparse : dos.parseOn d gem using List.reverseRecOn with
  | nil =>
      rw [hparse] at h
      unfold resolveIn at h
      dsimp only [List.getLast?_nil] at h
      split at h
      · rename_i w hw
        injection h with h
        rcases Prod.mk.inj h with ⟨rfl, rfl⟩
        exact hw
      · cases h
  | append_singleton c leaf =>
      rw [hparse] at h
      rcases resolveIn_ok_iff.mp h with ⟨dir, e, _, _, rfl, hget⟩
      exact hget

/-!
## The trees that calls make
-/

def plant (fs : HostFs) (q : Path) (kind : Kind) : Tree :=
  match q.getLast? with
  | none => fs.tree
  | some n =>
      if h : fs.tree.Insertable q.dropLast n then
        fs.tree.insert q.dropLast n ⟨fs.nextIno, kind⟩ h
      else fs.tree

/-- The tree with a file where opening `p` leads, if nothing is there. -/
def withFile (fs : HostFs) (p : Path) : Tree :=
  match namei fs.tree p with
  | .ok q => plant fs q .reg
  | .error _ => fs.tree

def shift (t : Tree) (old new : Path) : Tree :=
  match new.getLast? with
  | none => t
  | some n => if h : t.Movable old new.dropLast n then t.move old new.dropLast n h else t

/-- The tree with the entry `old`, and what is below it, at `new`, in the place of what is
there, unless that is the same node. -/
def renamedTree (t : Tree) (old new : Path) : Tree :=
  match t.get new with
  | none => shift t old new
  | some w => if t.get old = some w then t else shift (t.prune new) old new

variable {fs fs' : HostFs} {env : Env}

theorem plant_of_get {q : Path} {v : Node} (h : fs.tree.get q = some v) (kind : Kind) :
    plant fs q kind = fs.tree := by
  unfold plant
  split
  · rfl
  · rename_i n hlast
    rw [dif_neg]
    intro hins
    have hfree := hins.free
    rw [List.dropLast_append_getLast? n hlast, h] at hfree
    cases hfree

theorem create_tree {q : Path} {kind : Kind} {mode : BitVec 12} {v : Node}
    (h : fs.create env q kind mode = .ok (fs', v)) : fs'.tree = plant fs q kind := by
  unfold HostFs.create at h
  split at h
  · cases h
  · rename_i n hlast
    unfold plant
    rw [hlast]
    dsimp only
    split at h
    · rename_i hins
      injection h with h
      rw [dif_pos hins, ← (Prod.mk.inj h).1, (touch_rewrites _ _ _).tree]
      rfl
    · cases h

theorem openAt_tree {q : Path} {v : Node} (h : fs.openAt env q = .ok (fs', v)) :
    fs'.tree = plant fs q .reg := by
  have hopen := h
  unfold HostFs.openAt at h
  split at h
  · cases h
  · split at h
    · exact create_tree h
    · rename_i w hget
      rw [plant_of_get hget]
      rcases openAt_spec hopen with ⟨_, _, hrewrites⟩ | ⟨_, _, heq⟩ | ⟨_, hadded⟩
      · exact hrewrites.tree
      · rw [heq]
      · rw [hadded.absent] at hget
        cases hget

theorem openCreate_tree {p : HostPath} {v : Node} (h : fs.openCreate env p = .ok (fs', v)) :
    fs'.tree = withFile fs p.path := by
  rcases openCreate_ok h with ⟨_, q, hq, hat⟩
  unfold withFile
  rw [hq]
  exact openAt_tree hat

theorem mkdirAt_tree {q : Path} (h : fs.mkdirAt env q = .ok fs') :
    fs'.tree = plant fs q .dir := by
  unfold HostFs.mkdirAt at h
  split at h
  · cases h
  · split at h
    · cases h
    · cases hcreate : fs.create env q Kind.dir 0o755 with
      | error e =>
          rw [hcreate] at h
          cases h
      | ok made =>
          rw [hcreate] at h
          injection h with h
          rw [← h]
          exact create_tree hcreate

theorem renameTo_tree {old new : Path} {n : Name} (hlast : new.getLast? = some n)
    (h : fs.renameTo env old new.dropLast n = .ok fs') : fs'.tree = shift fs.tree old new := by
  unfold HostFs.renameTo at h
  unfold shift
  rw [hlast]
  dsimp only
  split at h
  · rename_i hmov
    injection h with h
    rw [dif_pos hmov, ← h, (touch_rewrites _ _ _).tree, (touch_rewrites _ _ _).tree]
    rfl
  · cases h

theorem renameAt_tree {old : Path} {new : HostPath} (h : fs.renameAt env old new = .ok fs') :
    fs'.tree = renamedTree fs.tree old new.path := by
  unfold HostFs.renameAt at h
  split at h
  · cases h
  · split at h
    · cases h
    · cases h
    · rename_i v n hold hlast
      split at h
      · cases h
      · split at h
        · cases h
        · split at h
          · cases h
          · split at h
            · rename_i hfree
              unfold renamedTree
              rw [hfree]
              exact renameTo_tree hlast h
            · rename_i w hthere
              unfold renamedTree
              rw [hthere]
              dsimp only
              split at h
              · rename_i hsame
                injection h with h
                rw [if_pos (by rw [hold, hsame]), h]
              · rename_i hother
                have hne : fs.tree.get old ≠ some w := by
                  rw [hold]
                  exact fun heq => hother (Option.some.inj heq).symm
                rw [if_neg hne]
                split at h
                · cases h
                · split at h
                  · cases h
                  · split at h
                    · cases h
                    · exact renameTo_tree hlast h

/-!
## Found again
-/

theorem entryOf_concat {p q : Path} {n : Name} (h : entryOf t (p ++ [n]) = .ok q) :
    exists d, namei t p = .ok d ∧ q = d ++ [n] := by
  unfold entryOf at h
  rw [List.getLast?_concat, List.dropLast_concat] at h
  dsimp only at h
  split at h
  · cases h
  · rename_i d hd
    split at h
    · cases h
    · split at h
      · injection h with h
        exact ⟨d, hd, h.symm⟩
      · cases h

theorem found_new_iff {t' : Tree} {root q : Path} {c : List Name} {np : NewPath}
    (hentry : entryOf t (HostPath.join np.dir np.leaf).path = .ok q) :
    (exists p w, resolveIn t' root (c ++ [np.leaf]) = .ok (p, w) ∧ entryOf t' p = .ok q) <->
      LeadsBack t' root c q.dropLast np.leaf := by
  rcases Decidable.em (np.leaf = []) with hnil | hleaf
  · rw [hnil]
    constructor
    · rintro ⟨p, w, hres, _⟩
      have hname := tosName_of_resolveIn ⟨w, hres⟩
      cases tosName_nil.symm.trans hname
    · intro h
      cases tosName_nil.symm.trans h.1
  · rw [path_join hleaf] at hentry
    rcases entryOf_concat hentry with ⟨d, _, rfl⟩
    rw [List.dropLast_concat]
    exact resolveIn_entry_iff

theorem Fcreated.found_iff {dos dos' : Dos} {d : Nat} {name : Name}
    {attr : BitVec 16} {np : NewPath} {fs : HostFs} {v : Node}
    (h : Fcreated env dos d name attr np fs v dos') :
    exists q, entryOf dos.fs.tree (createPath np).path = .ok q ∧
      ((exists p w, dos'.found d name = .ok (p, w) ∧ entryOf dos'.fs.tree p = .ok q) <->
        np.exist.isSome = true ∨
          LeadsBack (withFile dos.fs (createPath np).path) (dos.rootOf d)
            (dos.parseOn d name).dropLast q.dropLast np.leaf) := by
  rcases place_ok h.place with ⟨c, hparse, hwalk, hexist⟩
  have htree : (if attr &&& FA_RDONLY ≠ 0 then fs.fchmod env v 0o444 else fs).tree =
      withFile dos.fs (createPath np).path := by
    rw [← openCreate_tree h.opened]
    split
    · exact (fchmod_rewrites fs env v _).tree
    · rfl
  rcases openCreate_ok h.opened with ⟨hslash, r, hr, hat⟩
  rw [h.changed.found_eq, h.changed.fs, htree, hparse, List.dropLast_concat]
  cases hold : np.exist with
  | some host =>
      rw [hold] at hexist
      rcases Option.map_eq_some_iff.mp hexist.symm with ⟨e, hent, rfl⟩
      rw [createPath_listed hold] at hr ⊢
      rcases shown_iff.mp (shown_of_lookupIn hent) with ⟨_, u, hlook, _⟩
      rcases look_eq_some_iff.mp hlook with ⟨r', hr', hget⟩
      rcases entryOf_of_namei hr' with ⟨f, _, _, _, _, hentry, _⟩
      have hsame : withFile dos.fs (np.dir ++ [e.host]) = dos.fs.tree := by
        unfold withFile
        rw [hr']
        exact plant_of_get hget _
      refine ⟨f ++ [e.host], hentry, iff_of_true ?_ (Or.inl rfl)⟩
      rw [hsame]
      exact ⟨_, u, resolveIn_ok_iff.mpr ⟨np.dir, e, hwalk, hent, rfl, hlook⟩, hentry⟩
  | none =>
      rw [createPath_unlisted hold] at hr hslash ⊢
      have hleaf := leaf_ne_nil hslash
      have hpath : (HostPath.join np.dir np.leaf).path = np.dir ++ [np.leaf] := path_join hleaf
      rw [hpath] at hr
      rcases entryOf_of_namei hr with ⟨f, _, _, _, _, hentry, _⟩
      rw [← hpath] at hentry
      refine ⟨f ++ [np.leaf], hentry, ?_⟩
      rw [found_new_iff hentry]
      simp

theorem Dcreated.found_iff {dos dos' : Dos} {d : Nat} {name : Name}
    {np : NewPath} {fs : HostFs} (h : Dcreated env dos d name np fs dos') :
    exists q, entryOf dos.fs.tree (HostPath.join np.dir np.leaf).path = .ok q ∧
      ((exists p w, dos'.found d name = .ok (p, w) ∧ entryOf dos'.fs.tree p = .ok q) <->
        LeadsBack (plant dos.fs q .dir) (dos.rootOf d) (dos.parseOn d name).dropLast q.dropLast
          np.leaf) := by
  rcases place_ok h.place with ⟨c, hparse, _, _⟩
  rcases mkdir_ok h.made with ⟨q, hentry, hat⟩
  refine ⟨q, hentry, ?_⟩
  rw [h.changed.found_eq, h.changed.fs, mkdirAt_tree hat, hparse, List.dropLast_concat]
  exact found_new_iff hentry

theorem Frenamed.found_iff {dos dos' : Dos} {d : Nat} {oldn newn : Name}
    {host : Path} {v : Node} {np : NewPath} {fs : HostFs}
    (h : Frenamed env dos d oldn newn host v np fs dos') :
    exists qold q, entryOf dos.fs.tree host = .ok qold ∧
      entryOf dos.fs.tree (HostPath.join np.dir np.leaf).path = .ok q ∧
      ((exists p w, dos'.found d newn = .ok (p, w) ∧ entryOf dos'.fs.tree p = .ok q) <->
        LeadsBack (renamedTree dos.fs.tree qold q) (dos.rootOf d) (dos.parseOn d newn).dropLast
          q.dropLast np.leaf) := by
  rcases place_ok h.place with ⟨c, hparse, _, _⟩
  rcases rename_ok h.renamed with ⟨qold, q, hold, hentry, hat⟩
  refine ⟨qold, q, hold, hentry, ?_⟩
  rw [h.changed.found_eq, h.changed.fs, renameAt_tree hat, hparse, List.dropLast_concat]
  exact found_new_iff hentry

/-- In every state that calls lead to, and for every path a program passes: when a
call that makes a name succeeds, the same path leads to the new entry exactly if the
name, cut to 8.3, is one that the directory map shows as it stands, and the way to its
folder is as it was, in the tree that the call makes. -/
theorem created_found_iff (drives : Nat -> Drive) (fs : HostFs) (ops : List Op) (env : Env)
    (m : Mem) (d : Nat) (a : Addr) (bp : BitVec 32) :
    let dos := runOps drives fs ops
    (0 ≤ (doFcreate env dos m d a bp).result ->
      let name := rdstr m (rd32 m (a + 2))
      let dos' := (doFcreate env dos m d a bp).dos
      exists np q, (dos.resolveNewOn d name).1 = .ok np ∧
        entryOf dos.fs.tree (createPath np).path = .ok q ∧
        ((exists p st, (dos'.resolveOn d name).1 = .ok (p, st) ∧
            entryOf dos'.fs.tree p = .ok q) <->
          np.exist.isSome = true ∨
            LeadsBack (withFile dos.fs (createPath np).path) (dos.rootOf d)
              (dos.parseOn d name).dropLast q.dropLast np.leaf)) ∧
    (0 ≤ (doDcreate env dos m d a).result ->
      let name := rdstr m (rd32 m (a + 2))
      let dos' := (doDcreate env dos m d a).dos
      exists np q, (dos.resolveNewOn d name).1 = .ok np ∧
        entryOf dos.fs.tree (HostPath.join np.dir np.leaf).path = .ok q ∧
        ((exists p st, (dos'.resolveOn d name).1 = .ok (p, st) ∧
            entryOf dos'.fs.tree p = .ok q) <->
          LeadsBack (plant dos.fs q .dir) (dos.rootOf d) (dos.parseOn d name).dropLast
            q.dropLast np.leaf)) ∧
    (0 ≤ (doFrename env dos m d a).result ->
      let newn := rdstr m (rd32 m (a + 8))
      let dos' := (doFrename env dos m d a).dos
      exists host st np qold q,
        (dos.resolveOn d (rdstr m (rd32 m (a + 4)))).1 = .ok (host, st) ∧
        (dos.resolveNewOn d newn).1 = .ok np ∧ entryOf dos.fs.tree host = .ok qold ∧
        entryOf dos.fs.tree (HostPath.join np.dir np.leaf).path = .ok q ∧
        ((exists p st, (dos'.resolveOn d newn).1 = .ok (p, st) ∧
            entryOf dos'.fs.tree p = .ok q) <->
          LeadsBack (renamedTree dos.fs.tree qold q) (dos.rootOf d) (dos.parseOn d newn).dropLast
            q.dropLast np.leaf)) := by
  intro dos
  have hgood : Good dos := runOps_good drives fs ops
  refine ⟨?_, ?_, ?_⟩
  · intro hok
    rcases doFcreate_cases hgood env m d a bp with hrefused | ⟨np, fs', v, hmade⟩
    · exact absurd hrefused.negative (not_lt.mpr hok)
    · rcases hmade.found_iff with ⟨q, hentry, hiff⟩
      refine ⟨np, q, ?_, hentry, ?_⟩
      · rw [(resolveNewOn_spec hgood d _).1]
        exact hmade.place
      · rw [resolveOn_ok_iff hmade.changed.good]
        exact hiff
  · intro hok
    rcases doDcreate_cases hgood env m d a with hrefused | ⟨np, fs', hmade⟩
    · exact absurd hrefused.negative (not_lt.mpr hok)
    · rcases hmade.found_iff with ⟨q, hentry, hiff⟩
      refine ⟨np, q, ?_, hentry, ?_⟩
      · rw [(resolveNewOn_spec hgood d _).1]
        exact hmade.place
      · rw [resolveOn_ok_iff hmade.changed.good]
        exact hiff
  · intro hok
    rcases doFrename_cases hgood env m d a with hrefused | ⟨host, v, np, fs', hmoved⟩
    · exact absurd hrefused.negative (not_lt.mpr hok)
    · rcases hmoved.found_iff with ⟨qold, q, hold, hentry, hiff⟩
      refine ⟨host, ⟨v, dos.fs.inode v.ino⟩, np, qold, q, ?_, ?_, hold, hentry, ?_⟩
      · rw [(resolveOn_spec hgood d _).1, hmoved.found]
        rfl
      · rw [(resolveNewOn_spec hgood d _).1]
        exact hmoved.place
      · rw [resolveOn_ok_iff hmoved.changed.good]
        exact hiff

/-- Guest memory with the arguments of a call at `0x100` that names one path. -/
def pathArgs (name : Name) : Mem :=
  writeMem (wr32 (fun _ => 0) 0x102 0x200) 0x200 name

def willing : Env where
  now := 0
  refuse := fun _ _ => none
  room := 0
  device := fun _ => []
  umask := 0
  localtime := fun _ => ⟨80, 0, 1, 0, 0, 0⟩
  mktime := fun _ => 0
  statvfs := fun _ => none

def plainName : Name :=
  ['A', 'B', '.', 'T', 'X', 'T'].map ch

/-- `Fcreate` of `AB.TXT` on an empty disk makes a file that the path leads to. -/
theorem created_found_iff_plain :
    let dos := (doFcreate willing (runOps wholeDisk HostFs.blank []) (pathArgs plainName) 2 0x100
      0).dos
    exists p st, (dos.resolveOn 2 plainName).1 = .ok (p, st) ∧
      entryOf dos.fs.tree p = .ok [plainName] := by
  have hname : rdstr (pathArgs plainName) (rd32 (pathArgs plainName) (0x100 + 2)) =
      plainName := by decide +kernel
  rcases (created_found_iff wholeDisk HostFs.blank [] willing (pathArgs plainName) 2 0x100
    0).1 (by decide +kernel) with ⟨np, q, hplace, hentry, hiff⟩
  rw [hname] at hplace hiff
  have hnp : ((runOps wholeDisk HostFs.blank []).resolveNewOn 2 plainName).1 =
      .ok ⟨[], plainName, none⟩ := by rfl
  have heq := hplace.symm.trans hnp
  injection heq with heq
  subst heq
  have hq : q = [plainName] := by
    injection hentry.symm.trans (show _ = Except.ok [plainName] by rfl)
  rw [hq] at hiff
  exact hiff.mpr (Or.inr ⟨by decide, [], rfl, rfl, by decide +kernel⟩)

/-- A file, a symbolic link to it beside it, and a folder. -/
def linkDisk : HostFs :=
  ((HostFs.blank.addNode [] [ch 'F'] .reg 0o644 0 (by decide)).addNode [] [ch 'L']
    (.link ⟨false, [.down [ch 'F']]⟩) 0o777 0 (by decide)).addNode [] [ch 'S'] .dir 0o755 0
    (by decide)

/-- `Frename` of the link into the folder succeeds, and the new name finds nothing: the
link leads nowhere from there. -/
example :
    let m := writeMem (writeMem (wr32 (wr32 (fun _ => 0) 0x104 0x200) 0x108 0x220) 0x200 [ch 'L'])
      0x220 [ch 'S', ch '\\', ch 'L']
    let r := doFrename willing (runOps wholeDisk linkDisk []) m 2 0x100
    r.result = 0 ∧
      (r.dos.resolveOn 2 [ch 'S', ch '\\', ch 'L']).1.toOption.isNone = true := by
  decide +kernel

/-- `Fcreate` of `A B.TXT` on an empty disk returns a handle; the path then names
no file. -/
theorem spaced_created_not_found :
    let dos := runOps wholeDisk HostFs.blank []
    let r := doFcreate willing dos (pathArgs spacedName) 2 0x100 0
    r.result = 64 ∧ r.dos.fs.tree.get [spacedName] = some ⟨1, .reg⟩ ∧
      forall p st, (r.dos.resolveOn 2 spacedName).1 ≠ .ok (p, st) := by
  have hresult : (doFcreate willing (runOps wholeDisk HostFs.blank []) (pathArgs spacedName) 2
      0x100 0).result = 64 := by decide +kernel
  have hmade : (doFcreate willing (runOps wholeDisk HostFs.blank []) (pathArgs spacedName) 2
      0x100 0).dos.fs.tree.get [spacedName] = some ⟨1, .reg⟩ := by decide +kernel
  have herror : ((doFcreate willing (runOps wholeDisk HostFs.blank []) (pathArgs spacedName) 2
      0x100 0).dos.resolveOn 2 spacedName).1.toOption.isNone = true := by decide +kernel
  refine ⟨hresult, hmade, ?_⟩
  intro p st heq
  rw [heq] at herror
  cases herror

end Hostdos
end PistormAtari
