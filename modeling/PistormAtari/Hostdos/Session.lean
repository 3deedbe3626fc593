import PistormAtari.Hostdos.CreatedNames

/-!
# What the calls do to the engine's tables

Drives, current folders, handles and searches: each operation is taken apart
once, by the one table it may change.  What holds of the tables in every state
follows from this.
-/

namespace PistormAtari
namespace Hostdos

open Foundation

structure SameTables (dos dos' : Dos) : Prop where
  drives : dos'.drives = dos.drives
  cwd : dos'.cwd = dos.cwd
  files : dos'.files = dos.files
  searches : dos'.searches = dos.searches
  nextSearch : dos'.nextSearch = dos.nextSearch
  mint : dos'.mint = dos.mint

theorem SameTables.refl (dos : Dos) : SameTables dos dos :=
  ⟨rfl, rfl, rfl, rfl, rfl, rfl⟩

theorem Looked.same {dos dos' : Dos} (h : Looked dos dos') : SameTables dos dos' := by
  rw [h.eq]
  exact ⟨rfl, rfl, rfl, rfl, rfl, rfl⟩

theorem SameTables.rehost {dos dos' : Dos} (h : SameTables dos dos') (fs : HostFs) :
    SameTables dos { dos' with fs := fs } :=
  ⟨h.drives, h.cwd, h.files, h.searches, h.nextSearch, h.mint⟩

theorem SameTables.dcacheDrop {dos dos' : Dos} (h : SameTables dos dos') :
    SameTables dos dos'.dcacheDrop :=
  ⟨h.drives, h.cwd, h.files, h.searches, h.nextSearch, h.mint⟩

/-- A handle that has just been opened: on a file under the root of its drive, for
writing only where the drive may be written to. -/
structure Opened (dos dos' : Dos) (f : HFile) : Prop where
  drive : dos.driveOk f.drive = true
  writable : f.canwrite = true -> dos.driveRo f.drive = false
  named : exists host q, dos.rootOf f.drive <+: host ∧ namei dos.fs.tree host = .ok q ∧
    dos'.fs.tree.get q = some f.node

/-- Only handles changed: each was there before, perhaps at another position, or
has just been opened. -/
structure Handles (dos dos' : Dos) : Prop where
  same : SameTables { dos with files := dos'.files } dos'
  files : forall f, some f ∈ dos'.files ->
    (exists f' pos, some f' ∈ dos.files ∧ f = { f' with pos := pos }) ∨ Opened dos dos' f

def presents (m : Mem) (dta : Addr) (k : BitVec 32) : Bool :=
  dta != 0 && rd32 m dta == HOSTDOS_DTA_MAGIC && rd32 m (dta + 4) == k

theorem presents_iff {m : Mem} {dta : Addr} {k : BitVec 32} :
    presents m dta k = true <->
      (dta ≠ 0 ∧ rd32 m dta = HOSTDOS_DTA_MAGIC) ∧ rd32 m (dta + 4) = k := by
  unfold presents
  rw [Bool.and_eq_true, Bool.and_eq_true, bne_iff_ne, beq_iff_eq, beq_iff_eq]

def isFsfirst : Op -> Bool
  | .call _ m 2 p => (rd16 m (p 0)).toNat == 0x4E
  | _ => false

def continues (k : BitVec 32) : Op -> Bool
  | .call _ m 2 p => (rd16 m (p 0)).toNat == 0x4F && presents m (p 3) k
  | _ => false

def resets : Op -> Bool
  | .call _ _ 1 _ => true
  | .mount => true
  | _ => false

def nextId (id : BitVec 32) : BitVec 32 :=
  if id + 1 = 0 then 1 else id + 1

inductive Session (dos : Dos) (op : Op) (dos' : Dos) : Prop where
  | same (h : SameTables dos dos')
  | handles (h : Handles dos dos')
  | cwd {d : Nat} {gem : Name} {host : Path} {v : Node}
      (hfound : dos.found d gem = .ok (host, v))
      (h : SameTables { dos with cwd := Function.update dos.cwd d (dos.parseOn d gem) } dos')
  | nohit (hop : isFsfirst op = true)
      (h : SameTables { dos with
        searches := dos.searches.set (pickSlot dos.searches) ⟨0, [], 0⟩ } dos')
  | hit {hits : List Hit} (hop : isFsfirst op = true)
      (h : SameTables { dos with
        searches := dos.searches.set (pickSlot dos.searches) ⟨dos.nextSearch, hits, 1⟩
        nextSearch := nextId dos.nextSearch } dos')
  | next {k : BitVec 32} {i : Nat} {s : Search} (hop : continues k op = true) (hk : k ≠ 0)
      (hslot : dos.searches[i]? = some s) (hid : s.id = k) (hmore : s.pos < s.hits.length)
      (h : SameTables { dos with
        searches := dos.searches.set i { s with pos := s.pos + 1 } } dos')
  | last {k : BitVec 32} {i : Nat} {s : Search} (hop : continues k op = true) (hk : k ≠ 0)
      (hslot : dos.searches[i]? = some s) (hid : s.id = k) (hdone : s.hits.length ≤ s.pos)
      (h : SameTables { dos with searches := dos.searches.set i ⟨0, [], s.pos⟩ } dos')
  | reset {mint : Bool} (hop : resets op = true)
      (h : SameTables { dos.resetAll with mint := mint } dos')

/-!
## Handles
-/

theorem Handles.of_same {dos dos' : Dos} (h : SameTables dos dos') : Handles dos dos' where
  same := ⟨h.drives, h.cwd, rfl, h.searches, h.nextSearch, h.mint⟩
  files := by
    intro f hf
    rw [h.files] at hf
    exact Or.inl ⟨f, f.pos, hf, rfl⟩

theorem Handles.setFile {dos dos1 : Dos} (h : SameTables dos dos1) (i : Nat) {f : Option HFile}
    (hf : forall g, f = some g ->
      (exists f' pos, some f' ∈ dos.files ∧ g = { f' with pos := pos }) ∨
        Opened dos (dos1.setFile i f) g) :
    Handles dos (dos1.setFile i f) where
  same := ⟨h.drives, h.cwd, rfl, h.searches, h.nextSearch, h.mint⟩
  files := by
    intro g hg
    rcases List.mem_or_eq_of_mem_set hg with hmem | heq
    · rw [h.files] at hmem
      exact Or.inl ⟨g, g.pos, hmem, rfl⟩
    · exact hf g heq.symm

theorem Handles.fileNew {dos dos1 : Dos} (h : SameTables dos dos1) {f : HFile}
    (hf : forall i, Opened dos (dos1.setFile i (some f)) f) :
    Handles dos (dos1.fileNew f).2 := by
  unfold Dos.fileNew
  split
  · rename_i i _
    apply Handles.setFile h
    intro g hg
    injection hg with hg
    rw [← hg]
    exact Or.inr (hf i)
  · exact Handles.of_same h

variable {dos : Dos}

theorem mem_files_of_fileOf {x : BitVec 16} {i : Nat} {f : HFile}
    (h : dos.fileOf x = some (i, f)) : some f ∈ dos.files := by
  unfold Dos.fileOf at h
  dsimp only at h
  split at h
  · cases h
  · rw [Option.map_eq_some_iff] at h
    rcases h with ⟨g, hg, heq⟩
    rw [(Prod.mk.inj heq).2] at hg
    rw [List.getD_eq_getElem?_getD] at hg
    cases hslot : dos.files[(x.toInt - HOSTDOS_HANDLE_BASE).toNat]? with
    | none =>
        rw [hslot] at hg
        cases hg
    | some o =>
        rw [hslot] at hg
        have ho : o = some f := hg
        rw [← ho]
        exact List.mem_of_getElem? hslot

theorem Handles.reposition {dos dos1 : Dos} (h : SameTables dos dos1) {x : BitVec 16}
    {i : Nat} {f : HFile} (hfile : dos.fileOf x = some (i, f)) (pos : Nat) :
    Handles dos (dos1.setFile i (some { f with pos := pos })) := by
  apply Handles.setFile h
  intro g hg
  injection hg with hg
  exact Or.inl ⟨f, pos, mem_files_of_fileOf hfile, hg.symm⟩

/-!
## Where paths lead
-/

theorem prefix_found {d : Nat} {gem : Name} {host : Path} {v : Node}
    (h : dos.found d gem = .ok (host, v)) : dos.rootOf d <+: host := by
  unfold Dos.found at h
  cases hparse : dos.parseOn d gem using List.reverseRecOn with
  | nil =>
      rw [hparse] at h
      unfold resolveIn at h
      dsimp only [List.getLast?_nil] at h
      split at h
      · injection h with h
        rw [(Prod.mk.inj h).1]
      · cases h
  | append_singleton c leaf =>
      rw [hparse] at h
      rcases resolveIn_ok_iff.mp h with ⟨dir, e, hwalk, _, rfl, _⟩
      exact (prefix_walkIn hwalk).trans (List.prefix_append dir _)

theorem prefix_place {d : Nat} {gem : Name} {np : NewPath}
    (h : dos.place d gem = .ok np) : dos.rootOf d <+: np.dir := by
  rcases place_ok h with ⟨c, _, hwalk, _⟩
  exact prefix_walkIn hwalk

theorem prefix_join {d : Nat} {gem : Name} {np : NewPath} (h : dos.place d gem = .ok np) :
    dos.rootOf d <+: (HostPath.join np.dir np.leaf).path := by
  unfold HostPath.join
  split
  · exact prefix_place h
  · exact (prefix_place h).trans (List.prefix_append np.dir _)

theorem prefix_createPath {d : Nat} {gem : Name} {np : NewPath}
    (h : dos.place d gem = .ok np) : dos.rootOf d <+: (createPath np).path := by
  rcases place_ok h with ⟨c, _, _, hexist⟩
  cases hold : np.exist with
  | none =>
      rw [createPath_unlisted hold]
      exact prefix_join h
  | some host =>
      rw [createPath_listed hold]
      rw [hold] at hexist
      rcases Option.map_eq_some_iff.mp hexist.symm with ⟨e, _, rfl⟩
      exact (prefix_place h).trans (List.prefix_append np.dir _)

theorem get_openAt {fs fs' : HostFs} {env : Env} {p : Path} {v : Node}
    (h : fs.openAt env p = .ok (fs', v)) : fs'.tree.get p = some v := by
  rcases openAt_spec h with ⟨hget, _, hrewrites⟩ | ⟨hget, _, heq⟩ | ⟨_, hadded⟩
  · rw [hrewrites.tree]
    exact hget
  · rw [heq]
    exact hget
  · rw [hadded.get, if_pos rfl]

/-!
## Calls by name
-/

theorem doFopen_handles (h : Good dos) (env : Env) (m : Mem) {d : Nat} (a : Addr)
    (bp : BitVec 32) (hdrive : dos.driveOk d = true) :
    Handles dos (doFopen env dos m d a bp).dos := by
  unfold doFopen
  rcases resolveOn_cases h d (rdstr m (rd32 m (a + 2))) with
    ⟨err, dos1, hres, hlooked, _⟩ | ⟨host, v, dos1, hres, hlooked, hfound⟩
  · simp only [hres]
    exact Handles.of_same hlooked.same
  · simp only [hres]
    split
    · exact Handles.of_same hlooked.same
    · split
      · exact Handles.of_same hlooked.same
      · rename_i hro
        split
        · exact Handles.of_same hlooked.same
        · apply Handles.fileNew hlooked.same
          intro i
          rcases look_eq_some_iff.mp (found_ok hfound) with ⟨q, hq, hget⟩
          refine ⟨hdrive, ?_, host, q, prefix_found hfound, hq, ?_⟩
          · intro hwrite
            rw [driveRo_looked hlooked] at hro
            cases hdro : dos.driveRo d with
            | false => rfl
            | true => exact absurd ⟨of_decide_eq_true hwrite, hdro⟩ hro
          · show dos1.fs.tree.get q = some v
            rw [hlooked.still.fs]
            exact hget

theorem doFcreate_handles (h : Good dos) (env : Env) (m : Mem) {d : Nat}
    (a : Addr) (bp : BitVec 32) (hdrive : dos.driveOk d = true) :
    Handles dos (doFcreate env dos m d a bp).dos := by
  unfold doFcreate
  dsimp only
  split
  · exact Handles.of_same (SameTables.refl dos)
  · split
    · exact Handles.of_same (SameTables.refl dos)
    · rename_i hro
      rcases resolveNewOn_cases h d (rdstr m (rd32 m (a + 2))) with
        ⟨err, dos1, hres, hlooked, _⟩ | ⟨np, dos1, hres, hlooked, hplace⟩
      · simp only [hres]
        exact Handles.of_same hlooked.same
      · simp only [hres]
        split
        · exact Handles.of_same hlooked.same
        · split
          · exact Handles.of_same hlooked.same
          · rename_i fs v hopen
            rw [hlooked.still.fs] at hopen
            rcases openCreate_ok hopen with ⟨_, q, hq, hat⟩
            have hget := get_openAt hat
            refine Handles.fileNew (hlooked.same.rehost _).dcacheDrop (fun i => ?_)
            refine ⟨hdrive, fun _ => by simpa using hro, (createPath np).path, q,
              prefix_createPath hplace, hq, ?_⟩
            dsimp only [Dos.setFile, Dos.dcacheDrop]
            split
            · rw [(fchmod_rewrites fs env v 0o444).tree]
              exact hget
            · exact hget

theorem doFdelete_same (h : Good dos) (env : Env) (m : Mem) (d : Nat) (a : Addr) :
    SameTables dos (doFdelete env dos m d a).dos := by
  unfold doFdelete
  rcases resolveOn_cases h d (rdstr m (rd32 m (a + 2))) with
    ⟨err, dos1, hres, hlooked, _⟩ | ⟨host, v, dos1, hres, hlooked, _⟩
  · simp only [hres]
    exact hlooked.same
  · simp only [hres]
    split
    · exact hlooked.same
    · split
      · exact hlooked.same
      · split
        · exact hlooked.same
        · split
          · exact hlooked.same
          · exact (hlooked.same.rehost _).dcacheDrop

theorem doDcreate_same (h : Good dos) (env : Env) (m : Mem) (d : Nat) (a : Addr) :
    SameTables dos (doDcreate env dos m d a).dos := by
  unfold doDcreate
  dsimp only
  split
  · exact SameTables.refl dos
  · rcases resolveNewOn_cases h d (rdstr m (rd32 m (a + 2))) with
      ⟨err, dos1, hres, hlooked, _⟩ | ⟨np, dos1, hres, hlooked, _⟩
    · simp only [hres]
      exact hlooked.same
    · simp only [hres]
      split
      · exact hlooked.same
      · split
        · exact hlooked.same
        · exact (hlooked.same.rehost _).dcacheDrop

theorem doDdelete_same (h : Good dos) (env : Env) (m : Mem) (d : Nat) (a : Addr) :
    SameTables dos (doDdelete env dos m d a).dos := by
  unfold doDdelete
  rcases resolveOn_cases h d (rdstr m (rd32 m (a + 2))) with
    ⟨err, dos1, hres, hlooked, _⟩ | ⟨host, v, dos1, hres, hlooked, _⟩
  · simp only [hres]
    exact hlooked.same
  · simp only [hres]
    split
    · exact hlooked.same
    · split
      · exact hlooked.same
      · split
        · exact hlooked.same
        · exact (hlooked.same.rehost _).dcacheDrop

theorem doFrename_same (h : Good dos) (env : Env) (m : Mem) (d : Nat) (a : Addr) :
    SameTables dos (doFrename env dos m d a).dos := by
  unfold doFrename
  dsimp only
  split
  · exact SameTables.refl dos
  · rcases resolveOn_cases h d (rdstr m (rd32 m (a + 4))) with
      ⟨err, dos1, hres, hlooked, _⟩ | ⟨host, v, dos1, hres, hlooked, _⟩
    · simp only [hres]
      exact hlooked.same
    · simp only [hres]
      split
      · exact hlooked.same
      · rcases resolveNewOn_cases hlooked.still.good d (rdstr m (rd32 m (a + 8))) with
          ⟨err, dos2, hnew, hlooked', _⟩ | ⟨np, dos2, hnew, hlooked', _⟩
        · simp only [hnew]
          exact (hlooked.trans hlooked').same
        · simp only [hnew]
          have hsame := (hlooked.trans hlooked').same
          split
          · exact hsame
          · split
            · exact hsame
            · exact (hsame.rehost _).dcacheDrop

theorem doFattrib_same (h : Good dos) (env : Env) (m : Mem) (d : Nat) (a : Addr) :
    SameTables dos (doFattrib env dos m d a).dos := by
  unfold doFattrib
  rcases resolveOn_cases h d (rdstr m (rd32 m (a + 2))) with
    ⟨err, dos1, hres, hlooked, _⟩ | ⟨host, v, dos1, hres, hlooked, _⟩
  · simp only [hres]
    exact hlooked.same
  · simp only [hres]
    split
    · exact hlooked.same
    · split
      · exact hlooked.same
      · split
        · exact hlooked.same
        · split
          · exact hlooked.same
          · exact hlooked.same.rehost _

theorem doDsetpath_session (h : Good dos) (op : Op) (m : Mem) (d : Nat)
    (a : Addr) : Session dos op (doDsetpath dos m d a).dos := by
  unfold doDsetpath
  dsimp only
  split
  · exact .same (SameTables.refl dos)
  · rcases resolveOn_cases h d (rdstr m (rd32 m (a + 2))) with
      ⟨err, dos1, hres, hlooked, _⟩ | ⟨host, v, dos1, hres, hlooked, hfound⟩
    · simp only [hres]
      exact .same hlooked.same
    · simp only [hres]
      have hsame := hlooked.same
      split
      · exact .same hsame
      · refine .cwd hfound ⟨hsame.drives, ?_, hsame.files, hsame.searches, hsame.nextSearch,
          hsame.mint⟩
        dsimp only
        rw [hsame.cwd]

theorem doPexec_same (h : Good dos) (env : Env) (m : Mem) (d : Nat) (a : Addr) :
    SameTables dos (doPexec env dos m d a).dos := by
  unfold doPexec
  dsimp only
  split
  · exact SameTables.refl dos
  · rcases resolveOn_cases h d (rdstr m (rd32 m (a + 4))) with
      ⟨err, dos1, hres, hlooked, _⟩ | ⟨host, v, dos1, hres, hlooked, _⟩
    · simp only [hres]
      exact hlooked.same
    · simp only [hres]
      have hsame := hlooked.same
      split
      · exact hsame
      · split
        · exact hsame
        · split
          · exact hsame
          · exact ⟨hsame.drives, hsame.cwd, hsame.files, hsame.searches, hsame.nextSearch,
              hsame.mint⟩

theorem doLoad_same (env : Env) (dos : Dos) (m : Mem) (bp : Addr) :
    SameTables dos (doLoad env dos m bp).dos := by
  unfold doLoad
  dsimp only
  repeat' split
  all_goals exact ⟨rfl, rfl, rfl, rfl, rfl, rfl⟩

/-!
## Calls by handle
-/

theorem doFclose_handles (dos : Dos) (m : Mem) (a : Addr) :
    Handles dos (doFclose dos m a).dos := by
  unfold doFclose
  split
  · exact Handles.of_same (SameTables.refl dos)
  · apply Handles.setFile (SameTables.refl dos)
    intro g hg
    cases hg

theorem doFread_handles (env : Env) (dos : Dos) (m : Mem) (a : Addr) :
    Handles dos (doFread env dos m a).dos := by
  unfold doFread
  dsimp only
  split
  · exact Handles.of_same (SameTables.refl dos)
  · rename_i i f hfile
    exact Handles.reposition (SameTables.refl dos) hfile _

theorem doFwrite_handles (env : Env) (dos : Dos) (m : Mem) (a : Addr) :
    Handles dos (doFwrite env dos m a).dos := by
  unfold doFwrite
  dsimp only
  split
  · exact Handles.of_same (SameTables.refl dos)
  · rename_i i f hfile
    split
    · exact Handles.of_same (SameTables.refl dos)
    · exact Handles.reposition ((SameTables.refl dos).rehost _) hfile _

theorem doFseek_handles (env : Env) (dos : Dos) (m : Mem) (a : Addr) :
    Handles dos (doFseek env dos m a).dos := by
  unfold doFseek
  dsimp only
  split
  · exact Handles.of_same (SameTables.refl dos)
  · rename_i i f hfile
    split
    · exact Handles.of_same (SameTables.refl dos)
    · split
      · exact Handles.of_same (SameTables.refl dos)
      · split
        · exact Handles.of_same (SameTables.refl dos)
        · exact Handles.reposition (SameTables.refl dos) hfile _

theorem doFdatime_same (env : Env) (dos : Dos) (m : Mem) (a : Addr) :
    SameTables dos (doFdatime env dos m a).dos := by
  unfold doFdatime
  dsimp only
  repeat' split
  all_goals exact ⟨rfl, rfl, rfl, rfl, rfl, rfl⟩

/-!
## Searches
-/

/-- The hits of the folder and the pattern that the arguments of `Fsfirst` name,
found without the cache. -/
def Dos.captured (dos : Dos) (env : Env) (m : Mem) (d : Nat) (a : Addr) : List Hit :=
  let c := dos.parseOn d (rdstr m (rd32 m (a + 2)))
  match c.getLast?, walkIn dos.fs.tree (dos.rootOf d) c.dropLast with
  | some pat, .ok dir =>
      hitsIn env dos.fs dir pat (rd16 m (a + 6)) (decide (c.length > 1)) (mapIn dos.fs.tree dir)
  | _, _ => []

structure Searched (dos : Dos) (s : Search) (next : BitVec 32) (dos' : Dos) : Prop where
  same : SameTables { dos with
    searches := dos.searches.set (pickSlot dos.searches) s, nextSearch := next } dos'

theorem doFsfirst_cases (h : Good dos) (env : Env) (m : Mem) (d : Nat) (a dta : Addr) :
    (exists err dos', doFsfirst env dos m d a dta = ⟨err, dos', m⟩ ∧ err < 0 ∧
      SameTables dos dos') ∨
    (exists dos', doFsfirst env dos m d a dta = ⟨EFILNF, dos', m⟩ ∧
      Searched dos ⟨0, [], 0⟩ dos.nextSearch dos') ∨
    exists hit hits dos', dta ≠ 0 ∧ dos.captured env m d a = hit :: hits ∧
      doFsfirst env dos m d a dta = ⟨0, dos', dtaFill m dta dos.nextSearch hit⟩ ∧
      Searched dos ⟨dos.nextSearch, hit :: hits, 1⟩ (nextId dos.nextSearch) dos' := by
  unfold doFsfirst
  dsimp only
  split
  · exact Or.inl ⟨_, _, rfl, by decide, SameTables.refl dos⟩
  · rename_i hdta
    split
    · exact Or.inl ⟨_, _, rfl, by decide, SameTables.refl dos⟩
    · split
      · exact Or.inl ⟨_, _, rfl, by decide, SameTables.refl dos⟩
      · rename_i pat hlast
        have hcomputes := walkFrom_computes dos.fs
          ((dos.parseOn d (rdstr m (rd32 m (a + 2)))).dropLast) (dos.rootOf d)
        rw [List.dropLast_eq_take] at hcomputes
        have hwalk := onCache_looked h hcomputes
        split
        · rename_i err dos1 heq
          unfold walk at heq
          rw [heq] at hwalk
          exact Or.inl ⟨err, dos1, rfl, walkIn_negative hwalk.1.symm, hwalk.2.same⟩
        · rename_i dir dos1 heq
          unfold walk at heq
          rw [heq] at hwalk
          have hsearch := onCache_looked hwalk.2.still.good (searchHits_computes env dos1.fs dir
            pat (rd16 m (a + 6))
            (decide ((dos.parseOn d (rdstr m (rd32 m (a + 2)))).length > 1)))
          split
          · rename_i dos2 heq'
            rw [heq'] at hsearch
            have hsame := (hwalk.2.trans hsearch.2).same
            refine Or.inr (Or.inl ⟨_, rfl, ⟨hsame.drives, hsame.cwd, hsame.files, ?_,
              hsame.nextSearch, hsame.mint⟩⟩)
            dsimp only
            rw [hsame.searches, hwalk.2.same.searches]
          · rename_i hit hits dos2 heq'
            rw [heq'] at hsearch
            have hboth : SameTables dos dos2 := (hwalk.2.trans hsearch.2).same
            have hcaptured : dos.captured env m d a = hit :: hits := by
              unfold Dos.captured
              have hdir := hwalk.1
              rw [← List.dropLast_eq_take] at hdir
              dsimp only at hdir hsearch ⊢
              rw [hlast, ← hdir, hsearch.1, hwalk.2.still.fs]
            refine Or.inr (Or.inr ⟨hit, hits, { dos2 with
              searches := dos2.searches.set (pickSlot dos1.searches)
                ⟨dos.nextSearch, hit :: hits, 1⟩
              nextSearch := nextId dos.nextSearch }, hdta, hcaptured, ?_, ⟨hboth.drives,
                hboth.cwd, hboth.files, ?_, rfl, hboth.mint⟩⟩)
            · rw [hboth.nextSearch]
              rfl
            · dsimp only
              rw [hboth.searches, hwalk.2.same.searches]

theorem doFsnext_cases (dos : Dos) (m : Mem) (dta : Addr) :
    (doFsnext dos m dta = ⟨ENMFIL, dos, m⟩ ∧
      forall k, presents m dta k = true -> k ≠ 0 -> forall s, s ∈ dos.searches -> s.id ≠ k) ∨
    exists k i s, presents m dta k = true ∧ k ≠ 0 ∧ dos.searches[i]? = some s ∧ s.id = k ∧
      ((exists hit, s.hits[s.pos]? = some hit ∧ doFsnext dos m dta =
          ⟨0, { dos with searches := dos.searches.set i { s with pos := s.pos + 1 } },
            dtaFill m dta k hit⟩) ∨
        (s.hits.length ≤ s.pos ∧ doFsnext dos m dta =
          ⟨ENMFIL, { dos with searches := dos.searches.set i ⟨0, [], s.pos⟩ }, m⟩)) := by
  unfold doFsnext
  dsimp only
  split
  · rename_i hno
    refine Or.inl ⟨rfl, ?_⟩
    intro k hk
    rcases presents_iff.mp hk with ⟨⟨hdta, hmagic⟩, _⟩
    rcases hno with hzero | hother
    · exact absurd hzero hdta
    · exact absurd hmagic hother
  · rename_i hyes
    simp only [not_or, not_not] at hyes
    split
    · rename_i hnone
      refine Or.inl ⟨rfl, ?_⟩
      intro k hk hne s hs hid
      rw [List.findIdx?_eq_none_iff] at hnone
      have hfalse := hnone s hs
      rw [(presents_iff.mp hk).2, hid, beq_self_eq_true, Bool.true_and, bne_eq_false_iff_eq]
        at hfalse
      exact hne hfalse
    · rename_i i hsome
      rw [List.findIdx?_eq_some_iff_getElem] at hsome
      rcases hsome with ⟨hi, hpred, _⟩
      simp only [Bool.and_eq_true, bne_iff_ne, beq_iff_eq] at hpred
      have hslot : dos.searches[i]? = some dos.searches[i] := List.getElem?_eq_getElem hi
      have hget : dos.searches.getD i ⟨0, [], 0⟩ = dos.searches[i] := by
        rw [List.getD_eq_getElem?_getD, hslot]
        rfl
      refine Or.inr ⟨rd32 m (dta + 4), i, dos.searches[i], presents_iff.mpr ⟨hyes, rfl⟩, hpred.2,
        hslot, hpred.1, ?_⟩
      rw [hget]
      split
      · rename_i hend
        exact Or.inr ⟨List.getElem?_eq_none_iff.mp hend, rfl⟩
      · rename_i hit hhit
        exact Or.inl ⟨hit, hhit, rfl⟩

/-!
## One operation
-/

theorem isFsfirst_call {env : Env} {m : Mem} {p : Nat -> BitVec 32}
    (h : (rd16 m (p 0)).toNat = 0x4E) : isFsfirst (.call env m 2 p) = true := by
  unfold isFsfirst
  simp [h]

theorem continues_call {env : Env} {m : Mem} {p : Nat -> BitVec 32} {k : BitVec 32}
    (h : (rd16 m (p 0)).toNat = 0x4F) (hdta : presents m (p 3) k = true) :
    continues k (.call env m 2 p) = true := by
  unfold continues
  simp [h, hdta]

theorem doFsfirst_session (h : Good dos) {op : Op} (hop : isFsfirst op = true)
    (env : Env) (m : Mem) (d : Nat) (a dta : Addr) :
    Session dos op (doFsfirst env dos m d a dta).dos := by
  rcases doFsfirst_cases h env m d a dta with
    ⟨err, dos', heq, _, hsame⟩ | ⟨dos', heq, hsearched⟩ | ⟨hit, hits, dos', _, _, heq, hsearched⟩
  · rw [heq]
    exact .same hsame
  · rw [heq]
    exact .nohit hop hsearched.same
  · rw [heq]
    exact .hit hop hsearched.same

theorem doFsnext_session {op : Op} {m : Mem} {dta : Addr}
    (hop : forall k, presents m dta k = true -> continues k op = true) :
    Session dos op (doFsnext dos m dta).dos := by
  rcases doFsnext_cases dos m dta with
    ⟨heq, _⟩ | ⟨k, i, s, hdta, hk, hslot, hid, ⟨hit, hhit, heq⟩ | ⟨hdone, heq⟩⟩
  · rw [heq]
    exact .same (SameTables.refl dos)
  · rw [heq]
    have hmore : s.pos < s.hits.length := (List.getElem?_eq_some_iff.mp hhit).1
    exact .next (hop k hdta) hk hslot hid hmore (SameTables.refl _)
  · rw [heq]
    exact .last (hop k hdta) hk hslot hid hdone (SameTables.refl _)

theorem dispatch_session (h : Good dos) (env : Env) (m : Mem) (p : Nat -> BitVec 32) :
    Session dos (.call env m 2 p) (dispatch env dos m (p 0) (p 1).toNat (p 2) (p 3)).dos := by
  unfold dispatch
  split
  · exact .handles (doFclose_handles dos m _)
  · exact .handles (doFread_handles env dos m _)
  · exact .handles (doFwrite_handles env dos m _)
  · exact .handles (doFseek_handles env dos m _)
  · exact .same (doFdatime_same env dos m _)
  · rename_i hfn
    exact doFsnext_session (fun k => continues_call hfn)
  · split
    · exact .same (SameTables.refl dos)
    · rename_i hdrive
      have hdrive : dos.driveOk (p 1).toNat = true := by simpa using hdrive
      split
      · exact .same (SameTables.refl dos)
      · exact .same (doDcreate_same h env m _ _)
      · exact .same (doDdelete_same h env m _ _)
      · exact doDsetpath_session h _ m _ _
      · exact .handles (doFcreate_handles h env m _ _ hdrive)
      · exact .handles (doFopen_handles h env m _ _ hdrive)
      · exact .same (doFdelete_same h env m _ _)
      · exact .same (doFattrib_same h env m _ _)
      · exact .same (SameTables.refl dos)
      · exact .same (doPexec_same h env m _ _)
      · rename_i hfn
        exact doFsfirst_session h (isFsfirst_call hfn) env m _ _ _
      · exact .same (doFrename_same h env m _ _)
      · exact .same (SameTables.refl dos)

theorem step_session (h : Good dos) (op : Op) : Session dos op (step dos op) := by
  cases op with
  | mount =>
      unfold step noteMint
      dsimp only
      split
      · rename_i hmint
        exact .same ⟨rfl, rfl, rfl, rfl, rfl, hmint.symm⟩
      · exact .reset rfl (SameTables.refl _)
  | call env m subid p =>
      show Session dos _ (hostdosCall env dos m subid p).dos
      unfold hostdosCall
      split
      · exact .same (SameTables.refl dos)
      · exact .reset rfl (SameTables.refl _)
      · split
        · exact .same (SameTables.refl dos)
        · exact dispatch_session h env m p
      · refine .handles ⟨⟨rfl, rfl, rfl, rfl, rfl, rfl⟩, ?_⟩
        intro f hf
        rcases List.mem_map.mp hf with ⟨o, ho, heq⟩
        rcases Option.bind_eq_some_iff.mp heq with ⟨g, rfl, hg⟩
        split at hg
        · cases hg
        · injection hg with hg
          subst hg
          exact Or.inl ⟨g, g.pos, ho, rfl⟩
      · exact .same (SameTables.refl dos)
      · exact .same (doLoad_same env dos m _)
      · exact .same (SameTables.refl dos)

theorem Session.drives_eq {dos dos' : Dos} {op : Op} (h : Session dos op dos') :
    dos'.drives = dos.drives := by
  cases h with
  | same h => exact h.drives
  | handles h => exact h.same.drives
  | cwd _ h => exact h.drives
  | nohit _ h => exact h.drives
  | hit _ h => exact h.drives
  | next _ _ _ _ _ h => exact h.drives
  | last _ _ _ _ _ h => exact h.drives
  | reset _ h => exact h.drives

/-!
## The open handles
-/

/-- Every open handle is on a drive that is there, and cannot write where the drive is
read-only. -/
def HandlesOn (dos : Dos) : Prop :=
  forall f, some f ∈ dos.files ->
    dos.driveOk f.drive = true ∧ (f.canwrite = true -> dos.driveRo f.drive = false)

theorem Session.handle_cases {dos dos' : Dos} {op : Op} (h : Session dos op dos') {f : HFile}
    (hf : some f ∈ dos'.files) :
    (exists f' pos, some f' ∈ dos.files ∧ f = { f' with pos := pos }) ∨ Opened dos dos' f := by
  have hkept (heq : dos'.files = dos.files) :
      (exists f' pos, some f' ∈ dos.files ∧ f = { f' with pos := pos }) ∨ Opened dos dos' f :=
    Or.inl ⟨f, f.pos, heq ▸ hf, rfl⟩
  cases h with
  | handles h => exact h.files f hf
  | same h => exact hkept h.files
  | cwd _ h => exact hkept h.files
  | nohit _ h => exact hkept h.files
  | hit _ h => exact hkept h.files
  | next _ _ _ _ _ h => exact hkept h.files
  | last _ _ _ _ _ h => exact hkept h.files
  | reset _ h =>
      rw [h.files] at hf
      rcases List.mem_map.mp hf with ⟨o, _, hnone⟩
      cases hnone

theorem HandlesOn.session {dos dos' : Dos} {op : Op} (hon : HandlesOn dos)
    (h : Session dos op dos') : HandlesOn dos' := by
  intro f hf
  unfold Dos.driveOk Dos.driveRo
  rw [h.drives_eq]
  rcases h.handle_cases hf with ⟨f', pos, hf', rfl⟩ | hopened
  · exact hon f' hf'
  · exact ⟨hopened.drive, hopened.writable⟩

/-- What holds in every state: the tables are good, and the handles are on the drives of the
configuration. -/
structure OnDrives (drives : Nat -> Drive) (dos : Dos) : Prop where
  good : Good dos
  drives : dos.drives = drives
  handles : HandlesOn dos

theorem OnDrives.step {drives : Nat -> Drive} (h : OnDrives drives dos) (op : Op) :
    OnDrives drives (Hostdos.step dos op) := by
  have hsession := step_session h.good op
  exact ⟨(step_effect h.good op).good, hsession.drives_eq.trans h.drives,
    h.handles.session hsession⟩

theorem OnDrives.init (drives : Nat -> Drive) (fs : HostFs) :
    OnDrives drives (Dos.init drives fs) := by
  refine ⟨init_good drives fs, rfl, ?_⟩
  intro f hf
  cases List.eq_of_mem_replicate hf

/-- Whatever is called, each open handle is on a drive of the configuration, and can write only
where that drive can be written to. -/
theorem handles_on_drives (drives : Nat -> Drive) (fs : HostFs) (ops : List Op) :
    (runOps drives fs ops).drives = drives ∧ HandlesOn (runOps drives fs ops) := by
  have hstep : forall dos op, OnDrives drives dos -> OnDrives drives (step dos op) :=
    fun _ op h => h.step op
  have h := run_invariant hstep (OnDrives.init drives fs) ops
  exact ⟨h.drives, h.handles⟩

end Hostdos
end PistormAtari
