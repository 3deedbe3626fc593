import PistormAtari.Hostdos.Effects

/-!
# Names that are shown can be opened

Whatever has been called before, the table of a folder gives each entry one TOS
name, and a path with that name behind it leads back to the entry.
-/

namespace PistormAtari
namespace Hostdos

open Foundation

/-!
## A listed name in a path
-/

theorem tosCharOk_plain : forall c : Byte, tosCharOk c = true ->
    isSep c = false ∧ c ≠ ch ':' := by
  decide

theorem plain_of_valid83 {n : Name} (h : valid83 n = true) {c : Byte} (hc : c ∈ n) :
    isSep c = false ∧ c ≠ ch ':' := by
  rcases parts83_of_valid83 h with ⟨hn, hparts⟩
  rw [hn, join83] at hc
  split at hc
  · exact tosCharOk_plain c (hparts.base_ok c hc)
  · rcases List.mem_append.mp hc with hc | hc
    · exact tosCharOk_plain c (hparts.base_ok c hc)
    · rcases List.mem_cons.mp hc with rfl | hc
      · decide
      · exact tosCharOk_plain c (hparts.ext_ok c hc)

/-- A path that a name may follow: it ends in a separator, or names no folder. -/
def OpenPath (q : Name) : Prop :=
  dropDrive q = [] ∨ exists r s, dropDrive q = r ++ [s] ∧ isSep s = true

theorem dropDrive_append {q tos : Name} (hq : OpenPath q)
    (htos : forall c, c ∈ tos -> c ≠ ch ':') : dropDrive (q ++ tos) = dropDrive q ++ tos := by
  have hnot : forall i, tos[i]? ≠ some (ch ':') :=
    fun i hi => htos _ (List.mem_of_getElem? hi) rfl
  match q with
  | [] =>
      rw [List.nil_append, dropDrive, if_neg (hnot 1)]
      rfl
  | [s] =>
      have hcut : ([s] ++ tos)[1]? ≠ some (ch ':') := by
        rw [List.getElem?_append_right (by simp)]
        exact hnot 0
      rw [dropDrive, if_neg hcut, dropDrive, if_neg (by simp)]
  | x :: y :: rest =>
      unfold dropDrive
      simp only [List.cons_append, List.getElem?_cons_succ, List.getElem?_cons_zero,
        List.drop_succ_cons, List.drop_zero]
      split
      · rfl
      · rfl

theorem foldComp_listed {n : Name} (c : List Name) (hvalid : valid83 n = true)
    (hupper : upper n = n) : foldComp c n = c ++ [n] := by
  have hne : ¬ (n = [] ∨ n = [dot]) := by
    rintro (rfl | rfl)
    · exact absurd hvalid (by decide)
    · exact absurd hvalid (by decide)
  have hne' : n ≠ [dot, dot] := by
    rintro rfl
    exact absurd hvalid (by decide)
  rw [foldComp, if_neg hne, if_neg hne', trunc83_of_valid83 hvalid, hupper]

theorem parse_append {q tos : Name} (cwd : List Name) (hq : OpenPath q)
    (hvalid : valid83 tos = true) (hupper : upper tos = tos) :
    parse cwd (q ++ tos) = parse cwd q ++ [tos] := by
  have hplain : pieces isSep tos = [tos] :=
    pieces_of_forall_not (fun c hc => (plain_of_valid83 hvalid hc).1)
  have hdrop := dropDrive_append hq (fun c hc => (plain_of_valid83 hvalid hc).2)
  unfold parse
  dsimp only
  rw [hdrop]
  rcases hq with hnil | ⟨r, s, hsep, hs⟩
  · have hhead : tos.head?.any isSep = false := by
      cases htos : tos with
      | nil => rfl
      | cons c rest =>
          rw [htos] at hvalid
          exact (plain_of_valid83 hvalid (by simp)).1
    rw [hnil, List.nil_append, hplain, hhead]
    exact foldComp_listed cwd hvalid hupper
  · rw [hsep, List.append_assoc, List.singleton_append, pieces_append_sep hs,
      pieces_append_sep hs, hplain]
    have hhead : (r ++ s :: tos).head? = (r ++ [s]).head? := by
      cases r with
      | nil => rfl
      | cons c rest => rfl
    rw [hhead, List.foldl_append, List.foldl_append]
    exact foldComp_listed _ hvalid hupper

/-!
## Lookup by a listed name
-/

theorem find_listed {table : List Ent} (h : TosNames table) {e : Ent} (he : e ∈ table) :
    table.find? (fun x => x.tos == e.tos) = some e := by
  induction table with
  | nil => cases he
  | cons x rest ih =>
      have hnodup := h.nodup
      rw [List.map_cons, List.nodup_cons] at hnodup
      rcases List.mem_cons.mp he with rfl | he
      · simp
      · have hne : x.tos ≠ e.tos := fun heq =>
          hnodup.1 (List.mem_map.mpr ⟨e, he, heq.symm⟩)
        rw [List.find?_cons_of_neg (by simpa using hne)]
        exact ih ⟨hnodup.2, fun y hy => h.valid y (by simp [hy])⟩ he

theorem mapIn_of_dir {t : Tree} {dir : Path} {v : Node} (hget : look t dir = some v)
    (hdir : v.isDir = true) : mapIn t dir = some (tableOf t dir) := by
  unfold mapIn
  rw [hget]
  simp [hdir]

theorem lookupIn_listed {t : Tree} {dir : Path} {v : Node} (hget : look t dir = some v)
    (hdir : v.isDir = true) {e : Ent} (he : e ∈ tableOf t dir) :
    lookupIn t dir e.tos = some e := by
  unfold lookupIn
  rw [mapIn_of_dir hget hdir]
  exact find_listed (tosNames_nameTable _) he

theorem exists_of_mem_tableOf {t : Tree} {dir : Path} {e : Ent} (he : e ∈ tableOf t dir) :
    exists v, look t (dir ++ [e.host]) = some v ∧ v.kind.plain = true := by
  have hhosts := hosts_nameTable (nodup_listed t dir)
  have hmem := hhosts.subset e.host (List.mem_map.mpr ⟨e, he, rfl⟩)
  exact (mem_listed.mp hmem).2

theorem resolveIn_listed {t : Tree} {root dir : Path} {c : List Name} {v : Node}
    (hwalk : walkIn t root c = .ok dir) (hget : look t dir = some v) (hdir : v.isDir = true)
    {e : Ent} (he : e ∈ tableOf t dir) :
    exists w, resolveIn t root (c ++ [e.tos]) = .ok (dir ++ [e.host], w) := by
  rcases exists_of_mem_tableOf he with ⟨w, hw, _⟩
  refine ⟨w, ?_⟩
  unfold resolveIn
  rw [List.getLast?_concat, List.dropLast_concat]
  simp only [hwalk, lookupIn_listed hget hdir he, hw]

/-!
## The name map
-/

/-- The table of a folder: every entry that may be seen, once, under TOS names
that differ, where a valid name keeps its own. -/
structure NameMap (t : Tree) (dir : Path) (table : List Ent) : Prop where
  hosts : (table.map Ent.host).Perm (listed t dir)
  distinct : (table.map Ent.tos).Nodup
  tos_ok : forall e, e ∈ table -> valid83 e.tos = true ∧ upper e.tos = e.tos
  kept : forall n, n ∈ listed t dir -> valid83 n = true ->
    (forall m, m ∈ listed t dir -> nameLe m n = true -> m ≠ n -> valid83 m = true ->
      upper m ≠ upper n) -> ⟨upper n, n⟩ ∈ table

theorem nameMap_tableOf {t : Tree} {dir : Path} (hlen : (listed t dir).length < 99999) :
    NameMap t dir (tableOf t dir) where
  hosts := perm_hosts_nameTable (nodup_listed t dir) hlen
  distinct := (tosNames_nameTable _).nodup
  tos_ok := (tosNames_nameTable _).valid
  kept := fun _ hn hvalid hfirst =>
    mem_nameTable_of_valid83 hn hvalid hfirst (nodup_listed t dir)

theorem hitsIn_names {env : Env} {fs : HostFs} {dir : Path} {pat : Name}
    {attr : BitVec 16} {belowRoot : Bool} {table : List Ent} {hit : Hit}
    (hhit : hit ∈ hitsIn env fs dir pat attr belowRoot (some table)) :
    hit.name = [dot] ∨ hit.name = [dot, dot] ∨
      exists e, e ∈ table ∧ e.tos = hit.name := by
  unfold hitsIn at hhit
  rcases List.mem_append.mp hhit with hhit | hhit
  · split at hhit
    · split at hhit
      · rcases List.mem_map.mp hhit with ⟨n, hn, rfl⟩
        have hmem := List.mem_of_mem_filter hn
        rcases List.mem_cons.mp hmem with rfl | hmem
        · exact Or.inl rfl
        · rw [List.mem_singleton] at hmem
          exact Or.inr (Or.inl hmem)
      · cases hhit
    · cases hhit
  · rcases List.mem_filterMap.mp hhit with ⟨e, he, hmake⟩
    refine Or.inr (Or.inr ⟨e, he, ?_⟩)
    split at hmake
    · split at hmake
      · split at hmake
        · cases hmake
        · injection hmake with hmake
          rw [← hmake]
          rfl
      · cases hmake
    · cases hmake

/-- In every state that calls lead to, the map of a folder names each of its
entries, and a path to the folder with such a name behind it opens the entry the
name was listed for. -/
theorem listed_names_open (drives : Nat -> Drive) (fs : HostFs) (ops : List Op) (dir : Path)
    (v : Node) (hget : look (runOps drives fs ops).fs.tree dir = some v)
    (hdir : v.isDir = true)
    (hlen : (listed (runOps drives fs ops).fs.tree dir).length < 99999) :
    let dos := runOps drives fs ops
    exists table, (mapDir dos.fs dir dos.cache).1 = some table ∧
      NameMap dos.fs.tree dir table ∧
      (forall env pat attr belowRoot hit,
        hit ∈ (searchHits env dos.fs dir pat attr belowRoot dos.cache).1 ->
          hit.name = [dot] ∨ hit.name = [dot, dot] ∨
            exists e, e ∈ table ∧ e.tos = hit.name) ∧
      forall d q, OpenPath q ->
        (walk dos.fs (dos.rootOf d) (dos.parseOn d q) (dos.parseOn d q).length dos.cache).1 =
            .ok dir ->
          forall e, e ∈ table ->
            dos.parseOn d (q ++ e.tos) = dos.parseOn d q ++ [e.tos] ∧
            (lookup dos.fs dir e.tos dos.cache).1 = some e ∧
            exists st, (dos.resolveOn d (q ++ e.tos)).1 = .ok (dir ++ [e.host], st) := by
  intro dos
  have hgood : Good dos := runOps_good drives fs ops
  have hmap := nameMap_tableOf hlen
  have hin := mapIn_of_dir hget hdir
  refine ⟨tableOf dos.fs.tree dir, ?_, hmap, ?_, ?_⟩
  · rw [(mapDir_computes dos.fs dir dos.cache hgood).1]
    exact hin
  · intro env pat attr belowRoot hit hhit
    rw [(searchHits_computes env dos.fs dir pat attr belowRoot dos.cache hgood).1,
      hin] at hhit
    exact hitsIn_names hhit
  · intro d q hq hwalk e he
    rcases hmap.tos_ok e he with ⟨hvalid, hupper⟩
    have hparse := parse_append (dos.cwd d) hq hvalid hupper
    have hwalkIn : walkIn dos.fs.tree (dos.rootOf d) (dos.parseOn d q) = .ok dir := by
      unfold walk at hwalk
      rwa [List.take_length, (walkFrom_computes dos.fs _ _ dos.cache hgood).1] at hwalk
    rcases resolveIn_listed hwalkIn hget hdir he with ⟨w, hw⟩
    refine ⟨hparse, ?_, ⟨w, dos.fs.inode w.ino⟩, ?_⟩
    · rw [(lookup_computes dos.fs dir e.tos dos.cache hgood).1]
      exact lookupIn_listed hget hdir he
    · rw [(resolveOn_spec hgood d (q ++ e.tos)).1]
      unfold Dos.found Dos.parseOn
      rw [hparse]
      unfold Dos.parseOn at hw
      rw [hw]
      rfl

def spacedName : Name :=
  ['A', ' ', 'B', '.', 'T', 'X', 'T'].map ch

def spacedDisk : HostFs :=
  HostFs.blank.addNode [] spacedName .reg 0o644 0 (by decide)

def wholeDisk : Nat -> Drive :=
  fun _ => ⟨true, false, some []⟩

/-- `A B.TXT` is listed as `AB~1.TXT`, and `C:\AB~1.TXT` opens it. -/
theorem listed_names_open_spaced :
    exists st, ((runOps wholeDisk spacedDisk []).resolveOn 2
      (['C', ':', '\\', 'A', 'B', '~', '1', '.', 'T', 'X', 'T'].map ch)).1 =
        .ok ([spacedName], st) := by
  have hdisk : look (runOps wholeDisk spacedDisk []).fs.tree [] = some ⟨0, .dir⟩ := by decide
  rcases listed_names_open wholeDisk spacedDisk [] [] ⟨0, .dir⟩ hdisk (by decide) (by decide)
    with ⟨table, hmap, _, _, hopen⟩
  have htable : (mapDir spacedDisk [] []).1 =
      some [⟨['A', 'B', '~', '1', '.', 'T', 'X', 'T'].map ch, spacedName⟩] := by decide
  have heq := hmap.symm.trans htable
  injection heq with heq
  have hpath : OpenPath (['C', ':', '\\'].map ch) := Or.inr ⟨[], ch '\\', by decide, by decide⟩
  exact (hopen 2 (['C', ':', '\\'].map ch) hpath (by rfl) _
    (heq.symm ▸ List.mem_singleton_self _)).2.2

end Hostdos
end PistormAtari
