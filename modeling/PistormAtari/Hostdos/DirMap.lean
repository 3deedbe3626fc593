import PistormAtari.Foundation.FirstFree
import PistormAtari.Foundation.Run
import PistormAtari.Hostdos.HostFs

/-!
# The directory map

`map_dir` gives every entry of a folder that TOS may see a TOS name.  The names
are taken in host order, twice: first those that are TOS names already, then the
rest, each under its first free `BASE~N.EXT`.  The tables are cached by folder
until the folder's time changes.
-/

namespace PistormAtari
namespace Hostdos

open Foundation

structure Ent where
  tos : Name
  host : Name
  deriving DecidableEq

/-!
## Host order

`std::string` compares bytes as unsigned characters.
-/

def nameLe : Name -> Name -> Bool
  | [], _ => true
  | _ :: _, [] => false
  | x :: xs, y :: ys => x < y || (x == y && nameLe xs ys)

theorem nameLe_total (m n : Name) : nameLe m n = true ∨ nameLe n m = true := by
  induction m generalizing n with
  | nil => exact Or.inl rfl
  | cons x xs ih =>
      cases n with
      | nil => exact Or.inr rfl
      | cons y ys =>
          simp only [nameLe, Bool.or_eq_true, decide_eq_true_eq, Bool.and_eq_true, beq_iff_eq]
          rcases lt_trichotomy x.toNat y.toNat with hlt | heq | hgt
          · exact Or.inl (Or.inl (BitVec.lt_def.mpr hlt))
          · have hxy : x = y := BitVec.eq_of_toNat_eq heq
            rcases ih ys with h | h
            · exact Or.inl (Or.inr ⟨hxy, h⟩)
            · exact Or.inr (Or.inr ⟨hxy.symm, h⟩)
          · exact Or.inr (Or.inl (BitVec.lt_def.mpr hgt))

theorem nameLe_trans {l m n : Name} (hlm : nameLe l m = true) (hmn : nameLe m n = true) :
    nameLe l n = true := by
  induction l generalizing m n with
  | nil => rfl
  | cons x xs ih =>
      cases m with
      | nil => cases hlm
      | cons y ys =>
          cases n with
          | nil => cases hmn
          | cons z zs =>
              simp only [nameLe, Bool.or_eq_true, decide_eq_true_eq, Bool.and_eq_true,
                beq_iff_eq, BitVec.lt_def] at hlm hmn ⊢
              rcases hlm with hxy | ⟨rfl, hxs⟩
              · rcases hmn with hyz | ⟨rfl, _⟩
                · exact Or.inl (Nat.lt_trans hxy hyz)
                · exact Or.inl hxy
              · rcases hmn with hyz | ⟨rfl, hys⟩
                · exact Or.inl hyz
                · exact Or.inr ⟨rfl, ih hxs hys⟩

theorem nameLe_antisymm {m n : Name} (hmn : nameLe m n = true) (hnm : nameLe n m = true) :
    m = n := by
  induction m generalizing n with
  | nil =>
      cases n with
      | nil => rfl
      | cons y ys => cases hnm
  | cons x xs ih =>
      cases n with
      | nil => cases hmn
      | cons y ys =>
          simp only [nameLe, Bool.or_eq_true, decide_eq_true_eq, Bool.and_eq_true, beq_iff_eq,
            BitVec.lt_def] at hmn hnm
          rcases hmn with hxy | ⟨rfl, hxs⟩
          · rcases hnm with hyx | ⟨rfl, _⟩
            · lia
            · lia
          · rcases hnm with hyx | ⟨_, hys⟩
            · lia
            · rw [ih hxs hys]

theorem toupper_le : forall c : Byte, toupper c < c ∨ toupper c = c := by
  decide

theorem nameLe_upper (n : Name) : nameLe (upper n) n = true := by
  induction n with
  | nil => rfl
  | cons c cs ih =>
      simp only [upper, List.map_cons, nameLe, Bool.or_eq_true, decide_eq_true_eq,
        Bool.and_eq_true, beq_iff_eq]
      rcases toupper_le c with hlt | heq
      · exact Or.inl hlt
      · exact Or.inr ⟨heq, ih⟩

instance : Std.Total (fun a b : Name => nameLe a b = true) :=
  ⟨nameLe_total⟩

instance : IsTrans Name (fun a b => nameLe a b = true) :=
  ⟨fun _ _ _ => nameLe_trans⟩

/-!
## The two passes
-/

def sortNames (names : List Name) : List Name :=
  names.insertionSort (fun a b => nameLe a b = true)

def sortEnts (out : List Ent) : List Ent :=
  out.insertionSort (fun a b => nameLe a.host b.host = true)

/-- First pass: a valid name whose upper-case form is free keeps it. -/
def keepValid (out : List Ent) (n : Name) : List Ent :=
  if valid83 n = true ∧ upper n ∉ out.map Ent.tos then out ++ [⟨upper n, n⟩] else out

/-- Second pass: a name that is not done takes its first free candidate. -/
def mangleRest (out : List Ent) (n : Name) : List Ent :=
  if n ∈ out.map Ent.host then out
  else
    match firstFree (mangle n) (out.map Ent.tos) 99999 1 with
    | some t => out ++ [⟨t, n⟩]
    | none => out

def nameTable (names : List Name) : List Ent :=
  let sorted := sortNames names
  sortEnts (run mangleRest (run keepValid [] sorted) sorted)

/-- Each step leaves the table alone or adds one entry for the name it is at,
under a TOS name that was free. -/
structure Adds (out out' : List Ent) (n t : Name) : Prop where
  eq : out' = out ++ [⟨t, n⟩]
  free : t ∉ out.map Ent.tos
  valid : valid83 t = true
  upper_eq : upper t = t

theorem keepValid_cases (out : List Ent) (n : Name) :
    keepValid out n = out ∨ (valid83 n = true ∧ Adds out (keepValid out n) n (upper n)) := by
  unfold keepValid
  split
  · rename_i h
    exact Or.inr ⟨h.1, rfl, h.2, valid83_upper h.1, upper_upper n⟩
  · exact Or.inl rfl

theorem mangleRest_cases (out : List Ent) (n : Name) :
    mangleRest out n = out ∨
      (n ∉ out.map Ent.host ∧ exists t, Adds out (mangleRest out n) n t) := by
  unfold mangleRest
  split
  · exact Or.inl rfl
  · rename_i hhost
    split
    · rename_i t ht
      rcases firstFree_spec ht with ⟨hfree, k, hlo, hhi, rfl⟩
      exact Or.inr ⟨hhost, _, rfl, hfree, valid83_mangle n (by lia), upper_mangle n (by lia)⟩
    · exact Or.inl rfl

structure TosNames (out : List Ent) : Prop where
  nodup : (out.map Ent.tos).Nodup
  valid : forall e, e ∈ out -> valid83 e.tos = true ∧ upper e.tos = e.tos

theorem TosNames.nil : TosNames [] :=
  ⟨List.nodup_nil, fun _ h => absurd h List.not_mem_nil⟩

theorem TosNames.add {out out' : List Ent} {n t : Name} (h : TosNames out)
    (hadds : Adds out out' n t) : TosNames out' := by
  rcases hadds with ⟨rfl, hfree, hvalid, hupper⟩
  constructor
  · rw [List.map_append, List.map_singleton]
    exact List.nodup_append.mpr ⟨h.nodup, List.nodup_singleton _, by
      intro x hx y hy hxy
      rw [List.mem_singleton] at hy
      subst hxy hy
      exact hfree hx⟩
  · intro e he
    rcases List.mem_append.mp he with he | he
    · exact h.valid e he
    · rw [List.mem_singleton] at he
      subst he
      exact ⟨hvalid, hupper⟩

variable {out : List Ent}

theorem TosNames.keepValid (h : TosNames out) (n : Name) :
    TosNames (Hostdos.keepValid out n) := by
  rcases keepValid_cases out n with heq | ⟨_, hadds⟩
  · rwa [heq]
  · exact h.add hadds

theorem TosNames.mangleRest (h : TosNames out) (n : Name) :
    TosNames (Hostdos.mangleRest out n) := by
  rcases mangleRest_cases out n with heq | ⟨_, _, hadds⟩
  · rwa [heq]
  · exact h.add hadds

/-!
## What is in the table
-/

theorem hosts_keepValid (names : List Name) (out : List Ent) :
    exists kept, kept.Sublist names ∧
      (run keepValid out names).map Ent.host = out.map Ent.host ++ kept := by
  induction names generalizing out with
  | nil => exact ⟨[], List.Sublist.refl [], by simp⟩
  | cons n rest ih =>
      rcases ih (keepValid out n) with ⟨kept, hsub, heq⟩
      rcases keepValid_cases out n with hsame | ⟨_, hadds⟩
      · rw [hsame] at heq
        exact ⟨kept, hsub.cons n, by rw [run_cons, hsame]; exact heq⟩
      · refine ⟨n :: kept, hsub.cons_cons n, ?_⟩
        rw [run_cons, heq, hadds.eq]
        simp

structure Hosts (names : List Name) (out : List Ent) : Prop where
  nodup : (out.map Ent.host).Nodup
  subset : forall n, n ∈ out.map Ent.host -> n ∈ names

variable {names : List Name}

theorem Hosts.first_pass (h : names.Nodup) :
    Hosts names (run keepValid [] names) := by
  rcases hosts_keepValid names [] with ⟨kept, hsub, heq⟩
  rw [List.map_nil, List.nil_append] at heq
  constructor
  · rw [heq]
    exact hsub.nodup h
  · intro n hn
    rw [heq] at hn
    exact hsub.subset hn

theorem Hosts.mangleRest (h : Hosts names out)
    {n : Name} (hn : n ∈ names) : Hosts names (Hostdos.mangleRest out n) := by
  rcases mangleRest_cases out n with heq | ⟨hhost, t, hadds⟩
  · rwa [heq]
  · rw [hadds.eq]
    constructor
    · rw [List.map_append, List.nodup_append]
      refine ⟨h.nodup, List.nodup_singleton _, ?_⟩
      intro x hx y hy hxy
      have hy : y = n := by simpa using hy
      subst hxy hy
      exact hhost hx
    · intro m hm
      rw [List.map_append, List.mem_append] at hm
      rcases hm with hm | hm
      · exact h.subset m hm
      · have hmn : m = n := by simpa using hm
        rwa [hmn]

theorem Hosts.length_lt (h : Hosts names out)
    {n : Name} (hn : n ∈ names) (hmissing : n ∉ out.map Ent.host) :
    out.length < names.length := by
  have hnodup : (n :: out.map Ent.host).Nodup := List.nodup_cons.mpr ⟨hmissing, h.nodup⟩
  have hsub : n :: out.map Ent.host ⊆ names := by
    intro m hm
    rcases List.mem_cons.mp hm with rfl | hm
    · exact hn
    · exact h.subset m hm
  have hle := (hnodup.subperm hsub).length_le
  rw [List.length_cons, List.length_map] at hle
  exact hle

theorem mem_hosts_mangleRest (h : Hosts names out)
    (hlen : names.length < 99999) {n : Name} (hn : n ∈ names) :
    n ∈ (mangleRest out n).map Ent.host := by
  unfold mangleRest
  split
  · rename_i hhost
    exact hhost
  · rename_i hhost
    have hlt : (out.map Ent.tos).length < 99999 := by
      rw [List.length_map]
      exact Nat.lt_trans (h.length_lt hn hhost) hlen
    have hinj : forall i j, 1 ≤ i -> i < 1 + 99999 -> 1 ≤ j -> j < 1 + 99999 ->
        mangle n i = mangle n j -> i = j := by
      intro i j _ hi _ hj heq
      exact mangle_injective n (by lia) (by lia) heq
    rcases exists_firstFree hinj hlt with ⟨t, ht⟩
    rw [ht]
    simp

theorem subset_mangleRest (out : List Ent) (n : Name) : out ⊆ mangleRest out n := by
  rcases mangleRest_cases out n with heq | ⟨_, t, hadds⟩
  · rw [heq]
    exact List.Subset.refl out
  · rw [hadds.eq]
    exact List.subset_append_left out _

theorem subset_run_mangleRest (ns : List Name) (out : List Ent) :
    out ⊆ run mangleRest out ns := by
  induction ns generalizing out with
  | nil => exact List.Subset.refl out
  | cons n rest ih => exact List.Subset.trans (subset_mangleRest out n) (ih _)

theorem Hosts.second_pass (ns : List Name) {out : List Ent}
    (h : Hosts names out) (hns : ns ⊆ names) : Hosts names (run Hostdos.mangleRest out ns) := by
  induction ns generalizing out with
  | nil => exact h
  | cons n rest ih =>
      have hn : n ∈ names := hns (by simp)
      have hrest : rest ⊆ names := fun m hm => hns (by simp [hm])
      exact ih (h.mangleRest hn) hrest

theorem mem_hosts_run_mangleRest (hlen : names.length < 99999)
    (ns : List Name) {out : List Ent} (h : Hosts names out) (hns : ns ⊆ names) :
    forall n, n ∈ ns -> n ∈ (run mangleRest out ns).map Ent.host := by
  induction ns generalizing out with
  | nil => exact fun n hn => absurd hn List.not_mem_nil
  | cons m rest ih =>
      have hm : m ∈ names := hns (by simp)
      have hrest : rest ⊆ names := fun k hk => hns (by simp [hk])
      intro n hn
      rcases List.mem_cons.mp hn with rfl | hn
      · rcases List.mem_map.mp (mem_hosts_mangleRest h hlen hm) with ⟨e, he, hhost⟩
        exact List.mem_map.mpr ⟨e, subset_run_mangleRest rest _ he, hhost⟩
      · exact ih (h.mangleRest hm) hrest n hn

theorem mem_sortEnts {e : Ent} : e ∈ sortEnts out <-> e ∈ out :=
  List.mem_insertionSort _

theorem mem_sortNames {n : Name} : n ∈ sortNames names <-> n ∈ names :=
  List.mem_insertionSort _

theorem perm_sortNames (names : List Name) : (sortNames names).Perm names :=
  List.perm_insertionSort _ _

theorem tosNames_nameTable (names : List Name) : TosNames (nameTable names) := by
  have hfirst : TosNames (run keepValid [] (sortNames names)) :=
    run_invariant (fun _ n h => h.keepValid n) TosNames.nil _
  have hsecond : TosNames (run mangleRest (run keepValid [] (sortNames names))
      (sortNames names)) :=
    run_invariant (fun _ n h => h.mangleRest n) hfirst _
  have hperm : (nameTable names).Perm _ := List.perm_insertionSort _ _
  constructor
  · exact (hperm.map Ent.tos).nodup_iff.mpr hsecond.nodup
  · intro e he
    exact hsecond.valid e (mem_sortEnts.mp he)

theorem hosts_nameTable (h : names.Nodup) :
    Hosts names (nameTable names) := by
  have hsorted : (sortNames names).Nodup := (perm_sortNames names).nodup_iff.mpr h
  have hfirst := Hosts.first_pass hsorted
  have hsecond := hfirst.second_pass (sortNames names) (List.Subset.refl _)
  have hperm : (nameTable names).Perm _ := List.perm_insertionSort _ _
  constructor
  · exact (hperm.map Ent.host).nodup_iff.mpr hsecond.nodup
  · intro n hn
    exact mem_sortNames.mp (hsecond.subset n ((hperm.map Ent.host).mem_iff.mp hn))

theorem perm_hosts_nameTable (h : names.Nodup)
    (hlen : names.length < 99999) : ((nameTable names).map Ent.host).Perm names := by
  have hhosts := hosts_nameTable h
  rw [List.perm_ext_iff_of_nodup hhosts.nodup h]
  intro n
  constructor
  · exact hhosts.subset n
  · intro hn
    have hsorted : (sortNames names).Nodup := (perm_sortNames names).nodup_iff.mpr h
    have hlen' : (sortNames names).length < 99999 := by
      rwa [(perm_sortNames names).length_eq]
    have hmem := mem_hosts_run_mangleRest hlen' (sortNames names)
      (Hosts.first_pass hsorted) (List.Subset.refl _) n (mem_sortNames.mpr hn)
    have hperm : (nameTable names).Perm _ := List.perm_insertionSort _ _
    exact (hperm.map Ent.host).mem_iff.mpr hmem

theorem exists_of_mem_keepValid {ns : List Name} {out : List Ent} {t : Name}
    (h : t ∈ (run keepValid out ns).map Ent.tos) :
    t ∈ out.map Ent.tos ∨ exists m, m ∈ ns ∧ valid83 m = true ∧ upper m = t := by
  induction ns generalizing out with
  | nil => exact Or.inl h
  | cons n rest ih =>
      rcases ih h with hmem | ⟨m, hm, hvalid, hupper⟩
      · rcases keepValid_cases out n with heq | ⟨hvalid, hadds⟩
        · exact Or.inl (heq ▸ hmem)
        · rw [hadds.eq, List.map_append, List.mem_append] at hmem
          rcases hmem with hmem | hmem
          · exact Or.inl hmem
          · have ht : t = upper n := by simpa using hmem
            exact Or.inr ⟨n, by simp, hvalid, ht.symm⟩
      · exact Or.inr ⟨m, by simp [hm], hvalid, hupper⟩

theorem subset_run_keepValid (ns : List Name) (out : List Ent) :
    out ⊆ run keepValid out ns := by
  induction ns generalizing out with
  | nil => exact List.Subset.refl out
  | cons n rest ih =>
      rcases keepValid_cases out n with heq | ⟨_, hadds⟩
      · rw [run_cons, heq]
        exact ih out
      · rw [run_cons]
        apply List.Subset.trans _ (ih _)
        rw [hadds.eq]
        exact List.subset_append_left out _

theorem mem_nameTable_of_valid83 {n : Name} (hn : n ∈ names) (hvalid : valid83 n = true)
    (hfirst : forall m, m ∈ names -> nameLe m n = true -> m ≠ n -> valid83 m = true ->
      upper m ≠ upper n) (hnodup : names.Nodup) : ⟨upper n, n⟩ ∈ nameTable names := by
  rcases List.append_of_mem (mem_sortNames.mpr hn) with ⟨pre, post, hsplit⟩
  have hsorted : (sortNames names).Pairwise (fun a b => nameLe a b = true) :=
    List.pairwise_insertionSort _ _
  have hdistinct : (sortNames names).Nodup := (perm_sortNames names).nodup_iff.mpr hnodup
  rw [hsplit, List.pairwise_append] at hsorted
  rw [hsplit, List.nodup_append] at hdistinct
  have hfree : upper n ∉ (run keepValid [] pre).map Ent.tos := by
    intro hmem
    rcases exists_of_mem_keepValid hmem with hnil | ⟨m, hm, hmvalid, hmupper⟩
    · cases hnil
    · have hmnames : m ∈ names := by
        apply mem_sortNames.mp
        rw [hsplit]
        exact List.mem_append_left _ hm
      have hle := hsorted.2.2 m hm n (by simp)
      have hne := hdistinct.2.2 m hm n (by simp)
      exact hfirst m hmnames hle hne hmvalid hmupper
  have hmem : ⟨upper n, n⟩ ∈ run keepValid [] (sortNames names) := by
    rw [hsplit, run_append, run_cons]
    apply subset_run_keepValid
    rw [keepValid, if_pos ⟨hvalid, hfree⟩]
    simp
  exact mem_sortEnts.mpr (subset_run_mangleRest _ _ hmem)

/-- An upper-case valid name is never taken by another spelling of it. -/
theorem mem_nameTable_of_upper {n : Name} (hn : n ∈ names)
    (hvalid : valid83 n = true) (hupper : upper n = n) (hnodup : names.Nodup) :
    ⟨n, n⟩ ∈ nameTable names := by
  have hmem := mem_nameTable_of_valid83 hn hvalid ?_ hnodup
  · rwa [hupper] at hmem
  · intro m _ hle hne _ heq
    have hge : nameLe n m = true := by
      have h := nameLe_upper m
      rwa [heq, hupper] at h
    exact hne (nameLe_antisymm hle hge)

/-!
## The table of a folder
-/

/-- `map_dir` leaves out dot-files, links that lead nowhere, and what is neither a file
nor a folder. -/
def shown (t : Tree) (dir : Path) (n : Name) : Bool :=
  n.head? != some dot &&
    match look t (dir ++ [n]) with
    | some v => v.kind.plain
    | none => false

def listed (t : Tree) (dir : Path) : List Name :=
  (dirNames t dir).filter (shown t dir)

def tableOf (t : Tree) (dir : Path) : List Ent :=
  nameTable (listed t dir)

theorem nodup_listed (t : Tree) (dir : Path) : (listed t dir).Nodup := by
  unfold listed dirNames
  split
  · exact (t.nodup_children _).filter _
  · exact List.nodup_nil

theorem shown_iff {t : Tree} {dir : Path} {n : Name} :
    shown t dir n = true <->
      n.head? ≠ some dot ∧ exists v, look t (dir ++ [n]) = some v ∧ v.kind.plain = true := by
  unfold shown
  rw [Bool.and_eq_true, bne_iff_ne]
  cases look t (dir ++ [n]) with
  | none => simp
  | some v => simp

theorem mem_listed {t : Tree} {dir : Path} {n : Name} :
    n ∈ listed t dir <->
      n.head? ≠ some dot ∧ exists v, look t (dir ++ [n]) = some v ∧ v.kind.plain = true := by
  unfold listed
  rw [List.mem_filter, shown_iff]
  constructor
  · exact fun h => h.2
  · intro h
    rcases h.2 with ⟨v, hv, _⟩
    exact ⟨(mem_dirNames_of_look hv).1, h⟩

/-!
## The cache
-/

structure DMap where
  mtime : Int
  e : List Ent

abbrev Cache := List (Path × DMap)

/-- `g_dcache[dir] = m`, in a cache that is emptied when it holds 32 folders. -/
def Cache.store (cache : Cache) (dir : Path) (m : DMap) : Cache :=
  (dir, m) :: (if cache.length ≥ 32 then [] else cache.filter (fun c => c.1 ≠ dir))

def mapDir (fs : HostFs) (dir : Path) : StateM Cache (Option (List Ent)) := fun cache =>
  match fs.stat dir with
  | none => (none, cache)
  | some st =>
      if st.node.isDir = false then (none, cache)
      else
        match (cache.lookup dir).filter (fun m => m.mtime == st.inode.mtime) with
        | some m => (some m.e, cache)
        | none =>
            match fs.readdir dir with
            | none => (none, cache)
            | some names =>
                let out := nameTable (names.filter (shown fs.tree dir))
                (some out, cache.store dir ⟨st.inode.mtime, out⟩)

def lookup (fs : HostFs) (dir : Path) (tos : Name) : StateM Cache (Option Ent) := do
  let m <- mapDir fs dir
  return m.bind (fun es => es.find? (fun e => e.tos == tos))

end Hostdos
end PistormAtari
