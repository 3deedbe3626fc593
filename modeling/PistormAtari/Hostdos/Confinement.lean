import PistormAtari.Hostdos.Session

/-!
# Paths stay below the root

What a program types is folded and cut before it is looked up, and is only ever
compared with names that the host has listed.  The last component of something
new is the exception: it goes to the host as it stands after the cut.
-/

namespace PistormAtari
namespace Hostdos

open Foundation

inductive Below (t : Tree) (root : Path) : Path -> Prop where
  | root : Below t root root
  | entry {dir : Path} {n : Name} (hdir : Below t root dir) (hlisted : n ∈ listed t dir) :
      Below t root (dir ++ [n])

/-- A single component: not empty, not a dot or two, and without separators. -/
structure Single (n : Name) : Prop where
  ne_nil : n ≠ []
  ne_dot : n ≠ [dot]
  ne_dots : n ≠ [dot, dot]
  no_sep : forall x, x ∈ n -> isSep x = false

/-- What `resolve_new` returns leads to a single component in a folder below the
root, or to an entry that is listed there. -/
structure NewBelow (t : Tree) (root : Path) (np : NewPath) : Prop where
  dir : Below t root np.dir
  exist : forall host, np.exist = some host -> Below t root host
  leaf : Single np.leaf

theorem Below.walkIn {t : Tree} {root h dir : Path} {c : List Name} (hbelow : Below t root h)
    (hwalk : Hostdos.walkIn t h c = .ok dir) : Below t root dir := by
  induction c generalizing h with
  | nil =>
      injection hwalk with hwalk
      rwa [← hwalk]
  | cons n rest ih =>
      unfold Hostdos.walkIn at hwalk
      split at hwalk
      · cases hwalk
      · rename_i e hent
        split at hwalk
        · cases hwalk
        · split at hwalk
          · cases hwalk
          · exact ih (hbelow.entry (listed_of_lookupIn hent)) hwalk

variable {dos : Dos}

theorem Below.found {d : Nat} {gem : Name} {host : Path} {v : Node}
    (h : dos.found d gem = .ok (host, v)) : Below dos.fs.tree (dos.rootOf d) host := by
  unfold Dos.found at h
  cases hparse : dos.parseOn d gem using List.reverseRecOn with
  | nil =>
      rw [hparse] at h
      unfold resolveIn at h
      dsimp only [List.getLast?_nil] at h
      split at h
      · injection h with h
        rw [← (Prod.mk.inj h).1]
        exact Below.root
      · cases h
  | append_singleton c leaf =>
      rw [hparse] at h
      rcases resolveIn_ok_iff.mp h with ⟨dir, e, hwalk, hent, rfl, _⟩
      exact (Below.root.walkIn hwalk).entry (listed_of_lookupIn hent)

/-!
## What is typed
-/

def foldTyped (c : List Name) (comp : Name) : List Name :=
  if comp = [] ∨ comp = [dot] then c
  else if comp = [dot, dot] then c.dropLast
  else c ++ [comp]

/-- The components of a path on top of the current folder, before they are cut. -/
def typed (cwd : List Name) (gem : Name) : List Name :=
  let s := dropDrive gem
  let c := if s.head?.any isSep then [] else cwd
  (pieces isSep s).foldl foldTyped c

theorem foldComp_eq (c : List Name) (comp : Name) :
    foldComp (c.map trunc83) comp = (foldTyped c comp).map trunc83 := by
  unfold foldComp foldTyped
  split
  · rfl
  · split
    · rw [List.map_dropLast]
    · rw [List.map_append, List.map_singleton]

theorem parse_eq {cwd : List Name} (hcwd : cwd.map trunc83 = cwd) (gem : Name) :
    parse cwd gem = (typed cwd gem).map trunc83 := by
  have hfold : forall (ps c : List Name),
      ps.foldl foldComp (c.map trunc83) = (ps.foldl foldTyped c).map trunc83 := by
    intro ps
    induction ps with
    | nil => exact fun c => rfl
    | cons p ps ih =>
        intro c
        rw [List.foldl_cons, List.foldl_cons, foldComp_eq, ih]
  unfold parse typed
  dsimp only
  split
  · exact hfold _ []
  · rw [← hfold, hcwd]

structure Component (n : Name) : Prop where
  ne_nil : n ≠ []
  ne_dots : n ≠ [dot, dot]
  no_sep : forall x, x ∈ n -> isSep x = false

theorem component_of_mem_typed {cwd : List Name} (hcwd : forall n, n ∈ cwd -> Component n)
    (gem : Name) : forall n, n ∈ typed cwd gem -> Component n := by
  have hfold : forall (ps c : List Name), (forall p, p ∈ ps -> forall x, x ∈ p -> isSep x = false) ->
      (forall n, n ∈ c -> Component n) -> forall n, n ∈ ps.foldl foldTyped c -> Component n := by
    intro ps
    induction ps with
    | nil => exact fun c _ hc => hc
    | cons p ps ih =>
        intro c hps hc
        rw [List.foldl_cons]
        apply ih _ (fun q hq => hps q (by simp [hq]))
        intro n hn
        unfold foldTyped at hn
        split at hn
        · exact hc n hn
        · rename_i hne
          split at hn
          · exact hc n (List.mem_of_mem_dropLast hn)
          · rename_i hdots
            rcases List.mem_append.mp hn with hn | hn
            · exact hc n hn
            · rw [List.mem_singleton] at hn
              subst hn
              exact ⟨fun h => hne (Or.inl h), hdots, hps _ (by simp)⟩
  unfold typed
  dsimp only
  apply hfold
  · exact fun p hp => sep_notMem_pieces hp
  · split
    · exact fun n hn => absurd hn List.not_mem_nil
    · exact hcwd

/-!
## The cut
-/

theorem toupper_eq_dot : forall c : Byte, toupper c = dot -> c = dot := by
  decide

theorem toupper_dot : toupper dot = dot := by
  decide

theorem isSep_toupper : forall c : Byte, isSep (toupper c) = isSep c := by
  decide

theorem join83_eq_nil_iff {base ext : Name} : join83 base ext = [] <-> base = [] ∧ ext = [] := by
  unfold join83
  split
  · rename_i hext
    simp [hext]
  · rename_i hext
    simp [hext]

theorem beforeDot_cons_dot (rest : Name) : beforeDot (dot :: rest) = [] := by
  simp [beforeDot]

theorem beforeDot_cons_of_ne {c : Byte} (h : c ≠ dot) (rest : Name) :
    beforeDot (c :: rest) = c :: beforeDot rest := by
  simp [beforeDot, h]

theorem afterDot_cons_dot (rest : Name) : afterDot (dot :: rest) = rest := by
  simp [afterDot]

theorem trunc83_eq_nil_iff {n : Name} (h : n ≠ []) (hdots : n ≠ [dot, dot]) :
    trunc83 n = [] <-> [dot, dot] <+: n := by
  unfold trunc83
  cases n with
  | nil => exact absurd rfl h
  | cons c rest =>
      rcases Decidable.em (c = dot) with rfl | hc
      · cases rest with
        | nil => simp
        | cons c' rest =>
            rw [if_neg (by simpa using hdots)]
            dsimp only
            rw [upper, List.map_cons, List.map_cons, toupper_dot, join83_eq_nil_iff,
              beforeDot_cons_dot, afterDot_cons_dot]
            rcases Decidable.em (c' = dot) with rfl | hc'
            · rw [toupper_dot, beforeDot_cons_dot]
              simp
            · have hne : toupper c' ≠ dot := fun heq => hc' (toupper_eq_dot c' heq)
              rw [beforeDot_cons_of_ne hne]
              simp [Ne.symm hc']
      · rw [if_neg (by simp [hc])]
        have hne : toupper c ≠ dot := fun heq => hc (toupper_eq_dot c heq)
        dsimp only
        rw [upper, List.map_cons, join83_eq_nil_iff, beforeDot_cons_of_ne hne]
        simp [Ne.symm hc]

theorem no_sep_trunc83 {n : Name} (h : forall x, x ∈ n -> isSep x = false) :
    forall x, x ∈ trunc83 n -> isSep x = false := by
  have hupper : forall x, x ∈ upper n -> isSep x = false := by
    intro x hx
    rcases List.mem_map.mp hx with ⟨y, hy, rfl⟩
    rw [isSep_toupper]
    exact h y hy
  have hbefore : forall (s : Name) (x : Byte), x ∈ beforeDot s -> x ∈ s :=
    fun s x hx => (List.takeWhile_sublist _).subset hx
  have hafter : forall (s : Name) (x : Byte), x ∈ afterDot s -> x ∈ s :=
    fun s x hx => (List.dropWhile_sublist _).subset (List.mem_of_mem_tail hx)
  unfold trunc83
  split
  · exact h
  · intro x hx
    unfold join83 at hx
    dsimp only at hx
    split at hx
    · exact hupper x (hbefore _ x (List.mem_of_mem_take hx))
    · rcases List.mem_append.mp hx with hx | hx
      · exact hupper x (hbefore _ x (List.mem_of_mem_take hx))
      · rcases List.mem_cons.mp hx with rfl | hx
        · decide
        · exact hupper x (hafter _ x (hbefore _ x (List.mem_of_mem_take hx)))

/-!
## The current folders
-/

/-- Current folders are made of names that the directory map may show. -/
def CwdNames (dos : Dos) : Prop :=
  forall d n, n ∈ dos.cwd d -> tosName n = true

theorem tosCharOk_not_sep : forall c : Byte, tosCharOk c = true -> isSep c = false := by
  decide

theorem component_of_tosName {n : Name} (h : tosName n = true) : Component n := by
  simp only [tosName, Bool.and_eq_true, beq_iff_eq] at h
  have hhead := head_ne_dot_of_valid83 h.1
  rcases parts83_of_valid83 h.1 with ⟨heq, hparts⟩
  refine ⟨?_, ?_, ?_⟩
  · rintro rfl
    cases h.1
  · rintro rfl
    exact hhead rfl
  · intro x hx
    rw [heq] at hx
    unfold join83 at hx
    split at hx
    · exact tosCharOk_not_sep x (hparts.base_ok x hx)
    · rcases List.mem_append.mp hx with hx | hx
      · exact tosCharOk_not_sep x (hparts.base_ok x hx)
      · rcases List.mem_cons.mp hx with rfl | hx
        · decide
        · exact tosCharOk_not_sep x (hparts.ext_ok x hx)

theorem trunc83_of_tosName {n : Name} (h : tosName n = true) : trunc83 n = n := by
  simp only [tosName, Bool.and_eq_true, beq_iff_eq] at h
  rw [trunc83_of_valid83 h.1, h.2]

theorem CwdNames.map_trunc83 (h : CwdNames dos) (d : Nat) :
    (dos.cwd d).map trunc83 = dos.cwd d := by
  rw [List.map_congr_left (fun n hn => trunc83_of_tosName (h d n hn)), List.map_id']

theorem tosName_of_walkIn {t : Tree} {c : List Name} {h dir : Path}
    (hwalk : walkIn t h c = .ok dir) : forall n, n ∈ c -> tosName n = true := by
  induction c generalizing h with
  | nil => exact fun n hn => absurd hn List.not_mem_nil
  | cons m rest ih =>
      unfold walkIn at hwalk
      split at hwalk
      · cases hwalk
      · rename_i e hent
        split at hwalk
        · cases hwalk
        · split at hwalk
          · cases hwalk
          · intro n hn
            rcases List.mem_cons.mp hn with rfl | hn
            · exact tosName_of_lookupIn hent
            · exact ih hwalk n hn

theorem tosName_of_found {d : Nat} {gem : Name} {host : Path} {v : Node}
    (h : dos.found d gem = .ok (host, v)) :
    forall n, n ∈ dos.parseOn d gem -> tosName n = true := by
  unfold Dos.found at h
  cases hparse : dos.parseOn d gem using List.reverseRecOn with
  | nil => exact fun n hn => absurd hn List.not_mem_nil
  | append_singleton c leaf =>
      rw [hparse] at h
      rcases resolveIn_ok_iff.mp h with ⟨dir, e, hwalk, hent, _, _⟩
      intro n hn
      rcases List.mem_append.mp hn with hn | hn
      · exact tosName_of_walkIn hwalk n hn
      · rw [List.mem_singleton.mp hn]
        exact tosName_of_lookupIn hent

theorem CwdNames.of_eq {dos dos' : Dos} (h : CwdNames dos) (heq : dos'.cwd = dos.cwd) :
    CwdNames dos' := by
  intro d n hn
  rw [heq] at hn
  exact h d n hn

theorem CwdNames.session {dos dos' : Dos} {op : Op} (hnames : CwdNames dos)
    (h : Session dos op dos') : CwdNames dos' := by
  cases h with
  | same h => exact hnames.of_eq h.cwd
  | handles h => exact hnames.of_eq h.same.cwd
  | cwd hfound h =>
      rename_i d gem host v
      intro d' n hn
      rw [h.cwd] at hn
      dsimp only at hn
      rcases Decidable.em (d' = d) with rfl | hne
      · rw [Function.update_self] at hn
        exact tosName_of_found hfound n hn
      · rw [Function.update_of_ne hne] at hn
        exact hnames d' n hn
  | nohit _ h => exact hnames.of_eq h.cwd
  | hit _ h => exact hnames.of_eq h.cwd
  | next _ _ _ _ _ h => exact hnames.of_eq h.cwd
  | last _ _ _ _ _ h => exact hnames.of_eq h.cwd
  | reset _ h =>
      intro d n hn
      rw [h.cwd] at hn
      exact absurd hn List.not_mem_nil

theorem runOps_cwdNames (drives : Nat -> Drive) (fs : HostFs) (ops : List Op) :
    CwdNames (runOps drives fs ops) := by
  have hstep : forall dos op, Good dos ∧ CwdNames dos -> Good (step dos op) ∧
      CwdNames (step dos op) :=
    fun _ op h => ⟨(step_effect h.1 op).good, h.2.session (step_session h.1 op)⟩
  have hinit : Good (Dos.init drives fs) ∧ CwdNames (Dos.init drives fs) :=
    ⟨init_good drives fs, fun _ _ hn => absurd hn List.not_mem_nil⟩
  exact (run_invariant hstep hinit ops).2

/-!
## The paths that are returned
-/

def NoDotDot (cwd : List Name) (gem : Name) : Prop :=
  forall last, (typed cwd gem).getLast? = some last -> ¬ [dot, dot] <+: last

theorem leaf_eq_nil_iff (hcwd : CwdNames dos) {d : Nat} {gem leaf : Name}
    {c : List Name} (hparse : dos.parseOn d gem = c ++ [leaf]) :
    leaf ≠ [] <-> NoDotDot (dos.cwd d) gem := by
  unfold Dos.parseOn at hparse
  rw [parse_eq (hcwd.map_trunc83 d)] at hparse
  have hlast : (typed (dos.cwd d) gem).getLast?.map trunc83 = some leaf := by
    rw [← List.getLast?_map, hparse, List.getLast?_concat]
  rcases Option.map_eq_some_iff.mp hlast with ⟨last, hsome, hcut⟩
  have hcomponent := component_of_mem_typed
    (fun n hn => component_of_tosName (hcwd d n hn)) gem last (List.mem_of_getLast? hsome)
  unfold NoDotDot
  rw [← hcut, Ne, trunc83_eq_nil_iff hcomponent.ne_nil hcomponent.ne_dots, hsome]
  constructor
  · intro hnot last' heq
    injection heq with heq
    rwa [← heq]
  · exact fun hall => hall last rfl

theorem no_sep_parse (hcwd : CwdNames dos) {d : Nat} {gem n : Name}
    (hn : n ∈ dos.parseOn d gem) : forall x, x ∈ n -> isSep x = false := by
  unfold Dos.parseOn at hn
  rw [parse_eq (hcwd.map_trunc83 d)] at hn
  rcases List.mem_map.mp hn with ⟨m, hm, rfl⟩
  exact no_sep_trunc83 (component_of_mem_typed
    (fun n hn => component_of_tosName (hcwd d n hn)) gem m hm).no_sep

theorem place_leaf {d : Nat} {gem : Name} {np : NewPath}
    (h : dos.place d gem = .ok np) : np.leaf ≠ [dot] ∧ np.leaf ≠ [dot, dot] := by
  unfold Dos.place resolveNewIn at h
  split at h
  · cases h
  · split at h
    · cases h
    · split at h
      · cases h
      · rename_i hok
        injection h with h
        rw [← h]
        exact ⟨fun heq => hok (Or.inl heq), fun heq => hok (Or.inr (Or.inl heq))⟩

/-- `walk` and `resolve` stay below the root of the drive, whatever was called
before and whatever is typed.  `resolve_new` does exactly if what was typed last
does not begin with two dots. -/
theorem returned_paths_below (drives : Nat -> Drive) (fs : HostFs) (ops : List Op) (d : Nat)
    (gem : Name) :
    let dos := runOps drives fs ops
    (forall c n dir, (dos.onCache (walk dos.fs (dos.rootOf d) c n)).1 = .ok dir ->
      Below dos.fs.tree (dos.rootOf d) dir) ∧
    (forall host st, (dos.resolveOn d gem).1 = .ok (host, st) ->
      Below dos.fs.tree (dos.rootOf d) host) ∧
    (forall np, (dos.resolveNewOn d gem).1 = .ok np ->
      (NewBelow dos.fs.tree (dos.rootOf d) np <-> NoDotDot (dos.cwd d) gem)) := by
  intro dos
  have hgood : Good dos := runOps_good drives fs ops
  have hcwd : CwdNames dos := runOps_cwdNames drives fs ops
  refine ⟨?_, ?_, ?_⟩
  · intro c n dir hwalk
    unfold walk at hwalk
    rw [(onCache_looked hgood (walkFrom_computes dos.fs _ _)).1] at hwalk
    exact Below.root.walkIn hwalk
  · intro host st hres
    rcases resolveOn_cases hgood d gem with
      ⟨err, dos', heq, _, _⟩ | ⟨host', v, dos', heq, _, hfound⟩
    · rw [heq] at hres
      cases hres
    · rw [heq] at hres
      injection hres with hres
      rw [← (Prod.mk.inj hres).1]
      exact Below.found hfound
  · intro np hnew
    rw [(resolveNewOn_spec hgood d gem).1] at hnew
    rcases place_ok hnew with ⟨c, hparse, hwalk, hexist⟩
    have hdir := Below.root.walkIn hwalk
    rw [← leaf_eq_nil_iff hcwd hparse]
    constructor
    · exact fun h => h.leaf.ne_nil
    · intro hne
      refine ⟨hdir, ?_, hne, (place_leaf hnew).1, (place_leaf hnew).2, ?_⟩
      · intro host hhost
        rw [hexist] at hhost
        rcases Option.map_eq_some_iff.mp hhost with ⟨e, hent, rfl⟩
        exact hdir.entry (listed_of_lookupIn hent)
      · exact no_sep_parse hcwd (by rw [hparse]; simp)

/-- `AB.TXT` is a single name in the root of an empty disk. -/
theorem returned_paths_below_plain :
    NewBelow HostFs.blank.tree [] ⟨[], plainName, none⟩ := by
  refine ((returned_paths_below wholeDisk HostFs.blank [] 2 plainName).2.2 _ rfl).mpr ?_
  intro last hlast
  have heq : (typed [] plainName).getLast? = some plainName := by decide +kernel
  have hlast' : (typed [] plainName).getLast? = some last := hlast
  rw [heq] at hlast'
  injection hlast' with hlast'
  rw [← hlast']
  decide

def dottedName : Name :=
  ['.', '.', 'X'].map ch

/-- `resolve_new` of `..X` returns an empty name. -/
theorem dotted_name_empty :
    ((runOps wholeDisk HostFs.blank []).resolveNewOn 2 dottedName).1 = .ok ⟨[], [], none⟩ ∧
      ¬ NewBelow HostFs.blank.tree [] ⟨[], [], none⟩ :=
  ⟨rfl, fun h => h.leaf.ne_nil rfl⟩

end Hostdos
end PistormAtari
