import PistormAtari.Foundation.SlotTable
import PistormAtari.Hostdos.GuestMemory
import PistormAtari.Hostdos.Session

/-!
# Interleaved searches

A search lives in one of 32 slots, under the id that `Fsfirst` left in the DTA.
Whatever else is called, it is continued where it was left until it ends, unless
too many searches have begun after it or the engine has been reset.
-/

namespace PistormAtari
namespace Hostdos

open Foundation

/-!
## The slot of a new search
-/

def searchKey (s : Search) : Nat :=
  s.id.toNat

theorem pickSlotFrom_spec (xs : List Search) {ss pre : List Search} {best : Nat} {b : Search}
    (hss : ss = pre ++ xs) (hbest : ss[best]? = some b)
    (hold : forall x, x ∈ pre -> searchKey b ≤ searchKey x) :
    pickSlotFrom best b.id pre.length xs < ss.length ∧
      Oldest searchKey ss (pickSlotFrom best b.id pre.length xs) := by
  induction xs generalizing pre best b with
  | nil =>
      rw [List.append_nil] at hss
      subst hss
      refine ⟨(List.getElem?_eq_some_iff.mp hbest).1, ?_⟩
      intro s hs
      unfold pickSlotFrom at hs
      rw [hbest] at hs
      injection hs with hs
      rw [← hs]
      exact Or.inr hold
  | cons x xs ih =>
      have hslot : ss[pre.length]? = some x := by
        rw [hss, List.getElem?_append_right (Nat.le_refl _), Nat.sub_self]
        rfl
      have hlen : (pre ++ [x]).length = pre.length + 1 := by simp
      have hss' : ss = (pre ++ [x]) ++ xs := by rw [hss, List.append_cons]
      unfold pickSlotFrom
      split
      · rename_i hfree
        refine ⟨(List.getElem?_eq_some_iff.mp hslot).1, ?_⟩
        intro s hs
        rw [hslot] at hs
        injection hs with hs
        rw [← hs]
        refine Or.inl ?_
        unfold searchKey
        rw [hfree]
        rfl
      · split
        · rename_i hlt
          rw [BitVec.lt_def] at hlt
          rw [← hlen]
          apply ih hss' hslot
          intro y hy
          rcases List.mem_append.mp hy with hy | hy
          · exact Nat.le_trans (Nat.le_of_lt hlt) (hold y hy)
          · rw [List.mem_singleton.mp hy]
        · rename_i hge
          rw [BitVec.lt_def, Nat.not_lt] at hge
          rw [← hlen]
          apply ih hss' hbest
          intro y hy
          rcases List.mem_append.mp hy with hy | hy
          · exact hold y hy
          · rw [List.mem_singleton.mp hy]
            exact hge

theorem pickSlot_oldest {ss : List Search} (h : ss ≠ []) :
    pickSlot ss < ss.length ∧ Oldest searchKey ss (pickSlot ss) := by
  cases ss with
  | nil => exact absurd rfl h
  | cons x xs =>
      have hspec := pickSlotFrom_spec (x :: xs) (List.nil_append (x :: xs)).symm
        (show (x :: xs)[0]? = some x from rfl) (fun y hy => absurd hy List.not_mem_nil)
      exact hspec

/-!
## Ids
-/

def starts (dos : Dos) (op : Op) : Bool :=
  (step dos op).nextSearch != dos.nextSearch

def started : Dos -> List Op -> Nat
  | _, [] => 0
  | dos, op :: ops => (starts dos op).toNat + started (step dos op) ops

theorem started_append (dos : Dos) (ops ops' : List Op) :
    started dos (ops ++ ops') = started dos ops + started (run step dos ops) ops' := by
  induction ops generalizing dos with
  | nil => simp [started]
  | cons op ops ih =>
      rw [List.cons_append, started, started, ih, run_cons]
      lia

theorem nextId_ne (id : BitVec 32) : nextId id ≠ id := by
  unfold nextId
  split
  · intro h
    rename_i hwrap
    rw [← h] at hwrap
    cases hwrap
  · bv_omega

theorem toNat_nextId {id : BitVec 32} {n : Nat} (h : id.toNat = n) (hlt : n + 1 < 2 ^ 32) :
    (nextId id).toNat = n + 1 := by
  have hadd : (id + 1).toNat = n + 1 := by
    rw [BitVec.toNat_add, h]
    exact Nat.mod_eq_of_lt hlt
  unfold nextId
  rw [if_neg]
  · exact hadd
  · intro hzero
    rw [hzero] at hadd
    cases hadd

/-- After `n` searches were started, ids up to `n` have been handed out. -/
structure Numbered (n : Nat) (dos : Dos) : Prop where
  next : n + 1 < 2 ^ 32 -> dos.nextSearch.toNat = n + 1
  ids : forall s, s ∈ dos.searches -> searchKey s ≤ n
  slots : dos.searches.length = MAX_SEARCHES

theorem Numbered.init (drives : Nat -> Drive) (fs : HostFs) :
    Numbered 0 (Dos.init drives fs) where
  next := fun _ => rfl
  ids := by
    intro s hs
    rw [List.eq_of_mem_replicate hs]
    rfl
  slots := rfl

variable {dos : Dos}

theorem starts_eq_false {op : Op}
    (h : (step dos op).nextSearch = dos.nextSearch) : starts dos op = false := by
  unfold starts
  rw [h, bne_self_eq_false]

theorem starts_eq_true {op : Op}
    (h : (step dos op).nextSearch = nextId dos.nextSearch) : starts dos op = true := by
  unfold starts
  rw [h, bne_iff_ne]
  exact nextId_ne _

variable {n : Nat}

theorem Numbered.keep {dos dos' : Dos} (h : Numbered n dos)
    (hnext : dos'.nextSearch = dos.nextSearch)
    (hlen : dos'.searches.length = dos.searches.length)
    (hids : forall s, s ∈ dos'.searches -> s ∈ dos.searches ∨ searchKey s ≤ n) :
    Numbered n dos' where
  next := by
    rw [hnext]
    exact h.next
  ids := by
    intro s hs
    rcases hids s hs with hs | hle
    · exact h.ids s hs
    · exact hle
  slots := hlen.trans h.slots

theorem Numbered.set {dos dos' : Dos} (h : Numbered n dos) {i : Nat} {s : Search}
    (hnext : dos'.nextSearch = dos.nextSearch) (hss : dos'.searches = dos.searches.set i s)
    (hs : searchKey s ≤ n) : Numbered n dos' := by
  apply h.keep hnext
  · rw [hss, List.length_set]
  · intro x hx
    rw [hss] at hx
    rcases List.mem_or_eq_of_mem_set hx with hx | rfl
    · exact Or.inl hx
    · exact Or.inr hs

theorem Numbered.step {dos : Dos} (hgood : Good dos) (h : Numbered n dos) (op : Op)
    (hcount : n + (starts dos op).toNat < 2 ^ 32) :
    Numbered (n + (starts dos op).toNat) (Hostdos.step dos op) := by
  have hsame : SameTables dos (Hostdos.step dos op) ->
      Numbered (n + (starts dos op).toNat) (Hostdos.step dos op) := by
    intro hs
    rw [starts_eq_false hs.nextSearch]
    exact h.keep hs.nextSearch (by rw [hs.searches]) (by rw [hs.searches]; exact fun s => Or.inl)
  cases step_session hgood op with
  | same hs => exact hsame hs
  | handles hs =>
      rw [starts_eq_false hs.same.nextSearch]
      exact h.keep hs.same.nextSearch (by rw [hs.same.searches])
        (by rw [hs.same.searches]; exact fun s => Or.inl)
  | cwd _ hs =>
      rw [starts_eq_false hs.nextSearch]
      exact h.keep hs.nextSearch (by rw [hs.searches])
        (by rw [hs.searches]; exact fun s => Or.inl)
  | nohit _ hs =>
      rw [starts_eq_false hs.nextSearch]
      exact h.set hs.nextSearch hs.searches (Nat.zero_le n)
  | hit _ hs =>
      have hstarts := starts_eq_true hs.nextSearch
      rw [hstarts] at hcount ⊢
      have hid := h.next hcount
      refine ⟨?_, ?_, ?_⟩
      · intro hlt
        rw [hs.nextSearch]
        exact toNat_nextId hid hlt
      · intro s hmem
        rw [hs.searches] at hmem
        rcases List.mem_or_eq_of_mem_set hmem with hmem | rfl
        · exact Nat.le_succ_of_le (h.ids s hmem)
        · exact Nat.le_of_eq hid
      · rw [hs.searches]
        dsimp only
        rw [List.length_set]
        exact h.slots
  | next _ _ hslot _ _ hs =>
      rw [starts_eq_false hs.nextSearch]
      have hkey := h.ids _ (List.mem_of_getElem? hslot)
      exact h.set hs.nextSearch hs.searches hkey
  | last _ _ _ _ _ hs =>
      rw [starts_eq_false hs.nextSearch]
      exact h.set hs.nextSearch hs.searches (Nat.zero_le n)
  | reset _ hs =>
      rw [starts_eq_false hs.nextSearch]
      refine h.keep hs.nextSearch ?_ ?_
      · rw [hs.searches]
        exact List.length_map _
      · intro s hmem
        rw [hs.searches] at hmem
        rcases List.mem_map.mp hmem with ⟨x, _, rfl⟩
        exact Or.inr (Nat.zero_le n)

theorem Numbered.run {dos : Dos} (hgood : Good dos) (h : Numbered n dos)
    (ops : List Op) (hcount : n + started dos ops < 2 ^ 32) :
    Numbered (n + started dos ops) (Foundation.run Hostdos.step dos ops) := by
  induction ops generalizing n dos with
  | nil => exact h
  | cons op ops ih =>
      unfold started at hcount ⊢
      rw [← Nat.add_assoc] at hcount ⊢
      have hstep := h.step hgood op (by lia)
      exact ih (step_effect hgood op).good hstep hcount

/-!
## One search

`k` is its id.
-/

/-- The search is in its slot, at `pos`, and few searches are newer. -/
structure Live (k : BitVec 32) (hits : List Hit) (pos later : Nat) (dos : Dos) : Prop where
  native : dos.mint = false
  slot : exists i, Sole searchKey dos.searches k.toNat i ⟨k, hits, pos⟩
  few : newer searchKey dos.searches k.toNat ≤ later

/-- What is known of a search after `c` calls to continue it and `n` calls of
`Fsfirst`: it is at its next hit, or has ended. -/
inductive Tracks (k : BitVec 32) (hits : List Hit) (c n : Nat) (dos : Dos) : Prop where
  | live (hc : c < hits.length) (h : Live k hits (c + 1) n dos)
  | ended (hc : hits.length ≤ c) (hnative : dos.mint = false)
      (h : Absent searchKey dos.searches k.toNat)

variable {k : BitVec 32}

theorem Live.keep {hits : List Hit} {pos n : Nat} {dos dos' : Dos}
    (h : Live k hits pos n dos) (hmint : dos'.mint = dos.mint)
    (hss : dos'.searches = dos.searches) : Live k hits pos n dos' :=
  ⟨hmint.trans h.native, by rw [hss]; exact h.slot, by rw [hss]; exact h.few⟩

theorem Live.other {hits : List Hit} {pos n n' : Nat} {dos dos' : Dos}
    (h : Live k hits pos n dos) (hmint : dos'.mint = dos.mint) {j : Nat} {s : Search}
    (hss : dos'.searches = dos.searches.set j s) (hs : searchKey s ≠ k.toNat)
    (hj : forall i, Sole searchKey dos.searches k.toNat i ⟨k, hits, pos⟩ -> j ≠ i)
    (hfew : newer searchKey (dos.searches.set j s) k.toNat ≤ n') : Live k hits pos n' dos' := by
  rcases h.slot with ⟨i, hi⟩
  refine ⟨hmint.trans h.native, ⟨i, ?_⟩, ?_⟩
  · rw [hss]
    exact hi.set_other (hj i hi) hs
  · rw [hss]
    exact hfew

theorem searchKey_ne {s : Search} {k : BitVec 32} (h : s.id ≠ k) : searchKey s ≠ k.toNat :=
  fun heq => h (BitVec.eq_of_toNat_eq heq)

theorem Live.not_picked {hits : List Hit} {pos n m : Nat} {dos : Dos}
    (h : Live k hits pos n dos) (hnum : Numbered m dos) (hk : k ≠ 0) (hn : n + 1 < 32) :
    forall i, Sole searchKey dos.searches k.toNat i ⟨k, hits, pos⟩ ->
      pickSlot dos.searches ≠ i := by
  intro i hi
  have hne : dos.searches ≠ [] := by
    intro hnil
    have hslots := hnum.slots
    rw [hnil] at hslots
    cases hslots
  have hk' : k.toNat ≠ 0 := fun hzero => hk (BitVec.eq_of_toNat_eq hzero)
  apply hi.ne_oldest hk' (pickSlot_oldest hne).2
  have hfew := h.few
  have hslots : dos.searches.length = 32 := hnum.slots
  lia

theorem presents_unique {m : Mem} {dta : Addr} {k k' : BitVec 32}
    (h : presents m dta k = true) (h' : presents m dta k' = true) : k = k' :=
  (presents_iff.mp h).2.symm.trans (presents_iff.mp h').2

theorem Live.step_other {hits : List Hit} {pos n m : Nat} {dos : Dos}
    (hgood : Good dos) (h : Live k hits pos n dos) (hnum : Numbered m dos) (hk : k ≠ 0)
    (hkm : k.toNat ≤ m) {op : Op} (hcount : m + (starts dos op).toNat < 2 ^ 32)
    (hreset : resets op = false) (hcont : continues k op = false)
    (hn : isFsfirst op = true -> n + 1 < 32) :
    Live k hits pos (n + (isFsfirst op).toNat) (step dos op) := by
  have hle : newer searchKey dos.searches k.toNat ≤ n + (isFsfirst op).toNat :=
    Nat.le_trans h.few (Nat.le_add_right _ _)
  have hmore : Live k hits pos (n + (isFsfirst op).toNat) dos := ⟨h.native, h.slot, hle⟩
  cases step_session hgood op with
  | same hs => exact hmore.keep hs.mint hs.searches
  | handles hs => exact hmore.keep hs.same.mint hs.same.searches
  | cwd _ hs => exact hmore.keep hs.mint hs.searches
  | nohit hop hs =>
      apply h.other hs.mint hs.searches _ (h.not_picked hnum hk (hn hop))
      · exact Nat.le_trans (newer_set_old _ (Nat.zero_le _)) hle
      · exact searchKey_ne (fun heq => hk heq.symm)
  | hit hop hs =>
      have hstarts := starts_eq_true hs.nextSearch
      rw [hstarts] at hcount
      have hid := hnum.next hcount
      apply h.other hs.mint hs.searches _ (h.not_picked hnum hk (hn hop))
      · rw [hop]
        exact Nat.le_trans (newer_set_le _ _ _) (Nat.succ_le_succ h.few)
      · show dos.nextSearch.toNat ≠ k.toNat
        lia
  | @next k' j s hop _ hslot hid _ hs =>
      have hne : s.id ≠ k := by
        rw [hid]
        rintro rfl
        rw [hcont] at hop
        cases hop
      apply hmore.other hs.mint hs.searches
      · exact searchKey_ne hne
      · rintro i hi rfl
        rw [hi.slot] at hslot
        injection hslot with hslot
        rw [← hslot] at hne
        exact hne rfl
      · rw [newer_set_same hslot (by rfl)]
        exact hle
  | @last k' j s hop _ hslot hid _ hs =>
      apply hmore.other hs.mint hs.searches
      · exact searchKey_ne (fun heq => hk heq.symm)
      · rintro i hi rfl
        rw [hi.slot] at hslot
        injection hslot with hslot
        rw [← hslot] at hid
        dsimp only at hid
        rw [← hid, hcont] at hop
        cases hop
      · exact Nat.le_trans (newer_set_old _ (Nat.zero_le _)) hle
  | reset hop _ =>
      rw [hreset] at hop
      cases hop

theorem continues_cases {op : Op} (h : continues k op = true) :
    exists env m p, op = .call env m 2 p ∧ (rd16 m (p 0)).toNat = 0x4F ∧
      presents m (p 3) k = true := by
  unfold continues at h
  split at h
  · rename_i env m p
    rw [Bool.and_eq_true, beq_iff_eq] at h
    exact ⟨env, m, p, rfl, h.1, h.2⟩
  · cases h

theorem hostdosCall_fsnext (hnative : dos.mint = false) (env : Env) {m : Mem}
    {p : Nat -> BitVec 32} (hfn : (rd16 m (p 0)).toNat = 0x4F) :
    hostdosCall env dos m 2 p = doFsnext dos m (p 3) := by
  show (if dos.mint then _ else dispatch env dos m (p 0) (p 1).toNat (p 2) (p 3)) = _
  rw [hnative, if_neg (by decide)]
  unfold dispatch
  rw [hfn]
  rfl

theorem Live.fsnext {hits : List Hit} {pos n : Nat} {dos : Dos}
    (h : Live k hits pos n dos) (hk : k ≠ 0) {m : Mem} {dta : Addr}
    (hdta : presents m dta k = true) :
    exists i, Sole searchKey dos.searches k.toNat i ⟨k, hits, pos⟩ ∧
      ((exists hit, hits[pos]? = some hit ∧ doFsnext dos m dta =
          ⟨0, { dos with searches := dos.searches.set i ⟨k, hits, pos + 1⟩ },
            dtaFill m dta k hit⟩) ∨
        (hits.length ≤ pos ∧ doFsnext dos m dta =
          ⟨ENMFIL, { dos with searches := dos.searches.set i ⟨0, [], pos⟩ }, m⟩)) := by
  rcases h.slot with ⟨i, hi⟩
  refine ⟨i, hi, ?_⟩
  rcases doFsnext_cases dos m dta with ⟨_, hnone⟩ | ⟨k', j, s, hdta', _, hslot, hid, hcases⟩
  · exact absurd rfl (hnone k hdta hk _ (List.mem_of_getElem? hi.slot))
  · have hkk : k' = k := presents_unique hdta' hdta
    subst hkk
    have hji : j = i := hi.only j s hslot (by rw [searchKey, hid])
    subst hji
    rw [hi.slot] at hslot
    injection hslot with hslot
    subst hslot
    exact hcases

theorem Absent.fsnext (h : Absent searchKey dos.searches k.toNat)
    {m : Mem} {dta : Addr} (hdta : presents m dta k = true) :
    doFsnext dos m dta = ⟨ENMFIL, dos, m⟩ := by
  rcases doFsnext_cases dos m dta with ⟨heq, _⟩ | ⟨k', j, s, hdta', _, hslot, hid, _⟩
  · exact heq
  · have hkk : k' = k := presents_unique hdta' hdta
    subst hkk
    exact absurd (by rw [searchKey, hid]) (h s (List.mem_of_getElem? hslot))

theorem Absent.step {m : Nat} {dos : Dos} (hgood : Good dos)
    (h : Absent searchKey dos.searches k.toNat) (hnum : Numbered m dos) (hk : k ≠ 0)
    (hkm : k.toNat ≤ m) {op : Op} (hcount : m + (starts dos op).toNat < 2 ^ 32) :
    Absent searchKey (Hostdos.step dos op).searches k.toNat := by
  have hzero : searchKey ⟨0, [], 0⟩ ≠ k.toNat := searchKey_ne (fun heq => hk heq.symm)
  cases step_session hgood op with
  | same hs => rwa [hs.searches]
  | handles hs => rwa [hs.same.searches]
  | cwd _ hs => rwa [hs.searches]
  | nohit _ hs =>
      rw [hs.searches]
      exact h.set hzero
  | hit _ hs =>
      have hstarts := starts_eq_true hs.nextSearch
      rw [hstarts] at hcount
      have hid := hnum.next hcount
      rw [hs.searches]
      apply h.set
      show dos.nextSearch.toNat ≠ k.toNat
      lia
  | next _ _ hslot _ _ hs =>
      have hkey := h _ (List.mem_of_getElem? hslot)
      rw [hs.searches]
      exact h.set hkey
  | last _ _ _ _ _ hs =>
      rw [hs.searches]
      exact h.set hzero
  | reset _ hs =>
      rw [hs.searches]
      intro s hmem
      rcases List.mem_map.mp hmem with ⟨x, _, rfl⟩
      exact hzero

theorem mint_step (hgood : Good dos) {op : Op} (hreset : resets op = false) :
    (step dos op).mint = dos.mint := by
  cases step_session hgood op with
  | same hs => exact hs.mint
  | handles hs => exact hs.same.mint
  | cwd _ hs => exact hs.mint
  | nohit _ hs => exact hs.mint
  | hit _ hs => exact hs.mint
  | next _ _ _ _ _ hs => exact hs.mint
  | last _ _ _ _ _ hs => exact hs.mint
  | reset hop _ =>
      rw [hreset] at hop
      cases hop

theorem Tracks.step {hits : List Hit} {c n m : Nat} {dos : Dos}
    (hgood : Good dos) (h : Tracks k hits c n dos) (hnum : Numbered m dos) (hk : k ≠ 0)
    (hkm : k.toNat ≤ m) {op : Op} (hcount : m + (starts dos op).toNat < 2 ^ 32)
    (hreset : resets op = false)
    (hn : isFsfirst op = true -> c < hits.length -> n + 1 < 32) :
    Tracks k hits (c + (continues k op).toNat) (n + (isFsfirst op).toNat)
      (Hostdos.step dos op) := by
  cases h with
  | ended hc hnative hgone =>
      exact .ended (by lia) ((mint_step hgood hreset).trans hnative)
        (Absent.step hgood hgone hnum hk hkm hcount)
  | live hc hlive =>
      cases hcont : continues k op with
      | false =>
          exact .live hc (hlive.step_other hgood hnum hk hkm hcount hreset hcont
            (fun hop => hn hop hc))
      | true =>
          rcases continues_cases hcont with ⟨env, mem, p, rfl, hfn, hdta⟩
          have hfirst : isFsfirst (.call env mem 2 p) = false := by
            show ((rd16 mem (p 0)).toNat == 0x4E) = false
            rw [hfn]
            rfl
          have hstep : Hostdos.step dos (.call env mem 2 p) = (doFsnext dos mem (p 3)).dos :=
            congrArg Reply.dos (hostdosCall_fsnext hlive.native env hfn)
          rw [hstep, hfirst]
          rcases hlive.fsnext hk hdta with ⟨i, hi, ⟨hit, hhit, heq⟩ | ⟨hend, heq⟩⟩
          · have hlt : c + 1 < hits.length := (List.getElem?_eq_some_iff.mp hhit).1
            rw [heq]
            refine .live hlt ⟨hlive.native, ⟨i, hi.set_self rfl⟩, ?_⟩
            dsimp only
            rw [newer_set_same hi.slot (by rfl)]
            exact hlive.few
          · rw [heq]
            exact .ended hend hlive.native
              (hi.remove (searchKey_ne (fun heq => hk heq.symm)))

/-!
## Whole runs
-/

def continued (k : BitVec 32) (ops : List Op) : Nat :=
  ops.countP (continues k)

def fsfirsts (ops : List Op) : Nat :=
  ops.countP isFsfirst

theorem countP_concat {α : Type} (p : α -> Bool) (l : List α) (a : α) :
    (l ++ [a]).countP p = l.countP p + (p a).toNat := by
  rw [List.countP_append, List.countP_singleton]
  cases p a with
  | false => rfl
  | true => rfl

theorem continued_concat (k : BitVec 32) (ops : List Op) (op : Op) :
    continued k (ops ++ [op]) = continued k ops + (continues k op).toNat :=
  countP_concat _ ops op

theorem fsfirsts_concat (ops : List Op) (op : Op) :
    fsfirsts (ops ++ [op]) = fsfirsts ops + (isFsfirst op).toNat :=
  countP_concat _ ops op

/-- No more than 31 calls of `Fsfirst` come before the search has ended. -/
def FewFsfirsts (k : BitVec 32) (hits : List Hit) (ops : List Op) : Prop :=
  forall l r, ops = l ++ r -> continued k l < hits.length -> fsfirsts l ≤ 31

theorem FewFsfirsts.init {hits : List Hit} {ops : List Op} {op : Op}
    (h : FewFsfirsts k hits (ops ++ [op])) : FewFsfirsts k hits ops := by
  intro l r hsplit
  exact h l (r ++ [op]) (by rw [hsplit, List.append_assoc])

theorem good_run (h : Good dos) (ops : List Op) : Good (run step dos ops) := by
  have hstep : forall dos op, Good dos -> Good (step dos op) :=
    fun _ op h => (step_effect h op).good
  exact run_invariant hstep h ops

theorem Tracks.run {hits : List Hit} {m : Nat} {dos : Dos} (hgood : Good dos)
    (h : Tracks k hits 0 0 dos) (hnum : Numbered m dos) (hk : k ≠ 0) (hkm : k.toNat ≤ m)
    (ops : List Op) (hcount : m + started dos ops < 2 ^ 32)
    (hreset : forall op, op ∈ ops -> resets op = false) (hfew : FewFsfirsts k hits ops) :
    Tracks k hits (continued k ops) (fsfirsts ops) (Foundation.run Hostdos.step dos ops) := by
  induction ops using List.reverseRecOn with
  | nil => exact h
  | append_singleton ops op ih =>
      rw [started_append, started, started, Nat.add_zero] at hcount
      have hbefore := ih (by lia) (fun o ho => hreset o (by simp [ho])) hfew.init
      have hnum' := hnum.run hgood ops (by lia)
      rw [continued_concat, fsfirsts_concat, run_append]
      apply hbefore.step (good_run hgood ops) hnum' hk (by lia) (by lia)
        (hreset op (by simp))
      intro hop hc
      have hcont : continues k op = false := by
        cases hcont : continues k op with
        | false => rfl
        | true =>
            rcases continues_cases hcont with ⟨env, mem, p, rfl, hfn, _⟩
            have hop : ((rd16 mem (p 0)).toNat == 0x4E) = true := hop
            rw [hfn] at hop
            cases hop
      have hall := hfew (ops ++ [op]) [] (List.append_nil _).symm
      rw [continued_concat, fsfirsts_concat, hcont, hop] at hall
      exact Nat.lt_succ_of_le (hall hc)

theorem Absent.run {m : Nat} {dos : Dos} (hgood : Good dos)
    (h : Absent searchKey dos.searches k.toNat) (hnum : Numbered m dos) (hk : k ≠ 0)
    (hkm : k.toNat ≤ m) (ops : List Op) (hcount : m + started dos ops < 2 ^ 32) :
    Absent searchKey (Foundation.run Hostdos.step dos ops).searches k.toNat := by
  induction ops generalizing m dos with
  | nil => exact h
  | cons op ops ih =>
      rw [started] at hcount
      rw [run_cons]
      have hcount' : m + (starts dos op).toNat < 2 ^ 32 := by lia
      exact ih (step_effect hgood op).good (Absent.step hgood h hnum hk hkm hcount')
        (hnum.step hgood op hcount') (by lia) (by lia)

theorem Absent.reset (hk : k ≠ 0) {op : Op}
    (hop : resets op = true) (hnative : dos.mint = false) :
    Absent searchKey (Hostdos.step dos op).searches k.toNat := by
  have hreset : Absent searchKey dos.resetAll.searches k.toNat := by
    intro s hs
    rcases List.mem_map.mp hs with ⟨x, _, rfl⟩
    exact searchKey_ne (fun heq => hk heq.symm)
  unfold resets at hop
  split at hop
  · exact hreset
  · unfold Hostdos.step noteMint
    rw [hnative]
    exact hreset
  · cases hop

theorem Absent.run_of_reset {m : Nat} {dos : Dos} (hgood : Good dos)
    (hnative : dos.mint = false) (hnum : Numbered m dos) (hk : k ≠ 0) (hkm : k.toNat ≤ m)
    (ops : List Op) (hcount : m + started dos ops < 2 ^ 32)
    (hreset : exists op, op ∈ ops ∧ resets op = true) :
    Absent searchKey (Foundation.run Hostdos.step dos ops).searches k.toNat := by
  induction ops generalizing m dos with
  | nil =>
      rcases hreset with ⟨op, hop, _⟩
      cases hop
  | cons op ops ih =>
      rw [started] at hcount
      rw [run_cons]
      have hcount' : m + (starts dos op).toNat < 2 ^ 32 := by lia
      have hgood' := (step_effect hgood op).good
      have hnum' := hnum.step hgood op hcount'
      cases hop : resets op with
      | true =>
          exact Absent.run hgood' (Absent.reset hk hop hnative) hnum' hk (by lia) ops (by lia)
      | false =>
          apply ih hgood' ((mint_step hgood hop).trans hnative) hnum' (by lia) (by lia)
          rcases hreset with ⟨o, ho, hor⟩
          rcases List.mem_cons.mp ho with rfl | ho
          · rw [hop] at hor
            cases hor
          · exact ⟨o, ho, hor⟩

theorem hostdosCall_fsfirst {env : Env} {m : Mem} {p : Nat -> BitVec 32}
    (hop : isFsfirst (.call env m 2 p) = true)
    (hok : (hostdosCall env dos m 2 p).result = 0) :
    dos.mint = false ∧
      hostdosCall env dos m 2 p = doFsfirst env dos m (p 1).toNat (p 0) (p 3) := by
  have hfn : (rd16 m (p 0)).toNat = 0x4E := beq_iff_eq.mp hop
  have heq : hostdosCall env dos m 2 p = if dos.mint then ⟨HOSTDOS_PASS, dos, m⟩ else
      if dos.driveOk (p 1).toNat = false then ⟨HOSTDOS_PASS, dos, m⟩ else
        doFsfirst env dos m (p 1).toNat (p 0) (p 3) := by
    show (if dos.mint then _ else dispatch env dos m (p 0) (p 1).toNat (p 2) (p 3)) = _
    unfold dispatch
    rw [hfn]
    rfl
  rw [heq] at hok ⊢
  split at hok
  · cases hok
  · rename_i hmint
    split at hok
    · cases hok
    · rename_i hdrive
      rw [if_neg hmint, if_neg hdrive]
      exact ⟨by simpa using hmint, rfl⟩

theorem Tracks.begin {dos dos' : Dos} (hnum : Numbered n dos) (hn : n + 1 < 2 ^ 32)
    (hnative : dos.mint = false) {hit : Hit} {hits : List Hit} {next : BitVec 32}
    (h : Searched dos ⟨dos.nextSearch, hit :: hits, 1⟩ next dos') :
    Tracks dos.nextSearch (hit :: hits) 0 0 dos' := by
  have hid := hnum.next hn
  have hgone : Absent searchKey dos.searches dos.nextSearch.toNat := by
    intro s hs
    have hle := hnum.ids s hs
    lia
  have hne : dos.searches ≠ [] := by
    intro hnil
    have hslots := hnum.slots
    rw [hnil] at hslots
    cases hslots
  have hnone : newer searchKey dos.searches dos.nextSearch.toNat = 0 := by
    unfold newer
    rw [List.countP_eq_zero]
    intro s hs
    have hle := hnum.ids s hs
    rw [decide_eq_true_eq]
    lia
  refine .live (Nat.succ_pos _) ⟨h.same.mint.trans hnative, ⟨pickSlot dos.searches, ?_⟩, ?_⟩
  · rw [h.same.searches]
    exact hgone.insert (pickSlot_oldest hne).1 rfl
  · rw [h.same.searches, ← hnone]
    exact newer_set_old _ (Nat.le_refl _)

theorem dtaBytes_eq (k : BitVec 32) (hit : Hit) :
    exists rest, dtaBytes k hit = be32 HOSTDOS_DTA_MAGIC ++ be32 k ++ rest := by
  unfold dtaBytes
  simp only [List.append_assoc]
  exact ⟨_, rfl⟩

theorem presents_dtaFill (m : Mem) {dta : Addr} (h : dta ≠ 0) (k : BitVec 32) (hit : Hit) :
    presents (dtaFill m dta k hit) dta k = true := by
  rcases dtaBytes_eq k hit with ⟨rest, hbytes⟩
  have hmagic : rd32 (writeMem m dta ([] ++ be32 HOSTDOS_DTA_MAGIC ++ (be32 k ++ rest)))
      (dta + BitVec.ofNat 32 0) = HOSTDOS_DTA_MAGIC := rd32_writeMem (by decide)
  have hid : rd32 (writeMem m dta (be32 HOSTDOS_DTA_MAGIC ++ be32 k ++ rest))
      (dta + BitVec.ofNat 32 4) = k := rd32_writeMem (by decide)
  rw [List.nil_append, ← List.append_assoc, BitVec.add_zero] at hmagic
  rw [presents_iff]
  unfold dtaFill
  rw [hbytes]
  exact ⟨⟨h, hmagic⟩, hid⟩

/-- The reply to `Fsnext` gives the hit: nothing is lost, and the DTA is good for
the next one. -/
structure Gives (k : BitVec 32) (m : Mem) (dta : Addr) (hit : Hit) (reply : Reply) : Prop where
  result : reply.result = 0
  mem : reply.mem = dtaFill m dta k hit
  dta : presents reply.mem dta k = true

theorem Tracks.reply {hits : List Hit} {c n : Nat} {dos : Dos}
    (h : Tracks k hits c n dos) (hk : k ≠ 0) (env : Env) {m : Mem} {p : Nat -> BitVec 32}
    (hcont : continues k (.call env m 2 p) = true) :
    match hits[c + 1]? with
    | some hit => Gives k m (p 3) hit (hostdosCall env dos m 2 p)
    | none => (hostdosCall env dos m 2 p).result = ENMFIL ∧
        (hostdosCall env dos m 2 p).mem = m := by
  rcases continues_cases hcont with ⟨env', m', p', heq, hfn, hdta⟩
  injection heq with henv hm _ hp
  subst henv hm hp
  cases h with
  | ended hc hnative hgone =>
      rw [hostdosCall_fsnext hnative env hfn, Absent.fsnext hgone hdta,
        List.getElem?_eq_none_iff.mpr (by lia)]
      exact ⟨rfl, rfl⟩
  | live hc hlive =>
      rw [hostdosCall_fsnext hlive.native env hfn]
      rcases hlive.fsnext hk hdta with ⟨i, _, ⟨hit, hhit, heq⟩ | ⟨hend, heq⟩⟩
      · rw [hhit, heq]
        exact ⟨rfl, rfl, presents_dtaFill m (presents_iff.mp hdta).1.1 k hit⟩
      · rw [List.getElem?_eq_none_iff.mpr hend, heq]
        exact ⟨rfl, rfl⟩

/-- The engine `dos` after an `Fsfirst` that began the search `k`, when `n` searches
have been started. -/
structure Begun (k : BitVec 32) (hits : List Hit) (n : Nat) (dos : Dos) : Prop where
  good : Good dos
  native : dos.mint = false
  numbered : Numbered n dos
  id_ne : k ≠ 0
  id_le : k.toNat ≤ n
  tracks : Tracks k hits 0 0 dos

theorem Begun.intro {dos dos' : Dos} {op : Op} (hgood : Good dos)
    (hnative : dos.mint = false) (hnum : Numbered n dos) (hn : n + 1 < 2 ^ 32) {hit : Hit}
    {rest : List Hit} (hstep : step dos op = dos')
    (h : Searched dos ⟨dos.nextSearch, hit :: rest, 1⟩ (nextId dos.nextSearch) dos') :
    Begun dos.nextSearch (hit :: rest) (n + 1) dos' := by
  have hid := hnum.next hn
  have hstarts : starts dos op = true := by
    apply starts_eq_true
    rw [hstep]
    exact h.same.nextSearch
  have hnum' := hnum.step hgood op
  rw [hstarts, hstep] at hnum'
  refine ⟨?_, h.same.mint.trans hnative, hnum' hn, ?_, by lia,
    Tracks.begin hnum hn hnative h⟩
  · rw [← hstep]
    exact (step_effect hgood op).good
  · intro hzero
    rw [hzero] at hid
    cases hid

theorem Begun.reply {hits : List Hit} {n : Nat} {dos : Dos}
    (h : Begun k hits n dos) {later : List Op} (hcount : n + started dos later < 2 ^ 32)
    (hreset : forall op, op ∈ later -> resets op = false) (hfew : FewFsfirsts k hits later)
    (env : Env) {m : Mem} {p : Nat -> BitVec 32}
    (hcont : continues k (.call env m 2 p) = true) :
    match hits[continued k later + 1]? with
    | some hit => Gives k m (p 3) hit (hostdosCall env (run step dos later) m 2 p)
    | none => (hostdosCall env (run step dos later) m 2 p).result = ENMFIL ∧
        (hostdosCall env (run step dos later) m 2 p).mem = m :=
  (h.tracks.run h.good h.numbered h.id_ne h.id_le later hcount hreset hfew).reply h.id_ne env
    hcont

theorem Begun.stale {hits : List Hit} {n : Nat} {dos : Dos}
    (h : Begun k hits n dos) {later : List Op} (hcount : n + started dos later < 2 ^ 32)
    (hreset : exists op, op ∈ later ∧ resets op = true) (env : Env) {m : Mem}
    {p : Nat -> BitVec 32} (hcont : continues k (.call env m 2 p) = true) :
    (hostdosCall env (run step dos later) m 2 p).mem = m ∧
      (hostdosCall env (run step dos later) m 2 p).result =
        if (run step dos later).mint then HOSTDOS_PASS else ENMFIL := by
  have hgone := Absent.run_of_reset h.good h.native h.numbered h.id_ne h.id_le later hcount
    hreset
  rcases continues_cases hcont with ⟨env', m', p', hop, hfn, hdta⟩
  injection hop with henv hm _ hp
  subst henv hm hp
  cases hmint : (run step dos later).mint with
  | false =>
      rw [hostdosCall_fsnext hmint env hfn, Absent.fsnext hgone hdta]
      exact ⟨rfl, rfl⟩
  | true =>
      have hpass : hostdosCall env (run step dos later) m 2 p =
          ⟨HOSTDOS_PASS, run step dos later, m⟩ := by
        show (if (run step dos later).mint then _ else _) = _
        rw [hmint]
        rfl
      rw [hpass]
      exact ⟨rfl, rfl⟩

/-- A search that `Fsfirst` has begun gives the hits it captured, each once and in
order, to the calls of `Fsnext` on its DTA, and then `ENMFIL`, whatever else is
called in between: provided that no more than 31 calls of `Fsfirst` come before it
has ended and the engine is not reset.  After a reset its DTA gives no hit. -/
theorem interleaved_search (drives : Nat -> Drive) (fs : HostFs) (pre later : List Op)
    (env : Env) (m : Mem) (p : Nat -> BitVec 32)
    (hfirst : isFsfirst (.call env m 2 p) = true)
    (hok : (hostdosCall env (runOps drives fs pre) m 2 p).result = 0)
    (hcount : started (Dos.init drives fs) (pre ++ .call env m 2 p :: later) < 2 ^ 32) :
    let k := (runOps drives fs pre).nextSearch
    let hits := (runOps drives fs pre).captured env m (p 1).toNat (p 0)
    let dos := runOps drives fs (pre ++ .call env m 2 p :: later)
    (exists hit, hits[0]? = some hit ∧
      Gives k m (p 3) hit (hostdosCall env (runOps drives fs pre) m 2 p)) ∧
    ((forall op, op ∈ later -> resets op = false) -> FewFsfirsts k hits later ->
      forall env' m' p', continues k (.call env' m' 2 p') = true ->
        match hits[continued k later + 1]? with
        | some hit => Gives k m' (p' 3) hit (hostdosCall env' dos m' 2 p')
        | none => (hostdosCall env' dos m' 2 p').result = ENMFIL ∧
            (hostdosCall env' dos m' 2 p').mem = m') ∧
    ((exists op, op ∈ later ∧ resets op = true) ->
      forall env' m' p', continues k (.call env' m' 2 p') = true ->
        (hostdosCall env' dos m' 2 p').mem = m' ∧
          (hostdosCall env' dos m' 2 p').result =
            if dos.mint then HOSTDOS_PASS else ENMFIL) := by
  intro k hits dos
  have hgood := runOps_good drives fs pre
  rcases hostdosCall_fsfirst hfirst hok with ⟨hnative, hcall⟩
  rcases doFsfirst_cases hgood env m (p 1).toNat (p 0) (p 3) with
    ⟨err, dos', heq, hneg, _⟩ | ⟨dos', heq, _⟩ |
      ⟨hit, rest, dos', hdta, hcaptured, heq, hsearched⟩
  · rw [hcall, heq] at hok
    exact absurd hneg (by rw [show err = 0 from hok]; decide)
  · rw [hcall, heq] at hok
    cases hok
  · have hhits : hits = hit :: rest := hcaptured
    have hstep : step (runOps drives fs pre) (.call env m 2 p) = dos' := by
      show (hostdosCall env (runOps drives fs pre) m 2 p).dos = dos'
      rw [hcall, heq]
    have hdos : dos = run step dos' later := by
      show run step _ (pre ++ _ :: later) = _
      rw [run_append, run_cons]
      exact congrArg (fun d => run step d later) hstep
    have hsplit : started (Dos.init drives fs) pre +
        ((starts (runOps drives fs pre) (.call env m 2 p)).toNat + started dos' later) <
          2 ^ 32 := by
      rw [started_append, started] at hcount
      rw [← hstep]
      exact hcount
    have hnum := (Numbered.init drives fs).run (init_good drives fs) pre (by lia)
    rw [Nat.zero_add] at hnum
    have hstarts : starts (runOps drives fs pre) (.call env m 2 p) = true := by
      apply starts_eq_true
      rw [hstep]
      exact hsearched.same.nextSearch
    rw [hstarts, ← Nat.add_assoc] at hsplit
    have hlt : started (Dos.init drives fs) pre + 1 < 2 ^ 32 :=
      Nat.lt_of_le_of_lt (Nat.le_add_right _ _) hsplit
    have hbegun := Begun.intro hgood hnative hnum hlt hstep hsearched
    rw [hdos, hhits]
    refine ⟨⟨hit, rfl, ?_⟩, ?_, ?_⟩
    · rw [hcall, heq]
      exact ⟨rfl, rfl, presents_dtaFill m hdta k hit⟩
    · intro hreset hfew env' m' p' hcont
      exact hbegun.reply hsplit hreset hfew env' hcont
    · intro hreset env' m' p' hcont
      exact hbegun.stale hsplit hreset env' hcont

/-- The arguments of a call on drive `C`, by a program with its DTA at `dta`. -/
def dtaArgs (dta : Addr) : Nat -> BitVec 32 :=
  fun i => if i = 0 then 0x100 else if i = 1 then 2 else if i = 3 then dta else 0

def firstMem : Mem :=
  wr16 (pathArgs (['*', '.', '*'].map ch)) 0x100 0x4E

def progName : Name :=
  ['C', '.', 'P', 'R', 'G'].map ch

def pairDisk : HostFs :=
  (HostFs.blank.addNode [] plainName .reg 0o644 0 (by decide)).addNode [] progName .reg 0o644 0
    (by decide)

def fileHit (name : Name) : Hit :=
  ⟨name, 0, 0, 0x21, 0⟩

/-- Two programs have begun to list a disk with two files, with DTAs at `0x300` and
`0x500`, and the first of them goes on. -/
def nextMem : Mem :=
  wr16 (dtaFill (dtaFill firstMem 0x300 1 (fileHit plainName)) 0x500 2 (fileHit plainName))
    0x100 0x4F

/-- The search that began first gets its second file, whatever the other program has
been given, and then `ENMFIL`. -/
theorem interleaved_search_two_programs :
    let first := Op.call willing firstMem 2 (dtaArgs 0x300)
    let other := Op.call willing firstMem 2 (dtaArgs 0x500)
    let next := Op.call willing nextMem 2 (dtaArgs 0x300)
    Gives 1 firstMem 0x300 (fileHit plainName)
      (hostdosCall willing (runOps wholeDisk pairDisk []) firstMem 2 (dtaArgs 0x300)) ∧
    Gives 1 nextMem 0x300 (fileHit progName)
      (hostdosCall willing (runOps wholeDisk pairDisk [first, other]) nextMem 2
        (dtaArgs 0x300)) ∧
    (hostdosCall willing (runOps wholeDisk pairDisk [first, other, next]) nextMem 2
      (dtaArgs 0x300)).result = ENMFIL := by
  intro first other next
  have hhits : (runOps wholeDisk pairDisk []).captured willing firstMem 2 0x100 =
      [fileHit plainName, fileHit progName] := by rfl
  have hcont : continues 1 next = true := by decide +kernel
  have hkept : forall op, op ∈ [other, next] -> resets op = false := by
    intro op hop
    rcases List.mem_pair.mp hop with rfl | rfl
    · rfl
    · rfl
  have hfew : forall hits l, l.length ≤ 31 -> FewFsfirsts 1 hits l := by
    intro hits ops hlength l r hsplit _
    calc fsfirsts l ≤ l.length := List.countP_le_length
      _ ≤ ops.length := by simp [hsplit]
      _ ≤ 31 := hlength
  have hone := interleaved_search wholeDisk pairDisk [] [other] willing firstMem (dtaArgs 0x300)
    (by decide +kernel) (by decide +kernel) (by decide +kernel)
  have htwo := interleaved_search wholeDisk pairDisk [] [other, next] willing firstMem
    (dtaArgs 0x300) (by decide +kernel) (by decide +kernel) (by decide +kernel)
  have hk : (runOps wholeDisk pairDisk []).nextSearch = 1 := rfl
  have hargs : (dtaArgs 0x300 1).toNat = 2 ∧ dtaArgs 0x300 0 = 0x100 ∧ dtaArgs 0x300 3 = 0x300 :=
    ⟨rfl, rfl, rfl⟩
  rw [hk, hargs.1, hargs.2.1, hargs.2.2, hhits] at hone htwo
  refine ⟨?_, ?_, ?_⟩
  · rcases hone.1 with ⟨hit, hhit, hgives⟩
    injection hhit with hhit
    rw [← hhit] at hgives
    exact hgives
  · have hnext := hone.2.1 (fun op hop => hkept op (by simp [List.mem_singleton.mp hop]))
      (hfew _ _ (by decide)) willing nextMem (dtaArgs 0x300) hcont
    rw [show continued 1 [other] = 0 by decide +kernel] at hnext
    exact hnext
  · have hnext := htwo.2.1 hkept (hfew _ _ (by decide)) willing nextMem (dtaArgs 0x300) hcont
    rw [show continued 1 [other, next] = 1 by decide +kernel] at hnext
    exact hnext.1

end Hostdos
end PistormAtari
