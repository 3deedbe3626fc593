import Mathlib

/-!
# First-fit tables of blocks

A stretch of memory is cut into blocks, listed in order, each in use or free.  The first
free block that is long enough is split; a block that is freed is joined with its free
neighbours.  The blocks always tile the stretch and no two free blocks are neighbours.
-/

namespace PistormAtari
namespace Foundation

structure Block where
  off : Nat
  len : Nat
  used : Bool
deriving DecidableEq

/-!
## Cutting a list at an element
-/

def cut {α : Type _} (p : α -> Bool) : List α -> Option (List α × α × List α)
  | [] => none
  | x :: xs =>
      if p x then some ([], x, xs)
      else
        match cut p xs with
        | some (l, y, r) => some (x :: l, y, r)
        | none => none

theorem cut_eq_some {α : Type _} {p : α -> Bool} {xs l r : List α} {x : α}
    (h : cut p xs = some (l, x, r)) : xs = l ++ x :: r ∧ p x = true := by
  induction xs generalizing l with
  | nil => cases h
  | cons y ys ih =>
      unfold cut at h
      split at h
      · next hy =>
        cases h
        exact ⟨rfl, hy⟩
      · split at h
        · next l' z r' hcut =>
          cases h
          rcases ih hcut with ⟨hys, hx⟩
          exact ⟨congrArg (y :: ·) hys, hx⟩
        · cases h

theorem cut_eq_none {α : Type _} {p : α -> Bool} {xs : List α} (h : cut p xs = none) :
    forall x, x ∈ xs -> p x = false := by
  induction xs with
  | nil => exact fun _ hx => absurd hx List.not_mem_nil
  | cons y ys ih =>
      unfold cut at h
      split at h
      · cases h
      · next hy =>
        split at h
        · cases h
        · next hcut =>
          intro x hx
          rcases List.mem_cons.mp hx with rfl | hx
          · exact Bool.eq_false_iff.mpr hy
          · exact ih hcut x hx

/-!
## The operations
-/

/-- The first free block of at least `n` bytes is taken, and what it has over becomes a
free block of its own.  A table that cannot grow splits nothing. -/
def allocate (full : Bool) (n : Nat) (bs : List Block) : Option (Nat × List Block) :=
  match cut (fun b => !b.used && decide (n ≤ b.len)) bs with
  | none => none
  | some (l, b, r) =>
      if n < b.len then
        if full then none
        else
          some (b.off, l ++ { b with len := n, used := true } ::
            { off := b.off + n, len := b.len - n, used := false } :: r)
      else some (b.off, l ++ { b with used := true } :: r)

def joinNext (b : Block) : List Block -> List Block
  | [] => [b]
  | c :: r => if c.used then b :: c :: r else { b with len := b.len + c.len } :: r

/-- The block before a free block and what starts with that block, joined if the former
is free. -/
def joinPrev (a : Block) : List Block -> List Block
  | [] => [a]
  | b :: r => if a.used then a :: b :: r else { a with len := a.len + b.len } :: r

def joinBefore (l bs : List Block) : List Block :=
  match l.getLast? with
  | none => bs
  | some a => l.dropLast ++ joinPrev a bs

def release (off : Nat) (bs : List Block) : Option (List Block) :=
  match cut (fun b => b.used && decide (b.off = off)) bs with
  | none => none
  | some (l, b, r) => some (joinBefore l (joinNext { b with used := false } r))

def largest (bs : List Block) : Nat :=
  bs.foldl (fun best b => if !b.used && decide (best < b.len) then b.len else best) 0

/-!
## Tilings
-/

/-- The blocks follow each other from `lo` to `hi`, none of them empty. -/
def Tiles : Nat -> Nat -> List Block -> Prop
  | lo, hi, [] => lo = hi
  | lo, hi, b :: bs => b.off = lo ∧ 0 < b.len ∧ Tiles (lo + b.len) hi bs

def Joined : List Block -> Prop
  | a :: b :: r => (a.used = true ∨ b.used = true) ∧ Joined (b :: r)
  | _ => True

theorem tiles_append {lo hi : Nat} {l r : List Block} :
    Tiles lo hi (l ++ r) <-> exists mid, Tiles lo mid l ∧ Tiles mid hi r := by
  induction l generalizing lo with
  | nil =>
      constructor
      · exact fun h => ⟨lo, rfl, h⟩
      · rintro ⟨mid, rfl, h⟩
        exact h
  | cons b bs ih =>
      constructor
      · rintro ⟨hoff, hlen, hrest⟩
        rcases ih.mp hrest with ⟨mid, hleft, hright⟩
        exact ⟨mid, ⟨hoff, hlen, hleft⟩, hright⟩
      · rintro ⟨mid, ⟨hoff, hlen, hleft⟩, hright⟩
        exact ⟨hoff, hlen, ih.mpr ⟨mid, hleft, hright⟩⟩

theorem Tiles.le {lo hi : Nat} {bs : List Block} (h : Tiles lo hi bs) : lo ≤ hi := by
  induction bs generalizing lo with
  | nil => exact le_of_eq h
  | cons b bs ih => exact le_trans (Nat.le_add_right _ _) (ih h.2.2)

theorem Tiles.mem {lo hi : Nat} {bs : List Block} (h : Tiles lo hi bs) {b : Block}
    (hb : b ∈ bs) : lo ≤ b.off ∧ 0 < b.len ∧ b.off + b.len ≤ hi := by
  induction bs generalizing lo with
  | nil => exact absurd hb List.not_mem_nil
  | cons c cs ih =>
      rcases h with ⟨hoff, hlen, hrest⟩
      rcases List.mem_cons.mp hb with rfl | hmem
      · refine ⟨le_of_eq hoff.symm, hlen, ?_⟩
        rw [hoff]
        exact hrest.le
      · rcases ih hrest hmem with ⟨hlo, hpos, hhi⟩
        exact ⟨by lia, hpos, hhi⟩

/-- Two blocks of a tiling do not overlap, unless they are one. -/
theorem Tiles.disjoint {lo hi : Nat} {bs : List Block} (h : Tiles lo hi bs) {b c : Block}
    (hb : b ∈ bs) (hc : c ∈ bs) :
    b = c ∨ b.off + b.len ≤ c.off ∨ c.off + c.len ≤ b.off := by
  induction bs generalizing lo with
  | nil => exact absurd hb List.not_mem_nil
  | cons d ds ih =>
      rcases h with ⟨hoff, hlen, hrest⟩
      rcases List.mem_cons.mp hb with hbd | hbd
      · rcases List.mem_cons.mp hc with hcd | hcd
        · exact Or.inl (hbd.trans hcd.symm)
        · have hlo := (hrest.mem hcd).1
          rw [hbd]
          exact Or.inr (Or.inl (by lia))
      · rcases List.mem_cons.mp hc with hcd | hcd
        · have hlo := (hrest.mem hbd).1
          rw [hcd]
          exact Or.inr (Or.inr (by lia))
        · exact ih hrest hbd hcd

theorem Tiles.eq_of_off {lo hi : Nat} {bs : List Block} (h : Tiles lo hi bs) {b c : Block}
    (hb : b ∈ bs) (hc : c ∈ bs) (hoff : b.off = c.off) : b = c := by
  have hposb := (h.mem hb).2.1
  have hposc := (h.mem hc).2.1
  rcases h.disjoint hb hc with heq | hle | hle
  · exact heq
  · lia
  · lia

theorem joined_append {l r : List Block} {b : Block} :
    Joined (l ++ b :: r) <-> Joined (l ++ [b]) ∧ Joined (b :: r) := by
  induction l with
  | nil => exact ⟨fun h => ⟨trivial, h⟩, fun h => h.2⟩
  | cons a as ih =>
      cases as with
      | nil =>
          constructor
          · rintro ⟨hpair, hrest⟩
            exact ⟨⟨hpair, trivial⟩, hrest⟩
          · rintro ⟨⟨hpair, -⟩, hrest⟩
            exact ⟨hpair, hrest⟩
      | cons c cs =>
          constructor
          · rintro ⟨hpair, hrest⟩
            rcases ih.mp hrest with ⟨hleft, hright⟩
            exact ⟨⟨hpair, hleft⟩, hright⟩
          · rintro ⟨⟨hpair, hleft⟩, hright⟩
            exact ⟨hpair, ih.mpr ⟨hleft, hright⟩⟩

theorem Joined.tail {b : Block} {r : List Block} (h : Joined (b :: r)) : Joined r := by
  cases r with
  | nil => trivial
  | cons c cs => exact h.2

/-- Whether the first block is in use does not matter to the blocks after it. -/
theorem Joined.head {b c : Block} {r : List Block} (h : Joined (b :: r))
    (hused : b.used = true -> c.used = true) : Joined (c :: r) := by
  cases r with
  | nil => trivial
  | cons d ds => exact ⟨Or.imp_left hused h.1, h.2⟩

theorem Joined.last {b c : Block} {l : List Block} (h : Joined (l ++ [b]))
    (hused : b.used = true -> c.used = true) : Joined (l ++ [c]) := by
  induction l with
  | nil => trivial
  | cons a as ih =>
      cases as with
      | nil => exact ⟨Or.imp_right hused h.1, trivial⟩
      | cons d ds => exact ⟨h.1, ih h.2⟩

theorem joined_used {b : Block} (hb : b.used = true) {r : List Block} (h : Joined r) :
    Joined (b :: r) := by
  cases r with
  | nil => trivial
  | cons c cs => exact ⟨Or.inl hb, h⟩

theorem eq_singleton_of_free {lo hi : Nat} {bs : List Block} (htiles : Tiles lo hi bs)
    (hjoined : Joined bs) (hfree : forall b, b ∈ bs -> b.used = false) (hne : lo < hi) :
    bs = [{ off := lo, len := hi - lo, used := false }] := by
  cases bs with
  | nil => exact absurd htiles (Nat.ne_of_lt hne)
  | cons b r =>
      have hb := hfree b List.mem_cons_self
      cases r with
      | nil =>
          rcases htiles with ⟨hoff, -, hend⟩
          cases b with
          | mk off len used =>
              dsimp only at hoff hb hend
              have hlen : len = hi - lo := by
                have hsum : lo + len = hi := hend
                lia
              rw [hoff, hb, hlen]
      | cons c cs =>
          exfalso
          have hc := hfree c (List.mem_cons_of_mem _ List.mem_cons_self)
          rcases hjoined.1 with h | h
          · exact absurd (hb.symm.trans h) Bool.false_ne_true
          · exact absurd (hc.symm.trans h) Bool.false_ne_true

structure Ordered (hi max : Nat) (bs : List Block) : Prop where
  tiles : Tiles 0 hi bs
  joined : Joined bs
  fits : bs.length ≤ max

/-!
## What the operations do
-/

variable {hi max n off : Nat} {bs bs' : List Block}

/-- An allocation takes one block of exactly `n` bytes out of a free block, and leaves
every block in use as it is. -/
theorem Ordered.allocate (h : Ordered hi max bs) (hn : 0 < n)
    (ha : Foundation.allocate (decide (max ≤ bs.length)) n bs = some (off, bs')) :
    Ordered hi max bs' ∧
      (forall b, b ∈ bs' ∧ b.used = true <->
        b = { off := off, len := n, used := true } ∨ (b ∈ bs ∧ b.used = true)) ∧
      forall b, b ∈ bs -> b.used = true -> b.off ≠ off := by
  unfold Foundation.allocate at ha
  split at ha
  · cases ha
  · next l b r hcut =>
    rcases cut_eq_some hcut with ⟨rfl, hfit⟩
    rw [Bool.and_eq_true, Bool.not_eq_true', decide_eq_true_eq] at hfit
    rcases hfit with ⟨hfree, hlen⟩
    have hother : forall c, c ∈ l ++ b :: r -> c.used = true -> c.off ≠ b.off := by
      intro c hc hused hoff
      have heq := h.tiles.eq_of_off hc (List.mem_append_right _ List.mem_cons_self) hoff
      rw [heq, hfree] at hused
      exact Bool.false_ne_true hused
    rcases tiles_append.mp h.tiles with ⟨mid, hleft, hoff, hpos, hright⟩
    rcases joined_append.mp h.joined with ⟨hjleft, hjright⟩
    split at ha
    · next hmore =>
      split at ha
      · cases ha
      · next hroom =>
        cases ha
        rw [decide_eq_true_eq] at hroom
        refine ⟨⟨?_, ?_, ?_⟩, ?_, hother⟩
        · apply tiles_append.mpr
          refine ⟨mid, hleft, hoff, hn, ?_, ?_, ?_⟩
          · dsimp only
            rw [hoff]
          · dsimp only
            lia
          · dsimp only
            rw [show mid + n + (b.len - n) = mid + b.len by lia]
            exact hright
        · apply joined_append.mpr
          constructor
          · exact hjleft.last (fun _ => rfl)
          · exact ⟨Or.inl rfl, hjright.head (fun hb =>
              absurd (hfree.symm.trans hb) Bool.false_ne_true)⟩
        · rw [List.length_append, List.length_cons, List.length_cons]
          rw [List.length_append, List.length_cons] at hroom
          lia
        · intro c
          simp only [List.mem_append, List.mem_cons]
          constructor
          · rintro ⟨hc | rfl | rfl | hc, hused⟩
            · exact Or.inr ⟨Or.inl hc, hused⟩
            · exact Or.inl rfl
            · cases hused
            · exact Or.inr ⟨Or.inr (Or.inr hc), hused⟩
          · rintro (rfl | ⟨hc | rfl | hc, hused⟩)
            · exact ⟨Or.inr (Or.inl rfl), rfl⟩
            · exact ⟨Or.inl hc, hused⟩
            · exact absurd (hfree.symm.trans hused) Bool.false_ne_true
            · exact ⟨Or.inr (Or.inr (Or.inr hc)), hused⟩
    · next hexact =>
      cases ha
      have hsame : b.len = n := by lia
      refine ⟨⟨?_, ?_, ?_⟩, ?_, hother⟩
      · apply tiles_append.mpr
        exact ⟨mid, hleft, hoff, hpos, hright⟩
      · apply joined_append.mpr
        constructor
        · exact hjleft.last (fun _ => rfl)
        · exact joined_used rfl hjright.tail
      · have hfits := h.fits
        rw [List.length_append, List.length_cons] at hfits ⊢
        exact hfits
      · intro c
        simp only [List.mem_append, List.mem_cons]
        constructor
        · rintro ⟨hc | rfl | hc, hused⟩
          · exact Or.inr ⟨Or.inl hc, hused⟩
          · left
            rw [hsame]
          · exact Or.inr ⟨Or.inr (Or.inr hc), hused⟩
        · rintro (rfl | ⟨hc | rfl | hc, hused⟩)
          · refine ⟨Or.inr (Or.inl ?_), rfl⟩
            rw [hsame]
          · exact ⟨Or.inl hc, hused⟩
          · exact absurd (hfree.symm.trans hused) Bool.false_ne_true
          · exact ⟨Or.inr (Or.inr hc), hused⟩

theorem joinNext_spec {mid : Nat} {b : Block} {r : List Block} (hfree : b.used = false)
    (htiles : Tiles mid hi (b :: r)) (hjoined : Joined r) :
    exists c r', joinNext b r = c :: r' ∧ c.used = false ∧ Tiles mid hi (c :: r') ∧
      Joined (c :: r') ∧ r'.length ≤ r.length ∧
      forall x, x ∈ r' ∧ x.used = true <-> x ∈ r ∧ x.used = true := by
  rcases htiles with ⟨hoff, hpos, hrest⟩
  cases r with
  | nil => exact ⟨b, [], rfl, hfree, ⟨hoff, hpos, hrest⟩, trivial, le_refl _, fun _ => Iff.rfl⟩
  | cons c cs =>
      cases hused : c.used with
      | true =>
          refine ⟨b, c :: cs, ?_, hfree, ⟨hoff, hpos, hrest⟩, ⟨Or.inr hused, hjoined⟩, le_refl _,
            fun _ => Iff.rfl⟩
          unfold joinNext
          dsimp only
          rw [if_pos hused]
      | false =>
          rcases hrest with ⟨-, -, hrest⟩
          refine ⟨{ b with len := b.len + c.len }, cs, ?_, hfree, ⟨hoff, ?_, ?_⟩, ?_, ?_, ?_⟩
          · unfold joinNext
            dsimp only
            rw [hused]
            rfl
          · dsimp only
            lia
          · dsimp only
            rw [← Nat.add_assoc]
            exact hrest
          · exact hjoined.head (fun h => absurd (hused.symm.trans h) Bool.false_ne_true)
          · exact Nat.le_succ _
          · intro x
            constructor
            · rintro ⟨hx, hxused⟩
              exact ⟨List.mem_cons_of_mem _ hx, hxused⟩
            · rintro ⟨hx, hxused⟩
              rcases List.mem_cons.mp hx with rfl | hx
              · exact absurd (hused.symm.trans hxused) Bool.false_ne_true
              · exact ⟨hx, hxused⟩

theorem joinBefore_spec {mid : Nat} {l r : List Block} {b : Block} (hfree : b.used = false)
    (hleft : Tiles 0 mid l) (hright : Tiles mid hi (b :: r)) (hjleft : Joined l)
    (hjright : Joined (b :: r)) :
    Tiles 0 hi (joinBefore l (b :: r)) ∧ Joined (joinBefore l (b :: r)) ∧
      (joinBefore l (b :: r)).length ≤ l.length + r.length + 1 ∧
      forall x, x ∈ joinBefore l (b :: r) ∧ x.used = true <->
        (x ∈ l ∨ x ∈ r) ∧ x.used = true := by
  rcases List.eq_nil_or_concat' l with rfl | ⟨l, a, rfl⟩
  · refine ⟨?_, hjright, ?_, ?_⟩
    · have hzero : 0 = mid := hleft
      rw [hzero]
      exact hright
    · show r.length + 1 ≤ _
      simp
    · intro x
      show x ∈ b :: r ∧ x.used = true <-> _
      constructor
      · rintro ⟨hx, hused⟩
        rcases List.mem_cons.mp hx with rfl | hx
        · exact absurd (hfree.symm.trans hused) Bool.false_ne_true
        · exact ⟨Or.inr hx, hused⟩
      · rintro ⟨hx | hx, hused⟩
        · exact absurd hx List.not_mem_nil
        · exact ⟨List.mem_cons_of_mem _ hx, hused⟩
  · have hbefore : joinBefore (l ++ [a]) (b :: r) = l ++ joinPrev a (b :: r) := by
      unfold joinBefore
      rw [List.getLast?_concat, List.dropLast_concat]
    rcases tiles_append.mp hleft with ⟨start, htl, hoff, hpos, hend⟩
    have hend : start + a.len = mid := hend
    rw [hbefore]
    cases hused : a.used with
    | true =>
        have hprev : joinPrev a (b :: r) = a :: b :: r := by
          unfold joinPrev
          dsimp only
          rw [if_pos hused]
        rw [hprev]
        refine ⟨?_, ?_, ?_, ?_⟩
        · apply tiles_append.mpr
          refine ⟨start, htl, hoff, hpos, ?_⟩
          rw [hend]
          exact hright
        · apply joined_append.mpr
          exact ⟨hjleft, Or.inl hused, hjright⟩
        · simp only [List.length_append, List.length_cons, List.length_nil]
          lia
        · intro x
          simp only [List.mem_append, List.mem_cons, List.not_mem_nil, or_false]
          constructor
          · rintro ⟨hx | rfl | rfl | hx, hxused⟩
            · exact ⟨Or.inl (Or.inl hx), hxused⟩
            · exact ⟨Or.inl (Or.inr rfl), hxused⟩
            · exact absurd (hfree.symm.trans hxused) Bool.false_ne_true
            · exact ⟨Or.inr hx, hxused⟩
          · rintro ⟨(hx | rfl) | hx, hxused⟩
            · exact ⟨Or.inl hx, hxused⟩
            · exact ⟨Or.inr (Or.inl rfl), hxused⟩
            · exact ⟨Or.inr (Or.inr (Or.inr hx)), hxused⟩
    | false =>
        have hprev : joinPrev a (b :: r) = { a with len := a.len + b.len } :: r := by
          unfold joinPrev
          dsimp only
          rw [hused]
          rfl
        rcases hright with ⟨-, hbpos, hrest⟩
        rw [hprev]
        refine ⟨?_, ?_, ?_, ?_⟩
        · apply tiles_append.mpr
          refine ⟨start, htl, hoff, ?_, ?_⟩
          · dsimp only
            lia
          · dsimp only
            rw [← Nat.add_assoc, hend]
            exact hrest
        · apply joined_append.mpr
          constructor
          · exact hjleft.last (fun h => h)
          · exact hjright.head (fun h => absurd (hfree.symm.trans h) Bool.false_ne_true)
        · simp only [List.length_append, List.length_cons, List.length_nil]
          lia
        · intro x
          simp only [List.mem_append, List.mem_cons, List.not_mem_nil, or_false]
          constructor
          · rintro ⟨hx | rfl | hx, hxused⟩
            · exact ⟨Or.inl (Or.inl hx), hxused⟩
            · exact absurd (hused.symm.trans hxused) Bool.false_ne_true
            · exact ⟨Or.inr hx, hxused⟩
          · rintro ⟨(hx | rfl) | hx, hxused⟩
            · exact ⟨Or.inl hx, hxused⟩
            · exact absurd (hused.symm.trans hxused) Bool.false_ne_true
            · exact ⟨Or.inr (Or.inr hx), hxused⟩

theorem Ordered.release (h : Ordered hi max bs) (hr : Foundation.release off bs = some bs') :
    Ordered hi max bs' ∧ (exists b, b ∈ bs ∧ b.used = true ∧ b.off = off) ∧
      forall x, x ∈ bs' ∧ x.used = true <-> (x ∈ bs ∧ x.used = true) ∧ x.off ≠ off := by
  unfold Foundation.release at hr
  split at hr
  · cases hr
  · next l b r hcut =>
    cases hr
    rcases cut_eq_some hcut with ⟨rfl, hfound⟩
    rw [Bool.and_eq_true, decide_eq_true_eq] at hfound
    rcases hfound with ⟨hused, rfl⟩
    have hmem : b ∈ l ++ b :: r := List.mem_append_right _ List.mem_cons_self
    have hother : forall x, (x ∈ l ∨ x ∈ r) -> x.off ≠ b.off := by
      rcases tiles_append.mp h.tiles with ⟨mid, hleft, hoff, hpos, hright⟩
      rintro x (hx | hx)
      · have hbound := hleft.mem hx
        lia
      · have hbound := hright.mem hx
        lia
    rcases tiles_append.mp h.tiles with ⟨mid, hleft, hoff, hpos, hright⟩
    rcases joined_append.mp h.joined with ⟨hjleft, hjright⟩
    have hjl : Joined l := by
      rcases List.eq_nil_or_concat' l with rfl | ⟨l, a, rfl⟩
      · trivial
      · have hpair : Joined (l ++ a :: [b]) := by simpa using hjleft
        exact (joined_append.mp hpair).1
    rcases joinNext_spec (b := { b with used := false }) rfl ⟨hoff, hpos, hright⟩ hjright.tail with
      ⟨c, r', hnext, hcfree, hctiles, hcjoined, hclen, hcused⟩
    rw [hnext]
    rcases joinBefore_spec hcfree hleft hctiles hjl hcjoined with ⟨htiles, hjoined, hlen, hblocks⟩
    refine ⟨⟨htiles, hjoined, ?_⟩, ⟨b, hmem, hused, rfl⟩, ?_⟩
    · have hfits := h.fits
      rw [List.length_append, List.length_cons] at hfits
      lia
    · intro x
      rw [hblocks x]
      constructor
      · rintro ⟨hx | hx, hxused⟩
        · exact ⟨⟨List.mem_append_left _ hx, hxused⟩, hother x (Or.inl hx)⟩
        · have hxr := ((hcused x).mp ⟨hx, hxused⟩).1
          exact ⟨⟨List.mem_append_right _ (List.mem_cons_of_mem _ hxr), hxused⟩,
            hother x (Or.inr hxr)⟩
      · rintro ⟨⟨hx, hxused⟩, hxoff⟩
        rcases List.mem_append.mp hx with hx | hx
        · exact ⟨Or.inl hx, hxused⟩
        · rcases List.mem_cons.mp hx with rfl | hx
          · exact absurd rfl hxoff
          · exact ⟨Or.inr ((hcused x).mpr ⟨hx, hxused⟩).1, hxused⟩

theorem release_eq_none (hr : Foundation.release off bs = none) {b : Block} (hb : b ∈ bs)
    (hused : b.used = true) : b.off ≠ off := by
  unfold Foundation.release at hr
  split at hr
  · next hcut =>
    intro hoff
    have hnot := cut_eq_none hcut b hb
    rw [hused, hoff] at hnot
    simp at hnot
  · cases hr

end Foundation
end PistormAtari
