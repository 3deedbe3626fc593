import Mathlib.Data.BitVec
import Mathlib.Logic.Function.Basic

/-!
# Bits in a memory of bytes

A picture is drawn by setting bits.  A list of dots, none of which contradicts another,
is drawn in any order, and a byte that is written is eight dots.
-/

namespace PistormAtari
namespace Foundation

structure Dot where
  cell : Nat
  bit : Nat
  on : Bool

abbrev Bytes : Type := Nat -> BitVec 8

def masked (b m : BitVec 8) (on : Bool) : BitVec 8 := if on then b ||| m else b &&& ~~~m

def setDot (m : Bytes) (d : Dot) : Bytes :=
  Function.update m d.cell (masked (m d.cell) (BitVec.twoPow 8 d.bit) d.on)

def setDots (m : Bytes) (ds : List Dot) : Bytes := ds.foldl setDot m

def setByte (m : Bytes) (w : Nat × BitVec 8) : Bytes := Function.update m w.1 w.2

def setBytes (m : Bytes) (ws : List (Nat × BitVec 8)) : Bytes := ws.foldl setByte m

def Dot.At (d : Dot) (k j : Nat) : Prop := d.cell = k ∧ d.bit = j

def Agree (ds : List Dot) : Prop :=
  forall d, d ∈ ds -> forall e, e ∈ ds -> d.At e.cell e.bit -> d.on = e.on

theorem masked_twoPow (b : BitVec 8) {j : Nat} (hj : j < 8) (on : Bool) (i : Nat) :
    (masked b (BitVec.twoPow 8 j) on).getLsbD i = if i = j then on else b.getLsbD i := by
  unfold masked
  cases on with
  | false =>
      rw [if_neg Bool.false_ne_true, BitVec.getLsbD_and, BitVec.getLsbD_not, BitVec.getLsbD_twoPow]
      by_cases hi : i = j
      · subst hi
        simp [hj]
      · have hne : ¬ j = i := fun h => hi h.symm
        rw [if_neg hi]
        simp only [hne, decide_false, Bool.and_false, Bool.not_false, Bool.and_true]
        by_cases hlt : i < 8
        · simp [hlt]
        · simp [BitVec.getLsbD_of_ge b i (Nat.le_of_not_lt hlt)]
  | true =>
      rw [if_pos rfl, BitVec.getLsbD_or, BitVec.getLsbD_twoPow]
      by_cases hi : i = j
      · subst hi
        simp [hj]
      · have hne : ¬ j = i := fun h => hi h.symm
        simp [hi, hne]

variable (m : Bytes)

theorem setDot_at {d : Dot} (hd : d.bit < 8) {k j : Nat} (hat : d.At k j) :
    (setDot m d k).getLsbD j = d.on := by
  obtain ⟨rfl, rfl⟩ := hat
  unfold setDot
  rw [Function.update_self, masked_twoPow _ hd, if_pos rfl]

theorem setDot_of_not_at {d : Dot} (hd : d.bit < 8) {k j : Nat}
    (hat : ¬ d.At k j) : (setDot m d k).getLsbD j = (m k).getLsbD j := by
  unfold setDot
  by_cases hk : k = d.cell
  · subst hk
    have hj : ¬ j = d.bit := fun h => hat ⟨rfl, h.symm⟩
    rw [Function.update_self, masked_twoPow _ hd, if_neg hj]
  · rw [Function.update_of_ne hk]

theorem setDots_of_not_at {ds : List Dot} (hds : forall d, d ∈ ds -> d.bit < 8)
    {k j : Nat} (hat : forall d, d ∈ ds -> ¬ d.At k j) :
    (setDots m ds k).getLsbD j = (m k).getLsbD j := by
  induction ds generalizing m with
  | nil => rfl
  | cons d rest ih =>
      have hrest := ih (setDot m d) (fun e he => hds e (List.mem_cons_of_mem d he))
        (fun e he => hat e (List.mem_cons_of_mem d he))
      exact hrest.trans (setDot_of_not_at m (hds d List.mem_cons_self) (hat d List.mem_cons_self))

theorem setDots_at {ds : List Dot} (hds : forall d, d ∈ ds -> d.bit < 8)
    (hagree : Agree ds) {d : Dot} (hd : d ∈ ds) {k j : Nat} (hat : d.At k j) :
    (setDots m ds k).getLsbD j = d.on := by
  induction ds generalizing m d with
  | nil => cases hd
  | cons e rest ih =>
      have hbits : forall d, d ∈ rest -> d.bit < 8 :=
        fun d hd => hds d (List.mem_cons_of_mem e hd)
      have hrest : Agree rest := fun d hd d' hd' =>
        hagree d (List.mem_cons_of_mem e hd) d' (List.mem_cons_of_mem e hd')
      by_cases hlater : exists d', d' ∈ rest ∧ d'.At k j
      · obtain ⟨d', hd', hat'⟩ := hlater
        have hsame : d'.At d.cell d.bit := ⟨hat'.1.trans hat.1.symm, hat'.2.trans hat.2.symm⟩
        have hon := hagree d' (List.mem_cons_of_mem e hd') d hd hsame
        exact (ih (setDot m e) hbits hrest hd' hat').trans hon
      · have hnone : forall d', d' ∈ rest -> ¬ d'.At k j := fun d' hd' h => hlater ⟨d', hd', h⟩
        have hfirst : d = e := by
          rcases List.mem_cons.mp hd with heq | hmem
          · exact heq
          · exact absurd hat (hnone d hmem)
        subst hfirst
        exact (setDots_of_not_at (setDot m d) hbits hnone).trans
          (setDot_at m (hds d List.mem_cons_self) hat)

def dotsOfByte (w : Nat × BitVec 8) : List Dot :=
  (List.range 8).map fun j => ⟨w.1, j, w.2.getLsbD j⟩

theorem setDots_dotsOfByte (w : Nat × BitVec 8) :
    setDots m (dotsOfByte w) = setByte m w := by
  have hbits : forall d, d ∈ dotsOfByte w -> d.bit < 8 := by
    intro d hd
    obtain ⟨j, hj, rfl⟩ := List.mem_map.mp hd
    exact List.mem_range.mp hj
  have hagree : Agree (dotsOfByte w) := by
    intro d hd e he hat
    obtain ⟨i, _, rfl⟩ := List.mem_map.mp hd
    obtain ⟨j, _, rfl⟩ := List.mem_map.mp he
    have hij : i = j := hat.2
    subst hij
    rfl
  funext k
  apply BitVec.eq_of_getLsbD_eq
  intro j hj
  unfold setByte
  by_cases hk : k = w.1
  · subst hk
    rw [Function.update_self]
    exact setDots_at m hbits hagree (List.mem_map.mpr ⟨j, List.mem_range.mpr hj, rfl⟩) ⟨rfl, rfl⟩
  · rw [Function.update_of_ne hk]
    apply setDots_of_not_at m hbits
    intro d hd hat
    obtain ⟨i, _, rfl⟩ := List.mem_map.mp hd
    exact hk hat.1.symm

theorem setDots_append (ds es : List Dot) :
    setDots m (ds ++ es) = setDots (setDots m ds) es := List.foldl_append

theorem setBytes_eq_setDots (ws : List (Nat × BitVec 8)) :
    setBytes m ws = setDots m (ws.flatMap dotsOfByte) := by
  induction ws generalizing m with
  | nil => rfl
  | cons w rest ih =>
      rw [List.flatMap_cons, setDots_append, setDots_dotsOfByte]
      exact ih (setByte m w)

theorem setDots_congr {ds es : List Dot} (hds : forall d, d ∈ ds -> d.bit < 8)
    (hagree : Agree ds) (hsame : forall d, d ∈ ds <-> d ∈ es) : setDots m ds = setDots m es := by
  have hes : forall d, d ∈ es -> d.bit < 8 := fun d hd => hds d ((hsame d).mpr hd)
  have hagree' : Agree es := fun d hd e he => hagree d ((hsame d).mpr hd) e ((hsame e).mpr he)
  funext k
  apply BitVec.eq_of_getLsbD_eq
  intro j _
  by_cases hhit : exists d, d ∈ ds ∧ d.At k j
  · obtain ⟨d, hd, hat⟩ := hhit
    rw [setDots_at m hds hagree hd hat, setDots_at m hes hagree' ((hsame d).mp hd) hat]
  · have hmiss : forall d, d ∈ ds -> ¬ d.At k j := fun d hd h => hhit ⟨d, hd, h⟩
    rw [setDots_of_not_at m hds hmiss,
      setDots_of_not_at m hes fun d hd => hmiss d ((hsame d).mpr hd)]

end Foundation
end PistormAtari
