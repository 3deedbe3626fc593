import PistormAtari.Natmem.StramMmu

/-!
# The paths to ST-RAM on a small board

The accessors of the processor fold addresses themselves when the flag is up.  The hooks of the
blitter and of the DMA go through the page tables, which fold as an STE does.
-/

namespace PistormAtari
namespace Natmem

/-!
## The chip that an address belongs to
-/

/-- A bank with the offset of an address in it, its sizes, and the place of its chip in the
backing file. -/
structure BankSlot where
  bank : Nat
  o : Nat
  cfg : Nat
  act : Nat
  base : Nat

namespace StramAlias

variable (s : StramAlias)

def slot (a : Nat) : BankSlot :=
  if a < s.cfgb0 then ⟨0, a, s.cfgb0, s.act0, 0⟩ else ⟨1, a - s.cfgb0, s.cfgb1, s.act1, s.act0⟩

def cell (a : Nat) : Nat := if s.st_mmu then s.stMap a else s.layout a

/-- The column bits of an address in a bank.  The plain ST has those of the bank that is
configured, the STE drops the highest bits of the address instead. -/
def columns (b : BankSlot) : Nat := colbits (if s.st_mmu then b.cfg else b.act)

def chipBits (b : BankSlot) : Nat := if s.st_mmu then keptBits b.cfg b.act else colbits b.act

/-- What the MMU keeps of an address: the bank, the row and the column bits, and the byte of the
word. -/
@[ext] structure Kept where
  bank : Nat
  row : Nat
  col : Nat
  low : Nat
deriving DecidableEq

def kept (a : Nat) : Kept :=
  let b := s.slot a
  ⟨b.bank, b.o / 2 / 2 ^ s.columns b % 2 ^ s.chipBits b,
    b.o / 2 % 2 ^ s.columns b % 2 ^ s.chipBits b, b.o % 2⟩

end StramAlias

/-!
## Cells and accesses
-/

inductive HostCell where
  | backing (off : Nat)
  | other (a : Nat)
deriving DecidableEq

/-- A pointer into the mirror, or into the flat view of the backing file. -/
inductive MirrorPtr where
  | natmem (a : Nat)
  | backing (off : Nat)

namespace StramMmu

variable (m : StramMmu)

def natmemCell (a : Nat) : HostCell :=
  if a < stRamSize then .backing (m.pages (a / stramAliasChunk) + a % stramAliasChunk)
  else .other a

def cellAt : MirrorPtr -> Nat -> HostCell
  | .natmem a, i => m.natmemCell (a + i)
  | .backing off, i => .backing (off + i)

def cells (p : MirrorPtr) (n : Nat) : List HostCell := (List.range n).map (m.cellAt p)

def srPtr (a : Nat) : MirrorPtr := if m.foldHook then .backing (m.banks.stMap a) else .natmem a

def longCells (a : Nat) : List HostCell :=
  if m.foldHook then m.cells (m.srPtr a) 2 ++ m.cells (m.srPtr (a + 2)) 2 else m.cells (.natmem a) 4

end StramMmu

def getBytes (mem : HostCell -> BitVec 8) (cs : List HostCell) : Nat :=
  cs.foldl (fun n c => n * 256 + (mem c).toNat) 0

def putBytes (v : Nat) : List HostCell -> (HostCell -> BitVec 8) -> HostCell -> BitVec 8
  | [], mem => mem
  | c :: cs, mem =>
      putBytes v cs (Function.update mem c (BitVec.ofNat 8 (v / 256 ^ cs.length)))

namespace StramMmu

variable (m : StramMmu)

def srBget (a : Nat) (mem : HostCell -> BitVec 8) : Nat := getBytes mem (m.cells (m.srPtr a) 1)

def srWget (a : Nat) (mem : HostCell -> BitVec 8) : Nat := getBytes mem (m.cells (m.srPtr a) 2)

def srLget (a : Nat) (mem : HostCell -> BitVec 8) : Nat :=
  if m.foldHook then
    getBytes mem (m.cells (m.srPtr a) 2) * 0x10000 + getBytes mem (m.cells (m.srPtr (a + 2)) 2)
  else getBytes mem (m.cells (.natmem a) 4)

def srBput (a v : Nat) (mem : HostCell -> BitVec 8) : HostCell -> BitVec 8 :=
  putBytes v (m.cells (m.srPtr a) 1) mem

def srWput (a v : Nat) (mem : HostCell -> BitVec 8) : HostCell -> BitVec 8 :=
  putBytes v (m.cells (m.srPtr a) 2) mem

def srLput (a v : Nat) (mem : HostCell -> BitVec 8) : HostCell -> BitVec 8 :=
  if m.foldHook then
    putBytes v (m.cells (m.srPtr (a + 2)) 2) (putBytes (v / 0x10000) (m.cells (m.srPtr a) 2) mem)
  else putBytes v (m.cells (.natmem a) 4) mem

def blitAddr (a : Nat) : Nat := a % 0x01000000 / 2 * 2

def blitRead16 (a : Nat) (mem : HostCell -> BitVec 8) : Nat :=
  getBytes mem (m.cells (.natmem (blitAddr a)) 2)

def blitWrite16 (a v : Nat) (mem : HostCell -> BitVec 8) : HostCell -> BitVec 8 :=
  if stRamSize ≤ blitAddr a then mem else putBytes v (m.cells (.natmem (blitAddr a)) 2) mem

/-- The bytes that a DMA transfer moves: none when it does not fit. -/
def dmaCells (a n : Nat) : List HostCell :=
  if a < stRamSize ∧ n ≤ stRamSize - a then m.cells (.natmem a) n else []

def dmaFromStram (a n : Nat) (mem : HostCell -> BitVec 8) : List (BitVec 8) :=
  (m.dmaCells a n).map mem

def dmaToStram (a : Nat) (src : List (BitVec 8)) (mem : HostCell -> BitVec 8) :
    HostCell -> BitVec 8 :=
  ((m.dmaCells a src.length).zip src).foldl (fun mem p => Function.update mem p.1 p.2) mem

end StramMmu

inductive StramAccess where
  | byte (a : Nat)
  | word (a : Nat)
  | long (a : Nat)
  | blit (a : Nat)
  | dma (a n : Nat)

def StramAccess.first : StramAccess -> Nat
  | .byte a => a
  | .word a => a
  | .long a => a
  | .blit a => StramMmu.blitAddr a
  | .dma a _ => a

/-- The bytes that an access reaches, in the order of their addresses. -/
def StramMmu.reached (m : StramMmu) : StramAccess -> List HostCell
  | .byte a => m.cells (m.srPtr a) 1
  | .word a => m.cells (m.srPtr a) 2
  | .long a => m.longCells a
  | .blit a => m.cells (.natmem (StramMmu.blitAddr a)) 2
  | .dma a n => m.dmaCells a n

/-- Every access that touches an address reaches the byte that a byte access reaches. -/
def StramMmu.AgreesAt (m : StramMmu) (x : Nat) : Prop :=
  forall acc i c, (m.reached acc)[i]? = some c -> acc.first + i = x -> c = m.cellAt (m.srPtr x) 0

structure StramMmu.PathsAgree (m : StramMmu) (x : Nat) : Prop where
  inside : m.banks.stMap x < m.banks.act0 + m.banks.act1 ∧
    m.banks.layout x < m.banks.act0 + m.banks.act1
  shares : forall y, y < m.banks.decoded ->
    (m.banks.cell x = m.banks.cell y ↔ m.banks.kept x = m.banks.kept y)
  longs : forall v mem,
    m.srLget x mem = m.srWget x mem * 0x10000 + m.srWget (x + 2) mem ∧
      m.srLput x v mem = m.srWput (x + 2) v (m.srWput x (v / 0x10000) mem)
  agrees : m.AgreesAt x

/-- The folds of the two MMUs are one at an address, and the byte before it is before it in the
chip too, so that a word at an odd address does not cross a fold. -/
def StramAlias.FoldsMeet (s : StramAlias) (x : Nat) : Prop :=
  StramAlias.SameRows (s.slot x).o (s.slot x).cfg (s.slot x).act ∧
    if (s.slot x).o = 0 then (s.slot x).bank = 0 ∨ s.act0 ≤ s.cfgb0
    else StramAlias.InRow (s.slot x).o (s.slot x).cfg (s.slot x).act

/-!
## Places in the chips
-/

structure BankSlot.Good (b : BankSlot) (s : StramAlias) : Prop where
  cfg : IsBankSize b.cfg
  act : IsBankSize b.act
  lt : b.o < b.cfg
  chip : b.bank = 0 ∧ b.base = 0 ∧ b.act = s.act0 ∨
    b.bank = 1 ∧ b.base = s.act0 ∧ b.act = s.act1

section
variable {m : StramMmu}

theorem decoded_le (s : StramAlias) : s.decoded ≤ s.cfgb0 + s.cfgb1 := by
  unfold StramAlias.decoded
  split <;> omega

theorem slot_cases (h : m.Laid) {x : Nat} (hx : x < m.banks.decoded) :
    (x < m.banks.cfgb0 ∧ m.banks.slot x = ⟨0, x, m.banks.cfgb0, m.banks.act0, 0⟩) ∨
      (¬ x < m.banks.cfgb0 ∧ x - m.banks.cfgb0 < m.banks.cfgb1 ∧ m.banks.act1 ≠ 0 ∧
        IsBankSize m.banks.act1 ∧
        m.banks.slot x =
          ⟨1, x - m.banks.cfgb0, m.banks.cfgb1, m.banks.act1, m.banks.act0⟩) := by
  by_cases hbank : x < m.banks.cfgb0
  · exact Or.inl ⟨hbank, if_pos hbank⟩
  · have htotal := decoded_le m.banks
    have hsome : m.banks.act1 ≠ 0 := by
      intro hnone
      unfold StramAlias.decoded at hx
      rw [if_neg (not_not.mpr hnone)] at hx
      exact hbank hx
    exact Or.inr ⟨hbank, by omega, hsome, h.act1.resolve_left hsome, if_neg hbank⟩

theorem slot_good (h : m.Laid) {x : Nat} (hx : x < m.banks.decoded) :
    (m.banks.slot x).Good m.banks := by
  rcases slot_cases h hx with ⟨hbank, hslot⟩ | ⟨_, hlt, _, hact, hslot⟩
  · rw [hslot]
    exact ⟨h.cfgb0, h.act0, hbank, Or.inl ⟨rfl, rfl, rfl⟩⟩
  · rw [hslot]
    exact ⟨h.cfgb1, hact, hlt, Or.inr ⟨rfl, rfl, rfl⟩⟩

theorem stMap_slot (h : m.Laid) {x : Nat} (hx : x < m.banks.decoded) :
    m.banks.stMap x = (m.banks.slot x).base +
      StramAlias.fold (m.banks.slot x).o (m.banks.slot x).cfg (m.banks.slot x).act := by
  have htotal := decoded_le m.banks
  have hhigh : ¬ (m.banks.cfgb0 + m.banks.cfgb1 ≠ 0 ∧ m.banks.cfgb0 + m.banks.cfgb1 ≤ x) := by
    omega
  unfold StramAlias.stMap
  dsimp only
  rw [if_neg hhigh]
  rcases slot_cases h hx with ⟨hbank, hslot⟩ | ⟨hbank, _, hsome, _, hslot⟩
  · rw [hslot, if_pos hbank]
    exact (Nat.zero_add _).symm
  · rw [hslot, if_neg hbank, if_pos hsome]

theorem layout_slot (h : m.Laid) {x : Nat} (hx : x < m.banks.decoded) :
    m.banks.layout x = (m.banks.slot x).base + (m.banks.slot x).o % (m.banks.slot x).act := by
  have htotal := decoded_le m.banks
  have hlow : x < m.banks.cfgb0 + m.banks.cfgb1 := by omega
  unfold StramAlias.layout
  dsimp only
  rw [if_pos hlow]
  rcases slot_cases h hx with ⟨hbank, hslot⟩ | ⟨hbank, _, hsome, _, hslot⟩
  · rw [hslot, if_pos hbank]
    exact (Nat.zero_add _).symm
  · rw [hslot, if_neg hbank, if_pos hsome]

theorem size_pos {n : Nat} (h : IsBankSize n) : 0 < n := by
  rcases h with rfl | rfl | rfl <;> decide

theorem maps_inside (h : m.Laid) {x : Nat} (hx : x < m.banks.decoded) :
    m.banks.stMap x < m.banks.act0 + m.banks.act1 ∧
      m.banks.layout x < m.banks.act0 + m.banks.act1 := by
  have hgood := slot_good h hx
  have hfold := StramAlias.fold_lt hgood.cfg hgood.act hgood.lt
  have hmod := Nat.mod_lt (m.banks.slot x).o (size_pos hgood.act)
  have hchip : (m.banks.slot x).base + (m.banks.slot x).act ≤ m.banks.act0 + m.banks.act1 := by
    rcases hgood.chip with ⟨_, hbase, hact⟩ | ⟨_, hbase, hact⟩
    · rw [hbase, hact]
      omega
    · rw [hbase, hact]
  rw [stMap_slot h hx, layout_slot h hx]
  constructor <;> omega

def StramAlias.chipPlace (s : StramAlias) (b : BankSlot) : Nat :=
  if s.st_mmu then StramAlias.fold b.o b.cfg b.act else b.o % b.act

theorem cell_slot (h : m.Laid) {x : Nat} (hx : x < m.banks.decoded) :
    m.banks.cell x = (m.banks.slot x).base + m.banks.chipPlace (m.banks.slot x) := by
  unfold StramAlias.cell StramAlias.chipPlace
  split
  · exact stMap_slot h hx
  · exact layout_slot h hx

theorem chipPlace_lt (h : m.Laid) {x : Nat} (hx : x < m.banks.decoded) :
    m.banks.chipPlace (m.banks.slot x) < (m.banks.slot x).act := by
  have hgood := slot_good h hx
  unfold StramAlias.chipPlace
  split
  · exact StramAlias.fold_lt hgood.cfg hgood.act hgood.lt
  · exact Nat.mod_lt _ (size_pos hgood.act)

theorem chipPlace_digits (h : m.Laid) {x : Nat} (hx : x < m.banks.decoded) :
    m.banks.chipPlace (m.banks.slot x) =
      ((m.banks.kept x).row * 2 ^ m.banks.chipBits (m.banks.slot x) + (m.banks.kept x).col) * 2 +
        (m.banks.kept x).low := by
  have hgood := slot_good h hx
  unfold StramAlias.chipPlace StramAlias.kept StramAlias.columns StramAlias.chipBits
  split
  · exact StramAlias.fold_digits hgood.cfg hgood.act hgood.lt
  · rw [StramAlias.mod_digits hgood.act]
    dsimp only
    rw [Nat.mod_mod]

theorem chipPlace_eq_iff (h : m.Laid) {x y : Nat} (hx : x < m.banks.decoded)
    (hy : y < m.banks.decoded)
    (hbits : m.banks.chipBits (m.banks.slot y) = m.banks.chipBits (m.banks.slot x)) :
    m.banks.chipPlace (m.banks.slot x) = m.banks.chipPlace (m.banks.slot y) ↔
      (m.banks.kept x).row = (m.banks.kept y).row ∧ (m.banks.kept x).col = (m.banks.kept y).col ∧
        (m.banks.kept x).low = (m.banks.kept y).low := by
  have hcol : forall z, (m.banks.kept z).col < 2 ^ m.banks.chipBits (m.banks.slot z) :=
    fun z => Nat.mod_lt _ (Nat.two_pow_pos _)
  have hlow : forall z, (m.banks.kept z).low < 2 := fun z => Nat.mod_lt _ Nat.two_pos
  have hcoly := hcol y
  rw [chipPlace_digits h hx, chipPlace_digits h hy]
  rw [hbits] at hcoly ⊢
  constructor
  · exact StramAlias.digits_inj (hcol x) hcoly (hlow x) (hlow y)
  · rintro ⟨hrow, hcol', hlow'⟩
    rw [hrow, hcol', hlow']

theorem cells_shared_iff (h : m.Laid) {x y : Nat} (hx : x < m.banks.decoded)
    (hy : y < m.banks.decoded) :
    m.banks.cell x = m.banks.cell y ↔ m.banks.kept x = m.banks.kept y := by
  have hgx := slot_good h hx
  have hgy := slot_good h hy
  have hltx := chipPlace_lt h hx
  have hlty := chipPlace_lt h hy
  rw [cell_slot h hx, cell_slot h hy, StramAlias.Kept.ext_iff]
  change _ ↔ (m.banks.slot x).bank = (m.banks.slot y).bank ∧ _
  by_cases hbank : (m.banks.slot x).bank = (m.banks.slot y).bank
  · have hsame : m.banks.chipBits (m.banks.slot y) = m.banks.chipBits (m.banks.slot x) ∧
        (m.banks.slot y).base = (m.banks.slot x).base := by
      rcases slot_cases h hx with ⟨_, hslot⟩ | ⟨_, _, _, _, hslot⟩ <;>
        rcases slot_cases h hy with ⟨_, hslot'⟩ | ⟨_, _, _, _, hslot'⟩ <;>
        rw [hslot, hslot'] at hbank ⊢
      · exact ⟨rfl, rfl⟩
      · cases hbank
      · cases hbank
      · exact ⟨rfl, rfl⟩
    rw [hsame.2, Nat.add_left_cancel_iff, chipPlace_eq_iff h hx hy hsame.1, and_iff_right hbank]
  · rw [iff_false_right (fun h => hbank h.1)]
    intro heq
    rcases hgx.chip with ⟨hb, hbase, hact⟩ | ⟨hb, hbase, hact⟩ <;>
      rcases hgy.chip with ⟨hb', hbase', hact'⟩ | ⟨hb', hbase', hact'⟩
    · exact hbank (hb.trans hb'.symm)
    · rw [hbase, hbase'] at heq
      rw [hact] at hltx
      omega
    · rw [hbase, hbase'] at heq
      rw [hact'] at hlty
      omega
    · exact hbank (hb.trans hb'.symm)

/-!
## Longs
-/

theorem getBytes_append (mem : HostCell -> BitVec 8) (xs ys : List HostCell) :
    getBytes mem (xs ++ ys) = getBytes mem xs * 256 ^ ys.length + getBytes mem ys := by
  unfold getBytes
  rw [List.foldl_append]
  generalize List.foldl (fun n c => n * 256 + (mem c).toNat) 0 xs = k
  induction ys using List.reverseRecOn with
  | nil => exact (Nat.mul_one k).symm
  | append_singleton ys c ih =>
      rw [List.foldl_append, List.foldl_append, List.length_append]
      change List.foldl _ k ys * 256 + (mem c).toNat =
        k * 256 ^ (ys.length + 1) + (List.foldl _ 0 ys * 256 + (mem c).toNat)
      rw [ih]
      ring

theorem putBytes_append (v : Nat) (xs ys : List HostCell) (mem : HostCell -> BitVec 8) :
    putBytes v (xs ++ ys) mem = putBytes v ys (putBytes (v / 256 ^ ys.length) xs mem) := by
  induction xs generalizing mem with
  | nil => rfl
  | cons c xs ih =>
      change putBytes v (xs ++ ys)
          (Function.update mem c (BitVec.ofNat 8 (v / 256 ^ (xs ++ ys).length))) =
        putBytes v ys (putBytes (v / 256 ^ ys.length) xs
          (Function.update mem c (BitVec.ofNat 8 (v / 256 ^ ys.length / 256 ^ xs.length))))
      rw [ih, List.length_append, Nat.div_div_eq_div_mul, ← pow_add, Nat.add_comm ys.length]

theorem natmem_words (m : StramMmu) (a : Nat) :
    m.cells (.natmem a) 4 = m.cells (.natmem a) 2 ++ m.cells (.natmem (a + 2)) 2 := rfl

theorem word_size (m : StramMmu) (p : MirrorPtr) : 256 ^ (m.cells p 2).length = 0x10000 := by
  have hlen : (m.cells p 2).length = 2 := rfl
  rw [hlen]
  norm_num

theorem reads_reached (m : StramMmu) (a n : Nat) (mem : HostCell -> BitVec 8) :
    m.srBget a mem = getBytes mem (m.reached (.byte a)) ∧
      m.srWget a mem = getBytes mem (m.reached (.word a)) ∧
      m.srLget a mem = getBytes mem (m.reached (.long a)) ∧
      m.blitRead16 a mem = getBytes mem (m.reached (.blit a)) ∧
      m.dmaFromStram a n mem = (m.reached (.dma a n)).map mem := by
  refine ⟨rfl, rfl, ?_, rfl, rfl⟩
  change m.srLget a mem = getBytes mem (m.longCells a)
  unfold StramMmu.srLget StramMmu.longCells
  split
  · rw [getBytes_append, word_size]
  · rfl

theorem writes_reached (m : StramMmu) (a v : Nat) (src : List (BitVec 8))
    (mem : HostCell -> BitVec 8) :
    m.srBput a v mem = putBytes v (m.reached (.byte a)) mem ∧
      m.srWput a v mem = putBytes v (m.reached (.word a)) mem ∧
      m.srLput a v mem = putBytes v (m.reached (.long a)) mem ∧
      (StramMmu.blitAddr a < stRamSize ->
        m.blitWrite16 a v mem = putBytes v (m.reached (.blit a)) mem) ∧
      m.dmaToStram a src mem = ((m.reached (.dma a src.length)).zip src).foldl
        (fun mem p => Function.update mem p.1 p.2) mem := by
  refine ⟨rfl, rfl, ?_, fun hlow => if_neg (Nat.not_le.mpr hlow), rfl⟩
  change m.srLput a v mem = putBytes v (m.longCells a) mem
  unfold StramMmu.srLput StramMmu.longCells
  split
  · rw [putBytes_append, word_size]
  · rfl

theorem long_words (m : StramMmu) (a v : Nat) (mem : HostCell -> BitVec 8) :
    m.srLget a mem = m.srWget a mem * 0x10000 + m.srWget (a + 2) mem ∧
      m.srLput a v mem = m.srWput (a + 2) v (m.srWput a (v / 0x10000) mem) := by
  unfold StramMmu.srLget StramMmu.srLput StramMmu.srWget StramMmu.srWput
  by_cases hhook : m.foldHook = true
  · rw [if_pos hhook, if_pos hhook]
    exact ⟨rfl, rfl⟩
  · have hptr : forall b, m.srPtr b = .natmem b := fun b => if_neg hhook
    rw [if_neg hhook, if_neg hhook, hptr, hptr, natmem_words, getBytes_append, putBytes_append,
      word_size]
    exact ⟨rfl, rfl⟩

/-!
## The byte that is reached
-/

theorem cells_get {m : StramMmu} {p : MirrorPtr} {n i : Nat} {c : HostCell}
    (h : (m.cells p n)[i]? = some c) : i < n ∧ c = m.cellAt p i := by
  unfold StramMmu.cells at h
  rw [List.getElem?_map, Option.map_eq_some_iff] at h
  obtain ⟨k, hk, hcell⟩ := h
  obtain ⟨hlt, hget⟩ := List.getElem?_eq_some_iff.mp hk
  rw [List.length_range] at hlt
  rw [List.getElem_range] at hget
  subst hget
  exact ⟨hlt, hcell.symm⟩

theorem agreesAt_iff (m : StramMmu) {x : Nat} (hx : x < stRamSize) :
    m.AgreesAt x ↔ m.natmemCell x = m.cellAt (m.srPtr x) 0 ∧
      (0 < x -> m.cellAt (m.srPtr (x - 1)) 1 = m.cellAt (m.srPtr x) 0) := by
  constructor
  · intro h
    constructor
    · have hfits : x < stRamSize ∧ 1 ≤ stRamSize - x := ⟨hx, by omega⟩
      have hcells : m.dmaCells x 1 = [m.natmemCell x] := if_pos hfits
      refine h (.dma x 1) 0 (m.natmemCell x) ?_ rfl
      change (m.dmaCells x 1)[0]? = _
      rw [hcells]
      exact List.getElem?_cons_zero
    · intro hpos
      refine h (.word (x - 1)) 1 (m.cellAt (m.srPtr (x - 1)) 1) rfl ?_
      change x - 1 + 1 = x
      omega
  · rintro ⟨hmirror, hword⟩ acc i c hget hat
    have hflat : forall a i, a + i = x -> m.cellAt (.natmem a) i = m.cellAt (m.srPtr x) 0 := by
      intro a i hsum
      rw [← hmirror]
      change m.natmemCell (a + i) = _
      rw [hsum]
    have hwords : forall a i, i < 2 -> a + i = x ->
        m.cellAt (m.srPtr a) i = m.cellAt (m.srPtr x) 0 := by
      intro a i hi hsum
      rcases Nat.lt_succ_iff_lt_or_eq.mp hi with hzero | hone
      · have hi0 : i = 0 := by omega
        subst hi0
        rw [← hsum]
        rfl
      · subst hone
        have ha : a = x - 1 := by omega
        rw [ha]
        exact hword (by omega)
    cases acc with
    | byte a =>
        obtain ⟨hlt, rfl⟩ := cells_get hget
        exact hwords a i (by omega) hat
    | word a =>
        obtain ⟨hlt, rfl⟩ := cells_get hget
        exact hwords a i hlt hat
    | long a =>
        change (m.longCells a)[i]? = some c at hget
        change a + i = x at hat
        unfold StramMmu.longCells at hget
        split at hget
        · by_cases hfirst : i < 2
          · rw [List.getElem?_append_left hfirst] at hget
            obtain ⟨hlt, rfl⟩ := cells_get hget
            exact hwords a i hlt hat
          · have hlen : (m.cells (m.srPtr a) 2).length = 2 := rfl
            rw [List.getElem?_append_right (by rw [hlen]; omega), hlen] at hget
            obtain ⟨hlt, rfl⟩ := cells_get hget
            exact hwords (a + 2) (i - 2) hlt (by omega)
        · obtain ⟨hlt, rfl⟩ := cells_get hget
          exact hflat a i hat
    | blit a =>
        obtain ⟨hlt, rfl⟩ := cells_get hget
        exact hflat _ i hat
    | dma a n =>
        change (m.dmaCells a n)[i]? = some c at hget
        unfold StramMmu.dmaCells at hget
        split at hget
        · obtain ⟨hlt, rfl⟩ := cells_get hget
          exact hflat a i hat
        · cases hget

/-!
## The page tables
-/

theorem size_chunks {n : Nat} (h : IsBankSize n) : exists k, 0 < k ∧ n = stramAliasChunk * k := by
  rcases h with rfl | rfl | rfl
  · exact ⟨1, by decide, rfl⟩
  · exact ⟨4, by decide, rfl⟩
  · exact ⟨16, by decide, rfl⟩

theorem mod_chunk {o n : Nat} (h : IsBankSize n) :
    stramAliasChunk * (o / stramAliasChunk) % n + o % stramAliasChunk = o % n := by
  obtain ⟨k, hk, rfl⟩ := size_chunks h
  rw [Nat.mul_mod_mul_left, Nat.mod_mul, Nat.add_comm]

theorem natmemCell_eq (h : m.Laid) {x : Nat} (hx : x < m.banks.decoded) (htop : x < stRamSize) :
    m.natmemCell x = .backing (m.banks.layout x) := by
  have hpos : 0 < stramAliasChunk := by decide
  have hsplit := Nat.div_add_mod x stramAliasChunk
  have hrest := Nat.mod_lt x hpos
  have hbase : stramAliasChunk * (x / stramAliasChunk) < m.banks.decoded := by omega
  have hplace : m.banks.layout (stramAliasChunk * (x / stramAliasChunk)) + x % stramAliasChunk =
      m.banks.layout x := by
    obtain ⟨k, _, hcfg⟩ := size_chunks h.cfgb0
    have hbank : x < m.banks.cfgb0 ↔ stramAliasChunk * (x / stramAliasChunk) < m.banks.cfgb0 := by
      rw [hcfg, Nat.mul_lt_mul_left hpos, Nat.div_lt_iff_lt_mul hpos, Nat.mul_comm k]
    rw [layout_slot h hx, layout_slot h hbase]
    rcases slot_cases h hx with ⟨hlt, hslot⟩ | ⟨hlt, _, _, hact, hslot⟩
    · have hslot' : m.banks.slot (stramAliasChunk * (x / stramAliasChunk)) =
          ⟨0, stramAliasChunk * (x / stramAliasChunk), m.banks.cfgb0, m.banks.act0, 0⟩ :=
        if_pos (hbank.mp hlt)
      rw [hslot, hslot']
      dsimp only
      rw [Nat.add_assoc, mod_chunk h.act0]
    · have hslot' : m.banks.slot (stramAliasChunk * (x / stramAliasChunk)) =
          ⟨1, stramAliasChunk * (x / stramAliasChunk) - m.banks.cfgb0, m.banks.cfgb1,
            m.banks.act1, m.banks.act0⟩ :=
        if_neg (fun hlow => hlt (hbank.mpr hlow))
      have hoff : stramAliasChunk * (x / stramAliasChunk) - m.banks.cfgb0 =
          stramAliasChunk * ((x - m.banks.cfgb0) / stramAliasChunk) := by
        rw [hcfg, Nat.sub_mul_div, Nat.mul_sub]
      have hmod : (x - m.banks.cfgb0) % stramAliasChunk = x % stramAliasChunk := by
        have hle : stramAliasChunk * k ≤ x := by omega
        rw [hcfg]
        exact Nat.sub_mul_mod hle
      rw [hslot, hslot']
      dsimp only
      rw [Nat.add_assoc, hoff, ← hmod, mod_chunk hact]
  unfold StramMmu.natmemCell
  rw [if_pos htop, h.pages, ← hplace]
  rfl

/-!
## Where the paths agree
-/

theorem layout_eq_stMap_iff (h : m.Laid) {x : Nat} (hx : x < m.banks.decoded) :
    m.banks.layout x = m.banks.stMap x ↔
      StramAlias.SameRows (m.banks.slot x).o (m.banks.slot x).cfg (m.banks.slot x).act := by
  have hgood := slot_good h hx
  rw [layout_slot h hx, stMap_slot h hx, Nat.add_left_cancel_iff, eq_comm]
  exact StramAlias.fold_eq_mod_iff hgood.cfg hgood.act hgood.lt

theorem fold_last {cfg act : Nat} (hcfg : IsBankSize cfg) (hact : IsBankSize act) :
    StramAlias.fold (cfg - 1) cfg act + 1 = act ↔ act ≤ cfg := by
  rcases hcfg with rfl | rfl | rfl <;> rcases hact with rfl | rfl | rfl <;> decide +kernel

theorem stMap_pred_iff (h : m.Laid) {x : Nat} (hx : x < m.banks.decoded) (hpos : 0 < x) :
    m.banks.stMap (x - 1) + 1 = m.banks.stMap x ↔
      if (m.banks.slot x).o = 0 then (m.banks.slot x).bank = 0 ∨ m.banks.act0 ≤ m.banks.cfgb0
      else StramAlias.InRow (m.banks.slot x).o (m.banks.slot x).cfg (m.banks.slot x).act := by
  have hx' : x - 1 < m.banks.decoded := by omega
  rw [stMap_slot h hx, stMap_slot h hx']
  rcases slot_cases h hx with ⟨hlt, hslot⟩ | ⟨hlt, hin, _, hact, hslot⟩
  · have hslot' : m.banks.slot (x - 1) = ⟨0, x - 1, m.banks.cfgb0, m.banks.act0, 0⟩ :=
      if_pos (by omega)
    have hne : x ≠ 0 := by omega
    rw [hslot, hslot']
    dsimp only
    rw [if_neg hne, Nat.zero_add, Nat.zero_add]
    exact StramAlias.fold_pred_iff h.cfgb0 h.act0 hpos
  · by_cases hfirst : x = m.banks.cfgb0
    · have hslot' : m.banks.slot (x - 1) = ⟨0, x - 1, m.banks.cfgb0, m.banks.act0, 0⟩ :=
        if_pos (by omega)
      have hzero : x - m.banks.cfgb0 = 0 := by omega
      have hfold : StramAlias.fold 0 m.banks.cfgb1 m.banks.act1 = 0 := by
        unfold StramAlias.fold
        simp
      rw [hslot, hslot']
      dsimp only
      rw [hzero, hfold, if_pos rfl, Nat.zero_add, hfirst, Nat.add_zero,
        or_iff_right Nat.one_ne_zero]
      exact fold_last h.cfgb0 h.act0
    · have hslot' : m.banks.slot (x - 1) =
          ⟨1, x - 1 - m.banks.cfgb0, m.banks.cfgb1, m.banks.act1, m.banks.act0⟩ :=
        if_neg (by omega)
      have hoff : x - 1 - m.banks.cfgb0 = x - m.banks.cfgb0 - 1 := by omega
      have hne : x - m.banks.cfgb0 ≠ 0 := by omega
      rw [hslot, hslot']
      dsimp only
      rw [hoff, if_neg hne, Nat.add_assoc, Nat.add_left_cancel_iff]
      exact StramAlias.fold_pred_iff h.cfgb1 hact (by omega)

theorem agrees_iff (h : m.Laid) {x : Nat} (hx : x < m.banks.decoded) :
    m.AgreesAt x ↔ (m.foldHook = true -> m.banks.FoldsMeet x) := by
  have htop : x < stRamSize := by
    have htotal := decoded_le m.banks
    have hsizes : m.banks.cfgb0 + m.banks.cfgb1 ≤ stRamSize := by
      rcases h.cfgb0 with h0 | h0 | h0 <;> rcases h.cfgb1 with h1 | h1 | h1 <;>
        rw [h0, h1] <;> decide
    omega
  rw [agreesAt_iff m htop]
  by_cases hhook : m.foldHook = true
  · have hptr : forall b, m.srPtr b = .backing (m.banks.stMap b) := fun b => if_pos hhook
    rw [natmemCell_eq h hx htop, hptr, hptr]
    change HostCell.backing (m.banks.layout x) = .backing (m.banks.stMap x) ∧
      (0 < x -> HostCell.backing (m.banks.stMap (x - 1) + 1) = .backing (m.banks.stMap x)) ↔ _
    rw [HostCell.backing.injEq, HostCell.backing.injEq, layout_eq_stMap_iff h hx,
      imp_iff_right hhook]
    unfold StramAlias.FoldsMeet
    by_cases hpos : 0 < x
    · rw [imp_iff_right hpos, stMap_pred_iff h hx hpos]
    · have hzero : x = 0 := by omega
      have hlow : 0 < m.banks.cfgb0 := size_pos h.cfgb0
      have hslot : m.banks.slot x = ⟨0, 0, m.banks.cfgb0, m.banks.act0, 0⟩ := by
        rw [hzero]
        exact if_pos hlow
      rw [hslot]
      exact and_congr_right fun _ => ⟨fun _ => Or.inl rfl, fun _ habs => absurd habs hpos⟩
  · have hptr : forall b, m.srPtr b = .natmem b := fun b => if_neg hhook
    rw [hptr, hptr]
    refine ⟨fun _ habs => absurd habs hhook, fun _ => ⟨rfl, ?_⟩⟩
    intro hpos
    change m.natmemCell (x - 1 + 1) = m.natmemCell (x + 0)
    rw [Nat.sub_add_cancel hpos, Nat.add_zero]

end

/-- In every run, at every decoded address, the paths agree just where the accessors do not fold
or their fold meets the one of the page tables. -/
theorem stram_paths_iff {want phys0 phys1 : Nat} {ste : Bool} {s : StramAlias}
    (hinit : stramAliasInit want phys0 phys1 ste = some s) (ws : List GuestWrite) {x : Nat}
    (hx : x < ((StramMmu.start s).run ws).banks.decoded) :
    ((StramMmu.start s).run ws).PathsAgree x ↔
      (((StramMmu.start s).run ws).foldHook = true ->
        ((StramMmu.start s).run ws).banks.FoldsMeet x) := by
  have hlaid := run_laid ws (start_laid hinit)
  rw [← agrees_iff hlaid hx]
  constructor
  · intro h
    exact h.agrees
  · intro h
    exact ⟨maps_inside hlaid hx, fun y hy => cells_shared_iff hlaid hx hy,
      fun v mem => long_words _ x v mem, h⟩

def megaSt : StramAlias := ⟨0x80000, 0x80000, 0x200000, 0x200000, true⟩

/-- Once both banks are programmed as they are. -/
theorem stram_paths_iff_configured :
    ((StramMmu.start megaSt).run [⟨0xFF8001, 0x05, 1⟩]).PathsAgree 0x81234 :=
  (@stram_paths_iff 0x100000 0x80000 0x80000 false megaSt (by decide +kernel)
    [⟨0xFF8001, 0x05, 1⟩] 0x81234 (by decide +kernel)).mpr
      (fun hfold => absurd hfold (by decide +kernel))

/-- The processor reaches the first byte at $400, and the DMA another. -/
theorem not_paths_agree : ¬ ((StramMmu.start megaSt).run []).PathsAgree 0x400 := by
  intro h
  have hcell := h.agrees (.dma 0x400 1) 0 (.backing 0x400) (by decide +kernel) rfl
  revert hcell
  decide +kernel

end Natmem
end PistormAtari
