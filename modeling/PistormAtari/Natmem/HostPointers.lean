import Mathlib
import PistormAtari.Natmem.BankTable

/-!
# Host pointers into guest memory

{lit}`memory_get_real_address` and {lit}`memory_valid_address` ask the bank of the
first byte only.  The pointer they hand out is good for a range when each of its
bytes is the host byte that a byte access to the same guest address reaches.
-/

namespace PistormAtari
namespace Natmem

/-- A byte of host memory: of the flat reservation, of the file behind a small
board's ST-RAM, of the fVDI frame buffer, or of PSVIDEL's video memory. -/
inductive HostByte where
  | natmem (off : Nat)
  | backing (off : Nat)
  | fvdi (off : Nat)
  | vram (off : Nat)
deriving DecidableEq, Repr

inductive HostPtr where
  | natmem (off : Nat)
  | backing (off : Nat)
  | fvdi (off : Nat)
  | vram (off : Nat)
  | card (off : Nat)
  | scratch (off : Nat)
  | null
deriving DecidableEq, Repr

def HostPtr.add : HostPtr -> Nat -> HostPtr
  | .natmem off, i => .natmem (off + i)
  | .backing off, i => .backing (off + i)
  | .fvdi off, i => .fvdi (off + i)
  | .vram off, i => .vram (off + i)
  | .card off, i => .card (off + i)
  | .scratch off, i => .scratch (off + i)
  | .null, _ => .null

theorem HostPtr.add_zero (p : HostPtr) : p.add 0 = p := by
  cases p <;> rfl

theorem HostPtr.add_succ (p : HostPtr) (i : Nat) : (p.add i).add 1 = p.add (i + 1) := by
  cases p <;> rfl

def offset32 (a base : Nat) : Nat := (a + 2 ^ 32 - base) % 2 ^ 32

theorem offset32_of_le {a base : Nat} (h : base ≤ a) (ha : a < 2 ^ 32) :
    offset32 a base = a - base := by
  unfold offset32
  rw [show a + 2 ^ 32 - base = a - base + 2 ^ 32 by lia, Nat.add_mod_right]
  exact Nat.mod_eq_of_lt (by lia)

namespace JitMachine

variable (c : JitMachine)

/-- The byte a pointer names.  The page tables of a small board map the first
4 MB of the reservation onto its file. -/
def byteOf : HostPtr -> Option HostByte
  | .natmem off =>
      if off < guestReserve then
        match c.stramAlias with
        | some s => if off < stRamSize then some (.backing (s.layout off)) else some (.natmem off)
        | none => some (.natmem off)
      else none
  | .backing off => some (.backing off)
  | .fvdi off => if off < fvdiFbMaxBytes then some (.fvdi off) else none
  | .vram off => if off < psvVramSize then some (.vram off) else none
  | _ => none

def srPtr (a : Nat) : HostPtr :=
  match c.stramAlias with
  | some s => if s.foldHook then .backing (s.stMap a) else .natmem a
  | none => .natmem a

def inVram (a : Nat) : Bool :=
  match c.et4k with
  | some d => d.vramBase ≤ a && a < d.vramBase + vramSize
  | none => false

/-- What a bank's `bget` reads, when it is a byte of host memory. -/
def bankGet : Bank -> Nat -> Option HostPtr
  | .lowram, a => some (.natmem a)
  | .stram, a => some (c.srPtr a)
  | .rom, a => some (.natmem a)
  | .ttram, a => some (.natmem a)
  | .guard, a => if c.inVram a then none else some (.natmem a)
  | .fvdi, a =>
      if offset32 a fvdiFbBase < fvdiFbMaxBytes then some (.fvdi (offset32 a fvdiFbBase)) else none
  | .psvram, a =>
      if offset32 a psvVramBase < psvVramSize then some (.vram (offset32 a psvVramBase)) else none
  | _, _ => none

def bankPut : Bank -> Nat -> Option HostPtr
  | .rom, _ => none
  | .lowram, a => some (.natmem a)
  | .stram, a => some (c.srPtr a)
  | .ttram, a => some (.natmem a)
  | .guard, a => if c.inVram a then none else some (.natmem a)
  | .fvdi, a =>
      if offset32 a fvdiFbBase < fvdiFbMaxBytes then some (.fvdi (offset32 a fvdiFbBase)) else none
  | .psvram, a =>
      if offset32 a psvVramBase < psvVramSize then some (.vram (offset32 a psvVramBase)) else none
  | _, _ => none

def bankXlate : Bank -> Nat -> HostPtr
  | .ide, _ => .natmem 0
  | .vgaVram, a => .card (a % vramSize)
  | .vgaIo, _ => .null
  | .fvdi, a => .fvdi (offset32 a fvdiFbBase)
  | .psvram, a => .vram (offset32 a psvVramBase)
  | .psvreg, a => .scratch (a % 0x10000)
  | _, a => .natmem a

def bankCheck : Bank -> Nat -> Nat -> Bool
  | .lowram, _, _ => true
  | .stram, _, _ => true
  | .rom, _, _ => true
  | .ttram, a, _ => ttRamBase ≤ a && a < ttRamBase + c.tt_ram_size
  | .fvdi, a, sz => fvdiFbBase ≤ a && sz ≤ fvdiFbMaxBytes && a - fvdiFbBase ≤ fvdiFbMaxBytes - sz
  | .psvram, a, sz =>
      psvVramBase ≤ a && sz ≤ psvVramSize && offset32 a psvVramBase ≤ psvVramSize - sz
  | _, _, _ => false

/-!
## The memory functions
-/

def memAddr (addr : BitVec 32) : Nat :=
  if c.addr24 then addr.toNat % 0x01000000 else addr.toNat

def bankAt (a : Nat) : Bank := c.memBanks (a / 0x10000)

/-- The bank and the address an access ends at: PSVIDEL's low window passes it on
to the bank of the 24-bit address. -/
def reached (addr : BitVec 32) : Bank × Nat :=
  let a := c.memAddr addr
  match c.bankAt a with
  | .psvlo => (c.bankAt (a % 0x01000000), a % 0x01000000)
  | b => (b, a)

def memoryGetByte (addr : BitVec 32) : Option HostByte :=
  (c.bankGet (c.reached addr).1 (c.reached addr).2).bind c.byteOf

def memoryPutByte (addr : BitVec 32) : Option HostByte :=
  (c.bankPut (c.reached addr).1 (c.reached addr).2).bind c.byteOf

def memoryGetRealAddress (addr : BitVec 32) : HostPtr :=
  bankXlate (c.reached addr).1 (c.reached addr).2

def memoryValidAddress (addr size : BitVec 32) : Bool :=
  c.bankCheck (c.reached addr).1 (c.reached addr).2 size.toNat

/-- The byte at a pointer is the one the accessors reach for a guest address. -/
def Reaches (p : HostPtr) (addr : BitVec 32) : Prop :=
  exists b, c.memoryGetByte addr = some b ∧ c.memoryPutByte addr = some b ∧ c.byteOf p = some b

def PointerGood (addr size : BitVec 32) : Prop :=
  forall i, i < size.toNat ->
    c.Reaches ((c.memoryGetRealAddress addr).add i) (addr + BitVec.ofNat 32 i)

def writable : Bank -> Bool
  | .lowram | .stram | .ttram | .guard | .fvdi | .psvram => true
  | _ => false

/-- The accessors of the ST-RAM bank and the page tables agree on an address:
always, unless a plain ST's folding is live. -/
def FoldAgrees (a : Nat) : Prop :=
  forall s, c.stramAlias = some s -> s.foldHook = true -> s.stMap a = s.layout a

/-- A guest byte kept in writable host memory at its own place. -/
def InRam (addr : BitVec 32) : Prop :=
  writable (c.reached addr).1 = true ∧
    ((c.reached addr).1 = .stram -> c.FoldAgrees (c.reached addr).2)

/-!
## Neighbouring bytes

RAM ends below the hardware page, below the end of the TT-RAM reserve, and at
the ends of the 32-bit windows; two neighbouring bytes of RAM therefore lie in
the same host block.
-/

theorem page_memAddr (addr : BitVec 32) : c.Page (c.memAddr addr / 0x10000) := by
  intro h
  unfold memAddr
  rw [if_pos h]
  have hlt := Nat.mod_lt addr.toNat (show 0 < 0x01000000 by decide)
  lia

theorem home_writable {b : Bank} {page : Nat} (hw : writable b = true) (h : c.Home b page) :
    (page < 0x1100 ∧ forall a, bankXlate b a = .natmem a) ∨
      (b = .fvdi ∧ 0x2000 ≤ page ∧ page < 0x2100) ∨
        (b = .psvram ∧ 0xA100 ≤ page ∧ page < 0xA800) := by
  cases b with
  | lowram => exact Or.inl ⟨h, fun _ => rfl⟩
  | stram => exact Or.inl ⟨lt_trans h (by decide), fun _ => rfl⟩
  | ttram => exact Or.inl ⟨h.2, fun _ => rfl⟩
  | guard =>
      rcases h with ⟨d, _, _, hhi⟩
      have hcard : d.vramBase / 0x10000 ≤ 0xC0 := by cases d <;> decide
      exact Or.inl ⟨by lia, fun _ => rfl⟩
  | fvdi => exact Or.inr (Or.inl ⟨rfl, h⟩)
  | psvram => exact Or.inr (Or.inr ⟨rfl, h.2⟩)
  | dummy | rom | ide | hw | vgaVram | vgaIo | psvlo | psvreg => cases hw

variable {addr : BitVec 32}

theorem reached_psvlo (h : c.bankAt (c.memAddr addr) = .psvlo) :
    c.reached addr =
      (c.bankAt (c.memAddr addr % 0x01000000), c.memAddr addr % 0x01000000) := by
  unfold reached
  dsimp only
  rw [h]

theorem reached_self (h : c.bankAt (c.memAddr addr) ≠ .psvlo) :
    c.reached addr = (c.bankAt (c.memAddr addr), c.memAddr addr) := by
  unfold reached
  dsimp only
  split
  · next heq => exact absurd heq h
  · rfl

theorem home_bankAt (addr : BitVec 32) :
    c.Home (c.bankAt (c.memAddr addr)) (c.memAddr addr / 0x10000) :=
  c.placed_memBanks _ (c.page_memAddr addr)

theorem home_reached (addr : BitVec 32) :
    c.Home (c.reached addr).1 ((c.reached addr).2 / 0x10000) := by
  rcases Classical.em (c.bankAt (c.memAddr addr) = .psvlo) with h | h
  · rw [c.reached_psvlo h]
    apply c.placed_memBanks
    intro _
    have hlt := Nat.mod_lt (c.memAddr addr) (show 0 < 0x01000000 by decide)
    lia
  · rw [c.reached_self h]
    exact c.home_bankAt addr

theorem psvlo_window (h : c.bankAt (c.memAddr addr) = .psvlo) :
    c.addr24 = false ∧ 0xA000 ≤ c.memAddr addr / 0x10000 ∧ c.memAddr addr / 0x10000 < 0xA100 := by
  have hhome := c.home_bankAt addr
  rw [h] at hhome
  rcases hhome with ⟨hpsv, hlo, hhi⟩
  refine ⟨?_, hlo, hhi⟩
  unfold psvidelMapped at hpsv
  rw [Bool.and_eq_true, Bool.not_eq_true'] at hpsv
  exact hpsv.2

section

variable (hw : writable (c.reached addr).1 = true)

include hw

theorem not_hw_of_writable :
    (c.reached addr).2 / 0x10000 ≠ 0xFF := by
  intro hpage
  have hbank : (c.reached addr).1 = c.memBanks ((c.reached addr).2 / 0x10000) := by
    rcases Classical.em (c.bankAt (c.memAddr addr) = .psvlo) with h | h
    · rw [c.reached_psvlo h]
      rfl
    · rw [c.reached_self h]
      rfl
  rw [hbank, hpage, c.memBanks_hw] at hw
  cases hw

theorem memAddr_succ :
    c.memAddr (addr + 1) = c.memAddr addr + 1 := by
  have hhw := c.not_hw_of_writable hw
  have hplace := c.home_writable hw (c.home_reached addr)
  have hsum : (addr + 1).toNat = (addr.toNat + 1) % 2 ^ 32 := BitVec.toNat_add addr 1
  have hlt := addr.isLt
  rcases Classical.em (c.bankAt (c.memAddr addr) = .psvlo) with h | h
  · rcases c.psvlo_window h with ⟨hwide, _, hhi⟩
    unfold memAddr at *
    rw [hwide] at *
    simp only [Bool.false_eq_true, if_false] at *
    lia
  · rw [c.reached_self h] at hhw hplace
    dsimp only at hhw hplace
    unfold memAddr at *
    cases h24 : c.addr24 with
    | true =>
        rw [h24] at hhw
        simp only [if_true] at *
        lia
    | false =>
        rw [h24] at hplace
        simp only [Bool.false_eq_true, if_false] at *
        lia

theorem reached_succ (hw' : writable (c.reached (addr + 1)).1 = true) :
    (c.reached (addr + 1)).2 = (c.reached addr).2 + 1 := by
  have hsucc := c.memAddr_succ hw
  have hhw := c.not_hw_of_writable hw
  have hplace := c.home_writable hw (c.home_reached addr)
  have hplace' := c.home_writable hw' (c.home_reached (addr + 1))
  rcases Classical.em (c.bankAt (c.memAddr addr) = .psvlo) with h | h
  · rcases c.psvlo_window h with ⟨_, hlo, hhi⟩
    rw [c.reached_psvlo h] at hhw hplace ⊢
    rcases Classical.em (c.bankAt (c.memAddr (addr + 1)) = .psvlo) with h' | h'
    · rw [c.reached_psvlo h']
      dsimp only at *
      lia
    · rw [c.reached_self h'] at hplace'
      dsimp only at *
      lia
  · rw [c.reached_self h] at hhw hplace ⊢
    rcases Classical.em (c.bankAt (c.memAddr (addr + 1)) = .psvlo) with h' | h'
    · rcases c.psvlo_window h' with ⟨_, hlo', hhi'⟩
      dsimp only at *
      lia
    · rw [c.reached_self h']
      exact hsucc

theorem real_succ (hw' : writable (c.reached (addr + 1)).1 = true) :
    (c.memoryGetRealAddress addr).add 1 = c.memoryGetRealAddress (addr + 1) := by
  have hsucc := c.reached_succ hw hw'
  have hplace := c.home_writable hw (c.home_reached addr)
  have hplace' := c.home_writable hw' (c.home_reached (addr + 1))
  unfold memoryGetRealAddress
  generalize (c.reached addr).2 = a at *
  rw [hsucc] at hplace' ⊢
  rcases hplace with ⟨_, hx⟩ | ⟨hb, hlo, hhi⟩ | ⟨hb, hlo, hhi⟩
  · rcases hplace' with ⟨_, hx'⟩ | ⟨_, hlo', _⟩ | ⟨_, hlo', _⟩
    · rw [hx, hx']
      rfl
    · lia
    · lia
  · rcases hplace' with ⟨hhi', _⟩ | ⟨hb', _, _⟩ | ⟨_, hlo', _⟩
    · lia
    · have hoff : offset32 a fvdiFbBase + 1 = offset32 (a + 1) fvdiFbBase := by
        rw [offset32_of_le (by unfold fvdiFbBase; lia) (by lia),
          offset32_of_le (by unfold fvdiFbBase; lia) (by lia)]
        unfold fvdiFbBase
        lia
      rw [hb, hb']
      exact congrArg HostPtr.fvdi hoff
    · lia
  · rcases hplace' with ⟨hhi', _⟩ | ⟨_, _, hhi'⟩ | ⟨hb', _, _⟩
    · lia
    · lia
    · have hoff : offset32 a psvVramBase + 1 = offset32 (a + 1) psvVramBase := by
        rw [offset32_of_le (by unfold psvVramBase; lia) (by lia),
          offset32_of_le (by unfold psvVramBase; lia) (by lia)]
        unfold psvVramBase
        lia
      rw [hb, hb']
      exact congrArg HostPtr.vram hoff

end

/-!
## Good pointers
-/

theorem byteOf_natmem {off : Nat} (h : off < guestReserve) :
    exists b, c.byteOf (.natmem off) = some b := by
  unfold byteOf
  dsimp only
  rw [if_pos h]
  cases c.stramAlias with
  | none => exact ⟨_, rfl⟩
  | some s =>
      dsimp only
      split
      · exact ⟨_, rfl⟩
      · exact ⟨_, rfl⟩

theorem byteOf_fvdi {off : Nat} (h : off < fvdiFbMaxBytes) :
    c.byteOf (.fvdi off) = some (.fvdi off) := by
  unfold byteOf
  dsimp only
  rw [if_pos h]

theorem byteOf_vram {off : Nat} (h : off < psvVramSize) :
    c.byteOf (.vram off) = some (.vram off) := by
  unfold byteOf
  dsimp only
  rw [if_pos h]

theorem byteOf_srPtr_iff {a : Nat} (h : a < stRamSize) :
    c.byteOf (c.srPtr a) = c.byteOf (.natmem a) <-> c.FoldAgrees a := by
  have hreserve : a < guestReserve := lt_trans h (by decide)
  unfold FoldAgrees srPtr
  cases hs : c.stramAlias with
  | none => exact ⟨fun _ _ hnone => (by cases hnone), fun _ => rfl⟩
  | some s =>
      dsimp only
      have hflat : c.byteOf (.natmem a) = some (.backing (s.layout a)) := by
        unfold byteOf
        dsimp only
        rw [if_pos hreserve, hs]
        dsimp only
        rw [if_pos h]
      rw [hflat]
      constructor
      · intro heq s' hs' hfold
        rw [← Option.some.inj hs'] at hfold ⊢
        rw [if_pos hfold] at heq
        exact HostByte.backing.inj (Option.some.inj heq)
      · intro hagree
        split
        · next hfold => exact congrArg (fun x => some (HostByte.backing x)) (hagree s rfl hfold)
        · exact hflat

theorem not_inVram_of_guard {a : Nat} (h : c.Home .guard (a / 0x10000)) : c.inVram a = false := by
  rcases h with ⟨d, hd, _, hhi⟩
  have hlow : a < d.vramBase := by
    have haligned : d.vramBase / 0x10000 * 0x10000 = d.vramBase := by cases d <;> rfl
    lia
  unfold inVram
  rw [hd]
  dsimp only
  rw [decide_eq_false (Nat.not_le.mpr hlow)]
  rfl

theorem writable_of_put {b : HostByte}
    (h : c.memoryPutByte addr = some b) : writable (c.reached addr).1 = true := by
  unfold memoryPutByte at h
  cases hb : (c.reached addr).1 with
  | lowram | stram | ttram | guard | fvdi | psvram => rfl
  | dummy | rom | ide | hw | vgaVram | vgaIo | psvlo | psvreg =>
      rw [hb] at h
      cases h

theorem reaches_real_iff (addr : BitVec 32) :
    c.Reaches (c.memoryGetRealAddress addr) addr <-> c.InRam addr := by
  have hhome := c.home_reached addr
  have hsame : forall b a, writable b = true -> c.bankPut b a = c.bankGet b a := by
    intro b a hw
    cases b with
    | lowram | stram | ttram | guard | fvdi | psvram => rfl
    | dummy | rom | ide | hw | vgaVram | vgaIo | psvlo | psvreg => cases hw
  have hiff : c.Reaches (c.memoryGetRealAddress addr) addr <->
      writable (c.reached addr).1 = true ∧ exists b,
        (c.bankGet (c.reached addr).1 (c.reached addr).2).bind c.byteOf = some b ∧
          c.byteOf (bankXlate (c.reached addr).1 (c.reached addr).2) = some b := by
    constructor
    · rintro ⟨b, hget, hput, hreal⟩
      exact ⟨c.writable_of_put hput, b, hget, hreal⟩
    · rintro ⟨hw, b, hget, hreal⟩
      refine ⟨b, hget, ?_, hreal⟩
      unfold memoryPutByte
      rw [hsame _ _ hw]
      exact hget
  rw [hiff]
  unfold InRam
  apply and_congr_right
  intro hw
  generalize (c.reached addr).1 = bank at *
  generalize (c.reached addr).2 = a at *
  have hflat : a < guestReserve -> exists b, c.byteOf (.natmem a) = some b ∧
      c.byteOf (.natmem a) = some b := by
    intro h
    rcases c.byteOf_natmem h with ⟨b, hb⟩
    exact ⟨b, hb, hb⟩
  have hreserve : a / 0x10000 < 0x1100 -> a < guestReserve := by
    intro h
    unfold guestReserve ttRamBase ttRamSize
    lia
  cases bank with
  | lowram => exact ⟨fun _ h => (by cases h), fun _ => hflat (hreserve hhome)⟩
  | ttram => exact ⟨fun _ h => (by cases h), fun _ => hflat (hreserve hhome.2)⟩
  | stram =>
      have hpage : a / 0x10000 < 0x40 := hhome
      have ha : a < stRamSize := by
        unfold stRamSize
        lia
      rw [← c.byteOf_srPtr_iff ha]
      constructor
      · rintro ⟨b, hget, hreal⟩ _
        exact hget.trans hreal.symm
      · intro hagree
        rcases c.byteOf_natmem (lt_trans ha (by decide)) with ⟨b, hb⟩
        exact ⟨b, (hagree rfl).trans hb, hb⟩
  | guard =>
      have hplace := c.home_writable hw hhome
      have hget : c.bankGet .guard a = some (.natmem a) := by
        unfold bankGet
        dsimp only
        rw [c.not_inVram_of_guard hhome]
        rfl
      rw [hget]
      have hpage : a / 0x10000 < 0x1100 := by
        rcases hplace with ⟨h, _⟩ | ⟨h, _⟩ | ⟨h, _⟩
        · exact h
        · cases h
        · cases h
      exact ⟨fun _ h => (by cases h), fun _ => hflat (hreserve hpage)⟩
  | fvdi =>
      have hpage : 0x2000 ≤ a / 0x10000 ∧ a / 0x10000 < 0x2100 := hhome
      have hoff : offset32 a fvdiFbBase < fvdiFbMaxBytes := by
        rw [offset32_of_le (by unfold fvdiFbBase; lia) (by lia)]
        unfold fvdiFbBase fvdiFbMaxBytes
        lia
      have hbyte := c.byteOf_fvdi hoff
      unfold bankGet bankXlate
      dsimp only
      rw [if_pos hoff, Option.bind_some]
      exact ⟨fun _ h => (by cases h), fun _ => ⟨_, hbyte, hbyte⟩⟩
  | psvram =>
      have hpage : 0xA100 ≤ a / 0x10000 ∧ a / 0x10000 < 0xA800 := hhome.2
      have hoff : offset32 a psvVramBase < psvVramSize := by
        rw [offset32_of_le (by unfold psvVramBase; lia) (by lia)]
        unfold psvVramBase psvVramSize
        lia
      have hbyte := c.byteOf_vram hoff
      unfold bankGet bankXlate
      dsimp only
      rw [if_pos hoff, Option.bind_some]
      exact ⟨fun _ h => (by cases h), fun _ => ⟨_, hbyte, hbyte⟩⟩
  | dummy | rom | ide | hw | vgaVram | vgaIo | psvlo | psvreg => cases hw

theorem ofNat_succ_add (addr : BitVec 32) (i : Nat) :
    addr + BitVec.ofNat 32 (i + 1) = addr + BitVec.ofNat 32 i + 1 := by
  rw [BitVec.ofNat_add, BitVec.add_assoc]
  rfl

theorem real_add {i : Nat}
    (h : forall j, j ≤ i -> writable (c.reached (addr + BitVec.ofNat 32 j)).1 = true) :
    (c.memoryGetRealAddress addr).add i = c.memoryGetRealAddress (addr + BitVec.ofNat 32 i) := by
  induction i with
  | zero =>
      rw [HostPtr.add_zero]
      exact congrArg c.memoryGetRealAddress (BitVec.add_zero addr).symm
  | succ i ih =>
      have hlast := h (i + 1) le_rfl
      rw [ofNat_succ_add] at hlast
      rw [← HostPtr.add_succ, ih fun j hj => h j (by lia), ofNat_succ_add]
      exact c.real_succ (h i (by lia)) hlast

theorem pointerGood_iff (addr size : BitVec 32) :
    c.PointerGood addr size <->
      forall i, i < size.toNat -> c.InRam (addr + BitVec.ofNat 32 i) := by
  constructor
  · intro hgood i
    induction i using Nat.strong_induction_on with
    | _ i ih =>
        intro hi
        have hreach := hgood i hi
        rw [c.real_add] at hreach
        · exact (c.reaches_real_iff _).mp hreach
        · intro j hj
          rcases Nat.lt_or_ge j i with hlt | hge
          · exact (ih j hlt (lt_trans hlt hi)).1
          · rw [le_antisymm hj hge]
            rcases hreach with ⟨b, _, hput, _⟩
            exact c.writable_of_put hput
  · intro hram i hi
    rw [c.real_add fun j hj => (hram j (by lia)).1]
    exact (c.reaches_real_iff _).mpr (hram i hi)

/-- A range that is reported valid has a good pointer exactly when it lies in RAM
with every byte. -/
theorem valid_pointerGood_iff (addr size : BitVec 32) :
    (c.memoryValidAddress addr size = true -> c.PointerGood addr size) <->
      (c.memoryValidAddress addr size = true ->
        forall i, i < size.toNat -> c.InRam (addr + BitVec.ofNat 32 i)) := by
  rw [c.pointerGood_iff]

end JitMachine

def plainMachine : JitMachine where
  addr32 := false
  tt_ram_available := false
  tt_ram_size := 0
  tt_ram_bound := by decide
  stram_direct := false
  stram_size := 0
  phys0 := 0x200000
  phys1 := 0x200000
  machine_is_ste := false
  machine_kind := 0
  falcon_stram := 0
  et4k := none
  psvidel := false
  rom_start := 0x00FC0000
  rom_size := 0x30000
  cartridge := false

/-- Two bytes from the last byte of ST-RAM on are reported valid; the second one
is on the bus. -/
theorem valid_past_stram :
    plainMachine.memoryValidAddress 0x003FFFFF 2 = true ∧
      ¬ plainMachine.PointerGood 0x003FFFFF 2 := by
  refine ⟨by decide, ?_⟩
  intro hgood
  rcases hgood 1 (by decide) with ⟨b, _, hput, _⟩
  have hnone : plainMachine.memoryPutByte (0x003FFFFF + BitVec.ofNat 32 1) = none := by decide
  rw [hnone] at hput
  cases hput

end Natmem
end PistormAtari
