import Mathlib

/-!
# The bank table

{lit}`jit_mem_init` lays the guest's memory map down region by region: each call of
{lit}`map_region` overwrites the table entries of its 64 KB pages, so the last
region mapped over a page owns it.  On a 24-bit machine a region below 16 MB is
repeated in all 256 images of the 32-bit space.
-/

namespace PistormAtari
namespace Natmem

def stRamSize : Nat := 0x00400000
def ttRamBase : Nat := 0x01000000
def ttRamSize : Nat := 0x10000000
def vramSize : Nat := 0x00100000
def vgaIoSize : Nat := 0x00100000
def fvdiFbBase : Nat := 0x20000000
def fvdiFbMaxBytes : Nat := 0x01000000
def guestReserve : Nat := ttRamBase + ttRamSize
def stramDirectStart : Nat := 0x00010000
def stramDirectTopReserve : Nat := 0x00080000
def stramDirectEnd : Nat := stRamSize - stramDirectTopReserve
def guardSize : Nat := 0x00040000
def psvLoBase : Nat := 0xA0000000
def psvLoSize : Nat := 0x01000000
def psvVramBase : Nat := 0xA1000000
def psvVramSize : Nat := 0x07000000
def psvSvregBase : Nat := 0x80010000
def psvSvregSize : Nat := 0x00010000

inductive Bank where
  | dummy | lowram | stram | rom | ide | hw | ttram | guard
  | vgaVram | vgaIo | fvdi | psvlo | psvram | psvreg
deriving DecidableEq, Repr

abbrev BankTable := Nat -> Bank

inductive Et4kDriver where
  | nova | xvdi | nvdi | fvdi
deriving DecidableEq, Repr

def Et4kDriver.vramBase : Et4kDriver -> Nat
  | .xvdi => 0x00A00000
  | _ => 0x00C00000

def Et4kDriver.ioBase : Et4kDriver -> Nat
  | .xvdi => 0x00B00000
  | _ => 0x00D00000

def Et4kDriver.guardBase (d : Et4kDriver) : Nat := d.vramBase - guardSize

/-!
## Small boards

{lit}`stram_size` makes the 4 MB of ST-RAM alias as the banks of a smaller board.
-/

def stramBankTab : Nat -> Nat
  | 0 => 0x20000
  | 1 => 0x80000
  | _ => 0x200000

def stramCombos : List (Nat × Nat) :=
  [(0x200000, 0x200000), (0x200000, 0x80000), (0x200000, 0), (0x80000, 0x80000), (0x80000, 0),
    (0x20000, 0)]

structure StramAlias where
  act0 : Nat
  act1 : Nat
  cfgb0 : Nat
  cfgb1 : Nat
  st_mmu : Bool
deriving DecidableEq, Repr

/-- The banks modelled for a request, on a board whose probe found `phys0` and
`phys1`; the register still holds its boot value `$0A`. -/
def stramAliasInit (want phys0 phys1 : Nat) (machine_is_ste : Bool) : Option StramAlias :=
  if want = 0 then none
  else if phys0 = 0 then none
  else
    let want := min want stRamSize
    match stramCombos.find? fun b =>
        b.1 + b.2 ≤ want && b.1 ≤ phys0 && (b.2 == 0 || b.2 ≤ phys1) with
    | none => none
    | some b =>
        if stRamSize ≤ b.1 + b.2 then none
        else
          some
            { act0 := b.1
              act1 := b.2
              cfgb0 := stramBankTab 2
              cfgb1 := stramBankTab 2
              st_mmu := !machine_is_ste }

namespace StramAlias

def colbits (size : Nat) : Nat :=
  if 0x200000 ≤ size then 10 else if 0x80000 ≤ size then 9 else 8

/-- The plain ST's multiplexing: a smaller chip keeps the low column and row
bits it decodes. -/
def fold (o cfg act : Nat) : Nat :=
  if cfg ≤ act then o
  else
    let word := o / 2
    let low := o % 2
    let col := word % 2 ^ colbits cfg % 2 ^ colbits act
    let row := word / 2 ^ colbits cfg % 2 ^ colbits act
    (row * 2 ^ colbits act + col) * 2 + low

/-- The place of a guest address in the backing file, as a plain ST decodes it. -/
def stMap (s : StramAlias) (a : Nat) : Nat :=
  let total := s.cfgb0 + s.cfgb1
  let a := if total ≠ 0 ∧ total ≤ a then a % total else a
  if a < s.cfgb0 then fold a s.cfgb0 s.act0
  else if s.act1 ≠ 0 then s.act0 + fold (a - s.cfgb0) s.cfgb1 s.act1
  else fold (a - s.cfgb0) s.cfgb1 s.act0

/-- The place of a guest address in the backing file by the page tables. -/
def layout (s : StramAlias) (g : Nat) : Nat :=
  let total := s.cfgb0 + s.cfgb1
  let a := if g < total then g else g % total
  if a < s.cfgb0 then a % s.act0
  else if s.act1 ≠ 0 then s.act0 + (a - s.cfgb0) % s.act1
  else (a - s.cfgb0) % s.act0

/-- Whether the accessors fold addresses: a plain ST whose configured banks
differ from its chips. -/
def foldHook (s : StramAlias) : Bool :=
  s.st_mmu && !(s.cfgb0 == s.act0 && (s.cfgb1 == s.act1 || s.act1 == 0))

def decoded (s : StramAlias) : Nat :=
  if s.act1 ≠ 0 then s.cfgb0 + s.cfgb1 else s.cfgb0

end StramAlias

/-!
## The machine that is mapped
-/

/-- What `jit_mem_init` reads: the configuration, the probed board and the ROM. -/
structure JitMachine where
  addr32 : Bool
  tt_ram_available : Bool
  tt_ram_size : Nat
  tt_ram_bound : tt_ram_size ≤ ttRamSize
  stram_direct : Bool
  stram_size : Nat
  phys0 : Nat
  phys1 : Nat
  machine_is_ste : Bool
  machine_kind : Nat
  falcon_stram : Nat
  et4k : Option Et4kDriver
  psvidel : Bool
  rom_start : Nat
  rom_size : Nat
  cartridge : Bool

namespace JitMachine

variable (c : JitMachine)

/-- A machine without TT-RAM has 24 address lines unless it is told otherwise. -/
def addr24 : Bool := !(c.tt_ram_available || c.addr32)

def stramAlias : Option StramAlias :=
  stramAliasInit c.stram_size c.phys0 c.phys1 c.machine_is_ste

def stramTop : Nat :=
  if stRamSize < c.falcon_stram ∧ c.machine_kind = 3 ∧ c.et4k = none ∧ c.stram_size = 0 then
    0x00E00000
  else stRamSize

def psvidelMapped : Bool := c.psvidel && !c.addr24

/-- The page of the table a region is compared with: its place in its 16 MB image
where the region is repeated in all of them. -/
def imagePage (start len page : Nat) : Nat :=
  if c.addr24 ∧ start + len ≤ 0x01000000 then page % 256 else page

def mapRegion (start len : Nat) (b : Bank) (t : BankTable) : BankTable := fun page =>
  if start / 0x10000 ≤ c.imagePage start len page ∧
      c.imagePage start len page < start / 0x10000 + (len + 0xFFFF) / 0x10000 then b
  else t page

def applyBanks (s : StramAlias) (t : BankTable) : BankTable :=
  let t := c.mapRegion 0 stRamSize .stram t
  let direct_end :=
    if s.decoded < stRamSize then
      if stramDirectStart + stramDirectTopReserve < s.decoded then
        s.decoded - stramDirectTopReserve
      else stramDirectStart
    else stramDirectEnd
  let t :=
    if c.stram_direct && !s.foldHook then
      if stramDirectStart < direct_end then
        c.mapRegion stramDirectStart (direct_end - stramDirectStart) .lowram t
      else t
    else t
  if s.decoded < stRamSize then c.mapRegion s.decoded (stRamSize - s.decoded) .dummy t else t

def mapStRam (t : BankTable) : BankTable :=
  let t := c.mapRegion 0 stRamSize .stram t
  let t :=
    if c.stram_direct then
      c.mapRegion stramDirectStart (stramDirectEnd - stramDirectStart) .lowram t
    else t
  let t := match c.stramAlias with
    | some s => c.applyBanks s t
    | none => t
  if stRamSize < c.stramTop then
    c.mapRegion stRamSize (c.stramTop - stRamSize) .lowram t
  else t

def mapVideo (t : BankTable) : BankTable :=
  let t := match c.et4k with
    | some d =>
        c.mapRegion d.ioBase vgaIoSize .vgaIo
          (c.mapRegion d.vramBase vramSize .vgaVram (c.mapRegion d.guardBase guardSize .guard t))
    | none => t
  let t := c.mapRegion fvdiFbBase fvdiFbMaxBytes .fvdi t
  if c.psvidelMapped then
    c.mapRegion psvSvregBase psvSvregSize .psvreg
      (c.mapRegion psvVramBase psvVramSize .psvram (c.mapRegion psvLoBase psvLoSize .psvlo t))
  else t

def mapRom (t : BankTable) : BankTable :=
  let t := c.mapRegion c.rom_start c.rom_size .rom t
  if c.cartridge then c.mapRegion 0x00FA0000 0x20000 .rom t else t

def mapIo (t : BankTable) : BankTable :=
  let t := c.mapRegion 0x00FF0000 0x10000 .hw t
  let t := c.mapRegion 0xFFFF0000 0x10000 .hw t
  let t := c.mapRegion 0x00F00000 0x00100 .ide t
  let t := c.mapRegion 0xFFF00000 0x00100 .ide t
  if c.tt_ram_available then c.mapRegion ttRamBase c.tt_ram_size .ttram t else t

def memBanks : BankTable :=
  c.mapIo (c.mapRom (c.mapVideo (c.mapStRam (c.mapRegion 0 guestReserve .dummy fun _ => .dummy))))

/-!
## Where banks can lie

A table entry is either the region's own bank or what was there before, so what
is known of every bank's place carries over from region to region.
-/

theorem mapRegion_cases (start len page : Nat) (b : Bank) (t : BankTable) :
    (c.mapRegion start len b t page = b ∧
      start / 0x10000 ≤ c.imagePage start len page ∧
      c.imagePage start len page < start / 0x10000 + (len + 0xFFFF) / 0x10000) ∨
    c.mapRegion start len b t page = t page := by
  unfold mapRegion
  split
  · next h => exact Or.inl ⟨rfl, h.1, h.2⟩
  · exact Or.inr rfl

def Page (page : Nat) : Prop := c.addr24 = true -> page < 256

theorem imagePage_eq {start len page : Nat} (h : c.Page page) :
    c.imagePage start len page = page := by
  unfold imagePage
  split
  · next hmirror => exact Nat.mod_eq_of_lt (h hmirror.1)
  · rfl

/-- The pages a bank may be found at: RAM lies below the end of the TT-RAM
reserve, the guard below the card's memory, the 32-bit windows at their own
places. -/
def Home : Bank -> Nat -> Prop
  | .lowram, page => page < 0x1100
  | .stram, page => page < 0x40
  | .ttram, page => 0x100 ≤ page ∧ page < 0x1100
  | .guard, page => exists d, c.et4k = some d ∧ d.guardBase / 0x10000 ≤ page ∧
      page < d.vramBase / 0x10000
  | .fvdi, page => 0x2000 ≤ page ∧ page < 0x2100
  | .psvlo, page => c.psvidelMapped = true ∧ 0xA000 ≤ page ∧ page < 0xA100
  | .psvram, page => c.psvidelMapped = true ∧ 0xA100 ≤ page ∧ page < 0xA800
  | _, _ => True

def Placed (t : BankTable) : Prop := forall page, c.Page page -> c.Home (t page) page

theorem Placed.mapRegion {start len : Nat} {b : Bank} {t : BankTable} (ht : c.Placed t)
    (hb : forall page, start / 0x10000 ≤ page ->
      page < start / 0x10000 + (len + 0xFFFF) / 0x10000 -> c.Home b page) :
    c.Placed (c.mapRegion start len b t) := by
  intro page hpage
  rcases c.mapRegion_cases start len page b t with
    ⟨heq, hlo, hhi⟩ | heq
  · rw [c.imagePage_eq hpage] at hlo hhi
    rw [heq]
    exact hb page hlo hhi
  · rw [heq]
    exact ht page hpage

theorem Placed.mapRegion_free {b : Bank} {t : BankTable} (ht : c.Placed t) (start len : Nat)
    (hb : forall page, c.Home b page) : c.Placed (c.mapRegion start len b t) :=
  ht.mapRegion c fun page _ _ => hb page

variable {t : BankTable}

theorem placed_stram (ht : c.Placed t) :
    c.Placed (c.mapRegion 0 stRamSize .stram t) := by
  apply ht.mapRegion
  intro page _ hhi
  exact hhi

theorem placed_lowram {start len : Nat} {t : BankTable} (ht : c.Placed t)
    (hend : start + len ≤ 0x01000000) : c.Placed (c.mapRegion start len .lowram t) := by
  apply ht.mapRegion
  intro page _ hhi
  have hpage : page < 0x1100 := by lia
  exact hpage

theorem stramTop_le : c.stramTop ≤ 0x00E00000 := by
  unfold stramTop stRamSize
  split <;> lia

theorem placed_applyBanks {s : StramAlias} {t : BankTable} (ht : c.Placed t) :
    c.Placed (c.applyBanks s t) := by
  have hflat : c.Placed (c.mapRegion 0 stRamSize .stram t) :=
    c.placed_stram ht
  unfold applyBanks
  dsimp only
  generalize hend :
    (if s.decoded < stRamSize then
      if stramDirectStart + stramDirectTopReserve < s.decoded then
        s.decoded - stramDirectTopReserve
      else stramDirectStart
    else stramDirectEnd) = direct_end
  have hle : direct_end ≤ stRamSize := by
    rw [← hend]
    unfold stRamSize stramDirectStart stramDirectTopReserve stramDirectEnd at *
    split
    · split <;> lia
    · decide
  have hwindow : c.Placed
      (if c.stram_direct && !s.foldHook then
        if stramDirectStart < direct_end then
          c.mapRegion stramDirectStart (direct_end - stramDirectStart) .lowram
            (c.mapRegion 0 stRamSize .stram t)
        else c.mapRegion 0 stRamSize .stram t
      else c.mapRegion 0 stRamSize .stram t) := by
    split
    · split
      · exact c.placed_lowram hflat
          (by unfold stRamSize stramDirectStart at *; lia)
      · exact hflat
    · exact hflat
  split
  · exact hwindow.mapRegion c fun _ _ _ => trivial
  · exact hwindow

theorem placed_mapStRam (ht : c.Placed t) : c.Placed (c.mapStRam t) := by
  have htop := c.stramTop_le
  have hflat : c.Placed (c.mapRegion 0 stRamSize .stram t) :=
    c.placed_stram ht
  have hdirect : c.Placed
      (if c.stram_direct then
        c.mapRegion stramDirectStart (stramDirectEnd - stramDirectStart) .lowram
          (c.mapRegion 0 stRamSize .stram t)
      else c.mapRegion 0 stRamSize .stram t) := by
    split
    · exact c.placed_lowram hflat (by decide)
    · exact hflat
  unfold mapStRam
  dsimp only
  generalize
    (if c.stram_direct then
      c.mapRegion stramDirectStart (stramDirectEnd - stramDirectStart) .lowram
        (c.mapRegion 0 stRamSize .stram t)
    else c.mapRegion 0 stRamSize .stram t) = t' at hdirect
  have halias : c.Placed (match c.stramAlias with
      | some s => c.applyBanks s t'
      | none => t') := by
    cases hs : c.stramAlias with
    | none => exact hdirect
    | some s => exact c.placed_applyBanks hdirect
  generalize (match c.stramAlias with
      | some s => c.applyBanks s t'
      | none => t') = t'' at halias
  split
  · exact c.placed_lowram halias (by unfold stRamSize at *; lia)
  · exact halias

theorem placed_mapVideo (ht : c.Placed t) : c.Placed (c.mapVideo t) := by
  have hcard : c.Placed (match c.et4k with
      | some d =>
          c.mapRegion d.ioBase vgaIoSize .vgaIo
            (c.mapRegion d.vramBase vramSize .vgaVram
              (c.mapRegion d.guardBase guardSize .guard t))
      | none => t) := by
    cases hd : c.et4k with
    | none => exact ht
    | some d =>
        have hguard : c.Placed (c.mapRegion d.guardBase guardSize .guard t) := by
          apply ht.mapRegion
          intro page hlo hhi
          have hend : d.guardBase / 0x10000 + (guardSize + 0xFFFF) / 0x10000 =
              d.vramBase / 0x10000 := by
            cases d <;> rfl
          exact ⟨d, hd, hlo, by rw [← hend]; exact hhi⟩
        have hvram : c.Placed (c.mapRegion d.vramBase vramSize .vgaVram
            (c.mapRegion d.guardBase guardSize .guard t)) :=
          hguard.mapRegion c fun _ _ _ => trivial
        exact hvram.mapRegion c fun _ _ _ => trivial
  unfold mapVideo
  dsimp only
  generalize (match c.et4k with
      | some d =>
          c.mapRegion d.ioBase vgaIoSize .vgaIo
            (c.mapRegion d.vramBase vramSize .vgaVram
              (c.mapRegion d.guardBase guardSize .guard t))
      | none => t) = t' at hcard
  have hfvdi : c.Placed (c.mapRegion fvdiFbBase fvdiFbMaxBytes .fvdi t') := by
    apply hcard.mapRegion
    intro page hlo hhi
    exact ⟨hlo, hhi⟩
  split
  · next hpsv =>
    have hlow : c.Placed (c.mapRegion psvLoBase psvLoSize .psvlo
        (c.mapRegion fvdiFbBase fvdiFbMaxBytes .fvdi t')) := by
      apply hfvdi.mapRegion
      intro page hlo hhi
      exact ⟨hpsv, hlo, hhi⟩
    have hvram : c.Placed (c.mapRegion psvVramBase psvVramSize .psvram
        (c.mapRegion psvLoBase psvLoSize .psvlo
          (c.mapRegion fvdiFbBase fvdiFbMaxBytes .fvdi t'))) := by
      apply hlow.mapRegion
      intro page hlo hhi
      exact ⟨hpsv, hlo, hhi⟩
    exact hvram.mapRegion c fun _ _ _ => trivial
  · exact hfvdi

theorem placed_mapRom (ht : c.Placed t) : c.Placed (c.mapRom t) := by
  have hrom : c.Placed (c.mapRegion c.rom_start c.rom_size .rom t) :=
    ht.mapRegion c fun _ _ _ => trivial
  unfold mapRom
  dsimp only
  split
  · exact hrom.mapRegion c fun _ _ _ => trivial
  · exact hrom

theorem placed_mapIo (ht : c.Placed t) : c.Placed (c.mapIo t) := by
  have hhw : c.Placed (c.mapRegion 0x00FF0000 0x10000 .hw t) :=
    ht.mapRegion c fun _ _ _ => trivial
  have hhigh := hhw.mapRegion_free c 0xFFFF0000 0x10000 (b := .hw) fun _ => trivial
  have hide := hhigh.mapRegion_free c 0x00F00000 0x00100 (b := .ide) fun _ => trivial
  have hall := hide.mapRegion_free c 0xFFF00000 0x00100 (b := .ide) fun _ => trivial
  unfold mapIo
  dsimp only
  split
  · apply hall.mapRegion
    intro page hlo hhi
    have hsize := c.tt_ram_bound
    have htop : (c.tt_ram_size + 0xFFFF) / 0x10000 ≤ 0x1000 := by
      unfold ttRamSize at hsize
      lia
    unfold ttRamBase at hhi
    exact ⟨hlo, lt_of_lt_of_le hhi (by lia)⟩
  · exact hall

theorem placed_memBanks : c.Placed c.memBanks := by
  have hempty : c.Placed fun _ => .dummy := fun _ _ => trivial
  have hdummy : c.Placed (c.mapRegion 0 guestReserve .dummy fun _ => .dummy) :=
    hempty.mapRegion c fun _ _ _ => trivial
  exact c.placed_mapIo (c.placed_mapRom (c.placed_mapVideo (c.placed_mapStRam hdummy)))

theorem memBanks_hw : c.memBanks 0xFF = .hw := by
  have hout : forall {start len : Nat} {b : Bank} {t : BankTable},
      0xFF < start / 0x10000 ∨ start / 0x10000 + (len + 0xFFFF) / 0x10000 ≤ 0xFF ->
      c.mapRegion start len b t 0xFF = t 0xFF := by
    intro start len b t h
    have hpage : c.imagePage start len 0xFF = 0xFF := c.imagePage_eq fun _ => by decide
    unfold mapRegion
    rw [hpage, if_neg (by lia)]
  have hhw : forall t : BankTable, c.mapRegion 0x00FF0000 0x10000 .hw t 0xFF = .hw := by
    intro t
    have hpage : c.imagePage 0x00FF0000 0x10000 0xFF = 0xFF := c.imagePage_eq fun _ => by decide
    unfold mapRegion
    rw [hpage, if_pos (by decide)]
  unfold memBanks mapIo
  split
  · rw [hout (Or.inl (by decide)), hout (Or.inl (by decide)), hout (Or.inr (by decide)),
      hout (Or.inl (by decide)), hhw]
  · rw [hout (Or.inl (by decide)), hout (Or.inr (by decide)), hout (Or.inl (by decide)), hhw]

end JitMachine
end Natmem
end PistormAtari
