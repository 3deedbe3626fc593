import Mathlib

/-!
# The memory banks of the STBOX

The memory controller of an ST knows two banks, each of a configured and of an installed
size, and addresses wrap in a bank that is smaller than configured.  Once the configured
sizes are the installed ones {lit}`ram_map` takes a flat path.  It is the same map, and it
stays inside the RAM for both bytes of a word.
-/

namespace PistormAtari
namespace Stbox

inductive RamSize where
  | k512
  | m1
  | m2
  | m4
deriving DecidableEq, Repr

def RamSize.bytes : RamSize -> Nat
  | .k512 => 512 * 1024
  | .m1 => 1024 * 1024
  | .m2 => 2048 * 1024
  | .m4 => 4096 * 1024

/-- The banks: what is installed, what is configured, and whether the flat path is on. -/
structure Mmu where
  ramSize : Nat
  act0 : Nat
  act1 : Nat
  cfg0 : Nat
  cfg1 : Nat
  flat : Bool
deriving DecidableEq, Repr

def bankSz (i : BitVec 8) : Nat :=
  [128 * 1024, 512 * 1024, 2048 * 1024, 2048 * 1024].getD i.toNat 0

/-- The installed banks that `stbox_core_setup` finds for a size. -/
def installed (ramSize : Nat) : Nat × Nat :=
  if 4096 * 1024 ≤ ramSize then (2048 * 1024, 2048 * 1024)
  else if 2048 * 1024 ≤ ramSize then (2048 * 1024, 0)
  else if 1024 * 1024 ≤ ramSize then (512 * 1024, 512 * 1024)
  else (512 * 1024, 0)

def ramRecfg (ramSize : Nat) (memcfg : BitVec 8) : Mmu :=
  let act := installed ramSize
  let cfg0 := bankSz ((memcfg >>> 2) &&& 3)
  let cfg1 := bankSz (memcfg &&& 3)
  { ramSize := ramSize
    act0 := act.1
    act1 := act.2
    cfg0 := cfg0
    cfg1 := cfg1
    flat := decide (cfg0 = act.1 ∧ (cfg1 = act.2 ∨ act.2 = 0)) }

/-- What `ram_map` returns: the offset of a byte of RAM, open bus in the configured range, or
nothing at all. -/
inductive Mapped where
  | backed (offset : Nat)
  | openBus
  | beyond
deriving DecidableEq, Repr

def bankedMap (m : Mmu) (a : Nat) : Mapped :=
  if a < m.cfg0 then
    if m.act0 = 0 then .openBus else .backed (a &&& (m.act0 - 1))
  else if a - m.cfg0 < m.cfg1 then
    if m.act1 = 0 then .openBus else .backed (m.act0 + ((a - m.cfg0) &&& (m.act1 - 1)))
  else .beyond

def ramMap (m : Mmu) (a : Nat) : Mapped :=
  if m.flat then
    if a < m.ramSize then .backed a
    else if a < m.cfg0 + m.cfg1 then .openBus
    else .beyond
  else bankedMap m a

/-!
## Accesses
-/

/-- The RAM part of `stbox_bus_r8`, by either map: none where the access goes elsewhere. -/
def ramR8 (map : Nat -> Mapped) (ram : Nat -> BitVec 8) (a : Nat) : Option (BitVec 8) :=
  if a < 8 then none
  else if a < 0x400000 then
    match map a with
    | .backed o => some (ram o)
    | .openBus => some 0xFF
    | .beyond => none
  else none

/-- The RAM part of `stbox_bus_r16`.  The CPU core raises an address error for a word at an
odd address and does not come here. -/
def ramR16 (map : Nat -> Mapped) (ram : Nat -> BitVec 8) (a : Nat) :
    Option (BitVec 8 × BitVec 8) :=
  if a % 2 = 1 then none
  else if a < 8 then none
  else if a + 1 < 0x400000 then
    match map a with
    | .backed o => some (ram o, ram (o + 1))
    | .openBus => some (0xFF, 0xFF)
    | .beyond => none
  else none

def ramW8 (map : Nat -> Mapped) (ram : Nat -> BitVec 8) (a : Nat) (v : BitVec 8) :
    Nat -> BitVec 8 :=
  if a < 0x400000 then
    match map a with
    | .backed o => if 8 ≤ a then Function.update ram o v else ram
    | _ => ram
  else ram

def ramW16 (map : Nat -> Mapped) (ram : Nat -> BitVec 8) (a : Nat) (high low : BitVec 8) :
    Nat -> BitVec 8 :=
  if a % 2 = 1 then ram
  else if a + 1 < 0x400000 then
    match map a with
    | .backed o => if 8 ≤ a then Function.update (Function.update ram o high) (o + 1) low else ram
    | _ => ram
  else ram

def wordByBytes (map : Nat -> Mapped) (ram : Nat -> BitVec 8) (a : Nat) :
    Option (BitVec 8 × BitVec 8) :=
  if a % 2 = 1 then none
  else (ramR8 map ram a).bind fun high => (ramR8 map ram (a + 1)).map fun low => (high, low)

def writeByBytes (map : Nat -> Mapped) (ram : Nat -> BitVec 8) (a : Nat) (high low : BitVec 8) :
    Nat -> BitVec 8 :=
  if a % 2 = 1 then ram else ramW8 map (ramW8 map ram a high) (a + 1) low

/-- At an address the flat path is the banked map, and the bytes of an access are inside the
RAM and are those of the banked map. -/
structure FlatAgrees (m : Mmu) (a : Nat) : Prop where
  same : ramMap m a = bankedMap m a
  inRam : forall o, ramMap m a = .backed o -> o < m.ramSize
  second : forall o, a % 2 = 0 -> ramMap m a = .backed o -> o + 1 < m.ramSize
  readByte : forall ram, ramR8 (ramMap m) ram a = ramR8 (bankedMap m) ram a
  readWord : forall ram, ramR16 (ramMap m) ram a = wordByBytes (bankedMap m) ram a
  writeByte : forall ram v, ramW8 (ramMap m) ram a v = ramW8 (bankedMap m) ram a v
  writeWord : forall ram high low,
    ramW16 (ramMap m) ram a high low = writeByBytes (bankedMap m) ram a high low

/-!
## The banks of a machine
-/

structure Banks (m : Mmu) : Prop where
  act0 : exists k, m.act0 = 2 ^ (k + 1)
  act1 : m.act1 = 0 ∨ m.act1 = m.act0
  ramSize : m.ramSize = m.act0 + m.act1
  cfg0 : m.cfg0 % 2 = 0
  cfg1 : m.cfg1 % 2 = 0
  flat : m.flat = true -> m.cfg0 = m.act0 ∧ (m.cfg1 = m.act1 ∨ m.act1 = 0)

theorem bankSz_even (i : BitVec 8) : bankSz i % 2 = 0 := by
  unfold bankSz
  rcases i.toNat with _ | _ | _ | _ | n
  · rfl
  · rfl
  · rfl
  · rfl
  · rfl

theorem installed_bytes (size : RamSize) :
    (exists k, (installed size.bytes).1 = 2 ^ (k + 1)) ∧
      ((installed size.bytes).2 = 0 ∨ (installed size.bytes).2 = (installed size.bytes).1) ∧
      size.bytes = (installed size.bytes).1 + (installed size.bytes).2 := by
  cases size with
  | k512 => exact ⟨⟨18, by norm_num [installed, RamSize.bytes]⟩, by norm_num [installed, RamSize.bytes]⟩
  | m1 => exact ⟨⟨18, by norm_num [installed, RamSize.bytes]⟩, by norm_num [installed, RamSize.bytes]⟩
  | m2 => exact ⟨⟨20, by norm_num [installed, RamSize.bytes]⟩, by norm_num [installed, RamSize.bytes]⟩
  | m4 => exact ⟨⟨20, by norm_num [installed, RamSize.bytes]⟩, by norm_num [installed, RamSize.bytes]⟩

theorem banks_ramRecfg (size : RamSize) (memcfg : BitVec 8) :
    Banks (ramRecfg size.bytes memcfg) := by
  rcases installed_bytes size with ⟨hact0, hact1, hsum⟩
  exact ⟨hact0, hact1, hsum, bankSz_even _, bankSz_even _, fun hon => of_decide_eq_true hon⟩

def Mapped.next : Mapped -> Mapped
  | .backed o => .backed (o + 1)
  | .openBus => .openBus
  | .beyond => .beyond

section
variable {m : Mmu} {a : Nat}

theorem and_size_pred {n k : Nat} : n &&& (2 ^ k - 1) = n % 2 ^ k :=
  Nat.and_two_pow_sub_one_eq_mod n k

theorem Banks.bankedMap_eq (h : Banks m) (a : Nat) :
    bankedMap m a =
      if a < m.cfg0 then .backed (a % m.act0)
      else if a - m.cfg0 < m.cfg1 then
        if m.act1 = 0 then .openBus else .backed (m.act0 + (a - m.cfg0) % m.act1)
      else .beyond := by
  rcases h.act0 with ⟨k, hk⟩
  have hpos : m.act0 ≠ 0 := by
    rw [hk]
    exact Nat.ne_of_gt (Nat.two_pow_pos _)
  unfold bankedMap
  rw [if_neg hpos, hk, and_size_pred]
  rcases h.act1 with hzero | hsame
  · rw [if_pos hzero, if_pos hzero]
  · rw [hsame, hk, and_size_pred]

theorem Banks.same (h : Banks m) (a : Nat) : ramMap m a = bankedMap m a := by
  unfold ramMap
  split
  · next hon =>
    rcases h.flat hon with ⟨hcfg0, hcfg1⟩
    rw [h.bankedMap_eq, hcfg0, h.ramSize]
    by_cases hfirst : a < m.act0
    · rw [if_pos hfirst, if_pos (Nat.lt_add_right _ hfirst), Nat.mod_eq_of_lt hfirst]
    · rw [if_neg hfirst]
      by_cases hnone : m.act1 = 0
      · rw [if_pos hnone, hnone, Nat.add_zero, if_neg hfirst]
        by_cases hbank : a - m.act0 < m.cfg1
        · rw [if_pos hbank, if_pos (by lia)]
        · rw [if_neg hbank, if_neg (by lia)]
      · rw [if_neg hnone, hcfg1.resolve_right hnone]
        by_cases hbank : a - m.act0 < m.act1
        · rw [if_pos hbank, if_pos (by lia), Nat.mod_eq_of_lt hbank]
          congr 1
          lia
        · rw [if_neg hbank, if_neg (by lia), if_neg (by lia)]
  · rfl

theorem Banks.act1_even (h : Banks m) : m.act0 % 2 = 0 ∧ m.act1 % 2 = 0 := by
  rcases h.act0 with ⟨k, hk⟩
  have heven : m.act0 % 2 = 0 := by
    rw [hk, Nat.pow_succ, Nat.mul_mod_left]
  rcases h.act1 with hzero | hsame
  · exact ⟨heven, by rw [hzero]⟩
  · exact ⟨heven, by rw [hsame, heven]⟩

theorem Banks.offset_lt (h : Banks m) {o : Nat} (ho : bankedMap m a = .backed o) :
    o < m.ramSize := by
  rcases h.act0 with ⟨k, hk⟩
  have hpos : 0 < m.act0 := by
    rw [hk]
    exact Nat.two_pow_pos _
  rw [h.bankedMap_eq] at ho
  rw [h.ramSize]
  split at ho
  · cases ho
    exact Nat.lt_add_right _ (Nat.mod_lt _ hpos)
  · split at ho
    · split at ho
      · cases ho
      · next hsome =>
        cases ho
        exact Nat.add_lt_add_left (Nat.mod_lt _ (Nat.pos_of_ne_zero hsome)) _
    · cases ho

theorem succ_mod_of_even {n size : Nat} (hn : n % 2 = 0) (hsize : size % 2 = 0) (hpos : size ≠ 0) :
    (n + 1) % size = n % size + 1 := by
  have hlt : n % size < size := Nat.mod_lt _ (Nat.pos_of_ne_zero hpos)
  have heven : n % size % 2 = 0 := by
    rw [Nat.mod_mod_of_dvd _ (Nat.dvd_of_mod_eq_zero hsize), hn]
  have hroom : n % size + 1 < size := by lia
  rw [Nat.add_mod, Nat.mod_eq_of_lt (by lia : 1 < size), Nat.mod_eq_of_lt hroom]

theorem Banks.next (h : Banks m) (heven : a % 2 = 0) :
    bankedMap m (a + 1) = (bankedMap m a).next := by
  rcases h.act0 with ⟨k, hk⟩
  have hpos : m.act0 ≠ 0 := by
    rw [hk]
    exact Nat.ne_of_gt (Nat.two_pow_pos _)
  rcases h.act1_even with ⟨heven0, heven1⟩
  have hcfg0 := h.cfg0
  have hcfg1 := h.cfg1
  rw [h.bankedMap_eq, h.bankedMap_eq]
  by_cases hfirst : a < m.cfg0
  · rw [if_pos hfirst, if_pos (by lia), succ_mod_of_even heven heven0 hpos]
    rfl
  · have hshift : a + 1 - m.cfg0 = a - m.cfg0 + 1 := by lia
    rw [if_neg hfirst, if_neg (by lia), hshift]
    by_cases hbank : a - m.cfg0 < m.cfg1
    · rw [if_pos hbank, if_pos (by lia)]
      split
      · rfl
      · next hsome =>
        rw [succ_mod_of_even (by lia) heven1 hsome]
        rfl
    · rw [if_neg hbank, if_neg (by lia)]
      rfl

theorem Banks.readWord (h : Banks m) (ram : Nat -> BitVec 8) (a : Nat) :
    ramR16 (bankedMap m) ram a = wordByBytes (bankedMap m) ram a := by
  unfold ramR16 wordByBytes ramR8
  by_cases hodd : a % 2 = 1
  · rw [if_pos hodd, if_pos hodd]
  · have hnext := h.next (Nat.mod_two_ne_one.mp hodd)
    rw [if_neg hodd, if_neg hodd]
    by_cases hrom : a < 8
    · rw [if_pos hrom, if_pos hrom]
      rfl
    · rw [if_neg hrom, if_neg hrom, if_neg (by lia : ¬ a + 1 < 8)]
      by_cases hlow : a + 1 < 0x400000
      · rw [if_pos hlow, if_pos (by lia), if_pos hlow, hnext]
        cases bankedMap m a with
        | backed o => rfl
        | openBus => rfl
        | beyond => rfl
      · rw [if_neg hlow, if_neg (by lia)]
        rfl

theorem Banks.writeWord (h : Banks m) (ram : Nat -> BitVec 8) (a : Nat) (high low : BitVec 8) :
    ramW16 (bankedMap m) ram a high low = writeByBytes (bankedMap m) ram a high low := by
  unfold ramW16 writeByBytes ramW8
  by_cases hodd : a % 2 = 1
  · rw [if_pos hodd, if_pos hodd]
  · have heven : a % 2 = 0 := Nat.mod_two_ne_one.mp hodd
    have hnext := h.next heven
    rw [if_neg hodd, if_neg hodd]
    by_cases hlow : a + 1 < 0x400000
    · have hlow' : a < 0x400000 := Nat.lt_of_succ_lt hlow
      simp only [if_pos hlow, if_pos hlow']
      rw [hnext]
      cases bankedMap m a with
      | backed o =>
          dsimp only [Mapped.next]
          by_cases hrom : 8 ≤ a
          · rw [if_pos hrom, if_pos hrom, if_pos (by lia)]
          · rw [if_neg hrom, if_neg hrom, if_neg (by lia)]
      | openBus => rfl
      | beyond => rfl
    · have hlow' : ¬ a < 0x400000 := by lia
      simp only [if_neg hlow, if_neg hlow']

end

/-- For every installed size, register value and address the flat path is the banked map, for
reads and writes of bytes and words. -/
theorem flat_agrees (size : RamSize) (memcfg : BitVec 8) (a : BitVec 24) :
    FlatAgrees (ramRecfg size.bytes memcfg) a.toNat := by
  have h := banks_ramRecfg size memcfg
  generalize ramRecfg size.bytes memcfg = m at h
  generalize a.toNat = a
  have hsame : ramMap m = bankedMap m := funext h.same
  refine ⟨h.same a, ?_, ?_, ?_, ?_, ?_, ?_⟩
  · intro o ho
    rw [hsame] at ho
    exact h.offset_lt ho
  · intro o heven ho
    rw [hsame] at ho
    have hnext := h.next heven
    rw [ho] at hnext
    exact h.offset_lt hnext
  · intro ram
    rw [hsame]
  · intro ram
    rw [hsame]
    exact h.readWord ram a
  · intro ram v
    rw [hsame]
  · intro ram high low
    rw [hsame]
    exact h.writeWord ram a high low

end Stbox
end PistormAtari
