import PistormAtari.Natmem.BankTable

/-!
# The banks of a small board

Every write to the memory configuration register lays the banks out anew.  The page tables
repeat a chip that is smaller than its bank; on a plain ST the accessors drop the row and column
bits that the chip does not decode.
-/

namespace PistormAtari
namespace Natmem

def stramAliasChunk : Nat := 0x20000

/-- The banks, the register, the flag of the accessors, and the place in the backing file of each
chunk of the page tables. -/
structure StramMmu where
  banks : StramAlias
  memcfg : BitVec 8
  foldHook : Bool
  pages : Nat -> Nat

def stramAliasLayout (s : StramAlias) (chunk : Nat) : Nat := s.layout (stramAliasChunk * chunk)

/-- The state that `stram_alias_init` leaves, at the boot value of the register. -/
def StramMmu.start (s : StramAlias) : StramMmu := ⟨s, 0x0A, s.foldHook, stramAliasLayout s⟩

def stramAliasRecfg (memcfg : BitVec 8) (m : StramMmu) : StramMmu :=
  if memcfg = m.memcfg then m
  else
    let banks := { m.banks with
      cfgb0 := stramBankTab ((memcfg >>> 2) &&& 3).toNat
      cfgb1 := stramBankTab (memcfg &&& 3).toNat }
    ⟨banks, memcfg, banks.foldHook, stramAliasLayout banks⟩

structure GuestWrite where
  a : BitVec 32
  v : BitVec 32
  size : Nat

def stramMemcfgSnoop (m : StramMmu) (w : GuestWrite) : StramMmu :=
  if w.size = 1 ∧ w.a = 0x00FF8001 then stramAliasRecfg (w.v.setWidth 8) m
  else if w.size = 2 ∧ w.a = 0x00FF8000 then stramAliasRecfg (w.v.setWidth 8) m
  else if w.size = 4 ∧ w.a = 0x00FF8000 then stramAliasRecfg ((w.v >>> 16).setWidth 8) m
  else m

def StramMmu.run (m : StramMmu) (ws : List GuestWrite) : StramMmu := ws.foldl stramMemcfgSnoop m

/-!
## Sizes
-/

def IsBankSize (n : Nat) : Prop := n = 0x20000 ∨ n = 0x80000 ∨ n = 0x200000

theorem stramBankTab_size (n : Nat) : IsBankSize (stramBankTab n) := by
  unfold stramBankTab
  split
  · exact Or.inl rfl
  · exact Or.inr (Or.inl rfl)
  · exact Or.inr (Or.inr rfl)

/-- The banks have the sizes that the register selects, and the flag and the page tables are
those of the banks. -/
structure StramMmu.Laid (m : StramMmu) : Prop where
  act0 : IsBankSize m.banks.act0
  act1 : m.banks.act1 = 0 ∨ IsBankSize m.banks.act1
  cfgb0 : IsBankSize m.banks.cfgb0
  cfgb1 : IsBankSize m.banks.cfgb1
  hook : m.foldHook = m.banks.foldHook
  pages : m.pages = stramAliasLayout m.banks

theorem start_laid {want phys0 phys1 : Nat} {ste : Bool} {s : StramAlias}
    (h : stramAliasInit want phys0 phys1 ste = some s) : (StramMmu.start s).Laid := by
  unfold stramAliasInit at h
  split at h
  · cases h
  · split at h
    · cases h
    · dsimp only at h
      split at h
      · cases h
      · rename_i b hfind
        split at h
        · cases h
        · injection h with hbanks
          subst hbanks
          have hmem : b ∈ stramCombos := List.mem_of_find?_eq_some hfind
          have hsizes : IsBankSize b.1 ∧ (b.2 = 0 ∨ IsBankSize b.2) := by
            unfold stramCombos at hmem
            unfold IsBankSize
            simp only [List.mem_cons, List.not_mem_nil, or_false] at hmem
            rcases hmem with rfl | rfl | rfl | rfl | rfl | rfl <;> decide
          exact ⟨hsizes.1, hsizes.2, stramBankTab_size 2, stramBankTab_size 2, rfl, rfl⟩

theorem recfg_laid {m : StramMmu} (memcfg : BitVec 8) (h : m.Laid) :
    (stramAliasRecfg memcfg m).Laid := by
  unfold stramAliasRecfg
  split
  · exact h
  · exact ⟨h.act0, h.act1, stramBankTab_size _, stramBankTab_size _, rfl, rfl⟩

theorem snoop_laid {m : StramMmu} (w : GuestWrite) (h : m.Laid) : (stramMemcfgSnoop m w).Laid := by
  unfold stramMemcfgSnoop
  split
  · exact recfg_laid _ h
  · split
    · exact recfg_laid _ h
    · split
      · exact recfg_laid _ h
      · exact h

theorem run_laid {m : StramMmu} (ws : List GuestWrite) (h : m.Laid) : (m.run ws).Laid := by
  induction ws generalizing m with
  | nil => exact h
  | cons w ws ih => exact ih (snoop_laid w h)

/-!
## Rows and columns
-/

namespace StramAlias

def keptBits (cfg act : Nat) : Nat := min (colbits cfg) (colbits act)

variable {o cfg act : Nat}

theorem fold_digits (hcfg : IsBankSize cfg) (hact : IsBankSize act) (ho : o < cfg) :
    fold o cfg act =
      (o / 2 / 2 ^ colbits cfg % 2 ^ keptBits cfg act * 2 ^ keptBits cfg act +
        o / 2 % 2 ^ colbits cfg % 2 ^ keptBits cfg act) * 2 + o % 2 := by
  unfold fold keptBits
  rcases hcfg with rfl | rfl | rfl <;> rcases hact with rfl | rfl | rfl <;>
    norm_num [colbits] <;> omega

theorem mod_digits {o act : Nat} (hact : IsBankSize act) :
    o % act =
      (o / 2 / 2 ^ colbits act % 2 ^ colbits act * 2 ^ colbits act + o / 2 % 2 ^ colbits act) * 2 +
        o % 2 := by
  rcases hact with rfl | rfl | rfl <;> norm_num [colbits] <;> omega

theorem digits_inj {n r c l r' c' l' : Nat} (hc : c < n) (hc' : c' < n) (hl : l < 2)
    (hl' : l' < 2) (h : (r * n + c) * 2 + l = (r' * n + c') * 2 + l') : r = r' ∧ c = c' ∧ l = l' := by
  have hword : r * n + c = r' * n + c' := by omega
  have hpos : 0 < n := Nat.lt_of_le_of_lt (Nat.zero_le c) hc
  have hrow : r = r' := by
    have hdiv := congrArg (fun w => w / n) hword
    rw [Nat.mul_comm r, Nat.mul_comm r', Nat.mul_add_div hpos, Nat.mul_add_div hpos,
      Nat.div_eq_of_lt hc, Nat.div_eq_of_lt hc'] at hdiv
    omega
  subst hrow
  exact ⟨rfl, by omega, by omega⟩

theorem fold_lt (hcfg : IsBankSize cfg) (hact : IsBankSize act) (ho : o < cfg) :
    fold o cfg act < act := by
  unfold fold
  rcases hcfg with rfl | rfl | rfl <;> rcases hact with rfl | rfl | rfl <;>
    norm_num [colbits] <;> omega

/-- The plain ST's rows, of a bank that is larger than its chip, are the STE's. -/
def SameRows (o cfg act : Nat) : Prop :=
  cfg ≤ act ∨
    o / 2 / 2 ^ colbits cfg % 2 ^ colbits act = o / 2 / 2 ^ colbits act % 2 ^ colbits act

theorem fold_eq_mod_iff (hcfg : IsBankSize cfg) (hact : IsBankSize act)
    (ho : o < cfg) : fold o cfg act = o % act ↔ SameRows o cfg act := by
  unfold fold SameRows
  rcases hcfg with rfl | rfl | rfl <;> rcases hact with rfl | rfl | rfl <;>
    norm_num [colbits] <;> omega

def InRow (o cfg act : Nat) : Prop :=
  cfg ≤ act ∨ o % 2 = 1 ∨ o / 2 % 2 ^ colbits act ≠ 0 ∨
    (o / 2 % 2 ^ colbits cfg = 0 ∧ o / 2 / 2 ^ colbits cfg % 2 ^ colbits act ≠ 0)

theorem word_pred_iff {m n w : Nat}
    (h : (m = 1024 ∧ n = 512) ∨ (m = 1024 ∧ n = 256) ∨ (m = 512 ∧ n = 256)) (hw : 0 < w) :
    (w - 1) / m % n * n + (w - 1) % m % n + 1 = w / m % n * n + w % m % n ↔
      w % n ≠ 0 ∨ (w % m = 0 ∧ w / m % n ≠ 0) := by
  have hcols : forall v, v % m % n = v % n := by
    intro v
    rcases h with ⟨rfl, rfl⟩ | ⟨rfl, rfl⟩ | ⟨rfl, rfl⟩ <;> omega
  rw [hcols, hcols]
  by_cases hcol : w % n = 0
  · have hlast : (w - 1) % n = n - 1 := by
      rcases h with ⟨rfl, rfl⟩ | ⟨rfl, rfl⟩ | ⟨rfl, rfl⟩ <;> omega
    by_cases hrow : w % m = 0
    · have hdiv : (w - 1) / m = w / m - 1 ∧ 0 < w / m := by
        rcases h with ⟨rfl, rfl⟩ | ⟨rfl, rfl⟩ | ⟨rfl, rfl⟩ <;> omega
      rw [hlast, hdiv.1, hcol, hrow]
      obtain ⟨_, hpos⟩ := hdiv
      generalize w / m = r at hpos
      rcases h with ⟨rfl, rfl⟩ | ⟨rfl, rfl⟩ | ⟨rfl, rfl⟩ <;> omega
    · have hdiv : (w - 1) / m = w / m := by
        rcases h with ⟨rfl, rfl⟩ | ⟨rfl, rfl⟩ | ⟨rfl, rfl⟩ <;> omega
      rw [hlast, hdiv, hcol]
      generalize w / m % n = r
      rcases h with ⟨rfl, rfl⟩ | ⟨rfl, rfl⟩ | ⟨rfl, rfl⟩ <;> omega
  · have hdiv : (w - 1) / m = w / m ∧ (w - 1) % n + 1 = w % n := by
      rcases h with ⟨rfl, rfl⟩ | ⟨rfl, rfl⟩ | ⟨rfl, rfl⟩ <;> omega
    rw [hdiv.1, Nat.add_assoc, hdiv.2]
    exact ⟨fun _ => Or.inl hcol, fun _ => rfl⟩

theorem fold_pred_iff (hcfg : IsBankSize cfg) (hact : IsBankSize act)
    (hpos : 0 < o) : fold (o - 1) cfg act + 1 = fold o cfg act ↔ InRow o cfg act := by
  unfold fold InRow
  by_cases hfits : cfg ≤ act
  · rw [if_pos hfits, if_pos hfits]
    exact ⟨fun _ => Or.inl hfits, fun _ => by omega⟩
  · rw [if_neg hfits, if_neg hfits, or_iff_right hfits]
    dsimp only
    rcases Nat.mod_two_eq_zero_or_one o with heven | hodd
    · have hword : (o - 1) / 2 = o / 2 - 1 := by omega
      have hlow : (o - 1) % 2 = 1 := by omega
      have hsizes : (2 ^ colbits cfg = 1024 ∧ 2 ^ colbits act = 512) ∨
          (2 ^ colbits cfg = 1024 ∧ 2 ^ colbits act = 256) ∨
          (2 ^ colbits cfg = 512 ∧ 2 ^ colbits act = 256) := by
        rcases hcfg with rfl | rfl | rfl <;> rcases hact with rfl | rfl | rfl <;>
          revert hfits <;> decide
      rw [hword, hlow, heven, ← word_pred_iff hsizes (by omega : 0 < o / 2)]
      constructor
      · intro heq
        exact Or.inr (by omega)
      · intro heq
        rcases heq with habs | heq <;> omega
    · have hword : (o - 1) / 2 = o / 2 := by omega
      have hlow : (o - 1) % 2 = 0 := by omega
      rw [hword, hlow, hodd]
      exact ⟨fun _ => Or.inl rfl, fun _ => rfl⟩

end StramAlias

end Natmem
end PistormAtari
