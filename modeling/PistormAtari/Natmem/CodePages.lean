import Mathlib
import PistormAtari.Natmem.BankTable

/-!
# Pages that produced compiled code

A page that a block was compiled from is marked.  Writes through the ST-RAM
handlers look their pages up; TT-RAM stores are inlined, so a marked TT-RAM page is
write-protected on the host and its first store faults.
-/

namespace PistormAtari
namespace Natmem

def pageSize : Nat := 0x1000
def ttsmcMaxFaults : Nat := 32

def pageOf (a : Nat) : Nat := a / pageSize

theorem pageOf_mono {a b : Nat} (h : a ≤ b) : pageOf a ≤ pageOf b := by
  unfold pageOf
  exact Nat.div_le_div_right h

def Touched (start n page : Nat) : Prop :=
  0 < n ∧ pageOf start ≤ page ∧ page ≤ pageOf (start + n - 1)

/-- The marks, the protected pages and their faults; `invalidated` counts the
calls of `cache_invalidate`. -/
structure CodePages where
  code_page : Nat -> Bool
  ttsmc_prot : Nat -> Bool
  ttsmc_faults : Nat -> Nat
  ttsmc_enabled : Option Bool
  invalidated : Nat

def envOff : Option (List Char) -> Bool
  | some ('0' :: _) => true
  | _ => false

def ttsmcWanted (e : Option (List Char)) : Bool := !envOff e

namespace CodePages

def fresh : CodePages where
  code_page := fun _ => false
  ttsmc_prot := fun _ => false
  ttsmc_faults := fun _ => 0
  ttsmc_enabled := none
  invalidated := 0

def cacheInvalidate (s : CodePages) : CodePages :=
  { s with invalidated := s.invalidated + 1 }

def ttsmcInit (e : Option (List Char)) (s : CodePages) : CodePages :=
  { s with ttsmc_enabled := some (s.ttsmc_enabled.getD (ttsmcWanted e)) }

def setMark (s : CodePages) (pg : Nat) : CodePages :=
  { s with code_page := Function.update s.code_page pg true }

def protect (s : CodePages) (pg : Nat) : CodePages :=
  { s with ttsmc_prot := Function.update s.ttsmc_prot pg true }

def pistormMarkCode (e : Option (List Char)) (s : CodePages) (pc : Nat) : CodePages :=
  if guestReserve ≤ pc then s
  else
    let pg := pageOf pc
    let s := s.setMark pg
    if pc < ttRamBase then s
    else
      let s := s.ttsmcInit e
      if s.ttsmc_enabled ≠ some true ∨ s.ttsmc_prot pg = true ∨
          ttsmcMaxFaults ≤ s.ttsmc_faults pg then s
      else s.protect pg

def lastAddr (addr sz : Nat) : Nat := (addr + sz + (2 ^ 32 - 1)) % 2 ^ 32

theorem lastAddr_eq {addr sz : Nat} (hsz : 0 < sz) (hend : addr + sz ≤ 2 ^ 32) :
    lastAddr addr sz = addr + sz - 1 := by
  unfold lastAddr
  rw [show addr + sz + (2 ^ 32 - 1) = addr + sz - 1 + 2 ^ 32 by lia, Nat.add_mod_right]
  exact Nat.mod_eq_of_lt (by lia)

/-- The check of a write handler: the first and the last page of the range. -/
def pistormSmc (s : CodePages) (addr sz : Nat) : CodePages :=
  if guestReserve ≤ addr then s
  else if s.code_page (pageOf addr) then s.cacheInvalidate
  else
    let last := pageOf (lastAddr addr sz)
    if last ≠ pageOf addr ∧ s.code_page last = true then s.cacheInvalidate else s

def moreFaults (n : Nat) : Nat := if n < 255 then n + 1 else n

/-- What a fault does to its page: writable again, no mark, one fault more. -/
def faulted (s : CodePages) (pg : Nat) : CodePages :=
  { s with
    ttsmc_prot := Function.update s.ttsmc_prot pg false
    code_page := Function.update s.code_page pg false
    ttsmc_faults := Function.update s.ttsmc_faults pg (moreFaults (s.ttsmc_faults pg)) }

/-- The fault handler, none when the fault is not its own and the process dies. -/
def ttsmcSigsegv (tt_ram_size : Nat) (s : CodePages) (g : Nat) : Option CodePages :=
  if ttRamBase ≤ g ∧ g < ttRamBase + tt_ram_size ∧ s.ttsmc_prot (pageOf g) = true then
    some (s.faulted (pageOf g)).cacheInvalidate
  else none

def touch (tt_ram_size : Nat) (s : CodePages) (g : Nat) : Option CodePages :=
  if s.ttsmc_prot (pageOf g) then s.ttsmcSigsegv tt_ram_size g else some s

/-- A host store of at most a page: it is executed again after each fault, until
every page it lies in lets it through. -/
def store (tt_ram_size : Nat) (s : CodePages) (a n : Nat) : Option CodePages :=
  (s.touch tt_ram_size a).bind fun s =>
    s.touch tt_ram_size (max a (pageOf (a + n - 1) * pageSize))

/-!
## The invariant of the protection
-/

def TtPage (page : Nat) : Prop := pageOf ttRamBase ≤ page

structure Ok (e : Option (List Char)) (s : CodePages) : Prop where
  table : forall page, s.code_page page = true -> page < pageOf guestReserve
  prot : forall page, s.ttsmc_prot page = true -> s.code_page page = true ∧ TtPage page
  marked : forall page, TtPage page -> s.code_page page = true ->
    s.ttsmc_faults page < ttsmcMaxFaults -> ttsmcWanted e = true -> s.ttsmc_prot page = true
  enabled : s.ttsmc_enabled = none ∨ s.ttsmc_enabled = some (ttsmcWanted e)

theorem ok_fresh (e : Option (List Char)) : fresh.Ok e where
  table := fun _ h => by cases h
  prot := fun _ h => by cases h
  marked := fun _ _ h => by cases h
  enabled := Or.inl rfl

variable {e : Option (List Char)} {s : CodePages}

theorem Ok.cacheInvalidate (h : s.Ok e) :
    s.cacheInvalidate.Ok e where
  table := h.table
  prot := h.prot
  marked := h.marked
  enabled := h.enabled

theorem Ok.pistormSmc (h : s.Ok e) (addr sz : Nat) :
    (s.pistormSmc addr sz).Ok e := by
  unfold CodePages.pistormSmc
  split
  · exact h
  · split
    · exact h.cacheInvalidate
    · dsimp only
      split
      · exact h.cacheInvalidate
      · exact h

theorem mem_setMark {pg page : Nat} :
    (s.setMark pg).code_page page = true <-> page = pg ∨ s.code_page page = true := by
  unfold setMark
  dsimp only
  rcases eq_or_ne page pg with rfl | hne
  · rw [Function.update_self]
    exact ⟨fun _ => Or.inl rfl, fun _ => rfl⟩
  · rw [Function.update_of_ne hne]
    exact ⟨Or.inr, fun h => h.resolve_left hne⟩

theorem mem_protect {pg page : Nat} :
    (s.protect pg).ttsmc_prot page = true <-> page = pg ∨ s.ttsmc_prot page = true := by
  unfold protect
  dsimp only
  rcases eq_or_ne page pg with rfl | hne
  · rw [Function.update_self]
    exact ⟨fun _ => Or.inl rfl, fun _ => rfl⟩
  · rw [Function.update_of_ne hne]
    exact ⟨Or.inr, fun h => h.resolve_left hne⟩

theorem Ok.ttsmcInit (h : s.Ok e) :
    (s.ttsmcInit e).ttsmc_enabled = some (ttsmcWanted e) := by
  unfold CodePages.ttsmcInit
  rcases h.enabled with hnone | hsome
  · rw [hnone]
    rfl
  · rw [hsome]
    rfl

theorem Ok.setMark (h : s.Ok e) {pg : Nat}
    (hin : pg < pageOf guestReserve) (hlow : ¬ TtPage pg) : (s.setMark pg).Ok e where
  table := by
    intro page hpage
    rcases mem_setMark.mp hpage with rfl | hold
    · exact hin
    · exact h.table page hold
  prot := fun page hp => ⟨mem_setMark.mpr (Or.inr (h.prot page hp).1), (h.prot page hp).2⟩
  marked := by
    intro page hpage hmark
    rcases mem_setMark.mp hmark with rfl | hold
    · exact absurd hpage hlow
    · exact h.marked page hpage hold
  enabled := h.enabled

/-- Marking a page of TT-RAM that is left unprotected, because it is protected
already, was given up, or the mechanism is off. -/
theorem Ok.setMark_skipped (h : s.Ok e) {pg : Nat} (hin : pg < pageOf guestReserve)
    (hskip : ttsmcWanted e = false ∨ s.ttsmc_prot pg = true ∨
      ttsmcMaxFaults ≤ s.ttsmc_faults pg) : ((s.setMark pg).ttsmcInit e).Ok e where
  table := by
    intro page hpage
    rcases mem_setMark.mp hpage with rfl | hold
    · exact hin
    · exact h.table page hold
  prot := fun page hp => ⟨mem_setMark.mpr (Or.inr (h.prot page hp).1), (h.prot page hp).2⟩
  marked := by
    intro page hpage hmark hfew hwant
    rcases mem_setMark.mp hmark with rfl | hold
    · rcases hskip with hoff | hprot | hmany
      · rw [hoff] at hwant
        cases hwant
      · exact hprot
      · exact absurd hfew (Nat.not_lt.mpr hmany)
    · exact h.marked page hpage hold hfew hwant
  enabled := Or.inr h.ttsmcInit

theorem Ok.setMark_protect (h : s.Ok e) {pg : Nat}
    (hin : pg < pageOf guestReserve) (htt : TtPage pg) :
    (((s.setMark pg).ttsmcInit e).protect pg).Ok e where
  table := by
    intro page hpage
    rcases mem_setMark.mp hpage with rfl | hold
    · exact hin
    · exact h.table page hold
  prot := by
    intro page hp
    rcases mem_protect.mp hp with rfl | hold
    · exact ⟨mem_setMark.mpr (Or.inl rfl), htt⟩
    · exact ⟨mem_setMark.mpr (Or.inr (h.prot page hold).1), (h.prot page hold).2⟩
  marked := by
    intro page hpage hmark hfew hwant
    rcases mem_setMark.mp hmark with rfl | hold
    · exact mem_protect.mpr (Or.inl rfl)
    · exact mem_protect.mpr (Or.inr (h.marked page hpage hold hfew hwant))
  enabled := Or.inr h.ttsmcInit

theorem Ok.pistormMarkCode (h : s.Ok e) (pc : Nat) :
    (s.pistormMarkCode e pc).Ok e := by
  unfold CodePages.pistormMarkCode
  split
  · exact h
  · next hpc =>
    have hin : pageOf pc < pageOf guestReserve := by
      unfold pageOf pageSize guestReserve ttRamBase ttRamSize at *
      lia
    dsimp only
    split
    · next hlow =>
      apply h.setMark hin
      unfold TtPage pageOf pageSize ttRamBase at *
      lia
    · next hhigh =>
      have htt : TtPage (pageOf pc) := pageOf_mono (Nat.not_lt.mp hhigh)
      split
      · next hskip =>
        apply h.setMark_skipped hin
        have hon : ((s.setMark (pageOf pc)).ttsmcInit e).ttsmc_enabled = some (ttsmcWanted e) :=
          h.ttsmcInit
        rw [hon] at hskip
        rcases hskip with hoff | hrest
        · left
          cases hwant : ttsmcWanted e with
          | false => rfl
          | true =>
              rw [hwant] at hoff
              exact absurd rfl hoff
        · exact Or.inr hrest
      · exact h.setMark_protect hin htt

/-!
## A fault and a store
-/

theorem Ok.faulted (h : s.Ok e) (pg : Nat) :
    (s.faulted pg).Ok e where
  table := by
    intro page hpage
    unfold CodePages.faulted at hpage
    dsimp only at hpage
    rcases eq_or_ne page pg with rfl | hne
    · rw [Function.update_self] at hpage
      cases hpage
    · rw [Function.update_of_ne hne] at hpage
      exact h.table page hpage
  prot := by
    intro page hpage
    unfold CodePages.faulted at hpage ⊢
    dsimp only at hpage ⊢
    rcases eq_or_ne page pg with rfl | hne
    · rw [Function.update_self] at hpage
      cases hpage
    · rw [Function.update_of_ne hne] at hpage ⊢
      exact h.prot page hpage
  marked := by
    intro page hpage hmark hfew hwant
    unfold CodePages.faulted at hmark hfew ⊢
    dsimp only at hmark hfew ⊢
    rcases eq_or_ne page pg with rfl | hne
    · rw [Function.update_self] at hmark
      cases hmark
    · rw [Function.update_of_ne hne] at hmark hfew ⊢
      exact h.marked page hpage hmark hfew hwant
  enabled := h.enabled

/-- What an access leaves behind: each protected page among those it hits is
unprotected and unmarked, has faulted once more, and the translations are flushed;
all other pages stay. -/
structure After (s s' : CodePages) (hit : Nat -> Prop) : Prop where
  prot : forall page, s'.ttsmc_prot page = true <-> s.ttsmc_prot page = true ∧ ¬ hit page
  mark : forall page, s'.code_page page = true <->
    s.code_page page = true ∧ ¬ (s.ttsmc_prot page = true ∧ hit page)
  fault : forall page, s.ttsmc_prot page = true -> hit page ->
    s'.ttsmc_faults page = moreFaults (s.ttsmc_faults page)
  calm : forall page, ¬ (s.ttsmc_prot page = true ∧ hit page) ->
    s'.ttsmc_faults page = s.ttsmc_faults page
  flush : forall page, hit page -> s.ttsmc_prot page = true -> s.invalidated < s'.invalidated
  quiet : (forall page, ¬ (s.ttsmc_prot page = true ∧ hit page)) ->
    s'.invalidated = s.invalidated
  mono : s.invalidated ≤ s'.invalidated
  enabled : s'.ttsmc_enabled = s.ttsmc_enabled

theorem After.comp {s s' s'' : CodePages} {hit hit' : Nat -> Prop} (h : After s s' hit)
    (h' : After s' s'' hit') : After s s'' fun page => hit page ∨ hit' page where
  prot := by
    intro page
    rw [h'.prot, h.prot]
    tauto
  mark := by
    intro page
    rw [h'.mark, h.mark, h.prot]
    tauto
  fault := by
    intro page hprot hhit
    rcases Classical.em (hit page) with hfirst | hfirst
    · rw [h'.calm page fun hboth => ((h.prot page).mp hboth.1).2 hfirst]
      exact h.fault page hprot hfirst
    · rw [h'.fault page ((h.prot page).mpr ⟨hprot, hfirst⟩) (hhit.resolve_left hfirst),
        h.calm page fun hboth => hfirst hboth.2]
  calm := by
    intro page hnone
    rw [h'.calm page fun hboth => hnone ⟨((h.prot page).mp hboth.1).1, Or.inr hboth.2⟩,
      h.calm page fun hboth => hnone ⟨hboth.1, Or.inl hboth.2⟩]
  flush := by
    rintro page (hhit | hhit) hprot
    · exact lt_of_lt_of_le (h.flush page hhit hprot) h'.mono
    · rcases Classical.em (hit page) with hfirst | hfirst
      · exact lt_of_lt_of_le (h.flush page hfirst hprot) h'.mono
      · exact lt_of_le_of_lt h.mono (h'.flush page hhit ((h.prot page).mpr ⟨hprot, hfirst⟩))
  quiet := by
    intro hnone
    rw [h'.quiet fun page hboth =>
        hnone page ⟨((h.prot page).mp hboth.1).1, Or.inr hboth.2⟩,
      h.quiet fun page hboth => hnone page ⟨hboth.1, Or.inl hboth.2⟩]
  mono := le_trans h.mono h'.mono
  enabled := h'.enabled.trans h.enabled

theorem After.congr {s s' : CodePages} {hit hit' : Nat -> Prop} (h : After s s' hit)
    (heq : forall page, hit page <-> hit' page) : After s s' hit' := by
  have hfun : hit = hit' := funext fun page => propext (heq page)
  rw [← hfun]
  exact h

theorem touch_after {tt g : Nat} {s s' : CodePages} (h : s.touch tt g = some s') :
    After s s' fun page => page = pageOf g := by
  unfold touch ttsmcSigsegv at h
  split at h
  · next hprot =>
    split at h
    · rw [← Option.some.inj h]
      unfold cacheInvalidate faulted
      refine ⟨?_, ?_, ?_, ?_, fun _ _ _ => Nat.lt_succ_self _,
        fun hnone => absurd ⟨hprot, rfl⟩ (hnone (pageOf g)), Nat.le_succ _, rfl⟩
      · intro page
        dsimp only
        rcases eq_or_ne page (pageOf g) with rfl | hne
        · rw [Function.update_self]
          exact ⟨fun hf => (by cases hf), fun hf => absurd rfl hf.2⟩
        · rw [Function.update_of_ne hne]
          exact ⟨fun hp => ⟨hp, hne⟩, And.left⟩
      · intro page
        dsimp only
        rcases eq_or_ne page (pageOf g) with rfl | hne
        · rw [Function.update_self]
          exact ⟨fun hf => (by cases hf), fun hf => absurd ⟨hprot, rfl⟩ hf.2⟩
        · rw [Function.update_of_ne hne]
          exact ⟨fun hp => ⟨hp, fun hboth => hne hboth.2⟩, And.left⟩
      · rintro page _ rfl
        exact Function.update_self _ _ _
      · intro page hnone
        apply Function.update_of_ne
        rintro rfl
        exact hnone ⟨hprot, rfl⟩
    · cases h
  · next hprot =>
    rw [← Option.some.inj h]
    refine ⟨?_, ?_, ?_, fun _ _ => rfl, ?_, fun _ => rfl, le_rfl, rfl⟩
    · intro page
      refine ⟨fun hp => ⟨hp, ?_⟩, And.left⟩
      rintro rfl
      exact hprot hp
    · intro page
      refine ⟨fun hp => ⟨hp, ?_⟩, And.left⟩
      rintro ⟨hp', rfl⟩
      exact hprot hp'
    · rintro page hp rfl
      exact absurd hp hprot
    · rintro page rfl hp
      exact absurd hp hprot

theorem Ok.touch {tt g : Nat} {s s' : CodePages} (hok : s.Ok e)
    (h : s.touch tt g = some s') : s'.Ok e := by
  unfold CodePages.touch CodePages.ttsmcSigsegv at h
  split at h
  · split at h
    · rw [← Option.some.inj h]
      exact (hok.faulted _).cacheInvalidate
    · cases h
  · rw [← Option.some.inj h]
    exact hok

theorem touch_isSome (s : CodePages) (tt : Nat) {g : Nat} (hlo : ttRamBase ≤ g)
    (hhi : g < ttRamBase + tt) : exists s', s.touch tt g = some s' := by
  unfold touch ttsmcSigsegv
  split
  · next hprot => exact ⟨_, if_pos ⟨hlo, hhi, hprot⟩⟩
  · exact ⟨_, rfl⟩

theorem pageOf_last (a n : Nat) (hn : 0 < n) :
    pageOf (max a (pageOf (a + n - 1) * pageSize)) = pageOf (a + n - 1) := by
  unfold pageOf pageSize
  rcases Nat.le_total a ((a + n - 1) / 0x1000 * 0x1000) with hle | hle
  · rw [max_eq_right hle]
    exact Nat.mul_div_cancel _ (by decide)
  · rw [max_eq_left hle]
    lia

theorem touched_iff {a n page : Nat} (hn : 0 < n) (hsmall : n ≤ pageSize) :
    Touched a n page <-> page = pageOf a ∨ page = pageOf (a + n - 1) := by
  unfold Touched pageOf pageSize at *
  lia

theorem store_after {tt a n : Nat} {s s' : CodePages} (hn : 0 < n) (hsmall : n ≤ pageSize)
    (h : s.store tt a n = some s') : After s s' (Touched a n) := by
  unfold store at h
  rcases Option.bind_eq_some_iff.mp h with ⟨s₁, hfirst, hlast⟩
  have hboth := (touch_after hfirst).comp (touch_after hlast)
  apply hboth.congr
  intro page
  rw [touched_iff hn hsmall, pageOf_last a n hn]

theorem Ok.store {tt a n : Nat} {s s' : CodePages} (hok : s.Ok e)
    (h : s.store tt a n = some s') : s'.Ok e := by
  unfold CodePages.store at h
  rcases Option.bind_eq_some_iff.mp h with ⟨s₁, hfirst, hlast⟩
  exact (hok.touch hfirst).touch hlast

theorem store_isSome {tt a n : Nat} (s : CodePages) (hn : 0 < n) (hlo : ttRamBase ≤ a)
    (hhi : a + n ≤ ttRamBase + tt) : exists s', s.store tt a n = some s' := by
  unfold store
  rcases s.touch_isSome tt hlo (by lia) with ⟨s₁, hfirst⟩
  rw [hfirst, Option.bind_some]
  apply s₁.touch_isSome tt
  · exact le_trans hlo (le_max_left _ _)
  · have hpage : pageOf (a + n - 1) * pageSize ≤ a + n - 1 := Nat.div_mul_le_self _ _
    lia

/-!
## The check of the write handlers
-/

theorem invalidated_cacheInvalidate (s : CodePages) :
    s.cacheInvalidate.invalidated = s.invalidated + 1 := rfl

theorem Ok.pistormSmc_flush (hok : s.Ok e)
    {addr sz page : Nat} (hsz : 0 < sz) (hend : addr + sz ≤ 2 ^ 32)
    (hpage : page = pageOf addr ∨ page = pageOf (addr + sz - 1))
    (hmark : s.code_page page = true) : s.invalidated < (s.pistormSmc addr sz).invalidated := by
  have hin := hok.table page hmark
  have hfirst : pageOf addr ≤ page := by
    rcases hpage with rfl | rfl
    · exact le_rfl
    · exact pageOf_mono (Nat.le_sub_one_of_lt (Nat.lt_add_of_pos_right hsz))
  have haddr : addr < guestReserve := by
    by_contra hge
    have hle := pageOf_mono (Nat.not_lt.mp hge)
    exact absurd (lt_of_le_of_lt hfirst hin) (Nat.not_lt.mpr hle)
  have hflush : s.pistormSmc addr sz = s.cacheInvalidate := by
    unfold CodePages.pistormSmc
    rw [lastAddr_eq hsz hend, if_neg (Nat.not_le.mpr haddr)]
    split
    · rfl
    · next hclear =>
      have hother : page ≠ pageOf addr := by
        rintro rfl
        exact hclear hmark
      have heq := hpage.resolve_left hother
      rw [heq] at hother hmark
      exact if_pos ⟨hother, hmark⟩
  rw [hflush, invalidated_cacheInvalidate]
  exact Nat.lt_succ_self _

end CodePages
end Natmem
end PistormAtari
