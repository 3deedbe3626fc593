import Mathlib
import PistormAtari.Foundation.Run
import PistormAtari.Natmem.StRam

/-!
# Writes to pages that hold compiled code

Every path that writes guest memory either looks its pages up or runs into the
protection of a TT-RAM page.  The look-up sees the first and the last page of a
range, which is every page of a guest write but not of a long transfer; a TT-RAM
page that keeps faulting is given up.
-/

namespace PistormAtari
namespace Natmem

open Foundation

inductive CodeOp where
  | markCode (pc : BitVec 32)
  | put (addr : BitVec 32) (w : Width) (v : BitVec 32)
  | blit (a : BitVec 32) (v : BitVec 16)
  | dma (addr n : BitVec 32) (src : Nat -> BitVec 8)
  | syncDest (r : StRam.BlitterRegs) (answers : Nat -> Option (BitVec 16))

namespace CodeOp

def range (m : NatmemMachine) : CodeOp -> Option (Nat × Nat)
  | .markCode _ => none
  | .put addr w _ =>
      match m.jit.reached addr with
      | (.lowram, a) => some (a, w.size)
      | (.stram, a) => some (a, w.size)
      | (.ttram, a) => some (a, w.size)
      | _ => none
  | .blit a _ =>
      if StRam.blitTt m a.toNat then some (a.toNat / 2 * 2, 2)
      else if m.jit.stramTop ≤ a.toNat % 0x01000000 / 2 * 2 then none
      else some (a.toNat % 0x01000000 / 2 * 2, 2)
  | .dma addr n _ =>
      if addr.toNat < m.jit.stramTop ∧ n.toNat ≤ m.jit.stramTop - addr.toNat then
        some (addr.toNat, n.toNat)
      else none
  | .syncDest r _ => (StRam.syncRange r).map fun x => (x.1, x.2 - x.1)

def transfer : CodeOp -> Bool
  | .dma _ _ _ => true
  | .syncDest _ _ => true
  | _ => false

/-- A page an operation writes to and looks up: any page of a guest write, the
first or the last one of a transfer. -/
def LooksAt (m : NatmemMachine) (op : CodeOp) (page : Nat) : Prop :=
  exists start n, op.range m = some (start, n) ∧ Touched start n page ∧
    (op.transfer = true -> page = pageOf start ∨ page = pageOf (start + n - 1))

end CodeOp

namespace StRam

def codeStep (m : NatmemMachine) (s : StRam) : CodeOp -> Option StRam
  | .markCode pc => some { s with pages := s.pages.pistormMarkCode m.ttsmc pc.toNat }
  | .put addr w v => s.guestPut m addr w v
  | .blit a v => s.pistormBlitWrite16 m a.toNat v
  | .dma addr n src => some (s.pistormDmaToStram m addr.toNat n.toNat src)
  | .syncDest r answers => some (s.blitterSyncDest r answers)

def codeRun (m : NatmemMachine) (s : Option StRam) (ops : List CodeOp) : Option StRam :=
  run (fun s op => s.bind fun s => s.codeStep m op) s ops

theorem codeRun_none (m : NatmemMachine) (ops : List CodeOp) : codeRun m none ops = none := by
  induction ops with
  | nil => rfl
  | cons op rest ih => exact ih

variable {m : NatmemMachine}

variable {s s' : StRam}

theorem codeRun_cons {op : CodeOp} {rest : List CodeOp}
    (h : codeRun m (some s) (op :: rest) = some s') :
    exists s₁, s.codeStep m op = some s₁ ∧ codeRun m (some s₁) rest = some s' := by
  unfold codeRun at h
  rw [run_cons, Option.bind_some] at h
  cases hstep : s.codeStep m op with
  | none =>
      rw [hstep] at h
      have hnone := codeRun_none m rest
      unfold codeRun at hnone
      rw [hnone] at h
      cases h
  | some s₁ =>
      rw [hstep] at h
      exact ⟨s₁, rfl, h⟩

/-!
## The marks along a step
-/

theorem writeThrough_pages (m : NatmemMachine) (s : StRam) (a : Nat) (w : Width)
    (v : BitVec 32) : (s.writeThrough m a w v).pages = s.pages := by
  unfold writeThrough
  dsimp only
  split
  · rfl
  · rfl

theorem srPut_pages (m : NatmemMachine) (s : StRam) (a : Nat) (w : Width) (v : BitVec 32) :
    (s.srPut m a w v).pages = s.pages.pistormSmc a w.size := by
  unfold srPut pistormSmc
  rw [writeThrough_pages]

theorem pistormDmaToStram_pages (m : NatmemMachine) (s : StRam) (addr n : Nat)
    (src : Nat -> BitVec 8) :
    (s.pistormDmaToStram m addr n src).pages = s.pages.pistormSmc addr n := by
  unfold pistormDmaToStram pistormSmc
  dsimp only
  split
  · rfl
  · rfl

theorem codeStep_pages {op : CodeOp} (h : s.codeStep m op = some s') :
    (s'.pages = s.pages ∧ op.range m = none) ∨
    (exists pc, op = .markCode pc ∧
      s'.pages = s.pages.pistormMarkCode m.ttsmc pc.toNat) ∨
    (exists start n, s'.pages = s.pages.pistormSmc start n ∧
      (op.range m = none ∨ (op.range m = some (start, n) ∧ start + n ≤ 2 ^ 32 ∧
        (op.transfer = false -> n ≤ pageSize)))) ∨
    (exists start n, 0 < n ∧ n ≤ pageSize ∧ op.range m = some (start, n) ∧
      op.transfer = false ∧ ttRamBase ≤ start ∧
      s.pages.store m.jit.tt_ram_size start n = some s'.pages) := by
  have htop := m.jit.stramTop_le
  have hpage : forall w : Width, w.size ≤ pageSize :=
    fun w => le_trans w.size_le (by unfold pageSize; lia)
  have htt : forall (a : Nat) (w : Width) (v : BitVec 32), s.ttPut m a w v = some s' ->
      s.pages.store m.jit.tt_ram_size a w.size = some s'.pages := by
    intro a w v hput
    unfold ttPut at hput
    rcases Option.map_eq_some_iff.mp hput with ⟨pages, hstore, hs'⟩
    rw [hstore, ← hs']
  cases op with
  | markCode pc => exact Or.inr (Or.inl ⟨pc, rfl, by rw [← Option.some.inj h]⟩)
  | put addr w v =>
      have hhome := m.jit.home_reached addr
      unfold codeStep guestPut at h
      dsimp only at h
      unfold CodeOp.range
      dsimp only
      rcases hreach : m.jit.reached addr with ⟨b, a⟩
      rw [hreach] at h hhome
      dsimp only at h hhome ⊢
      cases b with
      | lowram =>
          have hlow : a / 0x10000 < 0x1100 := hhome
          have hroom := w.size_le
          refine Or.inr (Or.inr (Or.inl ⟨a, w.size, ?_, Or.inr ⟨rfl, by lia, fun _ => hpage w⟩⟩))
          rw [← Option.some.inj h]
          rfl
      | stram =>
          have hlow : a / 0x10000 < 0x40 := hhome
          have hroom := w.size_le
          refine Or.inr (Or.inr (Or.inl ⟨a, w.size, ?_, Or.inr ⟨rfl, by lia, fun _ => hpage w⟩⟩))
          rw [← Option.some.inj h]
          exact srPut_pages m s a w v
      | ttram =>
          have hlow : 0x100 ≤ a / 0x10000 := hhome.1
          refine Or.inr (Or.inr (Or.inr ⟨a, w.size, w.size_pos, hpage w, rfl, rfl, ?_,
            htt a w v h⟩))
          unfold ttRamBase
          lia
      | dummy | rom | ide | hw | guard | vgaVram | vgaIo | fvdi | psvlo | psvram | psvreg =>
          exact Or.inl ⟨by rw [← Option.some.inj h], rfl⟩
  | blit a v =>
      unfold codeStep pistormBlitWrite16 at h
      dsimp only at h
      unfold CodeOp.range
      dsimp only
      split at h
      · next hblit =>
        rw [if_pos hblit]
        refine Or.inr (Or.inr (Or.inr ⟨a.toNat / 2 * 2, 2, by lia, hpage .word, rfl, rfl, ?_,
          htt _ .word _ h⟩))
        unfold blitTt at hblit
        simp only [Bool.and_eq_true, decide_eq_true_eq] at hblit
        unfold ttRamBase at *
        lia
      · next hblit =>
        rw [if_neg hblit]
        split at h
        · next hout =>
          rw [if_pos hout]
          exact Or.inl ⟨by rw [← Option.some.inj h], rfl⟩
        · next hin =>
          rw [if_neg hin]
          refine Or.inr (Or.inr (Or.inl ⟨_, 2, ?_, Or.inr ⟨rfl, by lia, fun _ => hpage .word⟩⟩))
          rw [← Option.some.inj h]
          exact srPut_pages m s _ .word _
  | dma addr n src =>
      refine Or.inr (Or.inr (Or.inl ⟨addr.toNat, n.toNat, ?_, ?_⟩))
      · rw [← Option.some.inj h]
        exact pistormDmaToStram_pages m s _ _ src
      · unfold CodeOp.range
        dsimp only
        split
        · next hin =>
          exact Or.inr ⟨rfl, by lia, fun hno => by cases hno⟩
        · exact Or.inl rfl
  | syncDest r answers =>
      unfold codeStep blitterSyncDest at h
      dsimp only at h
      unfold CodeOp.range
      dsimp only
      cases hrange : syncRange r with
      | none =>
          rw [hrange] at h
          exact Or.inl ⟨by rw [← Option.some.inj h], rfl⟩
      | some x =>
          rw [hrange] at h
          have hstop := syncRange_stop hrange
          unfold stRamSize at hstop
          refine Or.inr (Or.inr (Or.inl ⟨x.1, x.2 - x.1, ?_, Or.inr ⟨rfl, by lia, ?_⟩⟩))
          · rw [← Option.some.inj h]
            rfl
          · intro hno
            cases hno

theorem codeStep_ok {op : CodeOp} (hok : s.pages.Ok m.ttsmc)
    (h : s.codeStep m op = some s') : s'.pages.Ok m.ttsmc := by
  rcases codeStep_pages h with ⟨hsame, _⟩ | ⟨pc, _, hmark⟩ | ⟨start, n, hsmc, _⟩ |
    ⟨start, n, _, _, _, _, _, hstore⟩
  · rw [hsame]
    exact hok
  · rw [hmark]
    exact hok.pistormMarkCode _
  · rw [hsmc]
    exact hok.pistormSmc _ _
  · exact hok.store hstore

theorem codeRun_ok {ops : List CodeOp}
    (hok : s.pages.Ok m.ttsmc) (h : codeRun m (some s) ops = some s') : s'.pages.Ok m.ttsmc := by
  induction ops generalizing s with
  | nil =>
      rw [← Option.some.inj h]
      exact hok
  | cons op rest ih =>
      rcases codeRun_cons h with ⟨s₁, hstep, hrest⟩
      exact ih (codeStep_ok hok hstep) hrest

theorem codeStep_flush {op : CodeOp} {page : Nat}
    (hok : s.pages.Ok m.ttsmc) (h : s.codeStep m op = some s') (hlook : op.LooksAt m page)
    (hmark : s.pages.code_page page = true)
    (htt : CodePages.TtPage page ->
      ttsmcWanted m.ttsmc = true ∧ s.pages.ttsmc_faults page < ttsmcMaxFaults) :
    s.pages.invalidated < s'.pages.invalidated := by
  rcases hlook with ⟨start, n, hrange, htouched, hends⟩
  rcases codeStep_pages h with ⟨_, hnone⟩ | ⟨pc, hop, _⟩ | ⟨start', n', hsmc, hwrites⟩ |
    ⟨start', n', hn, hsmall, hwrites, _, hbase, hstore⟩
  · rw [hnone] at hrange
    cases hrange
  · rw [hop] at hrange
    cases hrange
  · rcases hwrites with hnone | ⟨hsame, hend, hshort⟩
    · rw [hnone] at hrange
      cases hrange
    · rw [hsame] at hrange
      cases hrange
      rw [hsmc]
      apply hok.pistormSmc_flush htouched.1 hend ?_ hmark
      cases htransfer : op.transfer with
      | false => exact (CodePages.touched_iff htouched.1 (hshort htransfer)).mp htouched
      | true => exact hends htransfer
  · rw [hwrites] at hrange
    cases hrange
    have hpage : CodePages.TtPage page := le_trans (pageOf_mono hbase) htouched.2.1
    rcases htt hpage with ⟨hwant, hfew⟩
    exact (CodePages.store_after hn hsmall hstore).flush page htouched
      (hok.marked page hpage hmark hfew hwant)

/-- In every run that starts without marks: a write to a marked page flushes, for
a transfer its first and its last page, for TT-RAM unless the page was given up or
the protection is switched off; marked pages of TT-RAM that were not given up are
protected; and a store to TT-RAM unprotects and unmarks the protected pages it
touches, flushes for each of them, and leaves every other page as it is. -/
theorem modified_code_noticed (m : NatmemMachine) (s₀ : StRam) (ops : List CodeOp) (s : StRam)
    (hfresh : s₀.pages = CodePages.fresh) (hrun : codeRun m (some s₀) ops = some s) :
    (forall op s' page, s.codeStep m op = some s' -> op.LooksAt m page ->
      s.pages.code_page page = true ->
      (CodePages.TtPage page ->
        ttsmcWanted m.ttsmc = true ∧ s.pages.ttsmc_faults page < ttsmcMaxFaults) ->
      s.pages.invalidated < s'.pages.invalidated) ∧
    (forall page, CodePages.TtPage page -> s.pages.code_page page = true ->
      ttsmcWanted m.ttsmc = true -> s.pages.ttsmc_faults page < ttsmcMaxFaults ->
      s.pages.ttsmc_prot page = true) ∧
    (forall start n, 0 < n -> n ≤ pageSize -> ttRamBase ≤ start ->
      start + n ≤ ttRamBase + m.jit.tt_ram_size ->
      exists pages, s.pages.store m.jit.tt_ram_size start n = some pages ∧
        s.pages.After pages (Touched start n)) := by
  have hok : s.pages.Ok m.ttsmc := by
    apply codeRun_ok ?_ hrun
    rw [hfresh]
    exact CodePages.ok_fresh _
  refine ⟨fun op s' page hstep hlook hmark htt => codeStep_flush hok hstep hlook hmark htt,
    fun page hpage hmark hwant hfew => hok.marked page hpage hmark hfew hwant, ?_⟩
  intro start n hn hsmall hlo hhi
  rcases s.pages.store_isSome hn hlo hhi with ⟨pages, hstore⟩
  exact ⟨pages, hstore, CodePages.store_after hn hsmall hstore⟩

/-!
## A page that is given up
-/

def ttMachine : NatmemMachine where
  jit :=
    { plainMachine with
      tt_ram_available := true
      tt_ram_size := 0x01000000
      tt_ram_bound := by decide }
  stram_cache := true
  psvidel_active := false
  hdmi_only := false
  stram_phys := none
  stram_shadow := none
  mirrors := false
  g_shadow_ste_reg := false
  ttsmc := none

def blankRtg : Rtg where
  high := 0
  mid := 0
  low := 0
  linewidth := 0
  hscroll := 0
  shift_mode := 0
  hw_rez := 0
  pal := 0
  res_changed := false
  vram_base := 0

def blank : StRam where
  natmem := fun _ => 0
  bus := fun _ => 0
  video := { rtg := blankRtg, st_palette := fun _ => 0 }
  g_shadow_src := 0
  g_shadow_have_base := false
  pages := CodePages.fresh

def compileOp : CodeOp := .markCode 0x01000000

def storeOp : CodeOp := .put 0x01000000 .byte 0

theorem compileOp_step (s : StRam) (hclear : s.pages.ttsmc_prot 0x1000 = false)
    (hon : s.pages.ttsmc_enabled = none ∨ s.pages.ttsmc_enabled = some true)
    (hfew : s.pages.ttsmc_faults 0x1000 < ttsmcMaxFaults) :
    s.codeStep ttMachine compileOp =
      some { s with pages := ((s.pages.setMark 0x1000).ttsmcInit none).protect 0x1000 } := by
  have hpage : pageOf (0x01000000 : BitVec 32).toNat = 0x1000 := rfl
  have henabled : ((s.pages.setMark 0x1000).ttsmcInit none).ttsmc_enabled = some true := by
    unfold CodePages.ttsmcInit CodePages.setMark
    rcases hon with h | h
    · rw [h]
      rfl
    · rw [h]
      rfl
  have hmark : s.pages.pistormMarkCode none (0x01000000 : BitVec 32).toNat =
      ((s.pages.setMark 0x1000).ttsmcInit none).protect 0x1000 := by
    unfold CodePages.pistormMarkCode
    rw [hpage, if_neg (by decide)]
    dsimp only
    rw [if_neg (by decide), if_neg]
    rw [henabled]
    rintro (h | h | h)
    · exact h rfl
    · have hsame : ((s.pages.setMark 0x1000).ttsmcInit none).ttsmc_prot 0x1000 =
          s.pages.ttsmc_prot 0x1000 := rfl
      rw [hsame, hclear] at h
      cases h
    · exact absurd hfew (Nat.not_lt.mpr h)
  exact congrArg (fun pages => some { s with pages := pages }) hmark

theorem storeOp_step (s : StRam) : exists pages,
    s.codeStep ttMachine storeOp = some
      { s with
        natmem := writeBlock s.natmem 0x01000000 [0]
        pages := pages } ∧ s.pages.After pages (Touched 0x01000000 1) := by
  have hreached : ttMachine.jit.reached 0x01000000 = (.ttram, 0x01000000) := by decide
  have hlives : exists pages, s.pages.store 0x01000000 0x01000000 1 = some pages :=
    s.pages.store_isSome (by decide) (by decide) (by decide)
  rcases hlives with ⟨pages, hstore⟩
  refine ⟨pages, ?_, CodePages.store_after (by decide) (by decide) hstore⟩
  unfold codeStep storeOp guestPut
  dsimp only
  rw [hreached]
  dsimp only
  unfold ttPut
  have hsize : ttMachine.jit.tt_ram_size = 0x01000000 := rfl
  have hone : Width.byte.size = 1 := rfl
  rw [hsize, hone, hstore]
  rfl

theorem codeRun_append {s s₁ : StRam} {ops ops' : List CodeOp}
    (h : codeRun m (some s) ops = some s₁) :
    codeRun m (some s) (ops ++ ops') = codeRun m (some s₁) ops' := by
  unfold codeRun at *
  rw [run_append, h]

/-- A page that holds code and data: compiled and stored to, again and again. -/
def thrash (k : Nat) : List CodeOp := (List.replicate k [compileOp, storeOp]).flatten

theorem touched_first : Touched 0x01000000 1 0x1000 := by
  unfold Touched pageOf pageSize
  decide

theorem thrash_faults {k : Nat} (hk : k ≤ ttsmcMaxFaults) :
    exists s, codeRun ttMachine (some blank) (thrash k) = some s ∧
      s.pages.ttsmc_faults 0x1000 = k ∧ s.pages.ttsmc_prot 0x1000 = false ∧
      (s.pages.ttsmc_enabled = none ∨ s.pages.ttsmc_enabled = some true) := by
  induction k with
  | zero => exact ⟨blank, rfl, rfl, rfl, Or.inl rfl⟩
  | succ k ih =>
      rcases ih (by lia) with ⟨s, hrun, hfaults, hclear, hon⟩
      have hmark := compileOp_step s hclear hon (by lia)
      generalize hmarked : ({ s with
        pages := ((s.pages.setMark 0x1000).ttsmcInit none).protect 0x1000 } : StRam) = s₁ at hmark
      have hprot : s₁.pages.ttsmc_prot 0x1000 = true := by
        rw [← hmarked]
        exact CodePages.mem_protect.mpr (Or.inl rfl)
      have hsame : s₁.pages.ttsmc_faults 0x1000 = k := by
        rw [← hmarked]
        exact hfaults
      have henabled : s₁.pages.ttsmc_enabled = some true := by
        rw [← hmarked]
        rcases hon with h | h
        · unfold CodePages.protect CodePages.ttsmcInit CodePages.setMark
          dsimp only
          rw [h]
          rfl
        · unfold CodePages.protect CodePages.ttsmcInit CodePages.setMark
          dsimp only
          rw [h]
          rfl
      rcases storeOp_step s₁ with ⟨pages, hstep, hafter⟩
      refine ⟨{ s₁ with natmem := writeBlock s₁.natmem 0x01000000 [0], pages := pages }, ?_, ?_, ?_,
        Or.inr (hafter.enabled.trans henabled)⟩
      · unfold thrash at *
        rw [List.replicate_succ', List.flatten_append, codeRun_append hrun]
        unfold codeRun
        rw [List.flatten_singleton, run_cons, Option.bind_some, hmark, run_cons,
          Option.bind_some, hstep, run_nil]
      · dsimp only
        rw [hafter.fault 0x1000 hprot touched_first, hsame]
        unfold CodePages.moreFaults
        rw [if_pos (lt_of_le_of_lt (Nat.le_of_succ_le hk) (by decide))]
      · cases hleft : pages.ttsmc_prot 0x1000 with
        | false => rfl
        | true => exact absurd touched_first ((hafter.prot 0x1000).mp hleft).2

/-- The next block compiled from the page marks it once more; the store that
follows goes unnoticed. -/
theorem given_up_page_unnoticed :
    exists s s', codeRun ttMachine (some blank) (thrash 32 ++ [compileOp]) = some s ∧
      s.codeStep ttMachine storeOp = some s' ∧ s.pages.code_page 0x1000 = true ∧
      s'.pages.invalidated = s.pages.invalidated := by
  rcases thrash_faults (k := 32) (by decide) with ⟨s, hrun, hfaults, hclear, hon⟩
  have hmark : s.pages.pistormMarkCode none (0x01000000 : BitVec 32).toNat =
      (s.pages.setMark 0x1000).ttsmcInit none := by
    have hpage : pageOf (0x01000000 : BitVec 32).toNat = 0x1000 := rfl
    unfold CodePages.pistormMarkCode
    rw [hpage, if_neg (by decide)]
    dsimp only
    rw [if_neg (by decide), if_pos]
    right
    right
    exact le_of_eq hfaults.symm
  have hstep : s.codeStep ttMachine compileOp =
      some { s with pages := (s.pages.setMark 0x1000).ttsmcInit none } :=
    congrArg (fun pages => some ({ s with pages := pages } : StRam)) hmark
  have hrun' : codeRun ttMachine (some blank) (thrash 32 ++ [compileOp]) =
      some { s with pages := (s.pages.setMark 0x1000).ttsmcInit none } := by
    rw [codeRun_append hrun]
    unfold codeRun
    rw [run_cons, Option.bind_some, hstep, run_nil]
  have hprot : ((s.pages.setMark 0x1000).ttsmcInit none).ttsmc_prot 0x1000 = false := hclear
  have hmarked : (s.pages.setMark 0x1000).code_page 0x1000 = true :=
    CodePages.mem_setMark.mpr (Or.inl rfl)
  have hcode : ((s.pages.setMark 0x1000).ttsmcInit none).code_page 0x1000 = true := hmarked
  rcases storeOp_step { s with pages := (s.pages.setMark 0x1000).ttsmcInit none } with
    ⟨pages, hstore, hafter⟩
  refine ⟨_, _, hrun', hstore, hcode, hafter.quiet ?_⟩
  rintro page ⟨hset, htouched⟩
  have hpage : page = 0x1000 := by
    unfold Touched pageOf pageSize at htouched
    lia
  rw [hpage] at hset
  rw [hprot] at hset
  cases hset

/-- One compiled block of TT-RAM. -/
theorem modified_code_noticed_once :
    exists s, codeRun ttMachine (some blank) [compileOp] = some s ∧
      s.pages.ttsmc_prot 0x1000 = true := by
  have hstep := compileOp_step blank rfl (Or.inl rfl) (by decide)
  have hrun : codeRun ttMachine (some blank) [compileOp] =
      some { blank with
        pages := ((blank.pages.setMark 0x1000).ttsmcInit none).protect 0x1000 } := by
    unfold codeRun
    rw [run_cons, Option.bind_some, hstep, run_nil]
  have hmarked : (blank.pages.setMark 0x1000).code_page 0x1000 = true :=
    CodePages.mem_setMark.mpr (Or.inl rfl)
  exact ⟨_, hrun, (modified_code_noticed ttMachine blank [compileOp] _ rfl hrun).2.1 0x1000
    (le_refl _) hmarked rfl (by decide)⟩

end StRam
end Natmem
end PistormAtari
