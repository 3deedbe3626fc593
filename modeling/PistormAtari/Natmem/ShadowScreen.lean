import Mathlib
import PistormAtari.Foundation.Run
import PistormAtari.Natmem.StaleCode

/-!
# The shadow of the screen

With the shadow engaged the real Shifter scans the top 32 KB of the board's memory.
The guest's writes to its screen are sent there, and a move of the screen copies the
longs that differ from the screen shown before.  That is right as long as the
shadow holds the screen last copied.
-/

namespace PistormAtari
namespace Natmem

open Foundation

/-- What reaches the screen: guest writes, words of the emulated blitter, and
writes to the video page. -/
inductive ScreenOp where
  | put (addr : BitVec 32) (w : Width) (v : BitVec 32)
  | blit (a : BitVec 32) (v : BitVec 16)
  | video (a : BitVec 32) (w : Width) (v : BitVec 32)

structure NatmemMachine.ShowsShadow (m : NatmemMachine) : Prop where
  engaged : m.shadowBase ≠ 0
  cache : m.stram_cache = true
  psvidel : m.psvidel_active = false
  hdmi_only : m.hdmi_only = false

namespace StRam

def screenStep (m : NatmemMachine) (s : StRam) : ScreenOp -> StRam
  | .put addr w v => (s.guestPut m addr w v).getD s
  | .blit a v => (s.pistormBlitWrite16 m a.toNat v).getD s
  | .video a w v =>
      if a.toNat % 0x01000000 / 0x100 = 0xFF82 then s.hwVideoPut m a.toNat w v else s

def ShadowExact (m : NatmemMachine) (s : StRam) : Prop :=
  s.stramShadowGuestBase ≠ 0 ->
    Mirrors s.natmem s.bus s.stramShadowGuestBase m.shadowBase stramShadowSize

/-- A write that keeps the shadow.  It stays off the screen last copied, or it
goes through to the shadow from its first byte on; and a write that goes to the bus
at its own address does not reach the shadow there. -/
def Keeps (m : NatmemMachine) (s : StRam) (through : Bool) (a sz : Nat) : Prop :=
  (s.g_shadow_src = 0 ∨ a + sz ≤ s.g_shadow_src ∨ s.g_shadow_src + stramShadowSize ≤ a ∨
    (through = true ∧ s.stramShadowGuestBase = s.g_shadow_src ∧ s.g_shadow_src ≤ a)) ∧
  (through = true -> s.stramNeedsBusWrite m a sz = true ->
    (s.stramShadowGuestBase = 0 ∨ a < s.stramShadowGuestBase ∨
      s.stramShadowGuestBase + stramShadowSize ≤ a) ->
    a % 0x01000000 + sz ≤ m.shadowBase ∨ m.shadowBase + stramShadowSize ≤ a % 0x01000000)

/-- An operation that keeps the shadow: every write to the base registers does. -/
def ScreenKept (m : NatmemMachine) (s : StRam) : ScreenOp -> Prop
  | .put addr w _ =>
      match m.jit.reached addr with
      | (.lowram, a) => s.Keeps m false a w.size
      | (.stram, a) => s.Keeps m true a w.size
      | _ => True
  | .blit a _ =>
      blitTt m a.toNat = true ∨ m.jit.stramTop ≤ a.toNat % 0x01000000 / 2 * 2 ∨
        s.Keeps m true (a.toNat % 0x01000000 / 2 * 2) 2
  | .video _ _ _ => True

/-- The shadow holds the screen last copied, and that is the guest's screen
whenever the guest has one. -/
structure Shown (m : NatmemMachine) (s : StRam) : Prop where
  exact : s.g_shadow_src ≠ 0 ->
    Mirrors s.natmem s.bus s.g_shadow_src m.shadowBase stramShadowSize
  room : s.g_shadow_src + stramShadowSize ≤ stRamSize
  base : s.stramShadowGuestBase ≠ 0 -> s.g_shadow_src = s.stramShadowGuestBase

variable {m : NatmemMachine} {s : StRam}

theorem Shown.shadowExact (h : s.Shown m) : s.ShadowExact m := by
  intro hbase
  have hexact := h.exact
  rw [h.base hbase] at hexact
  exact hexact hbase

theorem guestBase_room (s : StRam) : s.stramShadowGuestBase + stramShadowSize ≤ stRamSize := by
  unfold stramShadowGuestBase stramShadowSize stRamSize
  dsimp only
  split
  · lia
  · split
    · lia
    · lia

theorem guestBase_regbase (h : s.stramShadowGuestBase ≠ 0) :
    s.video.rtg.regbase = s.stramShadowGuestBase := by
  unfold stramShadowGuestBase at *
  dsimp only at *
  split at h
  · exact absurd rfl h
  · next hhave =>
    rw [if_neg hhave]
    split at h
    · exact absurd rfl h
    · next hroom => rw [if_neg hroom]

theorem guestBase_congr {s' : StRam} (hreg : s'.video.rtg.regbase = s.video.rtg.regbase)
    (hhave : s'.g_shadow_have_base = s.g_shadow_have_base) :
    s'.stramShadowGuestBase = s.stramShadowGuestBase := by
  unfold stramShadowGuestBase
  rw [hreg, hhave]

theorem snoopLowram_regbase (s : StRam) (a sz : Nat) :
    (s.stramSnoopLowram a sz).video.rtg.regbase = s.video.rtg.regbase := by
  unfold stramSnoopLowram
  dsimp only
  split
  · split
    · split
      · rfl
      · rfl
    · split
      · rfl
      · rfl
  · split
    · split
      · rfl
      · rfl
    · split
      · rfl
      · rfl

theorem snoopLowram_above {s : StRam} {a sz : Nat} (ha : stramLowWriteThroughSize ≤ a)
    (hlt : a < 0x01000000) : s.stramSnoopLowram a sz = s := by
  unfold stramLowWriteThroughSize at ha
  unfold stramSnoopLowram
  dsimp only
  rw [Nat.mod_eq_of_lt hlt, if_neg (show ¬ a = 0x448 by lia),
    if_neg (show ¬ (a < 0x452 ∧ 0x44E < a + sz) by lia),
    if_neg (fun h => absurd h.1 (by lia))]

theorem needsBusWrite_written (s : StRam) {a : Nat} (hlt : a < 0x01000000) (w : Width)
    (v : BitVec 32) :
    (({ s with natmem := writeBlock s.natmem a (w.bytes v) } : StRam).stramSnoopLowram a
      w.size).stramNeedsBusWrite m a w.size = s.stramNeedsBusWrite m a w.size := by
  rcases Nat.lt_or_ge a stramLowWriteThroughSize with hlow | hhigh
  · unfold stramNeedsBusWrite
    dsimp only
    rw [Nat.mod_eq_of_lt hlt, if_pos hlow, if_pos hlow]
  · rw [snoopLowram_above hhigh hlt]
    have hphys : physbase (writeBlock s.natmem a (w.bytes v)) = physbase s.natmem := by
      unfold stramLowWriteThroughSize at hhigh
      unfold physbase
      rw [writeBlock_of_outside (by lia), writeBlock_of_outside (by lia),
        writeBlock_of_outside (by lia)]
    have hscreen : ({ s with natmem := writeBlock s.natmem a (w.bytes v) } :
        StRam).stramScreenBase = s.stramScreenBase := by
      unfold stramScreenBase
      dsimp only
      rw [hphys]
    unfold stramNeedsBusWrite
    rw [hscreen]

theorem needsBusWrite_screen (hm : m.ShowsShadow) {a sz : Nat} (hsz : 0 < sz)
    (hbase : s.stramShadowGuestBase ≠ 0) (hlo : s.stramShadowGuestBase ≤ a)
    (hhi : a < s.stramShadowGuestBase + stramShadowSize) :
    s.stramNeedsBusWrite m a sz = true := by
  have hroom := s.guestBase_room
  have hreg := guestBase_regbase hbase
  have hscreen : s.stramScreenBase = s.stramShadowGuestBase := by
    unfold stramScreenBase
    dsimp only
    rw [hreg, if_pos ⟨hbase, by unfold stramShadowSize at hroom; lia⟩]
  have hlt : a < stRamSize := lt_of_lt_of_le hhi hroom
  unfold stramNeedsBusWrite
  dsimp only
  rw [Nat.mod_eq_of_lt (lt_trans hlt (by decide)), if_neg (Nat.not_le.mpr hlt), hm.cache]
  split
  · rfl
  · split
    · rfl
    · have hover : stramRangeOverlaps a sz s.stramShadowGuestBase
          stramScreenWriteThroughSize = true := by
        unfold stramRangeOverlaps stramScreenWriteThroughSize
        unfold stramShadowSize at hhi
        simp only [Bool.and_eq_true, decide_eq_true_eq]
        exact ⟨by lia, by lia⟩
      rw [hscreen, if_pos ⟨hbase, hover⟩, hm.psvidel, hm.hdmi_only]
      rfl

/-!
## Writes
-/

theorem Shown.natmem (h : s.Shown m) {a : Nat} {bs : List (BitVec 8)} {pages : CodePages}
    (hout : s.g_shadow_src = 0 ∨ a + bs.length ≤ s.g_shadow_src ∨
      s.g_shadow_src + stramShadowSize ≤ a) :
    ({ s with
      natmem := writeBlock s.natmem a bs
      pages := pages } : StRam).Shown m where
  exact := fun hsrc => (h.exact hsrc).write_source (hout.resolve_left hsrc)
  room := h.room
  base := h.base

theorem Shown.writeThrough (hm : m.ShowsShadow) (h : s.Shown m) {a : Nat} {w : Width}
    {v : BitVec 32} (hlt : a < 0x01000000) (hkeep : s.Keeps m true a w.size) :
    (s.writeThrough m a w v).Shown m := by
  have hneeds := s.needsBusWrite_written (m := m) hlt w v
  have hbaseSame : (({ s with natmem := writeBlock s.natmem a (w.bytes v) } :
      StRam).stramSnoopLowram a w.size).stramShadowGuestBase = s.stramShadowGuestBase :=
    guestBase_congr (snoopLowram_regbase _ a w.size) rfl
  have hsz := w.size_pos
  have hlen := w.length_bytes v
  unfold StRam.writeThrough
  dsimp only
  rw [hneeds]
  generalize hsnooped : ({ s with natmem := writeBlock s.natmem a (w.bytes v) } :
      StRam).stramSnoopLowram a w.size = s₁ at hbaseSame
  have hnatmem : s₁.natmem = writeBlock s.natmem a (w.bytes v) := by
    rw [← hsnooped]
    rfl
  have hbus : s₁.bus = s.bus := by
    rw [← hsnooped]
    rfl
  have hsrc : s₁.g_shadow_src = s.g_shadow_src := by
    rw [← hsnooped]
    rfl
  rcases Classical.em (s.stramShadowGuestBase ≠ 0 ∧ s.stramShadowGuestBase ≤ a ∧
      a < s.stramShadowGuestBase + stramShadowSize) with hscreen | hscreen
  · -- Inside the guest's screen: the same bytes at the mirror and at the shadow.
    have hthrough := needsBusWrite_screen hm hsz hscreen.1 hscreen.2.1 hscreen.2.2
    have haddr : s₁.stramBusAddr m a = m.shadowBase + (a - s.stramShadowGuestBase) := by
      unfold stramBusAddr
      rw [hbaseSame, if_pos ⟨hm.engaged, hscreen⟩]
    rw [hthrough, if_pos rfl, haddr]
    refine ⟨?_, by dsimp only; rw [hsrc]; exact h.room, ?_⟩
    · dsimp only
      rw [hsrc, hnatmem, hbus]
      intro hne
      have hbase := h.base hscreen.1
      rw [hbase] at hne ⊢
      have hexact := h.exact (by rw [hbase]; exact hne)
      rw [hbase] at hexact
      have hboth := hexact.write_both (a - s.stramShadowGuestBase) (w.bytes v)
      rwa [Nat.add_sub_cancel' hscreen.2.1] at hboth
    · intro hne
      have hcongr : ({ s₁ with
          bus := writeBlock s₁.bus (m.shadowBase + (a - s.stramShadowGuestBase)) (w.bytes v) } :
            StRam).stramShadowGuestBase = s₁.stramShadowGuestBase := guestBase_congr rfl rfl
      rw [hcongr, hbaseSame] at hne ⊢
      exact hsrc.trans (h.base hne)
  · have hout : s.g_shadow_src = 0 ∨ a + w.size ≤ s.g_shadow_src ∨
        s.g_shadow_src + stramShadowSize ≤ a := by
      rcases hkeep.1 with hzero | hbelow | habove | ⟨_, hsame, hle⟩
      · exact Or.inl hzero
      · exact Or.inr (Or.inl hbelow)
      · exact Or.inr (Or.inr habove)
      · rcases Nat.eq_zero_or_pos s.g_shadow_src with hzero | hpos
        · exact Or.inl hzero
        · right
          right
          rw [hsame] at hscreen
          by_contra hin
          exact hscreen ⟨Nat.ne_of_gt hpos, hle, Nat.not_le.mp hin⟩
    have hexact : s.g_shadow_src ≠ 0 ->
        Mirrors s₁.natmem s.bus s.g_shadow_src m.shadowBase stramShadowSize := by
      intro hne
      rw [hnatmem]
      apply (h.exact hne).write_source
      rw [hlen]
      exact hout.resolve_left hne
    cases hthrough : s.stramNeedsBusWrite m a w.size with
    | false =>
        rw [if_neg (by decide)]
        refine ⟨by rw [hsrc, hbus]; exact hexact, by rw [hsrc]; exact h.room, ?_⟩
        intro hne
        rw [hbaseSame] at hne ⊢
        exact hsrc.trans (h.base hne)
    | true =>
        have hnot : s.stramShadowGuestBase = 0 ∨ a < s.stramShadowGuestBase ∨
            s.stramShadowGuestBase + stramShadowSize ≤ a := by
          by_contra hall
          rw [not_or, not_or] at hall
          exact hscreen ⟨hall.1, Nat.not_lt.mp hall.2.1, Nat.not_le.mp hall.2.2⟩
        have haddr : s₁.stramBusAddr m a = a % 0x01000000 := by
          unfold stramBusAddr
          rw [hbaseSame, if_neg fun hall => hscreen hall.2]
        rw [if_pos rfl, haddr]
        refine ⟨?_, by dsimp only; rw [hsrc]; exact h.room, ?_⟩
        · dsimp only
          rw [hsrc, hbus]
          intro hne
          apply (hexact hne).write_shown
          rw [hlen]
          exact hkeep.2 rfl hthrough hnot
        · intro hne
          have hcongr : ({ s₁ with
              bus := writeBlock s₁.bus (a % 0x01000000) (w.bytes v) } :
                StRam).stramShadowGuestBase = s₁.stramShadowGuestBase := guestBase_congr rfl rfl
          rw [hcongr, hbaseSame] at hne ⊢
          exact hsrc.trans (h.base hne)

theorem Shown.pages (h : s.Shown m) (pages : CodePages) : ({ s with pages := pages } :
    StRam).Shown m where
  exact := h.exact
  room := h.room
  base := h.base

theorem Shown.smc (h : s.Shown m) (addr sz : Nat) : (s.pistormSmc addr sz).Shown m :=
  h.pages (s.pages.pistormSmc addr sz)

/-!
## Moves of the screen
-/

theorem Mirrors.write_register {natmem bus : Nat -> BitVec 8} {src a : Nat}
    (h : Mirrors natmem bus src m.shadowBase stramShadowSize)
    (hout : stRamSize ≤ a) (hm : m.ShowsShadow) (bs : List (BitVec 8)) :
    Mirrors natmem (writeBlock bus a bs) src m.shadowBase stramShadowSize := by
  have hroom := (m.shadowBase_room.resolve_left hm.engaged).2
  apply h.write_shown
  right
  exact le_trans hroom hout

theorem refill_exact (hm : m.ShowsShadow)
    (hexact : s.g_shadow_src ≠ 0 ->
      Mirrors s.natmem s.bus s.g_shadow_src m.shadowBase stramShadowSize)
    (hsrc : (s.stramShadowRefill m).g_shadow_src ≠ 0) :
    Mirrors (s.stramShadowRefill m).natmem (s.stramShadowRefill m).bus
      (s.stramShadowRefill m).g_shadow_src m.shadowBase stramShadowSize := by
  unfold stramShadowRefill at *
  dsimp only at *
  split
  · next hstay =>
    rw [if_pos hstay] at hsrc
    exact hexact hsrc
  · next hmoves =>
    rw [hm.cache]
    rcases Nat.eq_zero_or_pos s.g_shadow_src with hnone | hprev
    · -- The first screen is copied whole.
      have hwhole := copyPieces_mirrors s.natmem s.stramShadowGuestBase m.shadowBase 4
        (fun k => decide (s.g_shadow_src ≠ 0 ∧ true = true) &&
          readBlock s.natmem (s.stramShadowGuestBase + 4 * k) 4 ==
            readBlock s.natmem (s.g_shadow_src + 4 * k) 4) 0x2000 s.bus
      apply hwhole
      intro k _ hkeep
      simp [hnone] at hkeep
    · have hne : s.g_shadow_src ≠ 0 := Nat.ne_of_gt hprev
      have hdiffer := @Mirrors.copy_differing _ _ _ _ _ s.stramShadowGuestBase _ _ 4 0x2000
        (hexact hne)
      have hall : (decide (s.g_shadow_src ≠ 0 ∧ true = true)) = true :=
        decide_eq_true ⟨hne, rfl⟩
      rw [hall]
      exact hdiffer

theorem refill_src (s : StRam) :
    (s.stramShadowRefill m).g_shadow_src =
      if s.stramShadowGuestBase = 0 then s.g_shadow_src else s.stramShadowGuestBase := by
  unfold stramShadowRefill
  dsimp only
  split
  · next hstay =>
    rcases hstay with hnone | hsame
    · rw [if_pos hnone]
    · rw [← hsame]
      split <;> rfl
  · next hmoves => rw [if_neg fun hnone => hmoves (Or.inl hnone)]

theorem refill_guestBase (s : StRam) :
    (s.stramShadowRefill m).stramShadowGuestBase = s.stramShadowGuestBase := by
  apply guestBase_congr
  · unfold stramShadowRefill
    dsimp only
    split <;> rfl
  · unfold stramShadowRefill
    dsimp only
    split <;> rfl

theorem Shown.programBase (hm : m.ShowsShadow) (h : s.Shown m) :
    (s.stramShadowProgramBase m).Shown m := by
  unfold stramShadowProgramBase
  split
  · exact h
  · refine ⟨?_, h.room, h.base⟩
    intro hsrc
    have hhigh := Mirrors.write_register (h.exact hsrc)
      (show stRamSize ≤ 0xFF8201 by decide) hm [BitVec.ofNat 8 (m.shadowBase / 0x10000)]
    have hmid := Mirrors.write_register hhigh
      (show stRamSize ≤ 0xFF8203 by decide) hm [BitVec.ofNat 8 (m.shadowBase / 0x100)]
    have hlow := Mirrors.write_register hmid
      (show stRamSize ≤ 0xFF820D by decide) hm [BitVec.ofNat 8 m.shadowBase &&& 0xFE]
    dsimp only
    split
    · exact hlow
    · exact hmid

theorem Shown.hwVideoPut (hm : m.ShowsShadow) (h : s.Shown m) {a : Nat} {w : Width}
    {v : BitVec 32} (hpage : a % 0x01000000 / 0x100 = 0xFF82) :
    (s.hwVideoPut m a w v).Shown m := by
  have hregister : stRamSize ≤ a % 0x01000000 := by
    unfold stRamSize
    lia
  unfold StRam.hwVideoPut
  dsimp only
  generalize hwritten : ({ s with
    video := s.video.stVideoSnoop a w v
    bus := writeBlock s.bus (a % 0x01000000) (w.bytes v) } : StRam) = s₁
  have hnatmem : s₁.natmem = s.natmem := by
    rw [← hwritten]
  have hsrc : s₁.g_shadow_src = s.g_shadow_src := by
    rw [← hwritten]
  have hexact : s₁.g_shadow_src ≠ 0 ->
      Mirrors s₁.natmem s₁.bus s₁.g_shadow_src m.shadowBase stramShadowSize := by
    rw [hsrc, hnatmem, ← hwritten]
    intro hne
    exact Mirrors.write_register (h.exact hne) hregister hm _
  have hroom : s₁.g_shadow_src + stramShadowSize ≤ stRamSize := by
    rw [hsrc]
    exact h.room
  unfold stramShadowVideoAfter
  rw [if_neg hm.engaged, hm.psvidel, if_neg (by decide), hm.hdmi_only]
  split
  · next hmiss =>
    refine ⟨hexact, hroom, ?_⟩
    have hsame : s₁.stramShadowGuestBase = s.stramShadowGuestBase := by
      apply guestBase_congr
      · rw [← hwritten]
        exact Video.stVideoSnoop_regbase hmiss
      · rw [← hwritten]
    rw [hsame, hsrc]
    exact h.base
  · dsimp only
    rw [if_neg (by decide)]
    generalize hflag : ({ s₁ with g_shadow_have_base := true } : StRam) = s₂
    have hexact₂ : s₂.g_shadow_src ≠ 0 ->
        Mirrors s₂.natmem s₂.bus s₂.g_shadow_src m.shadowBase stramShadowSize := by
      rw [← hflag]
      exact hexact
    have hroom₂ : s₂.g_shadow_src + stramShadowSize ≤ stRamSize := by
      rw [← hflag]
      exact hroom
    apply Shown.programBase hm
    refine ⟨refill_exact hm hexact₂, ?_, ?_⟩
    · rw [refill_src]
      split
      · exact hroom₂
      · exact s₂.guestBase_room
    · rw [refill_guestBase, refill_src]
      intro hbase
      rw [if_neg hbase]

/-!
## Whole runs
-/

theorem Shown.screenStep (hm : m.ShowsShadow) (h : s.Shown m) {op : ScreenOp}
    (hkept : s.ScreenKept m op) : (s.screenStep m op).Shown m := by
  cases op with
  | put addr w v =>
      have hhome := m.jit.home_reached addr
      unfold ScreenKept at hkept
      unfold StRam.screenStep guestPut
      dsimp only at hkept ⊢
      rcases hreached : m.jit.reached addr with ⟨b, a⟩
      rw [hreached] at hkept hhome
      cases b with
      | lowram =>
          have hout := hkept.1
          have hoff : s.g_shadow_src = 0 ∨ a + (w.bytes v).length ≤ s.g_shadow_src ∨
              s.g_shadow_src + stramShadowSize ≤ a := by
            rw [w.length_bytes]
            rcases hout with hzero | hbelow | habove | ⟨hno, _⟩
            · exact Or.inl hzero
            · exact Or.inr (Or.inl hbelow)
            · exact Or.inr (Or.inr habove)
            · cases hno
          exact h.natmem hoff
      | stram =>
          have hpage : a / 0x10000 < 0x40 := hhome
          exact (h.writeThrough hm (by lia) hkept).smc _ _
      | ttram =>
          have hpage : 0x100 ≤ a / 0x10000 := hhome.1
          have hroom := h.room
          have habove : s.g_shadow_src + stramShadowSize ≤ a := by
            unfold stRamSize at hroom
            lia
          dsimp only
          unfold ttPut
          cases s.pages.store m.jit.tt_ram_size a w.size with
          | none => exact h
          | some pages => exact h.natmem (Or.inr (Or.inr habove))
      | dummy | rom | ide | hw | guard | vgaVram | vgaIo | fvdi | psvlo | psvram | psvreg =>
          exact h
  | blit a v =>
      unfold ScreenKept at hkept
      unfold StRam.screenStep pistormBlitWrite16
      dsimp only at hkept ⊢
      split
      · next htt =>
        have hroom := h.room
        have habove : s.g_shadow_src + stramShadowSize ≤ a.toNat / 2 * 2 := by
          unfold blitTt at htt
          simp only [Bool.and_eq_true, decide_eq_true_eq] at htt
          unfold ttRamBase at htt
          unfold stRamSize at hroom
          lia
        unfold ttPut
        cases s.pages.store m.jit.tt_ram_size (a.toNat / 2 * 2) Width.word.size with
        | none => exact h
        | some pages => exact h.natmem (Or.inr (Or.inr habove))
      · next htt =>
        split
        · exact h
        · next hin =>
          rcases hkept with hno | hno | hkept
          · exact absurd hno htt
          · exact absurd hno hin
          · exact (h.writeThrough hm (by lia) hkept).smc _ _
  | video a w v =>
      unfold StRam.screenStep
      dsimp only
      split
      · next hpage => exact h.hwVideoPut hm hpage
      · exact h

def smallBoard : NatmemMachine where
  jit :=
    { plainMachine with
      phys0 := 0x80000
      phys1 := 0x80000 }
  stram_cache := true
  psvidel_active := false
  hdmi_only := false
  stram_phys := none
  stram_shadow := none
  mirrors := false
  g_shadow_ste_reg := false
  ttsmc := none

theorem smallBoard_shows : smallBoard.ShowsShadow := ⟨by decide, rfl, rfl, rfl⟩

theorem smallBoard_shadowBase : smallBoard.shadowBase = 0xF8000 := by decide

theorem hwVideoPut_followed (hm : m.ShowsShadow) {a : Nat} {w : Width} {v : BitVec 32}
    (hhit : baseHit a w = true) :
    (s.hwVideoPut m a w v).natmem = s.natmem ∧
      (s.hwVideoPut m a w v).video = s.video.stVideoSnoop a w v ∧
      (s.hwVideoPut m a w v).g_shadow_have_base = true := by
  unfold StRam.hwVideoPut stramShadowVideoAfter
  dsimp only
  rw [if_neg hm.engaged, hm.psvidel, if_neg (by decide), hhit, if_neg (by decide), hm.hdmi_only,
    if_neg (by decide)]
  unfold stramShadowProgramBase
  split
  · unfold stramShadowRefill
    dsimp only
    split
    · exact ⟨rfl, rfl, rfl⟩
    · exact ⟨rfl, rfl, rfl⟩
  · unfold stramShadowRefill
    dsimp only
    split
    · exact ⟨rfl, rfl, rfl⟩
    · exact ⟨rfl, rfl, rfl⟩

theorem screenStep_video {a : BitVec 32} {w : Width} {v : BitVec 32}
    (hpage : a.toNat % 0x01000000 / 0x100 = 0xFF82) :
    s.screenStep m (.video a w v) = s.hwVideoPut m a.toNat w v := if_pos hpage

theorem first_stale {b : Nat} (hbase : s.stramShadowGuestBase = b) (hne : b ≠ 0)
    (hdiffer : s.bus m.shadowBase ≠ s.natmem b) : ¬ s.ShadowExact m := by
  intro hexact
  have hfirst := hexact (by rw [hbase]; exact hne) 0 (by decide)
  rw [hbase] at hfirst
  exact hdiffer hfirst

def screenSet : List ScreenOp := [.video 0xFFFF8201 .byte 0x3F, .video 0xFFFF8203 .byte 0x80]

def straddlingPut : ScreenOp := .put 0x003F7FFE .long 0x11223344

end StRam
end Natmem
end PistormAtari
