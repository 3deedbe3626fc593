import PistormAtari.Foundation.BlockTable
import PistormAtari.Foundation.Run

/-!
# The video RAM of PSVIDEL

The guest takes blocks of video RAM by address and gives them back by address.  The
screen of the XBIOS is a block of the same table.
-/

namespace PistormAtari
namespace Psvidel

open Foundation

/-!
## Video RAM
-/

def psvVramBase : Nat := 0xA1000000
def psvVramSize : Nat := 0x07000000
def psvPageShift : Nat := 12
def psvMaxBlocks : Nat := 512

/-- `mapped` is false on a 24-bit bus.  `screenAlloc` is the guest address of the screen's
block, 0 for none. -/
structure VideoRam where
  mapped : Bool
  vram : Nat -> BitVec 8
  dirty : Nat -> Bool
  blk : List Block
  screenAlloc : BitVec 32

def vramAllocReset (s : VideoRam) : VideoRam :=
  { s with
    blk := [{ off := 0, len := psvVramSize, used := false }]
    screenAlloc := 0 }

def pageRound (bytes : BitVec 32) : BitVec 32 := (bytes + 4095#32) &&& ~~~4095#32

def vramAlloc (s : VideoRam) (bytes : BitVec 32) : BitVec 32 × VideoRam :=
  if s.mapped = false ∨ bytes = 0 ∨ bytes.toNat > psvVramSize then (0, s)
  else
    match allocate (decide (psvMaxBlocks ≤ s.blk.length)) (pageRound bytes).toNat s.blk with
    | none => (0, s)
    | some (off, blk) => (BitVec.ofNat 32 (psvVramBase + off), { s with blk := blk })

def vramLargest (s : VideoRam) : BitVec 32 := BitVec.ofNat 32 (largest s.blk)

/-- The answer is 0 for a block that was freed and -1 otherwise. -/
def vramFree (s : VideoRam) (addr : BitVec 32) : Int × VideoRam :=
  if addr.toNat < psvVramBase then (-1, s)
  else
    match release (addr.toNat - psvVramBase) s.blk with
    | none => (-1, s)
    | some blk => (0, { s with blk := blk })

def psvidelVramDirty (s : VideoRam) (off len : Nat) : VideoRam :=
  if len = 0 ∨ psvVramSize ≤ off then s
  else
    let len := min len (psvVramSize - off)
    let first := off >>> psvPageShift
    let last := (off + len - 1) >>> psvPageShift
    { s with dirty := fun p => s.dirty p || decide (first ≤ p ∧ p ≤ last) }

def clearRam (s : VideoRam) (off len : Nat) : VideoRam :=
  { s with vram := fun i => if off ≤ i ∧ i < off + len then 0 else s.vram i }

def psvidelVmalloc (s : VideoRam) (mode value : BitVec 32) : BitVec 32 × VideoRam :=
  if s.mapped = false then (if mode = 0 then 0 else 0xFFFFFFFF, s)
  else if mode = 0 then
    if value = 0xFFFFFFFF then (vramLargest s, s) else vramAlloc s value
  else if mode = 1 then
    let (done, s) := vramFree s value
    (if done = 0 then 0 else 0xFFFFFFFF, s)
  else (0xFFFFFFFF, s)

/-- The block of the last screen is given back before the new one is taken. -/
def forgetScreen (s : VideoRam) : VideoRam :=
  if s.screenAlloc = 0 then s else { (vramFree s s.screenAlloc).2 with screenAlloc := 0 }

def psvidelScreenAlloc (s : VideoRam) (bytes : BitVec 32) : BitVec 32 × VideoRam :=
  if s.mapped = false then (0, s)
  else
    let (a, s) := vramAlloc (forgetScreen s) bytes
    if a = 0 then (0, s)
    else
      let off := a.toNat - psvVramBase
      (a, { psvidelVramDirty (clearRam s off bytes.toNat) off bytes.toNat with screenAlloc := a })

def psvidelInit (mapped : Bool) : VideoRam :=
  vramAllocReset
    { mapped := mapped
      vram := fun _ => 0
      dirty := fun _ => false
      blk := []
      screenAlloc := 0 }

/-!
## What the guest holds
-/

inductive Call where
  | vmalloc (mode value : BitVec 32)
  | screenAlloc (bytes : BitVec 32)
deriving DecidableEq

def answer (s : VideoRam) : Call -> BitVec 32 × VideoRam
  | .vmalloc mode value => psvidelVmalloc s mode value
  | .screenAlloc bytes => psvidelScreenAlloc s bytes

/-- What the calls and their answers say is taken: the blocks handed out and not freed
since, and the screen's block. -/
structure Holdings where
  handed : List Block
  screen : Option Block

def Holdings.live (h : Holdings) : List Block := h.screen.toList ++ h.handed

def blockAt (a bytes : BitVec 32) : Block :=
  { off := a.toNat - psvVramBase, len := (pageRound bytes).toNat, used := true }

def startsAt (a : BitVec 32) (b : Block) : Bool := decide (psvVramBase + b.off = a.toNat)

def Holdings.after (h : Holdings) (call : Call) (a : BitVec 32) : Holdings :=
  match call with
  | .vmalloc mode value =>
      if mode = 0 then
        if value = 0xFFFFFFFF ∨ a = 0 then h else { h with handed := blockAt a value :: h.handed }
      else if mode = 1 then
        { handed := h.handed.filter (fun b => !startsAt value b)
          screen := h.screen.filter (fun b => !startsAt value b) }
      else h
  | .screenAlloc bytes => { h with screen := if a = 0 then none else some (blockAt a bytes) }

def callStep (s : VideoRam × Holdings) (call : Call) : VideoRam × Holdings :=
  let (a, s') := answer s.1 call
  (s', s.2.after call a)

def apart (b c : Block) : Prop := b.off + b.len ≤ c.off ∨ c.off + c.len ≤ b.off

structure Accounted (s : VideoRam × Holdings) : Prop where
  ordered : Ordered psvVramSize psvMaxBlocks s.1.blk
  taken : forall b, b ∈ s.2.live <-> b ∈ s.1.blk ∧ b.used = true
  disjoint : s.2.live.Pairwise apart
  whole : s.2.live = [] -> s.1.blk = [{ off := 0, len := psvVramSize, used := false }]

/-- A screen is asked for while the remembered address is that of a block of the guest. -/
def ScreenKept (s : VideoRam × Holdings) : Call -> Prop
  | .vmalloc _ _ => True
  | .screenAlloc _ => forall b, b ∈ s.2.handed -> startsAt s.1.screenAlloc b = false

/-!
## Pages and addresses
-/

theorem toNat_pageMask (x : BitVec 32) : (x &&& ~~~4095#32).toNat = x.toNat / 4096 * 4096 := by
  have hmask : x &&& ~~~4095#32 = (x >>> 12) <<< 12 := by
    apply BitVec.eq_of_getLsbD_eq
    intro i hi
    simp only [BitVec.getLsbD_and, BitVec.getLsbD_shiftLeft, BitVec.getLsbD_ushiftRight,
      BitVec.getLsbD_not]
    interval_cases i <;> simp
  have hx := x.isLt
  rw [hmask, BitVec.toNat_shiftLeft, BitVec.toNat_ushiftRight, Nat.shiftRight_eq_div_pow,
    Nat.shiftLeft_eq]
  lia

/-- A request that fits the video RAM is rounded up to whole pages without wrapping. -/
theorem le_toNat_pageRound {bytes : BitVec 32} (hfits : bytes.toNat ≤ psvVramSize) :
    bytes.toNat ≤ (pageRound bytes).toNat := by
  unfold pageRound
  unfold psvVramSize at hfits
  rw [toNat_pageMask, BitVec.toNat_add, show (4095#32).toNat = 4095 from rfl]
  lia

theorem toNat_vramAddress {off : Nat} (hoff : off < psvVramSize) :
    (BitVec.ofNat 32 (psvVramBase + off)).toNat = psvVramBase + off := by
  unfold psvVramSize at hoff
  rw [BitVec.toNat_ofNat]
  apply Nat.mod_eq_of_lt
  unfold psvVramBase
  lia

theorem startsAt_iff {a : BitVec 32} {b : Block} :
    startsAt a b = true <-> psvVramBase + b.off = a.toNat := decide_eq_true_iff

theorem startsAt_zero (b : Block) : startsAt 0 b = false := by
  apply Bool.eq_false_iff.mpr
  intro h
  have hsum := startsAt_iff.mp h
  unfold psvVramBase at hsum
  exact absurd hsum (by simp)

theorem ne_zero_of_startsAt {a : BitVec 32} {b : Block} (h : startsAt a b = true) : a ≠ 0 := by
  rintro rfl
  exact Bool.false_ne_true ((startsAt_zero b).symm.trans h)

/-!
## What the table's operations do
-/

theorem vramAlloc_spec {s : VideoRam} (h : Ordered psvVramSize psvMaxBlocks s.blk)
    (bytes : BitVec 32) :
    vramAlloc s bytes = (0, s) ∨
      exists a blk, vramAlloc s bytes = (a, { s with blk := blk }) ∧
        startsAt a (blockAt a bytes) = true ∧ bytes.toNat ≤ (blockAt a bytes).len ∧
        Ordered psvVramSize psvMaxBlocks blk ∧
        (forall b, b ∈ blk ∧ b.used = true <->
          b = blockAt a bytes ∨ (b ∈ s.blk ∧ b.used = true)) ∧
        ¬ (blockAt a bytes ∈ s.blk) := by
  unfold vramAlloc
  split
  · exact Or.inl rfl
  · next hbad =>
    have hzero : bytes ≠ 0 := fun hz => hbad (Or.inr (Or.inl hz))
    have hfits : bytes.toNat ≤ psvVramSize :=
      Nat.le_of_not_lt (fun hlt => hbad (Or.inr (Or.inr hlt)))
    have hle := le_toNat_pageRound hfits
    have hpos : 0 < (pageRound bytes).toNat := by
      have hne : bytes.toNat ≠ 0 := fun hz => hzero (BitVec.eq_of_toNat_eq hz)
      lia
    split
    · exact Or.inl rfl
    · next off blk halloc =>
      right
      rcases h.allocate hpos halloc with ⟨hordered, hused, hother⟩
      have hnew := (hused { off := off, len := (pageRound bytes).toNat, used := true }).mpr
        (Or.inl rfl)
      have hbound := hordered.tiles.mem hnew.1
      dsimp only at hbound
      have hoff : off < psvVramSize := by lia
      have hblock : blockAt (BitVec.ofNat 32 (psvVramBase + off)) bytes =
          { off := off, len := (pageRound bytes).toNat, used := true } := by
        unfold blockAt
        rw [toNat_vramAddress hoff, Nat.add_sub_cancel_left]
      refine ⟨_, blk, rfl, ?_, hle, hordered, ?_, ?_⟩
      · rw [hblock]
        exact startsAt_iff.mpr (toNat_vramAddress hoff).symm
      · rw [hblock]
        exact hused
      · rw [hblock]
        exact fun hmem => hother _ hmem rfl rfl

theorem vramFree_spec {s : VideoRam} (h : Ordered psvVramSize psvMaxBlocks s.blk)
    (addr : BitVec 32) :
    exists blk, (vramFree s addr).2 = { s with blk := blk } ∧
      Ordered psvVramSize psvMaxBlocks blk ∧
      forall b, b ∈ blk ∧ b.used = true <->
        (b ∈ s.blk ∧ b.used = true) ∧ startsAt addr b = false := by
  unfold vramFree
  split
  · next hlow =>
    refine ⟨s.blk, rfl, h, ?_⟩
    intro b
    constructor
    · intro hb
      refine ⟨hb, decide_eq_false ?_⟩
      lia
    · exact fun hb => hb.1
  · next hhigh =>
    have hiff : forall b : Block, startsAt addr b = false <-> b.off ≠ addr.toNat - psvVramBase := by
      intro b
      unfold startsAt
      rw [decide_eq_false_iff_not]
      constructor
      · intro hne heq
        lia
      · intro hne heq
        lia
    split
    · next hnone =>
      refine ⟨s.blk, rfl, h, ?_⟩
      intro b
      constructor
      · exact fun hb => ⟨hb, (hiff b).mpr (release_eq_none hnone hb.1 hb.2)⟩
      · exact fun hb => hb.1
    · next blk hsome =>
      rcases h.release hsome with ⟨hordered, -, hused⟩
      refine ⟨blk, rfl, hordered, ?_⟩
      intro b
      rw [hused b, hiff b]

/-!
## Accounts
-/

theorem apart_of_ne {s : VideoRam} (h : Ordered psvVramSize psvMaxBlocks s.blk) {b c : Block}
    (hb : b ∈ s.blk) (hc : c ∈ s.blk) (hne : b ≠ c) : apart b c := by
  rcases h.tiles.disjoint hb hc with heq | hapart
  · exact absurd heq hne
  · exact hapart

variable {s : VideoRam × Holdings}

theorem accounted_of_nodup (hordered : Ordered psvVramSize psvMaxBlocks s.1.blk)
    (htaken : forall b, b ∈ s.2.live <-> b ∈ s.1.blk ∧ b.used = true) (hnodup : s.2.live.Nodup) :
    Accounted s := by
  refine ⟨hordered, htaken, ?_, ?_⟩
  · apply hnodup.imp_of_mem
    intro b c hb hc hne
    exact apart_of_ne hordered ((htaken b).mp hb).1 ((htaken c).mp hc).1 hne
  · intro hnone
    apply eq_singleton_of_free hordered.tiles hordered.joined
    · intro b hb
      apply Bool.eq_false_iff.mpr
      intro hused
      have hlive := (htaken b).mpr ⟨hb, hused⟩
      rw [hnone] at hlive
      exact absurd hlive List.not_mem_nil
    · unfold psvVramSize
      lia

theorem Accounted.nodup (h : Accounted s) : s.2.live.Nodup := by
  apply h.disjoint.imp_of_mem
  intro b c hb hc hapart heq
  have hpos := (h.ordered.tiles.mem ((h.taken b).mp hb).1).2.1
  rw [heq] at hapart hpos
  rcases hapart with hle | hle
  · lia
  · lia

structure Settled (s : VideoRam × Holdings) : Prop extends Accounted s where
  screen : forall b, s.2.screen = some b -> startsAt s.1.screenAlloc b = true
  unmapped : s.1.mapped = false -> s.2.live = []

theorem settled_init (mapped : Bool) :
    Settled (psvidelInit mapped, { handed := [], screen := none }) := by
  have hordered : Ordered psvVramSize psvMaxBlocks (psvidelInit mapped).blk :=
    ⟨⟨rfl, by decide, rfl⟩, trivial, Nat.succ_le_succ (Nat.zero_le 511)⟩
  have haccounted : Accounted (psvidelInit mapped, { handed := [], screen := none }) := by
    apply accounted_of_nodup hordered
    · intro b
      constructor
      · exact fun hb => absurd hb List.not_mem_nil
      · rintro ⟨hb, hused⟩
        rw [List.mem_singleton.mp hb] at hused
        cases hused
    · exact List.nodup_nil
  refine ⟨haccounted, ?_, fun _ => rfl⟩
  intro b hb
  cases hb

theorem settled_vramAlloc (h : Settled s) (bytes : BitVec 32) :
    Settled ((vramAlloc s.1 bytes).2,
      if (vramAlloc s.1 bytes).1 = 0 then s.2
      else { s.2 with handed := blockAt (vramAlloc s.1 bytes).1 bytes :: s.2.handed }) := by
  rcases vramAlloc_spec h.ordered bytes with hfail | ⟨a, blk, hdone, hstart, -, hordered, hused, hnew⟩
  · rw [hfail]
    exact h
  · have hne := ne_zero_of_startsAt hstart
    rw [hdone, if_neg hne]
    have hperm : (s.2.screen.toList ++ blockAt a bytes :: s.2.handed).Perm
        (blockAt a bytes :: s.2.live) := List.perm_middle
    have haccounted : Accounted ({ s.1 with blk := blk },
        { s.2 with handed := blockAt a bytes :: s.2.handed }) := by
      apply accounted_of_nodup hordered
      · intro b
        show b ∈ s.2.screen.toList ++ blockAt a bytes :: s.2.handed <-> _
        rw [hperm.mem_iff, List.mem_cons, h.taken b, hused b]
      · show (s.2.screen.toList ++ blockAt a bytes :: s.2.handed).Nodup
        rw [hperm.nodup_iff, List.nodup_cons]
        exact ⟨fun hmem => hnew ((h.taken _).mp hmem).1, h.nodup⟩
    refine ⟨haccounted, h.screen, ?_⟩
    intro hunmapped
    have hfail : vramAlloc s.1 bytes = (0, s.1) := by
      unfold vramAlloc
      rw [if_pos (Or.inl hunmapped)]
    rw [hfail] at hdone
    exact absurd (congrArg Prod.fst hdone).symm hne

theorem live_filter (h : Holdings) (p : Block -> Bool) :
    Holdings.live { handed := h.handed.filter p, screen := h.screen.filter p } =
      h.live.filter p := by
  unfold Holdings.live
  rw [List.filter_append]
  cases h.screen with
  | none => rfl
  | some b =>
      cases hp : p b with
      | true => simp [Option.filter, hp]
      | false => simp [Option.filter, hp]

theorem settled_vramFree (h : Settled s) (addr : BitVec 32) :
    Settled ((vramFree s.1 addr).2,
      { handed := s.2.handed.filter (fun b => !startsAt addr b)
        screen := s.2.screen.filter (fun b => !startsAt addr b) }) := by
  rcases vramFree_spec h.ordered addr with ⟨blk, hdone, hordered, hused⟩
  rw [hdone]
  have hlive := live_filter s.2 (fun b => !startsAt addr b)
  refine ⟨accounted_of_nodup hordered ?_ ?_, ?_, ?_⟩
  · intro b
    dsimp only
    rw [hlive, List.mem_filter, h.taken b, hused b, Bool.not_eq_true']
  · dsimp only
    rw [hlive]
    exact h.nodup.filter _
  · intro b hb
    exact h.screen b (Option.eq_some_of_filter_eq_some hb)
  · intro hunmapped
    dsimp only
    rw [hlive, h.unmapped hunmapped]
    rfl

/-!
## The screen's block
-/

@[simp] theorem clearRam_blk (s : VideoRam) (off len : Nat) : (clearRam s off len).blk = s.blk :=
  rfl

@[simp] theorem clearRam_mapped (s : VideoRam) (off len : Nat) :
    (clearRam s off len).mapped = s.mapped := rfl

@[simp] theorem psvidelVramDirty_blk (s : VideoRam) (off len : Nat) :
    (psvidelVramDirty s off len).blk = s.blk := by
  unfold psvidelVramDirty
  split
  · rfl
  · rfl

@[simp] theorem psvidelVramDirty_vram (s : VideoRam) (off len : Nat) :
    (psvidelVramDirty s off len).vram = s.vram := by
  unfold psvidelVramDirty
  split
  · rfl
  · rfl

@[simp] theorem psvidelVramDirty_mapped (s : VideoRam) (off len : Nat) :
    (psvidelVramDirty s off len).mapped = s.mapped := by
  unfold psvidelVramDirty
  split
  · rfl
  · rfl

theorem vramAlloc_unmapped {s : VideoRam} (h : s.mapped = false) (bytes : BitVec 32) :
    vramAlloc s bytes = (0, s) := by
  unfold vramAlloc
  rw [if_pos (Or.inl h)]

theorem forgetScreen_spec {s : VideoRam} (h : Ordered psvVramSize psvMaxBlocks s.blk) :
    exists blk, forgetScreen s = { s with blk := blk, screenAlloc := 0 } ∧
      Ordered psvVramSize psvMaxBlocks blk ∧
      forall b, b ∈ blk ∧ b.used = true <->
        (b ∈ s.blk ∧ b.used = true) ∧ startsAt s.screenAlloc b = false := by
  unfold forgetScreen
  split
  · next hzero =>
    refine ⟨s.blk, ?_, h, ?_⟩
    · rw [← hzero]
    · intro b
      rw [hzero]
      exact ⟨fun hb => ⟨hb, startsAt_zero b⟩, fun hb => hb.1⟩
  · rcases vramFree_spec h s.screenAlloc with ⟨blk, hdone, hordered, hused⟩
    refine ⟨blk, ?_, hordered, hused⟩
    rw [hdone]

theorem settled_forgetScreen (h : Settled s)
    (hkept : forall b, b ∈ s.2.handed -> startsAt s.1.screenAlloc b = false) :
    Settled (forgetScreen s.1, { s.2 with screen := none }) := by
  rcases forgetScreen_spec h.ordered with ⟨blk, hdone, hordered, hused⟩
  rw [hdone]
  have hsub : s.2.handed.Sublist s.2.live := List.sublist_append_right _ _
  refine ⟨accounted_of_nodup hordered ?_ (h.nodup.sublist hsub), ?_, ?_⟩
  · intro b
    show b ∈ s.2.handed <-> b ∈ blk ∧ b.used = true
    rw [hused b, ← h.taken b]
    constructor
    · exact fun hb => ⟨hsub.mem hb, hkept b hb⟩
    · rintro ⟨hb, hstart⟩
      rcases List.mem_append.mp hb with hscreen | hhanded
      · have hremembered := h.screen b (Option.mem_toList.mp hscreen)
        cases hremembered.symm.trans hstart
      · exact hhanded
  · intro b hb
    cases hb
  · intro hunmapped
    have hlive := h.unmapped hunmapped
    exact (List.append_eq_nil_iff.mp hlive).2

theorem psvidelScreenAlloc_table {s : VideoRam} (hmapped : s.mapped = true) (bytes : BitVec 32) :
    (psvidelScreenAlloc s bytes).1 = (vramAlloc (forgetScreen s) bytes).1 ∧
      (psvidelScreenAlloc s bytes).2.blk = (vramAlloc (forgetScreen s) bytes).2.blk ∧
      (psvidelScreenAlloc s bytes).2.mapped = (vramAlloc (forgetScreen s) bytes).2.mapped ∧
      ((psvidelScreenAlloc s bytes).1 ≠ 0 ->
        (psvidelScreenAlloc s bytes).2.screenAlloc = (psvidelScreenAlloc s bytes).1) := by
  unfold psvidelScreenAlloc
  rw [hmapped, if_neg (fun h => Bool.false_ne_true h.symm)]
  dsimp only
  split
  · next hzero => exact ⟨hzero.symm, rfl, rfl, fun hne => absurd rfl hne⟩
  · refine ⟨rfl, ?_, ?_, fun _ => rfl⟩
    · dsimp only
      rw [psvidelVramDirty_blk, clearRam_blk]
    · dsimp only
      rw [psvidelVramDirty_mapped, clearRam_mapped]

/-!
## Calls
-/

theorem settled_of_table {s t : VideoRam} {h : Holdings} (hs : Settled (s, h))
    (hblk : t.blk = s.blk) (hmapped : t.mapped = s.mapped) (hscreen : h.screen = none) :
    Settled (t, h) := by
  have haccounted : Accounted (t, h) := by
    apply accounted_of_nodup
    · dsimp only
      rw [hblk]
      exact hs.ordered
    · dsimp only
      rw [hblk]
      exact hs.taken
    · exact hs.nodup
  refine ⟨haccounted, ?_, ?_⟩
  · intro b hb
    rw [hscreen] at hb
    cases hb
  · intro hunmapped
    exact hs.unmapped (hmapped.symm.trans hunmapped)

theorem settled_screenTaken {s t : VideoRam} {h : Holdings} {a : BitVec 32} (bytes : BitVec 32)
    (hs : Settled (s, { h with screen := none })) (ha : a = (vramAlloc s bytes).1)
    (hblk : t.blk = (vramAlloc s bytes).2.blk) (hmapped : t.mapped = (vramAlloc s bytes).2.mapped)
    (hscreen : a ≠ 0 -> t.screenAlloc = a) : Settled (t, h.after (.screenAlloc bytes) a) := by
  rcases vramAlloc_spec hs.ordered bytes with
    hfail | ⟨a', blk, hdone, hstart, -, hordered, hused, hnew⟩
  · rw [hfail] at ha hblk hmapped
    show Settled (t, { h with screen := if a = 0 then none else some (blockAt a bytes) })
    rw [if_pos ha]
    exact settled_of_table hs hblk hmapped rfl
  · rw [hdone] at ha hblk hmapped
    dsimp only at ha hblk hmapped
    rw [← ha] at hstart hused hnew
    have hne := ne_zero_of_startsAt hstart
    show Settled (t, { h with screen := if a = 0 then none else some (blockAt a bytes) })
    rw [if_neg hne]
    have haccounted : Accounted (t, { h with screen := some (blockAt a bytes) }) := by
      apply accounted_of_nodup
      · dsimp only
        rw [hblk]
        exact hordered
      · intro b
        show b ∈ blockAt a bytes :: h.handed <-> _
        dsimp only
        rw [hblk, hused b, List.mem_cons]
        exact or_congr_right (hs.taken b)
      · show (blockAt a bytes :: h.handed).Nodup
        rw [List.nodup_cons]
        exact ⟨fun hmem => hnew ((hs.taken _).mp hmem).1, hs.nodup⟩
    refine ⟨haccounted, ?_, ?_⟩
    · intro b hb
      rw [hscreen hne, ← Option.some.inj hb]
      exact hstart
    · intro hunmapped
      rw [vramAlloc_unmapped (hmapped.symm.trans hunmapped)] at hdone
      exact absurd (ha.trans (congrArg Prod.fst hdone).symm) hne

theorem callStep_screenAlloc (s : VideoRam × Holdings) (bytes : BitVec 32) :
    callStep s (.screenAlloc bytes) =
      ((psvidelScreenAlloc s.1 bytes).2,
        s.2.after (.screenAlloc bytes) (psvidelScreenAlloc s.1 bytes).1) := rfl

theorem callStep_vmalloc (s : VideoRam × Holdings) (mode value : BitVec 32) :
    callStep s (.vmalloc mode value) =
      ((psvidelVmalloc s.1 mode value).2,
        s.2.after (.vmalloc mode value) (psvidelVmalloc s.1 mode value).1) := rfl

theorem psvidelScreenAlloc_unmapped {s : VideoRam} (h : s.mapped = false) (bytes : BitVec 32) :
    psvidelScreenAlloc s bytes = (0, s) := by
  unfold psvidelScreenAlloc
  rw [if_pos h]

theorem settled_screenAlloc (h : Settled s) (bytes : BitVec 32)
    (hkept : ScreenKept s (.screenAlloc bytes)) :
    Settled (callStep s (.screenAlloc bytes)) := by
  cases hmapped : s.1.mapped with
  | false =>
      have hlive := h.unmapped hmapped
      have hnone : s.2.screen = none :=
        Option.toList_eq_nil_iff.mp (List.append_eq_nil_iff.mp hlive).1
      rw [callStep_screenAlloc, psvidelScreenAlloc_unmapped hmapped]
      show Settled (s.1, { s.2 with screen := none })
      rw [← hnone]
      exact h
  | true =>
      rcases psvidelScreenAlloc_table hmapped bytes with ⟨ha, hblk, hmap, hscreen⟩
      rw [callStep_screenAlloc]
      exact settled_screenTaken bytes (settled_forgetScreen h hkept) ha hblk hmap hscreen

theorem settled_vmalloc (h : Settled s) (mode value : BitVec 32) :
    Settled (callStep s (.vmalloc mode value)) := by
  rw [callStep_vmalloc]
  cases hmapped : s.1.mapped with
  | false =>
      have hlive := h.unmapped hmapped
      rcases List.append_eq_nil_iff.mp hlive with ⟨hscreen, hhanded⟩
      have hnone := Option.toList_eq_nil_iff.mp hscreen
      have hsame : s.2.after (.vmalloc mode value) (if mode = 0 then 0 else 0xFFFFFFFF) = s.2 := by
        unfold Holdings.after
        dsimp only
        split
        · rw [if_pos (Or.inr rfl)]
        · split
          · rw [hhanded, hnone, List.filter_nil, Option.filter_none, ← hhanded, ← hnone]
          · rfl
      unfold psvidelVmalloc
      rw [if_pos hmapped]
      dsimp only
      rw [hsame]
      exact h
  | true =>
      unfold psvidelVmalloc Holdings.after
      rw [hmapped, if_neg (fun h => Bool.false_ne_true h.symm)]
      dsimp only
      split
      · split
        · next hquery =>
          rw [if_pos (Or.inl hquery)]
          exact h
        · next hquery =>
          have halloc := settled_vramAlloc h value
          simp only [hquery, false_or]
          exact halloc
      · split
        · exact settled_vramFree h value
        · exact h

theorem settled_callStep (s : VideoRam × Holdings) (call : Call) (h : Settled s)
    (hkept : ScreenKept s call) : Settled (callStep s call) := by
  cases call with
  | vmalloc mode value => exact settled_vmalloc h mode value
  | screenAlloc bytes => exact settled_screenAlloc h bytes hkept

theorem not_accounted_of_taken (h : Settled s) {b : Block}
    (hb : b ∈ s.2.handed) (hstart : startsAt s.1.screenAlloc b = true) (bytes : BitVec 32) :
    ¬ Accounted (callStep s (.screenAlloc bytes)) := by
  intro hafter
  cases hmapped : s.1.mapped with
  | false =>
      have hlive := h.unmapped hmapped
      rw [(List.append_eq_nil_iff.mp hlive).2] at hb
      exact List.not_mem_nil hb
  | true =>
      rcases psvidelScreenAlloc_table hmapped bytes with ⟨ha, hblk, -, -⟩
      rcases forgetScreen_spec h.ordered with ⟨blk, hdone, hordered, hused⟩
      have hgone : ¬ (b ∈ blk ∧ b.used = true) := by
        intro hmem
        exact Bool.false_ne_true (((hused b).mp hmem).2.symm.trans hstart)
      have hinlive : b ∈ (callStep s (.screenAlloc bytes)).2.live :=
        List.mem_append_right _ hb
      have hin := (hafter.taken b).mp hinlive
      rw [callStep_screenAlloc] at hin hafter
      dsimp only at hin
      rw [hdone] at ha hblk
      have hordered' : Ordered psvVramSize psvMaxBlocks
        { s.1 with blk := blk, screenAlloc := 0 }.blk := hordered
      rcases vramAlloc_spec hordered' bytes with
        hfail | ⟨a, blk', hnew, ha', -, -, hused', -⟩
      · rw [hfail] at hblk
        rw [hblk] at hin
        exact hgone hin
      · rw [hnew] at ha hblk
        rw [hblk] at hin
        rcases (hused' b).mp hin with heq | hold
        · have hnodup := hafter.nodup
          have hscreen : (s.2.after (.screenAlloc bytes) (psvidelScreenAlloc s.1 bytes).1).live =
              b :: s.2.handed := by
            unfold Holdings.after
            dsimp only
            rw [ha, if_neg (ne_zero_of_startsAt ha'), heq]
            rfl
          dsimp only at hnodup
          rw [hscreen] at hnodup
          exact (List.nodup_cons.mp hnodup).1 hb
        · exact hgone hold

/-!
## Runs
-/

def observedInit (mapped : Bool) : VideoRam × Holdings :=
  (psvidelInit mapped, { handed := [], screen := none })

/-- Every call leaves the table and what is taken in agreement exactly when no screen is
asked for while the address of the last one is that of a block of the guest. -/
theorem accounted_iff_screen_kept (mapped : Bool) (calls : List Call) :
    Steps callStep (fun s call => Accounted (callStep s call)) (observedInit mapped) calls <->
      Steps callStep ScreenKept (observedInit mapped) calls := by
  refine Steps.iff_of_invariant settled_callStep ?_ (settled_init mapped)
  intro s call h
  constructor
  · intro hafter
    cases call with
    | vmalloc mode value => trivial
    | screenAlloc bytes =>
        intro b hb
        apply Bool.eq_false_iff.mpr
        exact fun hstart => not_accounted_of_taken h hb hstart bytes hafter
  · exact fun hkept => (settled_callStep s call h hkept).toAccounted

/-- The guest frees the screen's block by hand, gets its address again, and loses the block to
the next screen. -/
theorem screen_takes_guest_block :
    ¬ forall (mapped : Bool) (calls : List Call),
      Steps callStep (fun s call => Accounted (callStep s call)) (observedInit mapped) calls := by
  intro hall
  have hlast := (hall true
    ([.screenAlloc 0x1000, .vmalloc 1 0xA1000000, .vmalloc 0 0x1000] ++
      [.screenAlloc 0x2000])).at
  have hlost :
      { off := 0, len := 0x1000, used := true } ∈
          (callStep (run callStep (observedInit true) [.screenAlloc 0x1000,
            .vmalloc 1 0xA1000000, .vmalloc 0 0x1000]) (.screenAlloc 0x2000)).2.live ∧
        ¬ ({ off := 0, len := 0x1000, used := true } ∈
          (callStep (run callStep (observedInit true) [.screenAlloc 0x1000,
            .vmalloc 1 0xA1000000, .vmalloc 0 0x1000]) (.screenAlloc 0x2000)).1.blk) := by
    decide +kernel
  exact hlost.2 ((hlast.taken _).mp hlost.1).1

theorem psvidelScreenAlloc_vram (h : Settled s) {bytes : BitVec 32}
    (hkept : ScreenKept s (.screenAlloc bytes)) {b : Block} (hb : b ∈ s.2.handed) {i : Nat}
    (hlo : b.off ≤ i) (hhi : i < b.off + b.len) :
    (psvidelScreenAlloc s.1 bytes).2.vram i = s.1.vram i := by
  cases hmapped : s.1.mapped with
  | false => rw [psvidelScreenAlloc_unmapped hmapped]
  | true =>
      rcases forgetScreen_spec h.ordered with ⟨blk, hdone, hordered, -⟩
      have hordered' : Ordered psvVramSize psvMaxBlocks
        { s.1 with blk := blk, screenAlloc := 0 }.blk := hordered
      have hafter := settled_screenAlloc h bytes hkept
      rw [callStep_screenAlloc] at hafter
      unfold psvidelScreenAlloc at hafter ⊢
      rw [hmapped, if_neg (fun h => Bool.false_ne_true h.symm), hdone] at hafter ⊢
      rcases vramAlloc_spec hordered' bytes with
        hfail | ⟨a, blk', hnew, ha, hlen, -, -, -⟩
      · rw [hfail]
        dsimp only
        rw [if_pos rfl]
      · rw [hnew] at hafter ⊢
        dsimp only at hafter ⊢
        rw [if_neg (ne_zero_of_startsAt ha)] at hafter ⊢
        dsimp only at hafter ⊢
        rw [psvidelVramDirty_vram]
        unfold Holdings.after at hafter
        dsimp only at hafter
        rw [if_neg (ne_zero_of_startsAt ha)] at hafter
        have hapart := (List.pairwise_cons.mp hafter.disjoint).1 b hb
        have hout : ¬ (a.toNat - psvVramBase ≤ i ∧ i < a.toNat - psvVramBase + bytes.toNat) := by
          rintro ⟨hfrom, hto⟩
          unfold apart blockAt at hapart
          unfold blockAt at hlen
          dsimp only at hapart hlen
          lia
        unfold clearRam
        dsimp only
        rw [if_neg hout]

theorem psvidelVmalloc_vram (s : VideoRam) (mode value : BitVec 32) :
    (psvidelVmalloc s mode value).2.vram = s.vram := by
  have halloc : (vramAlloc s value).2.vram = s.vram := by
    unfold vramAlloc
    repeat' split
    all_goals rfl
  have hfree : (vramFree s value).2.vram = s.vram := by
    unfold vramFree
    repeat' split
    all_goals rfl
  unfold psvidelVmalloc
  dsimp only
  repeat' split
  all_goals first
    | rfl
    | exact halloc
    | exact hfree

/-- Whatever is called, a block that the guest holds keeps its bytes as long as no screen is
asked for while the address of the last one is that of a block of the guest. -/
theorem guest_block_kept {s : VideoRam × Holdings} (h : Settled s) {calls : List Call}
    (hkept : Steps callStep ScreenKept s calls) {b : Block}
    (hheld : Steps callStep (fun s _ => b ∈ s.2.handed) s calls) {i : Nat} (hlo : b.off ≤ i)
    (hhi : i < b.off + b.len) : (run callStep s calls).1.vram i = s.1.vram i := by
  induction calls generalizing s with
  | nil => rfl
  | cons call rest ih =>
      rw [run_cons, ih (settled_callStep s call h hkept.1) hkept.2 hheld.2]
      cases call with
      | vmalloc mode value =>
          rw [callStep_vmalloc]
          exact congrFun (psvidelVmalloc_vram s.1 mode value) i
      | screenAlloc bytes =>
          rw [callStep_screenAlloc]
          exact psvidelScreenAlloc_vram h hkept.1 hheld.1 hlo hhi

/-- A screen is taken behind a block of the guest. -/
theorem guest_block_kept_beside_screen :
    (run callStep (callStep (observedInit true) (.vmalloc 0 0x1000))
        [.screenAlloc 0x1000]).1.vram 0x10 =
      (callStep (observedInit true) (.vmalloc 0 0x1000)).1.vram 0x10 := by
  have hsettled : Settled (callStep (observedInit true) (.vmalloc 0 0x1000)) :=
    settled_callStep _ _ (settled_init true) trivial
  have hheld : (callStep (observedInit true) (.vmalloc 0 0x1000)).2.handed =
      [⟨0, 0x1000, true⟩] := by
    decide +kernel
  refine @guest_block_kept _ hsettled [.screenAlloc 0x1000] ⟨?_, trivial⟩ ⟨0, 0x1000, true⟩
    ⟨?_, trivial⟩ 0x10 (by decide) (by decide)
  · intro b hb
    rw [hheld, List.mem_singleton] at hb
    rw [hb]
    decide +kernel
  · dsimp only
    rw [hheld]
    exact List.mem_singleton_self _

end Psvidel
end PistormAtari
