import PistormAtari.Psvidel.VideoRam

/-!
# The snapshots of the screen

At each VBL the visible bytes of ST-RAM are copied into one of three buffers, from which
the render thread draws.  The two threads share the index of the last complete copy and
the index of the buffer being read.
-/

namespace PistormAtari
namespace Psvidel

open Foundation

/-!
## Frames
-/

def psvLoBase : Nat := 0xA0000000
def psvLoSize : Nat := 0x01000000
def psvBaseBlank : Nat := 0xFFFFFFFF
def psvSnapMax : Nat := 512 * 1024

structure Frame where
  base : BitVec 32
  pitch : BitVec 32
  h : BitVec 32
deriving DecidableEq

def Frame.bytes (f : Frame) : Nat := f.pitch.toNat * f.h.toNat + 64

def lowAlias (a : Nat) : Nat :=
  if psvLoBase ≤ a ∧ a < psvLoBase + psvLoSize then a - psvLoBase else a

structure Copy where
  base : BitVec 32
  addr : Nat
  bytes : Nat
deriving DecidableEq

def vblCopy (stLimit : Nat) (act : Bool) (f : Frame) : Option Copy :=
  let a := lowAlias f.base.toNat
  if act = true ∧ a < psvVramBase ∧ a < stLimit ∧ f.bytes ≤ stLimit - a ∧ f.bytes ≤ psvSnapMax then
    some { base := f.base, addr := a, bytes := f.bytes }
  else none

def drawsStRam (stLimit : Nat) (vram : Bool) (f : Frame) : Bool :=
  let a := lowAlias f.base.toNat
  if f.base.toNat = psvBaseBlank then false
  else if psvVramBase ≤ a ∧ vram = true then false
  else decide (a < stLimit ∧ f.bytes ≤ stLimit - a)

/-!
## The two threads
-/

structure Snap where
  buf : Nat -> BitVec 8
  base : BitVec 32
  bytes : Nat

inductive VblAt where
  | idle
  | readBusy (c : Copy)
  | readPub (c : Copy) (busy : Option (Fin 3))
  | copying (c : Copy) (i : Fin 3) (n : Nat)
  | label (c : Copy) (i : Fin 3)
  | publish (i : Fin 3)
deriving DecidableEq

/-- Where the renderer stands.  `drawn` is what it has read of the copy so far. -/
inductive RenderAt where
  | idle
  | readPub (f : Frame)
  | compare (f : Frame) (i : Fin 3)
  | markBusy (f : Frame) (i : Fin 3)
  | reading (i : Fin 3) (bytes : Nat) (drawn : List (Nat × BitVec 8))
deriving DecidableEq

/-- `vbls` counts the copies, and `taken k` is what copy `k` took from ST-RAM. -/
structure Shared where
  stLimit : Nat
  vram : Bool
  stRam : Nat -> BitVec 8
  snap : Fin 3 -> Snap
  snapPub : Option (Fin 3)
  snapBusy : Option (Fin 3)
  vbl : VblAt
  render : RenderAt
  vbls : Nat
  taken : Nat -> Nat -> BitVec 8

inductive Step where
  | guestWrite (a : Nat) (v : BitVec 8)
  | psvidelVbl (act : Bool) (f : Frame)
  | vblStep (n : Nat)
  | frameDraw (f : Frame)
  | renderStep (o : Nat)
  | frameDone
deriving DecidableEq

def freeSnap (busy pub : Option (Fin 3)) : Fin 3 :=
  if some 0 ≠ busy ∧ some 0 ≠ pub then 0
  else if some 1 ≠ busy ∧ some 1 ≠ pub then 1
  else 2

def Snap.isOf (sn : Snap) (f : Frame) : Bool := decide (sn.base = f.base ∧ sn.bytes = f.bytes)

def matchesFrame (s : Shared) (f : Frame) (i : Fin 3) : Bool := (s.snap i).isOf f

def copyBytes (s : Shared) (c : Copy) (i : Fin 3) (n m : Nat) : Shared :=
  let copied o := decide (n ≤ o ∧ o < min (n + m) c.bytes)
  { s with
    snap := Function.update s.snap i
      { s.snap i with
        buf := fun o => if copied o then s.stRam (c.addr + o) else (s.snap i).buf o }
    taken := Function.update s.taken s.vbls
      (fun o => if copied o then s.stRam (c.addr + o) else s.taken s.vbls o)
    vbl := .copying c i (min (n + m) c.bytes) }

/-- One atomic step of `psvidel_vbl`; `m` is how far the copy gets. -/
def vblNext (s : Shared) (m : Nat) : Shared :=
  match s.vbl with
  | .idle => s
  | .readBusy c => { s with vbl := .readPub c s.snapBusy }
  | .readPub c busy => { s with vbl := .copying c (freeSnap busy s.snapPub) 0 }
  | .copying c i n => if n < c.bytes then copyBytes s c i n m else { s with vbl := .label c i }
  | .label c i =>
      { s with
        snap := Function.update s.snap i { s.snap i with base := c.base, bytes := c.bytes }
        vbl := .publish i }
  | .publish i => { s with snapPub := some i, vbl := .idle }

/-- One atomic step of the renderer; `o` is the byte it reads, once it draws. -/
def renderNext (s : Shared) (o : Nat) : Shared :=
  match s.render with
  | .idle => s
  | .readPub f =>
      match s.snapPub with
      | some i => { s with render := .compare f i }
      | none => { s with render := .idle }
  | .compare f i => { s with render := if matchesFrame s f i then .markBusy f i else .idle }
  | .markBusy f i => { s with snapBusy := some i, render := .reading i f.bytes [] }
  | .reading i bytes drawn =>
      if o < bytes then { s with render := .reading i bytes ((o, (s.snap i).buf o) :: drawn) }
      else s

/-- The VBLs follow each other on one thread, and so do the frames on the other. -/
def snapStep (s : Shared) : Step -> Shared
  | .guestWrite a v => { s with stRam := Function.update s.stRam a v }
  | .psvidelVbl act f =>
      match s.vbl, vblCopy s.stLimit act f with
      | .idle, some c => { s with vbl := .readBusy c, vbls := s.vbls + 1 }
      | _, _ => s
  | .vblStep m => vblNext s m
  | .frameDraw f =>
      match s.render with
      | .idle => if drawsStRam s.stLimit s.vram f then { s with render := .readPub f } else s
      | _ => s
  | .renderStep o => renderNext s o
  | .frameDone =>
      match s.render with
      | .reading _ _ _ => { s with render := .idle }
      | _ => s

def snapInit (stLimit : Nat) (vram : Bool) (stRam : Nat -> BitVec 8) : Shared :=
  { stLimit := stLimit
    vram := vram
    stRam := stRam
    snap := fun _ => { buf := fun _ => 0, base := 0, bytes := 0 }
    snapPub := none
    snapBusy := none
    vbl := .idle
    render := .idle
    vbls := 0
    taken := fun _ _ => 0 }

/-- The buffer being read is not the one copied into, and what was drawn from it so far is
what one VBL took. -/
structure ReadApart (s : Shared) : Prop where
  apart : forall i bytes drawn, s.render = .reading i bytes drawn ->
    forall c n, s.vbl ≠ .copying c i n
  single : forall i bytes drawn, s.render = .reading i bytes drawn ->
    exists k, forall o v, (o, v) ∈ drawn -> v = s.taken k o

/-- The buffer that the renderer has chosen for a frame it matches, but not yet marked. -/
def chosenSnap (s : Shared) : Option (Fin 3) :=
  match s.render with
  | .compare f i => if matchesFrame s f i then some i else none
  | .markBusy _ i => some i
  | _ => none

def looksForSnap (s : Shared) (step : Step) : Bool :=
  match s.vbl, step with
  | .readBusy _, .vblStep _ => true
  | _, _ => false

/-- The buffer that a VBL is to take is not chosen by the renderer and still unmarked. -/
def ChosenKept (s : Shared) (step : Step) : Prop :=
  looksForSnap s step = true -> chosenSnap s ≠ some (freeSnap s.snapBusy s.snapPub)

instance (s : Shared) (step : Step) : Decidable (ChosenKept s step) :=
  inferInstanceAs (Decidable (_ -> _))

/-!
## The choice of a buffer
-/

theorem freeSnap_ne_busy (busy pub : Option (Fin 3)) : some (freeSnap busy pub) ≠ busy := by
  revert busy pub
  decide

theorem freeSnap_ne_pub (busy pub : Option (Fin 3)) : some (freeSnap busy pub) ≠ pub := by
  revert busy pub
  decide

/-!
## What holds between steps
-/

def writing : VblAt -> Option (Fin 3)
  | .copying _ i _ => some i
  | .label _ i => some i
  | _ => none

def opened : VblAt -> Nat
  | .readBusy _ => 1
  | .readPub _ _ => 1
  | .copying _ _ _ => 1
  | _ => 0

def heldSnap (s : Shared) : Option (Fin 3) :=
  match s.render with
  | .compare f i => if matchesFrame s f i then some i else none
  | .markBusy _ i => some i
  | .reading i _ _ => some i
  | _ => none

def Complete (s : Shared) (j : Fin 3) : Prop :=
  exists k, k + opened s.vbl ≤ s.vbls ∧
    forall o, o < (s.snap j).bytes -> (s.snap j).buf o = s.taken k o

def Copied (s : Shared) : Prop :=
  match s.vbl with
  | .copying _ i n => forall o, o < n -> (s.snap i).buf o = s.taken s.vbls o
  | .label c i => forall o, o < c.bytes -> (s.snap i).buf o = s.taken s.vbls o
  | _ => True

def Spared (s : Shared) (r : Fin 3) : Prop :=
  match s.vbl with
  | .readPub _ busy => freeSnap busy s.snapPub ≠ r
  | .copying _ i _ => i ≠ r
  | .label _ i => i ≠ r
  | _ => True

def Marked (s : Shared) : Prop :=
  match s.render with
  | .markBusy f i => matchesFrame s f i = true
  | .reading i bytes drawn =>
      s.snapBusy = some i ∧ (s.snap i).bytes = bytes ∧
        forall o v, (o, v) ∈ drawn -> o < bytes ∧ v = (s.snap i).buf o
  | _ => True

structure Tidy (s : Shared) : Prop where
  complete : forall j, writing s.vbl ≠ some j -> Complete s j
  copied : Copied s
  unpublished : forall i, writing s.vbl = some i -> s.snapPub ≠ some i
  spared : forall r, heldSnap s = some r -> Spared s r
  marked : Marked s

variable {s : Shared}

theorem Tidy.whole (h : Tidy s) (hvbl : writing s.vbl = none) (j : Fin 3) : Complete s j :=
  h.complete j (by rw [hvbl]; nofun)

theorem Spared.not_writing {r : Fin 3} (h : Spared s r) : writing s.vbl ≠ some r := by
  unfold Spared at h
  cases hvbl : s.vbl with
  | copying c i n =>
      rw [hvbl] at h
      exact fun heq => h (Option.some.inj heq)
  | label c i =>
      rw [hvbl] at h
      exact fun heq => h (Option.some.inj heq)
  | _ => exact fun heq => nomatch heq

theorem Tidy.readApart (h : Tidy s) : ReadApart s := by
  have hread : forall i bytes drawn, s.render = .reading i bytes drawn -> writing s.vbl ≠ some i := by
    intro i bytes drawn hrender
    apply Spared.not_writing
    apply h.spared
    unfold heldSnap
    rw [hrender]
  constructor
  · intro i bytes drawn hrender c n hvbl
    apply hread i bytes drawn hrender
    rw [hvbl]
    rfl
  · intro i bytes drawn hrender
    rcases h.complete i (hread i bytes drawn hrender) with ⟨k, -, hk⟩
    have hmarked := h.marked
    unfold Marked at hmarked
    rw [hrender] at hmarked
    rcases hmarked with ⟨-, hbytes, hdrawn⟩
    refine ⟨k, ?_⟩
    intro o v hmem
    rcases hdrawn o v hmem with ⟨ho, hv⟩
    rw [hv]
    exact hk o (by lia)

theorem tidy_init (stLimit : Nat) (vram : Bool) (stRam : Nat -> BitVec 8) :
    Tidy (snapInit stLimit vram stRam) := by
  constructor
  · intro j hj
    exact ⟨0, le_refl _, fun o ho => absurd ho (Nat.not_lt_zero o)⟩
  · trivial
  · intro i hi
    cases hi
  · intro r hr
    cases hr
  · trivial

/-!
## Steps of the VBL
-/

theorem tidy_psvidelVbl (h : Tidy s) (act : Bool) (f : Frame) :
    Tidy (snapStep s (.psvidelVbl act f)) := by
  unfold snapStep
  dsimp only
  split
  · next c hvbl hcopy =>
    constructor
    · intro j hj
      rcases h.whole (by rw [hvbl]; rfl) j with ⟨k, hle, hk⟩
      rw [hvbl] at hle
      exact ⟨k, Nat.succ_le_succ hle, hk⟩
    · trivial
    · intro i hi
      cases hi
    · intro r hr
      trivial
    · exact h.marked
  · exact h

theorem tidy_readBusy (h : Tidy s) {c : Copy} (hvbl : s.vbl = .readBusy c)
    (hkept : chosenSnap s ≠ some (freeSnap s.snapBusy s.snapPub)) :
    Tidy { s with vbl := .readPub c s.snapBusy } := by
  constructor
  · intro j hj
    have hcomplete := h.whole (by rw [hvbl]; rfl) j
    unfold Complete at hcomplete
    rw [hvbl] at hcomplete
    exact hcomplete
  · trivial
  · intro i hi
    cases hi
  · intro r hr
    show freeSnap s.snapBusy s.snapPub ≠ r
    rintro rfl
    unfold heldSnap matchesFrame at hr
    unfold chosenSnap matchesFrame at hkept
    have hmarked := h.marked
    unfold Marked at hmarked
    dsimp only at hr
    cases hrender : s.render with
    | reading i bytes drawn =>
        rw [hrender] at hr hmarked
        exact freeSnap_ne_busy s.snapBusy s.snapPub (hr.symm.trans hmarked.1.symm)
    | idle =>
        rw [hrender] at hr
        cases hr
    | readPub f =>
        rw [hrender] at hr
        cases hr
    | compare f i =>
        rw [hrender] at hr hkept
        exact hkept hr
    | markBusy f i =>
        rw [hrender] at hr hkept
        exact hkept hr
  · exact h.marked

theorem tidy_readPub (h : Tidy s) {c : Copy} {busy : Option (Fin 3)}
    (hvbl : s.vbl = .readPub c busy) :
    Tidy { s with vbl := .copying c (freeSnap busy s.snapPub) 0 } := by
  constructor
  · intro j hj
    have hcomplete := h.whole (by rw [hvbl]; rfl) j
    unfold Complete at hcomplete
    rw [hvbl] at hcomplete
    exact hcomplete
  · exact fun o ho => absurd ho (Nat.not_lt_zero o)
  · intro i hi
    rw [← hi]
    exact (freeSnap_ne_pub busy s.snapPub).symm
  · intro r hr
    have hspared := h.spared r hr
    unfold Spared at hspared
    rw [hvbl] at hspared
    exact hspared
  · exact h.marked

variable {c : Copy}

theorem copyBytes_snap_of_ne {i j : Fin 3} {n m : Nat} (hne : j ≠ i) :
    (copyBytes s c i n m).snap j = s.snap j := Function.update_of_ne hne _ _

theorem copyBytes_label (s : Shared) (c : Copy) (i j : Fin 3) (n m : Nat) :
    ((copyBytes s c i n m).snap j).base = (s.snap j).base ∧
      ((copyBytes s c i n m).snap j).bytes = (s.snap j).bytes := by
  rcases eq_or_ne j i with rfl | hne
  · unfold copyBytes
    dsimp only
    rw [Function.update_self]
    exact ⟨rfl, rfl⟩
  · rw [copyBytes_snap_of_ne hne]
    exact ⟨rfl, rfl⟩

theorem copyBytes_matches (s : Shared) (c : Copy) (i j : Fin 3) (n m : Nat) (f : Frame) :
    matchesFrame (copyBytes s c i n m) f j = matchesFrame s f j := by
  rcases copyBytes_label s c i j n m with ⟨hbase, hbytes⟩
  unfold matchesFrame Snap.isOf
  rw [hbase, hbytes]

theorem copyBytes_held (s : Shared) (c : Copy) (i : Fin 3) (n m : Nat) :
    heldSnap (copyBytes s c i n m) = heldSnap s := by
  have hrender : (copyBytes s c i n m).render = s.render := rfl
  unfold heldSnap
  rw [hrender]
  cases s.render with
  | compare f j =>
      dsimp only
      rw [copyBytes_matches]
  | _ => rfl

section

variable (h : Tidy s)

include h

theorem tidy_copyBytes {i : Fin 3} {n : Nat}
    (hvbl : s.vbl = .copying c i n) (m : Nat) : Tidy (copyBytes s c i n m) := by
  have hheld : forall r, heldSnap s = some r -> i ≠ r := by
    intro r hr
    have hspared := h.spared r hr
    unfold Spared at hspared
    rw [hvbl] at hspared
    exact hspared
  have hcopied := h.copied
  unfold Copied at hcopied
  rw [hvbl] at hcopied
  constructor
  · intro j hj
    have hne : j ≠ i := fun heq => hj (congrArg some heq.symm)
    have hwriting : writing s.vbl ≠ some j := by
      rw [hvbl]
      exact hj
    rcases h.complete j hwriting with ⟨k, hle, hk⟩
    rw [hvbl] at hle
    refine ⟨k, hle, ?_⟩
    have hold : (copyBytes s c i n m).taken k = s.taken k := by
      have hlt : k + 1 ≤ s.vbls := hle
      exact Function.update_of_ne (Nat.ne_of_lt hlt) _ _
    rw [copyBytes_snap_of_ne hne, hold]
    exact hk
  · intro o ho
    show (Function.update s.snap i _ i).buf o = Function.update s.taken s.vbls _ s.vbls o
    rw [Function.update_self, Function.update_self]
    dsimp only
    split
    · rfl
    · next hout =>
      rw [decide_eq_true_eq] at hout
      exact hcopied o (by lia)
  · intro j hj
    have hwriting : writing s.vbl = some j := by
      rw [hvbl]
      exact hj
    exact h.unpublished j hwriting
  · intro r hr
    rw [copyBytes_held] at hr
    exact hheld r hr
  · have hmarked := h.marked
    have hrender : (copyBytes s c i n m).render = s.render := rfl
    unfold Marked at hmarked ⊢
    rw [hrender]
    cases hat : s.render with
    | markBusy f j =>
        rw [hat] at hmarked
        dsimp only
        rw [copyBytes_matches]
        exact hmarked
    | reading j bytes drawn =>
        rw [hat] at hmarked
        have hne : i ≠ j := by
          apply hheld
          unfold heldSnap
          rw [hat]
        dsimp only
        rw [copyBytes_snap_of_ne hne.symm]
        exact hmarked
    | _ => trivial

theorem tidy_copied {i : Fin 3} {n : Nat}
    (hvbl : s.vbl = .copying c i n) (hn : ¬ n < c.bytes) : Tidy { s with vbl := .label c i } := by
  have hcopied := h.copied
  unfold Copied at hcopied
  rw [hvbl] at hcopied
  constructor
  · intro j hj
    have hwriting : writing s.vbl ≠ some j := by
      rw [hvbl]
      exact hj
    rcases h.complete j hwriting with ⟨k, hle, hk⟩
    exact ⟨k, le_trans (Nat.le_add_right _ _) hle, hk⟩
  · intro o ho
    exact hcopied o (by lia)
  · intro j hj
    have hwriting : writing s.vbl = some j := by
      rw [hvbl]
      exact hj
    exact h.unpublished j hwriting
  · intro r hr
    have hspared := h.spared r hr
    unfold Spared at hspared
    rw [hvbl] at hspared
    exact hspared
  · exact h.marked

theorem tidy_label {i : Fin 3} (hvbl : s.vbl = .label c i) :
    Tidy { s with
      snap := Function.update s.snap i { s.snap i with base := c.base, bytes := c.bytes }
      vbl := .publish i } := by
  have hcopied := h.copied
  unfold Copied at hcopied
  rw [hvbl] at hcopied
  constructor
  · intro j _
    rcases eq_or_ne j i with rfl | hne
    · refine ⟨s.vbls, le_refl _, ?_⟩
      dsimp only
      rw [Function.update_self]
      exact hcopied
    · have hwriting : writing s.vbl ≠ some j := by
        rw [hvbl]
        exact fun heq => hne (Option.some.inj heq).symm
      rcases h.complete j hwriting with ⟨k, hle, hk⟩
      refine ⟨k, le_trans (Nat.le_add_right _ _) hle, ?_⟩
      dsimp only
      rw [Function.update_of_ne hne]
      exact hk
  · trivial
  · intro j hj
    cases hj
  · intro r hr
    trivial
  · have hmarked := h.marked
    have hheld : forall r, heldSnap s = some r -> r ≠ i := by
      intro r hr
      have hspared := h.spared r hr
      unfold Spared at hspared
      rw [hvbl] at hspared
      exact hspared.symm
    unfold Marked matchesFrame at hmarked ⊢
    dsimp only
    cases hat : s.render with
    | markBusy f j =>
        rw [hat] at hmarked
        have hne : j ≠ i := by
          apply hheld
          unfold heldSnap
          rw [hat]
        dsimp only
        rw [Function.update_of_ne hne]
        exact hmarked
    | reading j bytes drawn =>
        rw [hat] at hmarked
        have hne : j ≠ i := by
          apply hheld
          unfold heldSnap
          rw [hat]
        dsimp only
        rw [Function.update_of_ne hne]
        exact hmarked
    | _ => trivial

theorem tidy_publish {i : Fin 3} (hvbl : s.vbl = .publish i) :
    Tidy { s with snapPub := some i, vbl := .idle } := by
  constructor
  · intro j hj
    have hcomplete := h.whole (by rw [hvbl]; rfl) j
    unfold Complete at hcomplete
    rw [hvbl] at hcomplete
    exact hcomplete
  · trivial
  · intro j hj
    cases hj
  · intro r hr
    trivial
  · exact h.marked

/-!
## Steps of the renderer
-/

theorem tidy_renderIdle : Tidy { s with render := .idle } := by
  constructor
  · exact h.complete
  · exact h.copied
  · exact h.unpublished
  · intro r hr
    cases hr
  · trivial

theorem tidy_frameDraw (f : Frame) :
    Tidy { s with render := .readPub f } := by
  constructor
  · exact h.complete
  · exact h.copied
  · exact h.unpublished
  · intro r hr
    cases hr
  · trivial

theorem tidy_choose (f : Frame) {i : Fin 3} (hpub : s.snapPub = some i) :
    Tidy { s with render := .compare f i } := by
  constructor
  · exact h.complete
  · exact h.copied
  · exact h.unpublished
  · intro r hr
    have hir : i = r := by
      unfold heldSnap at hr
      dsimp only at hr
      split at hr
      · exact Option.some.inj hr
      · cases hr
    subst hir
    unfold Spared
    dsimp only
    have hunpublished := h.unpublished i
    cases hvbl : s.vbl with
    | readPub c busy =>
        dsimp only
        rintro heq
        apply freeSnap_ne_pub busy s.snapPub
        rw [heq, hpub]
    | copying c j n =>
        rw [hvbl] at hunpublished
        rintro rfl
        exact hunpublished rfl hpub
    | label c j =>
        rw [hvbl] at hunpublished
        rintro rfl
        exact hunpublished rfl hpub
    | _ => trivial
  · trivial

theorem tidy_compare {f : Frame} {i : Fin 3}
    (hrender : s.render = .compare f i) (hmatch : matchesFrame s f i = true) :
    Tidy { s with render := .markBusy f i } := by
  constructor
  · exact h.complete
  · exact h.copied
  · exact h.unpublished
  · intro r hr
    apply h.spared
    unfold heldSnap
    rw [hrender]
    dsimp only
    rw [if_pos hmatch]
    exact hr
  · exact hmatch

theorem tidy_markBusy {f : Frame} {i : Fin 3} (hrender : s.render = .markBusy f i) :
    Tidy { s with snapBusy := some i, render := .reading i f.bytes [] } := by
  have hmarked := h.marked
  unfold Marked at hmarked
  rw [hrender] at hmarked
  constructor
  · exact h.complete
  · exact h.copied
  · exact h.unpublished
  · intro r hr
    apply h.spared
    unfold heldSnap
    rw [hrender]
    exact hr
  · refine ⟨rfl, (of_decide_eq_true hmarked).2, ?_⟩
    intro o v hmem
    exact absurd hmem List.not_mem_nil

theorem tidy_reading {i : Fin 3} {bytes o : Nat}
    {drawn : List (Nat × BitVec 8)} (hrender : s.render = .reading i bytes drawn)
    (ho : o < bytes) :
    Tidy { s with render := .reading i bytes ((o, (s.snap i).buf o) :: drawn) } := by
  have hmarked := h.marked
  unfold Marked at hmarked
  rw [hrender] at hmarked
  rcases hmarked with ⟨hbusy, hbytes, hdrawn⟩
  constructor
  · exact h.complete
  · exact h.copied
  · exact h.unpublished
  · intro r hr
    apply h.spared
    unfold heldSnap
    rw [hrender]
    exact hr
  · refine ⟨hbusy, hbytes, ?_⟩
    intro o' v hmem
    rcases List.mem_cons.mp hmem with heq | hmem
    · cases heq
      exact ⟨ho, rfl⟩
    · exact hdrawn o' v hmem

theorem tidy_vblNext (m : Nat) (hkept : ChosenKept s (.vblStep m)) :
    Tidy (vblNext s m) := by
  unfold vblNext
  cases hvbl : s.vbl with
  | idle => exact h
  | readBusy c =>
      have hlooks : looksForSnap s (.vblStep m) = true := by
        unfold looksForSnap
        rw [hvbl]
      exact tidy_readBusy h hvbl (hkept hlooks)
  | readPub c busy => exact tidy_readPub h hvbl
  | copying c i n =>
      dsimp only
      split
      · exact tidy_copyBytes h hvbl m
      · next hn => exact tidy_copied h hvbl hn
  | label c i => exact tidy_label h hvbl
  | publish i => exact tidy_publish h hvbl

theorem tidy_renderNext (o : Nat) : Tidy (renderNext s o) := by
  unfold renderNext
  cases hrender : s.render with
  | idle => exact h
  | readPub f =>
      dsimp only
      split
      · next i hpub => exact tidy_choose h f hpub
      · exact tidy_renderIdle h
  | compare f i =>
      dsimp only
      split
      · next hmatch => exact tidy_compare h hrender hmatch
      · exact tidy_renderIdle h
  | markBusy f i => exact tidy_markBusy h hrender
  | reading i bytes drawn =>
      dsimp only
      split
      · next ho => exact tidy_reading h hrender ho
      · exact h

end

theorem tidy_snapStep (s : Shared) (step : Step) (h : Tidy s) (hkept : ChosenKept s step) :
    Tidy (snapStep s step) := by
  cases step with
  | guestWrite a v => exact ⟨h.complete, h.copied, h.unpublished, h.spared, h.marked⟩
  | psvidelVbl act f => exact tidy_psvidelVbl h act f
  | vblStep m => exact tidy_vblNext h m hkept
  | frameDraw f =>
      unfold snapStep
      dsimp only
      split
      · split
        · exact tidy_frameDraw h f
        · exact h
      · exact h
  | renderStep o => exact tidy_renderNext h o
  | frameDone =>
      unfold snapStep
      dsimp only
      split
      · exact tidy_renderIdle h
      · exact h

theorem vblStep_readBusy (hvbl : s.vbl = .readBusy c) (m : Nat) :
    snapStep s (.vblStep m) = { s with vbl := .readPub c s.snapBusy } := by
  show vblNext s m = _
  unfold vblNext
  rw [hvbl]

theorem vblStep_readPub {busy : Option (Fin 3)} (hvbl : s.vbl = .readPub c busy) (m : Nat) :
    snapStep s (.vblStep m) = { s with vbl := .copying c (freeSnap busy s.snapPub) 0 } := by
  show vblNext s m = _
  unfold vblNext
  rw [hvbl]

theorem renderStep_compare {f : Frame} {i : Fin 3} (hrender : s.render = .compare f i)
    (hmatch : matchesFrame s f i = true) (o : Nat) :
    snapStep s (.renderStep o) = { s with render := .markBusy f i } := by
  show renderNext s o = _
  unfold renderNext
  rw [hrender]
  dsimp only
  rw [if_pos hmatch]

theorem renderStep_markBusy {f : Frame} {i : Fin 3}
    (hrender : s.render = .markBusy f i) (o : Nat) :
    snapStep s (.renderStep o) =
      { s with snapBusy := some i, render := .reading i f.bytes [] } := by
  show renderNext s o = _
  unfold renderNext
  rw [hrender]

theorem not_readApart_of_markBusy {f : Frame} {i : Fin 3} {n : Nat}
    (hvbl : s.vbl = .copying c i n) (hrender : s.render = .markBusy f i) (o : Nat) :
    ¬ ReadApart (snapStep s (.renderStep o)) := by
  rw [renderStep_markBusy hrender]
  intro h
  exact h.apart i f.bytes [] rfl c n hvbl

theorem not_readApart_of_compare {f : Frame} {i : Fin 3} {n : Nat}
    (hvbl : s.vbl = .copying c i n) (hrender : s.render = .compare f i)
    (hmatch : matchesFrame s f i = true) (o : Nat) :
    ¬ ReadApart (snapStep (snapStep s (.renderStep o)) (.renderStep o)) := by
  rw [renderStep_compare hrender hmatch]
  apply not_readApart_of_markBusy (c := c) (f := f) (i := i) (n := n)
  · exact hvbl
  · rfl

theorem not_readApart_of_chosen {step : Step} (h : ¬ ChosenKept s step) :
    exists post, ¬ ReadApart (run snapStep s (step :: post)) := by
  rcases Classical.not_imp.mp h with ⟨hlooks, hchosen⟩
  unfold looksForSnap at hlooks
  split at hlooks
  · next c m hvbl =>
    have hchosen := Classical.not_not.mp hchosen
    unfold chosenSnap at hchosen
    split at hchosen
    · next f i hrender =>
      split at hchosen
      · next hmatch =>
        have hi := Option.some.inj hchosen
        refine ⟨[.vblStep 0, .renderStep 0, .renderStep 0], ?_⟩
        simp only [run_cons, run_nil]
        rw [vblStep_readBusy hvbl, vblStep_readPub rfl]
        apply not_readApart_of_compare (c := c) (f := f) (i := i) (n := 0)
        · dsimp only
          rw [hi]
        · exact hrender
        · exact hmatch
      · cases hchosen
    · next f i hrender =>
      have hi := Option.some.inj hchosen
      refine ⟨[.vblStep 0, .renderStep 0], ?_⟩
      simp only [run_cons, run_nil]
      rw [vblStep_readBusy hvbl, vblStep_readPub rfl]
      apply not_readApart_of_markBusy (c := c) (f := f) (i := i) (n := 0)
      · dsimp only
        rw [hi]
      · exact hrender
    · cases hchosen
  · cases hlooks

/-- The buffer being read is never copied into, and each drawn frame is one copy, along every
run in which no VBL looks for a buffer while the one it is to take is chosen but not marked;
any other run goes on to one where it is not so. -/
theorem readApart_of_chosen_kept (stLimit : Nat) (vram : Bool) (stRam : Nat -> BitVec 8) :
    (forall steps, Steps snapStep ChosenKept (snapInit stLimit vram stRam) steps ->
      Steps snapStep (fun s step => ReadApart (snapStep s step)) (snapInit stLimit vram stRam)
        steps) ∧
      forall steps step, ¬ ChosenKept (run snapStep (snapInit stLimit vram stRam) steps) step ->
        exists post, ¬ ReadApart (run snapStep (snapInit stLimit vram stRam)
          (steps ++ step :: post)) := by
  constructor
  · intro steps hkept
    have hstep (s : Shared) (step : Step) (h : Tidy s) (hstep : ChosenKept s step) :
        ReadApart (snapStep s step) ∧ Tidy (snapStep s step) := by
      have hnext := tidy_snapStep s step h hstep
      exact ⟨hnext.readApart, hnext⟩
    exact Steps.imp_of_invariant hstep (tidy_init stLimit vram stRam) hkept
  · intro steps step h
    rcases not_readApart_of_chosen h with ⟨post, hpost⟩
    refine ⟨post, ?_⟩
    rw [run_append]
    exact hpost

/-- A frame drawn while the next VBL copies into another buffer. -/
theorem readApart_while_copying :
    Steps snapStep (fun s step => ReadApart (snapStep s step))
      (snapInit 0x400000 false (fun a => BitVec.ofNat 8 a))
      [.psvidelVbl true { base := 0x3F8000, pitch := 80, h := 400 }, .vblStep 0, .vblStep 0,
        .vblStep 32064, .vblStep 0, .vblStep 0, .vblStep 0,
        .frameDraw { base := 0x3F8000, pitch := 80, h := 400 }, .renderStep 0, .renderStep 0,
        .psvidelVbl true { base := 0x3F8000, pitch := 80, h := 400 }, .renderStep 0, .vblStep 0,
        .vblStep 0, .vblStep 100, .renderStep 80, .frameDone] :=
  (readApart_of_chosen_kept 0x400000 false (fun a => BitVec.ofNat 8 a)).1 _ (by decide +kernel)

/-- The second VBL after the choice copies over the chosen buffer while it is read. -/
theorem chosen_snap_copied_over :
    ¬ forall (stLimit : Nat) (vram : Bool) (stRam : Nat -> BitVec 8) (steps : List Step),
      Steps snapStep (fun s step => ReadApart (snapStep s step)) (snapInit stLimit vram stRam)
        steps := by
  intro hall
  have hlast := (hall 0x400000 false (fun _ => 0)
    ([.psvidelVbl true { base := 0x3F8000, pitch := 80, h := 400 }, .vblStep 0, .vblStep 0,
      .vblStep 32064, .vblStep 0, .vblStep 0, .vblStep 0,
      .frameDraw { base := 0x3F8000, pitch := 80, h := 400 }, .renderStep 0,
      .psvidelVbl true { base := 0x3F8000, pitch := 80, h := 400 }, .vblStep 0, .vblStep 0,
      .vblStep 32064, .vblStep 0, .vblStep 0, .vblStep 0,
      .psvidelVbl true { base := 0x3F8000, pitch := 80, h := 400 }, .vblStep 0, .vblStep 0,
      .renderStep 0] ++ [.renderStep 0])).at
  exact hlast.apart 0 32064 [] (by decide +kernel)
    { base := 0x3F8000, addr := 0x3F8000, bytes := 32064 } 0 (by decide +kernel)

end Psvidel
end PistormAtari
