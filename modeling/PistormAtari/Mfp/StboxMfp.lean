import PistormAtari.Mfp.Arbitration

/-!
# The MFP of the STBOX

`stbox.c` has an MFP of its own, written apart from the hub: two byte registers
for each mask, an acknowledge that takes the highest pending channel whatever is
in service, and a vector register that ends no service.  It follows the rule of
the hub, and delivers the hub's vectors, exactly in the runs where neither
matters.
-/

namespace PistormAtari
namespace Mfp

open Foundation

/-!
## Registers
-/

/-- The `mfp` structure of `stbox.c` without the prescaler accumulators, the two
pending flags of the video interrupts and the level last given to the CPU. -/
structure StMfp where
  gpip : Byte
  aer : Byte
  ddr : Byte
  iera : Byte
  ierb : Byte
  ipra : Byte
  iprb : Byte
  isra : Byte
  isrb : Byte
  imra : Byte
  imrb : Byte
  vr : Byte
  tacr : Byte
  tbcr : Byte
  tcdcr : Byte
  tadr : Byte
  tbdr : Byte
  tcdr : Byte
  tddr : Byte
  tamain : Byte
  tbmain : Byte
  tcmain : Byte
  tdmain : Byte
  scr : Byte
  ucr : Byte
  rsr : Byte
  tsr : Byte
  udr : Byte
  hblPending : Bool
  vblPending : Bool
  irq : Nat
deriving DecidableEq, Repr

def word (a b : Byte) : Mask :=
  (a.setWidth 16 <<< 8) ||| b.setWidth 16

def StMfp.ier (m : StMfp) : Mask := word m.iera m.ierb
def StMfp.ipr (m : StMfp) : Mask := word m.ipra m.iprb
def StMfp.isr (m : StMfp) : Mask := word m.isra m.isrb
def StMfp.imr (m : StMfp) : Mask := word m.imra m.imrb

def StMfp.pend (m : StMfp) : Mask :=
  word (m.ipra &&& m.imra) (m.iprb &&& m.imrb)

def coldReset : StMfp where
  gpip := 0xBF
  aer := 0
  ddr := 0
  iera := 0
  ierb := 0
  ipra := 0
  iprb := 0
  isra := 0
  isrb := 0
  imra := 0
  imrb := 0
  vr := 0
  tacr := 0
  tbcr := 0
  tcdcr := 0
  tadr := 0
  tbdr := 0
  tcdr := 0
  tddr := 0
  tamain := 0
  tbmain := 0
  tcmain := 0
  tdmain := 0
  scr := 0
  ucr := 0
  rsr := 0
  tsr := 0
  udr := 0
  hblPending := false
  vblPending := false
  irq := 0

/-!
## Interrupt plumbing
-/

def updateIrq (m : StMfp) : StMfp :=
  { m with irq :=
      if m.pend ≠ 0 then 6
      else if m.vblPending then 4
      else if m.hblPending then 2
      else 0 }

def latch (m : StMfp) (ch : Fin 16) : StMfp :=
  if 8 ≤ ch.val then
    let bit := 1#8 <<< (ch.val - 8)
    if m.iera &&& bit ≠ 0 then { m with ipra := m.ipra ||| bit } else m
  else
    let bit := 1#8 <<< ch.val
    if m.ierb &&& bit ≠ 0 then { m with iprb := m.iprb ||| bit } else m

def mfpRaise (m : StMfp) (ch : Fin 16) : StMfp :=
  updateIrq (latch m ch)

inductive IntAck where
  | vector (v : Nat)
  | autovector
  | spurious
deriving DecidableEq, Repr

def take (m : StMfp) (ch : Nat) : StMfp :=
  if 8 ≤ ch then
    let bit := 1#8 <<< (ch - 8)
    { m with
      ipra := m.ipra &&& ~~~bit
      isra := if m.vr &&& 0x08 ≠ 0 then m.isra ||| bit else m.isra }
  else
    let bit := 1#8 <<< ch
    { m with
      iprb := m.iprb &&& ~~~bit
      isrb := if m.vr &&& 0x08 ≠ 0 then m.isrb ||| bit else m.isrb }

def stboxIntAck (m : StMfp) (level : Nat) : IntAck × StMfp :=
  if level = 6 then
    match scanDown m.pend 16 with
    | some ch => (.vector ((m.vr &&& 0xF0).toNat + ch), updateIrq (take m ch))
    | none => (.spurious, updateIrq m)
  else if level = 4 then (.autovector, updateIrq { m with vblPending := false })
  else if level = 2 then (.autovector, updateIrq { m with hblPending := false })
  else (.spurious, m)

/-!
## Register writes
-/

inductive StReg where
  | gpip
  | aer
  | ddr
  | iera
  | ierb
  | ipra
  | iprb
  | isra
  | isrb
  | imra
  | imrb
  | vr
  | tacr
  | tbcr
  | tcdcr
  | tadr
  | tbdr
  | tcdr
  | tddr
  | scr
  | ucr
  | rsr
  | tsr
  | udr
deriving DecidableEq, Repr

/-- The `switch (a & 0x3F)` of `mfp_write`. -/
def stRegAt (off : BitVec 6) : Option StReg :=
  match off with
  | 0x01#6 => some .gpip
  | 0x03#6 => some .aer
  | 0x05#6 => some .ddr
  | 0x07#6 => some .iera
  | 0x09#6 => some .ierb
  | 0x0B#6 => some .ipra
  | 0x0D#6 => some .iprb
  | 0x0F#6 => some .isra
  | 0x11#6 => some .isrb
  | 0x13#6 => some .imra
  | 0x15#6 => some .imrb
  | 0x17#6 => some .vr
  | 0x19#6 => some .tacr
  | 0x1B#6 => some .tbcr
  | 0x1D#6 => some .tcdcr
  | 0x1F#6 => some .tadr
  | 0x21#6 => some .tbdr
  | 0x23#6 => some .tcdr
  | 0x25#6 => some .tddr
  | 0x27#6 => some .scr
  | 0x29#6 => some .ucr
  | 0x2B#6 => some .rsr
  | 0x2D#6 => some .tsr
  | 0x2F#6 => some .udr
  | _ => none

def MFP_CH_ACIA : Fin 16 := (6#4).toFin
def MFP_CH_TIMER_A : Fin 16 := (13#4).toFin

/-- A register write before the interrupt level is updated.  Channel 6 switched
on while an ACIA byte is waiting (`rdrf`) is raised again. -/
def stRegWrite (m : StMfp) (rdrf : Bool) (r : StReg) (v : Byte) : StMfp :=
  match r with
  | .gpip => { m with gpip := v }
  | .aer => { m with aer := v }
  | .ddr => { m with ddr := v }
  | .iera => { m with iera := v, ipra := m.ipra &&& v }
  | .ierb =>
      let on := v &&& ~~~m.ierb
      let m := { m with ierb := v, iprb := m.iprb &&& v }
      if on &&& (1#8 <<< MFP_CH_ACIA.val) ≠ 0 ∧ rdrf then mfpRaise m MFP_CH_ACIA else m
  | .ipra => { m with ipra := m.ipra &&& v }
  | .iprb => { m with iprb := m.iprb &&& v }
  | .isra => { m with isra := m.isra &&& v }
  | .isrb => { m with isrb := m.isrb &&& v }
  | .imra => { m with imra := v }
  | .imrb => { m with imrb := v }
  | .vr => { m with vr := v }
  | .tacr =>
      { m with tacr := v &&& 0x0F, tamain := if v &&& 7 = 0 then m.tadr else m.tamain }
  | .tbcr =>
      { m with tbcr := v &&& 0x0F, tbmain := if v &&& 7 = 0 then m.tbdr else m.tbmain }
  | .tcdcr => { m with tcdcr := v &&& 0x77 }
  | .tadr => { m with tadr := v, tamain := if m.tacr &&& 7 = 0 then v else m.tamain }
  | .tbdr => { m with tbdr := v, tbmain := if m.tbcr &&& 7 = 0 then v else m.tbmain }
  | .tcdr => { m with tcdr := v, tcmain := if (m.tcdcr >>> 4) &&& 7 = 0 then v else m.tcmain }
  | .tddr => { m with tddr := v, tdmain := if m.tcdcr &&& 7 = 0 then v else m.tdmain }
  | .scr => { m with scr := v }
  | .ucr => { m with ucr := v }
  | .rsr => { m with rsr := v }
  | .tsr => { m with tsr := v }
  | .udr => { m with udr := v }

def mfpWrite (m : StMfp) (rdrf : Bool) (a : Long) (v : Byte) : StMfp :=
  match stRegAt (a.setWidth 6) with
  | some r => updateIrq (stRegWrite m rdrf r v)
  | none => updateIrq m

/-!
## Events
-/

/-- What reaches the MFP: guest writes, with whether an ACIA byte is waiting,
raises, acknowledges of an interrupt level and the two video interrupts. -/
inductive MfpEvent where
  | write (a : Long) (v : Byte) (rdrf : Bool)
  | raise (ch : Fin 16)
  | ack (level : Nat)
  | vbl
  | hbl
deriving DecidableEq, Repr

def stStep (m : StMfp) : MfpEvent -> StMfp
  | .write a v rdrf => mfpWrite m rdrf a v
  | .raise ch => mfpRaise m ch
  | .ack level => (stboxIntAck m level).2
  | .vbl => updateIrq { m with vblPending := true }
  | .hbl => updateIrq { m with hblPending := true }

/-- The vectors of the MFP acknowledges, -1 for a spurious one. -/
def stVectors : StMfp -> List MfpEvent -> List Int
  | _, [] => []
  | m, .ack level :: rest =>
      if level = 6 then
        (match (stboxIntAck m 6).1 with
        | .vector v => (v : Int)
        | _ => -1) :: stVectors (stboxIntAck m level).2 rest
      else stVectors (stboxIntAck m level).2 rest
  | m, e :: rest => stVectors (stStep m e) rest

def hubOps : MfpEvent -> List Op
  | .write a v _ => [.writeSnoop (0x00FFFA00#32 ||| (a &&& 0x3F#32)) (v.setWidth 32) false]
  | .raise ch => [.raise ch.val]
  | .ack level => if level = 6 then [.iack] else []
  | .vbl => []
  | .hbl => []

/-!
## Two bytes as a mask
-/

theorem word_bit (a b : Byte) {i : Nat} (hi : i < 16) :
    (word a b).getLsbD i = if i < 8 then b.getLsbD i else a.getLsbD (i - 8) := by
  unfold word
  rw [BitVec.getLsbD_or, BitVec.getLsbD_shiftLeft, BitVec.getLsbD_setWidth,
    BitVec.getLsbD_setWidth]
  by_cases h8 : i < 8
  · simp [h8, hi]
  · have hge : 8 ≤ i := Nat.le_of_not_lt h8
    have hlt : i - 8 < 16 := by lia
    simp [h8, hi, hlt, BitVec.getLsbD_of_ge b i hge]

theorem word_ext {x : Mask} {a b : Byte} (hlow : forall i, i < 8 -> x.getLsbD i = b.getLsbD i)
    (hhigh : forall i, i < 8 -> x.getLsbD (i + 8) = a.getLsbD i) : x = word a b := by
  apply BitVec.eq_of_getLsbD_eq
  intro i hi
  rw [word_bit a b hi]
  by_cases h8 : i < 8
  · rw [if_pos h8, hlow i h8]
  · have h := hhigh (i - 8) (by lia)
    rw [Nat.sub_add_cancel (Nat.le_of_not_lt h8)] at h
    rw [if_neg h8, h]

theorem word_low (a b : Byte) {i : Nat} (hi : i < 8) : (word a b).getLsbD i = b.getLsbD i := by
  rw [word_bit a b (by lia), if_pos hi]

theorem word_high (a b : Byte) {i : Nat} (hi : i < 8) :
    (word a b).getLsbD (i + 8) = a.getLsbD i := by
  rw [word_bit a b (by lia), if_neg (by lia), Nat.add_sub_cancel]

theorem word_and (a b c d : Byte) : word a b &&& word c d = word (a &&& c) (b &&& d) := by
  apply word_ext
  · intro i hi
    simp [word_low, hi]
  · intro i hi
    simp [word_high, hi]

theorem word_or (a b c d : Byte) : word a b ||| word c d = word (a ||| c) (b ||| d) := by
  apply word_ext
  · intro i hi
    simp [word_low, hi]
  · intro i hi
    simp [word_high, hi]

theorem word_not (a b : Byte) : ~~~word a b = word (~~~a) (~~~b) := by
  apply word_ext
  · intro i hi
    have hi' : i < 16 := by lia
    rw [BitVec.getLsbD_not, BitVec.getLsbD_not, word_low a b hi]
    simp [hi, hi']
  · intro i hi
    have hi' : i + 8 < 16 := by lia
    rw [BitVec.getLsbD_not, BitVec.getLsbD_not, word_high a b hi]
    simp [hi, hi']

theorem high_byte (v : Byte) : v.setWidth 16 <<< 8 = word v 0 := by
  simp [word]

theorem low_byte (v : Byte) : v.setWidth 16 = word 0 v := by
  simp [word]

theorem low_ones : (0x00FF : Mask) = word 0 0xFF := by
  decide

theorem high_ones : (0xFF00 : Mask) = word 0xFF 0 := by
  decide

theorem and_ones (v : Byte) : v &&& 0xFF = v := by
  have hones : (0xFF : Byte) = BitVec.allOnes 8 := by decide
  rw [hones, BitVec.and_allOnes]

theorem withA_word (a b v : Byte) : withA (word a b) v = word v b := by
  change (word a b &&& (0x00FF : Mask)) ||| v.setWidth 16 <<< 8 = word v b
  rw [high_byte, low_ones, word_and, word_or, and_ones]
  simp

theorem withB_word (a b v : Byte) : withB (word a b) v = word a v := by
  unfold withB
  rw [low_byte, high_ones, word_and, word_or, and_ones]
  simp

theorem keepA (a b v : Byte) :
    word a b &&& ((v.setWidth 16 <<< 8) ||| 0x00FF) = word (a &&& v) b := by
  have hzero : (0 : Byte) ||| 0xFF = 0xFF := by decide
  have hv : v ||| 0 = v := BitVec.or_zero
  rw [high_byte, low_ones, word_or, word_and, hv, hzero, and_ones]

theorem keepB (a b v : Byte) :
    word a b &&& (0xFF00 ||| v.setWidth 16) = word a (b &&& v) := by
  have hzero : (0xFF : Byte) ||| 0 = 0xFF := by decide
  have hv : 0 ||| v = v := BitVec.zero_or
  rw [low_byte, high_ones, word_or, word_and, hv, hzero, and_ones]

theorem channel_bit (ch : Fin 16) :
    1#16 <<< ch.val =
      if 8 ≤ ch.val then word (1#8 <<< (ch.val - 8)) 0 else word 0 (1#8 <<< ch.val) := by
  revert ch
  decide

theorem word_eq_zero {a b : Byte} : word a b = 0 <-> a = 0 ∧ b = 0 := by
  constructor
  · intro h
    constructor
    · apply BitVec.eq_of_getLsbD_eq
      intro i hi
      rw [← word_high a b hi, h]
      simp
    · apply BitVec.eq_of_getLsbD_eq
      intro i hi
      rw [← word_low a b hi, h]
      simp
  · rintro ⟨rfl, rfl⟩
    decide

/-!
## What each operation does to the masks
-/

def Latched (m : StMfp) : Prop :=
  m.ipr &&& m.ier = m.ipr

theorem latch_masks (m : StMfp) (ch : Fin 16) :
    (latch m ch).ipr =
        (if m.ier &&& (1#16 <<< ch.val) ≠ 0 then m.ipr ||| (1#16 <<< ch.val) else m.ipr) ∧
      (latch m ch).ier = m.ier ∧ (latch m ch).imr = m.imr ∧ (latch m ch).isr = m.isr ∧
        (latch m ch).vr = m.vr := by
  rw [channel_bit]
  unfold latch
  dsimp only
  by_cases hset : 8 ≤ ch.val
  · rw [if_pos hset, if_pos hset]
    have hbit : m.ier &&& word (1#8 <<< (ch.val - 8)) 0 ≠ 0 <->
        m.iera &&& (1#8 <<< (ch.val - 8)) ≠ 0 := by
      change word _ _ &&& _ ≠ 0 <-> _
      rw [word_and, Ne, word_eq_zero]
      simp
    by_cases hier : m.iera &&& (1#8 <<< (ch.val - 8)) ≠ 0
    · rw [if_pos hier, if_pos (hbit.mpr hier)]
      refine ⟨?_, rfl, rfl, rfl, rfl⟩
      change word _ _ = word _ _ ||| _
      rw [word_or]
      simp
    · rw [if_neg hier, if_neg (fun hne => hier (hbit.mp hne))]
      exact ⟨rfl, rfl, rfl, rfl, rfl⟩
  · rw [if_neg hset, if_neg hset]
    have hbit : m.ier &&& word 0 (1#8 <<< ch.val) ≠ 0 <-> m.ierb &&& (1#8 <<< ch.val) ≠ 0 := by
      change word _ _ &&& _ ≠ 0 <-> _
      rw [word_and, Ne, word_eq_zero]
      simp
    by_cases hier : m.ierb &&& (1#8 <<< ch.val) ≠ 0
    · rw [if_pos hier, if_pos (hbit.mpr hier)]
      refine ⟨?_, rfl, rfl, rfl, rfl⟩
      change word _ _ = word _ _ ||| _
      rw [word_or]
      simp
    · rw [if_neg hier, if_neg (fun hne => hier (hbit.mp hne))]
      exact ⟨rfl, rfl, rfl, rfl, rfl⟩

theorem take_masks (m : StMfp) (ch : Fin 16) :
    (take m ch.val).ipr = m.ipr &&& ~~~(1#16 <<< ch.val) ∧
      (take m ch.val).isr =
        (if m.vr &&& 0x08 ≠ 0 then m.isr ||| (1#16 <<< ch.val) else m.isr) ∧
      (take m ch.val).ier = m.ier ∧ (take m ch.val).imr = m.imr ∧ (take m ch.val).vr = m.vr := by
  have hones : ~~~(0 : Byte) = 0xFF := by decide
  rw [channel_bit]
  unfold take
  dsimp only
  by_cases hset : 8 ≤ ch.val
  · rw [if_pos hset, if_pos hset, word_not, hones]
    refine ⟨?_, ?_, rfl, rfl, rfl⟩
    · change word _ _ = word _ _ &&& _
      rw [word_and, and_ones]
    · change word _ _ = if m.vr &&& 0x08 ≠ 0 then word _ _ ||| _ else word _ _
      rw [word_or]
      split <;> simp
  · rw [if_neg hset, if_neg hset, word_not, hones]
    refine ⟨?_, ?_, rfl, rfl, rfl⟩
    · change word _ _ = word _ _ &&& _
      rw [word_and, and_ones]
    · change word _ _ = if m.vr &&& 0x08 ≠ 0 then word _ _ ||| _ else word _ _
      rw [word_or]
      split <;> simp

def hubReg : StReg -> Option Reg
  | .iera => some .iera
  | .ierb => some .ierb
  | .ipra => some .ipra
  | .iprb => some .iprb
  | .isra => some .isra
  | .isrb => some .isrb
  | .imra => some .imra
  | .imrb => some .imrb
  | .vr => some .vr
  | .tacr => some .tacr
  | .tadr => some .tadr
  | _ => none

theorem hub_offset (off : BitVec 6) :
    (if (0x00FFFA00#32 ||| off.setWidth 32) &&& 0x00FFFFFF#32 < 0x00FFFA00#32 ∨
        (0x00FFFA00#32 ||| off.setWidth 32) &&& 0x00FFFFFF#32 > 0x00FFFA2F#32 then none
      else regAt ((0x00FFFA00#32 ||| off.setWidth 32) &&& 0x00FFFFFF#32)) =
      (stRegAt off).bind hubReg := by
  revert off
  decide

theorem writeSnoop_offset (h : Hub) (a : Long) (v : Byte) :
    writeSnoop h (0x00FFFA00#32 ||| (a &&& 0x3F#32)) (v.setWidth 32) false =
      match (stRegAt (a.setWidth 6)).bind hubReg with
      | some r => regWrite h r v
      | none => h := by
  have hoff : a &&& 0x3F#32 = (a.setWidth 6).setWidth 32 := by
    apply BitVec.eq_of_getLsbD_eq
    intro i hi
    have hmask : (0x3F#32).getLsbD i = decide (i < 6) := by
      interval_cases i <;> rfl
    rw [BitVec.getLsbD_and, hmask, BitVec.getLsbD_setWidth, BitVec.getLsbD_setWidth]
    simp [hi, Bool.and_comm]
  have hv : (v.setWidth 32).setWidth 8 = v := by simp
  have hreg := hub_offset (a.setWidth 6)
  rw [hoff, ← hreg]
  unfold writeSnoop
  dsimp only
  rw [hv]
  split
  · rfl
  · rfl

/-!
## Pending channels stay enabled
-/

theorem and_and_self (x v : Byte) : x &&& v &&& v = x &&& v := by
  rw [BitVec.and_assoc, BitVec.and_self]

theorem latched_iff (m : StMfp) :
    Latched m <-> m.ipra &&& m.iera = m.ipra ∧ m.iprb &&& m.ierb = m.iprb := by
  unfold Latched StMfp.ipr StMfp.ier
  rw [word_and]
  constructor
  · intro h
    constructor
    · apply BitVec.eq_of_getLsbD_eq
      intro i hi
      rw [← word_high _ (m.iprb &&& m.ierb) hi, h, word_high _ _ hi]
    · apply BitVec.eq_of_getLsbD_eq
      intro i hi
      rw [← word_low (m.ipra &&& m.iera) _ hi, h, word_low _ _ hi]
  · intro h
    rw [h.1, h.2]

variable {m : StMfp}

theorem latched_updateIrq (h : Latched m) : Latched (updateIrq m) :=
  h

theorem latched_latch (h : Latched m) (ch : Fin 16) : Latched (latch m ch) := by
  have hmasks := latch_masks m ch
  unfold Latched
  rw [hmasks.1, hmasks.2.1]
  by_cases hier : m.ier &&& (1#16 <<< ch.val) ≠ 0
  · rw [if_pos hier]
    apply BitVec.eq_of_getLsbD_eq
    intro i hi
    have hbit : (m.ipr &&& m.ier).getLsbD i = m.ipr.getLsbD i := by rw [h]
    have hone := getLsbD_one_shiftLeft ch ⟨i, hi⟩
    dsimp only at hone
    rw [BitVec.getLsbD_and] at hbit
    rw [BitVec.getLsbD_and, BitVec.getLsbD_or, hone]
    by_cases hch : ch = ⟨i, hi⟩
    · have hset : m.ier.getLsbD i = true := by
        by_contra hclear
        apply hier
        apply BitVec.eq_of_getLsbD_eq
        intro j hj
        have honej := getLsbD_one_shiftLeft ch ⟨j, hj⟩
        dsimp only at honej
        rw [BitVec.getLsbD_and, honej]
        by_cases hj' : ch = ⟨j, hj⟩
        · have hij : i = j := by
            rw [hch] at hj'
            exact Fin.mk.inj hj'
          subst hij
          simp [hclear]
        · simp [hj']
      simp [hset]
    · simp only [hch, decide_false, Bool.or_false]
      exact hbit
  · rw [if_neg hier]
    exact h

theorem latched_stRegWrite (h : Latched m) (rdrf : Bool) (r : StReg) (v : Byte) :
    Latched (stRegWrite m rdrf r v) := by
  have hbytes := (latched_iff m).mp h
  cases r with
  | iera => exact (latched_iff _).mpr ⟨and_and_self _ _, hbytes.2⟩
  | ierb =>
      have hwritten : Latched { m with ierb := v, iprb := m.iprb &&& v } :=
        (latched_iff _).mpr ⟨hbytes.1, and_and_self _ _⟩
      unfold stRegWrite
      dsimp only
      split
      · exact latched_updateIrq (latched_latch hwritten _)
      · exact hwritten
  | ipra =>
      refine (latched_iff _).mpr ⟨?_, hbytes.2⟩
      change m.ipra &&& v &&& m.iera = m.ipra &&& v
      rw [BitVec.and_assoc, BitVec.and_comm v, ← BitVec.and_assoc, hbytes.1]
  | iprb =>
      refine (latched_iff _).mpr ⟨hbytes.1, ?_⟩
      change m.iprb &&& v &&& m.ierb = m.iprb &&& v
      rw [BitVec.and_assoc, BitVec.and_comm v, ← BitVec.and_assoc, hbytes.2]
  | _ => exact h

theorem latched_take (h : Latched m) (ch : Fin 16) : Latched (take m ch.val) := by
  have hmasks := take_masks m ch
  unfold Latched at h ⊢
  rw [hmasks.1, hmasks.2.2.1, BitVec.and_assoc, BitVec.and_comm (~~~_), ← BitVec.and_assoc, h]

theorem latched_stStep (m : StMfp) (e : MfpEvent) (h : Latched m) : Latched (stStep m e) := by
  cases e with
  | write a v rdrf =>
      change Latched (mfpWrite m rdrf a v)
      unfold mfpWrite
      cases stRegAt (a.setWidth 6) with
      | some r => exact latched_updateIrq (latched_stRegWrite h rdrf r v)
      | none => exact latched_updateIrq h
  | raise ch => exact latched_updateIrq (latched_latch h ch)
  | ack level =>
      change Latched (stboxIntAck m level).2
      unfold stboxIntAck
      split
      · cases hscan : scanDown m.pend 16 with
        | none => exact latched_updateIrq h
        | some ch =>
            have hlt := (scanDown_eq_some hscan).1
            exact latched_updateIrq (latched_take h ⟨ch, hlt⟩)
      · split
        · exact latched_updateIrq h
        · split
          · exact latched_updateIrq h
          · exact h
  | vbl => exact latched_updateIrq h
  | hbl => exact latched_updateIrq h

/-!
## The rule
-/

/-- The interrupt rule of the 68901, as the hub has it, at one event. -/
structure FollowsRule (m : StMfp) (e : MfpEvent) : Prop where
  granted : forall ch : Fin 16, e = .ack 6 ->
    (stboxIntAck m 6).1 = .vector ((m.vr &&& 0xF0).toNat + ch.val) ->
    ch ∈ bitSet m.ier ∧ ch ∈ bitSet m.ipr ∧ ch ∈ bitSet m.imr ∧
      (forall b, b ∈ bitSet m.isr -> b < ch) ∧
      (stboxIntAck m 6).2.isr =
        if m.vr &&& 0x08 ≠ 0 then m.isr ||| (1#16 <<< ch.val) else m.isr
  ended : forall a v rdrf, e = .write a v rdrf -> stRegAt (a.setWidth 6) = some .vr ->
    v &&& 0x08 = 0 -> (mfpWrite m rdrf a v).isr = 0

/-- No acknowledge while a channel at or above the highest unmasked pending one
is in service, and no switch to automatic end of interrupt while any is. -/
def Orderly (m : StMfp) : MfpEvent -> Prop
  | .ack level => level = 6 -> forall ch top, scanDown m.pend 16 = some ch ->
      scanDown m.isr 16 = some top -> top < ch
  | .write a v _ => stRegAt (a.setWidth 6) = some .vr -> v &&& 0x08 = 0 -> m.isr = 0
  | _ => True

theorem stboxIntAck_none (h : scanDown m.pend 16 = none) :
    stboxIntAck m 6 = (.spurious, updateIrq m) := by
  unfold stboxIntAck
  rw [if_pos rfl, h]

theorem stboxIntAck_some {ch : Nat} (h : scanDown m.pend 16 = some ch) :
    stboxIntAck m 6 = (.vector ((m.vr &&& 0xF0).toNat + ch), updateIrq (take m ch)) := by
  unfold stboxIntAck
  rw [if_pos rfl, h]

theorem mfpWrite_isr_of_vr {a : Long} (h : stRegAt (a.setWidth 6) = some .vr)
    (rdrf : Bool) (v : Byte) : (mfpWrite m rdrf a v).isr = m.isr := by
  unfold mfpWrite
  rw [h]
  rfl

theorem pend_bits (h : Latched m) {ch : Fin 16} (hch : ch ∈ bitSet m.pend) :
    ch ∈ bitSet m.ier ∧ ch ∈ bitSet m.ipr ∧ ch ∈ bitSet m.imr := by
  have hpend : m.pend = m.ipr &&& m.imr := (word_and _ _ _ _).symm
  rw [mem_bitSet, hpend, BitVec.getLsbD_and, Bool.and_eq_true] at hch
  have hipr : (m.ipr &&& m.ier).getLsbD ch = true := by
    rw [h]
    exact hch.1
  rw [BitVec.getLsbD_and, Bool.and_eq_true] at hipr
  exact ⟨hipr.2, hch.1, hch.2⟩

theorem followsRule_iff (h : Latched m) (e : MfpEvent) :
    FollowsRule m e <-> Orderly m e := by
  constructor
  · intro hrule
    cases e with
    | ack level =>
        rintro rfl ch top hch htop
        obtain ⟨hlt, hgreatest⟩ := scanDown_isGreatest hch
        obtain ⟨htoplt, htopgreatest⟩ := scanDown_isGreatest htop
        have hgranted := hrule.granted ⟨ch, hlt⟩ rfl (by rw [stboxIntAck_some hch])
        exact hgranted.2.2.2.1 ⟨top, htoplt⟩ htopgreatest.1
    | write a v rdrf =>
        intro hvr hbit
        have hended := hrule.ended a v rdrf rfl hvr hbit
        rw [mfpWrite_isr_of_vr hvr] at hended
        exact hended
    | raise ch => trivial
    | vbl => trivial
    | hbl => trivial
  · intro horderly
    constructor
    · rintro ch rfl hvector
      cases hscan : scanDown m.pend 16 with
      | none =>
          rw [stboxIntAck_none hscan] at hvector
          cases hvector
      | some k =>
          rw [stboxIntAck_some hscan] at hvector ⊢
          obtain ⟨hlt, hgreatest⟩ := scanDown_isGreatest hscan
          injection hvector with hvector
          have hk : k = ch.val := by lia
          subst hk
          rcases pend_bits h hgreatest.1 with ⟨hier, hipr, himr⟩
          refine ⟨hier, hipr, himr, ?_, (take_masks m ch).2.1⟩
          intro b hb
          cases htop : scanDown m.isr 16 with
          | none =>
              have hclear := scanDown_eq_none_iff.mp htop b.val b.isLt
              rw [mem_bitSet, hclear] at hb
              cases hb
          | some top =>
              obtain ⟨htoplt, htopgreatest⟩ := scanDown_isGreatest htop
              have hlt' := horderly rfl ch.val top hscan htop
              have hle := htopgreatest.2 hb
              exact lt_of_le_of_lt hle hlt'
    · rintro a v rdrf rfl hvr hbit
      rw [mfpWrite_isr_of_vr hvr]
      exact horderly hvr hbit

/-!
## The hub beside it
-/

structure Mirrors (m : StMfp) (h : Hub) : Prop where
  ier : h.ier = m.ier
  imr : h.imr = m.imr
  ipr : h.vpend = m.ipr
  isr : h.visr = m.isr
  vr : h.vr = m.vr
  level : forall ch, h.level ch = none

theorem Mirrors.updateIrq {h : Hub} (hm : Mirrors m h) :
    Mirrors (Mfp.updateIrq m) h :=
  ⟨hm.ier, hm.imr, hm.ipr, hm.isr, hm.vr, hm.level⟩

theorem Mirrors.raise {h : Hub} (hm : Mirrors m h) (ch : Fin 16) :
    Mirrors (mfpRaise m ch) (Mfp.raise h ch.val) := by
  have hmasks := latch_masks m ch
  apply Mirrors.updateIrq
  have hrange : ¬ ((ch.val : Int) < 0 ∨ (ch.val : Int) > 15) := by lia
  unfold Mfp.raise
  rw [if_neg hrange]
  dsimp only
  rw [Int.toNat_natCast]
  rw [← hm.ipr, ← hm.ier] at hmasks
  by_cases hier : h.ier &&& (1#16 <<< ch.val) ≠ 0
  · rw [if_pos hier] at hmasks ⊢
    exact ⟨hmasks.2.1.symm, hm.imr.trans hmasks.2.2.1.symm, hmasks.1.symm,
      hm.isr.trans hmasks.2.2.2.1.symm, hm.vr.trans hmasks.2.2.2.2.symm, hm.level⟩
  · rw [if_neg hier] at hmasks ⊢
    exact ⟨hmasks.2.1.symm, hm.imr.trans hmasks.2.2.1.symm, hmasks.1.symm,
      hm.isr.trans hmasks.2.2.2.1.symm, hm.vr.trans hmasks.2.2.2.2.symm, hm.level⟩

theorem Mirrors.regWrite {h : Hub} (hm : Mirrors m h) (hl : Latched m) (r : StReg) (v : Byte)
    (hended : r = .vr -> v &&& 0x08 = 0 -> m.isr = 0) :
    Mirrors (stRegWrite m false r v)
      (match hubReg r with
      | some r' => Mfp.regWrite h r' v
      | none => h) := by
  have hier : h.ier = word m.iera m.ierb := hm.ier
  have himr : h.imr = word m.imra m.imrb := hm.imr
  have hipr : h.vpend = word m.ipra m.iprb := hm.ipr
  have hisr : h.visr = word m.isra m.isrb := hm.isr
  have hbytes := (latched_iff m).mp hl
  cases r with
  | iera =>
      refine ⟨?_, hm.imr, ?_, hm.isr, hm.vr, hm.level⟩
      · change withA h.ier v = word v m.ierb
        rw [hier, withA_word]
      · change h.vpend &&& withA h.ier v = word (m.ipra &&& v) m.iprb
        rw [hier, hipr, withA_word, word_and, hbytes.2]
  | ierb =>
      have hquiet : stRegWrite m false .ierb v = { m with ierb := v, iprb := m.iprb &&& v } := by
        unfold stRegWrite
        simp
      rw [hquiet]
      refine ⟨?_, hm.imr, ?_, hm.isr, hm.vr, hm.level⟩
      · change withB h.ier v = word m.iera v
        rw [hier, withB_word]
      · change h.vpend &&& withB h.ier v = word m.ipra (m.iprb &&& v)
        rw [hier, hipr, withB_word, word_and, hbytes.1]
  | ipra =>
      refine ⟨hm.ier, hm.imr, ?_, hm.isr, hm.vr, hm.level⟩
      change h.vpend &&& _ = word (m.ipra &&& v) m.iprb
      rw [hipr, keepA]
  | iprb =>
      refine ⟨hm.ier, hm.imr, ?_, hm.isr, hm.vr, hm.level⟩
      change h.vpend &&& _ = word m.ipra (m.iprb &&& v)
      rw [hipr, keepB]
  | isra =>
      refine ⟨hm.ier, hm.imr, hm.ipr, ?_, hm.vr, hm.level⟩
      change h.visr &&& _ = word (m.isra &&& v) m.isrb
      rw [hisr, keepA]
  | isrb =>
      refine ⟨hm.ier, hm.imr, hm.ipr, ?_, hm.vr, hm.level⟩
      change h.visr &&& _ = word m.isra (m.isrb &&& v)
      rw [hisr, keepB]
  | imra =>
      refine ⟨hm.ier, ?_, hm.ipr, hm.isr, hm.vr, hm.level⟩
      change withA h.imr v = word v m.imrb
      rw [himr, withA_word]
  | imrb =>
      refine ⟨hm.ier, ?_, hm.ipr, hm.isr, hm.vr, hm.level⟩
      change withB h.imr v = word m.imra v
      rw [himr, withB_word]
  | vr =>
      refine ⟨hm.ier, hm.imr, hm.ipr, ?_, rfl, hm.level⟩
      change (if v &&& 0x08 = 0 then 0 else h.visr) = m.isr
      by_cases hbit : v &&& 0x08 = 0
      · rw [if_pos hbit, hended rfl hbit]
      · rw [if_neg hbit, hm.isr]
  | _ => exact ⟨hm.ier, hm.imr, hm.ipr, hm.isr, hm.vr, hm.level⟩

theorem Mirrors.write {h : Hub} (hm : Mirrors m h) (hl : Latched m) (a : Long)
    (v : Byte) (horderly : Orderly m (.write a v false)) :
    Mirrors (mfpWrite m false a v)
      (writeSnoop h (0x00FFFA00#32 ||| (a &&& 0x3F#32)) (v.setWidth 32) false) := by
  rw [writeSnoop_offset]
  unfold mfpWrite
  unfold Orderly at horderly
  cases hreg : stRegAt (a.setWidth 6) with
  | none => exact hm.updateIrq
  | some r =>
      have hended : r = .vr -> v &&& 0x08 = 0 -> m.isr = 0 := by
        rintro rfl
        exact horderly hreg
      exact (hm.regWrite hl r v hended).updateIrq

theorem Mirrors.requests {h : Hub} (hm : Mirrors m h) (hl : Latched m) :
    Mfp.requests h = bitSet m.pend := by
  have hpend : m.pend = m.ipr &&& m.imr := (word_and _ _ _ _).symm
  ext i
  have hlatched : (m.ipr &&& m.ier).getLsbD i = m.ipr.getLsbD i := by rw [hl]
  rw [mem_requests_iff, mem_bitSet, BitVec.getLsbD_and, pendingNow_bit, hm.level, hm.ipr, hm.ier,
    hm.imr, hpend, BitVec.getLsbD_and]
  rw [BitVec.getLsbD_and] at hlatched
  simp only [reduceCtorEq, decide_false, Bool.or_false]
  rw [hlatched]

theorem vector_sum (vr : Byte) (ch : Fin 16) :
    (vr &&& 0xF0).toNat + ch.val =
      ((vr &&& 0xF0).setWidth 32 ||| BitVec.ofNat 32 ch.val).toNat := by
  revert vr ch
  decide +kernel

theorem Mirrors.ack {h : Hub} (hm : Mirrors m h) (hl : Latched m)
    (horderly : Orderly m (.ack 6)) :
    Mirrors (stboxIntAck m 6).2 (iack h).2 ∧
      (iack h).1 = match (stboxIntAck m 6).1 with
        | .vector v => (v : Int)
        | _ => -1 := by
  have hrequests := hm.requests hl
  cases hscan : scanDown m.pend 16 with
  | none =>
      rw [stboxIntAck_none hscan]
      rcases iack_cases h with ⟨_, _, hnone⟩ | ⟨ch, _, hgreatest, _, _⟩
      · rw [hnone]
        exact ⟨hm.updateIrq, rfl⟩
      · have hch := hgreatest.1.1
        have hclear := scanDown_eq_none_iff.mp hscan ch.val ch.isLt
        rw [hrequests, mem_bitSet, hclear] at hch
        cases hch
  | some k =>
      rw [stboxIntAck_some hscan]
      obtain ⟨hlt, hgreatest⟩ := scanDown_isGreatest hscan
      have habove : forall b, b ∈ inService h -> b < ⟨k, hlt⟩ := by
        intro b hb
        unfold inService at hb
        rw [hm.isr] at hb
        have hrule := (followsRule_iff hl (.ack 6)).mpr horderly
        exact (hrule.granted ⟨k, hlt⟩ rfl (by rw [stboxIntAck_some hscan])).2.2.2.1 b hb
      have hdeliver : ⟨k, hlt⟩ ∈ Deliverable (Mfp.requests h) (inService h) := by
        refine ⟨?_, habove⟩
        rw [hrequests]
        exact hgreatest.1
      rcases iack_cases h with ⟨hwant, _, _⟩ | ⟨ch, _, hgreatest', _, hsome⟩
      · exfalso
        have hzero : deliverable h = 0 := by
          unfold irqWanted at hwant
          simpa using hwant
        rw [← bitSet_deliverable, hzero, mem_bitSet] at hdeliver
        simp at hdeliver
      · have hle : ch ≤ ⟨k, hlt⟩ := by
          apply hgreatest.2
          rw [← hrequests]
          exact hgreatest'.1.1
        have hch : ch = ⟨k, hlt⟩ := le_antisymm hle (hgreatest'.2 hdeliver)
        subst hch
        have hmasks := take_masks m ⟨k, hlt⟩
        rw [hsome]
        refine ⟨Mirrors.updateIrq ?_, ?_⟩
        · refine ⟨hm.ier.trans hmasks.2.2.1.symm, hm.imr.trans hmasks.2.2.2.1.symm, ?_, ?_,
            hm.vr.trans hmasks.2.2.2.2.symm, hm.level⟩
          · change h.vpend &&& _ = _
            rw [hm.ipr]
            exact hmasks.1.symm
          · change (if h.vr &&& 0x08 ≠ 0 then h.visr ||| _ else h.visr) = _
            rw [hm.isr, hm.vr]
            exact hmasks.2.1.symm
        · change vectorOf h ⟨k, hlt⟩ = (((m.vr &&& 0xF0).toNat + k : Nat) : Int)
          unfold vectorOf
          rw [hm.vr, ← vector_sum m.vr ⟨k, hlt⟩]

/-!
## Every run
-/

/-- No write finds an ACIA byte waiting: its interrupt line is a level source. -/
def LevelFree (events : List MfpEvent) : Prop :=
  forall e, e ∈ events -> forall a v rdrf, e = .write a v rdrf -> rdrf = false

theorem Mirrors.vectors {h : Hub} (hm : Mirrors m h) (hl : Latched m)
    {events : List MfpEvent} (hfree : LevelFree events) (horderly : Steps stStep Orderly m events) :
    stVectors m events = Mfp.vectors h (events.flatMap hubOps) := by
  induction events generalizing m h with
  | nil => rfl
  | cons e events ih =>
      have hl' := latched_stStep m e hl
      have hfree' : LevelFree events := fun e' he' => hfree e' (List.mem_cons_of_mem _ he')
      rw [List.flatMap_cons]
      cases e with
      | write a v rdrf =>
          have hrdrf := hfree _ (List.mem_cons_self ..) a v rdrf rfl
          subst hrdrf
          exact ih (hm.write hl a v horderly.1) hl' hfree' horderly.2
      | raise ch => exact ih (hm.raise ch) hl' hfree' horderly.2
      | ack level =>
          by_cases hlevel : level = 6
          · subst hlevel
            have hack := hm.ack hl horderly.1
            have hrest := ih hack.1 hl' hfree' horderly.2
            change _ :: stVectors _ events = _
            change _ = (iack h).1 :: Mfp.vectors (iack h).2 (events.flatMap hubOps)
            rw [hrest, hack.2]
          · have hsame : Mirrors (stStep m (.ack level)) h := by
              change Mirrors (stboxIntAck m level).2 h
              unfold stboxIntAck
              rw [if_neg hlevel]
              split
              · exact ⟨hm.ier, hm.imr, hm.ipr, hm.isr, hm.vr, hm.level⟩
              · split
                · exact ⟨hm.ier, hm.imr, hm.ipr, hm.isr, hm.vr, hm.level⟩
                · exact hm
            have hrest := ih hsame hl' hfree' horderly.2
            have hops : hubOps (.ack level) = [] := if_neg hlevel
            rw [hops, List.nil_append, ← hrest, stVectors, if_neg hlevel]
            rfl
      | vbl =>
          exact ih ⟨hm.ier, hm.imr, hm.ipr, hm.isr, hm.vr, hm.level⟩ hl' hfree' horderly.2
      | hbl =>
          exact ih ⟨hm.ier, hm.imr, hm.ipr, hm.isr, hm.vr, hm.level⟩ hl' hfree' horderly.2

def silencedHub : Hub :=
  run step boot
    [.writeSnoop 0x00FFFA07#32 0 false, .writeSnoop 0x00FFFA09#32 0 false,
      .writeSnoop 0x00FFFA13#32 0 false, .writeSnoop 0x00FFFA15#32 0 false,
      .writeSnoop 0x00FFFA17#32 0 false]

theorem coldReset_mirrors : Mirrors coldReset silencedHub :=
  ⟨by decide, by decide, by decide, by decide, by decide, fun _ => rfl⟩

/-- The MFP of the STBOX keeps the rule of the hub, and without level sources
delivers its vectors, in exactly the orderly runs. -/
theorem stbox_follows_hub_iff (events : List MfpEvent) :
    (Steps stStep FollowsRule coldReset events ∧
      (LevelFree events ->
        stVectors coldReset events = vectors silencedHub (events.flatMap hubOps))) <->
    Steps stStep Orderly coldReset events := by
  have hl : Latched coldReset := by
    unfold Latched
    decide
  have hiff : Steps stStep FollowsRule coldReset events <-> Steps stStep Orderly coldReset events :=
    Steps.iff_of_invariant (fun m e hm _ => latched_stStep m e hm)
      (fun m e hm => followsRule_iff hm e) hl
  constructor
  · intro h
    exact hiff.mp h.1
  · intro h
    exact ⟨hiff.mpr h, fun hfree => coldReset_mirrors.vectors hl hfree h⟩

/-- Channel 13 is in service when channel 6 becomes pending and is acknowledged. -/
def nestedBelow : List MfpEvent :=
  [.write 0x07 0x20 false, .write 0x13 0x20 false, .write 0x09 0x40 false,
    .write 0x15 0x40 false, .write 0x17 0x48 false, .raise MFP_CH_TIMER_A, .ack 6,
    .raise MFP_CH_ACIA, .ack 6]

theorem nested_ack_granted :
    ¬ (Steps stStep FollowsRule coldReset nestedBelow ∧
      stVectors coldReset nestedBelow =
        vectors silencedHub (nestedBelow.flatMap hubOps)) := by
  intro h
  have hst : stVectors coldReset nestedBelow = [0x4D, 0x46] := by decide
  have hhub : vectors silencedHub (nestedBelow.flatMap hubOps) = [0x4D, -1] := by
    decide
  rw [hst, hhub] at h
  exact absurd h.2 (by decide)

end Mfp
end PistormAtari
