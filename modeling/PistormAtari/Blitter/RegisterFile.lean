import Mathlib

/-!
# The BLiTTER register file, its memory hooks and its source FIFO

Both blitter engines of the repository keep the same 64-byte big-endian
register file at `$FF8A00`, reach memory through a pair of 16-bit hooks and
funnel source words through the same 32-bit FIFO.  This module holds what
`st_blitter.c` and `stbox_blit.c` share word for word.
-/

namespace PistormAtari
namespace Blitter

abbrev Byte := BitVec 8
abbrev Word := BitVec 16
abbrev Long := BitVec 32

abbrev RegisterFile := BitVec 6 -> Byte

def rd16 (R : RegisterFile) (off : BitVec 6) : Word :=
  ((R off).setWidth 16 <<< 8) ||| (R (off + 1#6)).setWidth 16

def wr16 (R : RegisterFile) (off : BitVec 6) (v : Word) : RegisterFile :=
  Function.update (Function.update R off ((v >>> 8).setWidth 8)) (off + 1#6)
    (v.setWidth 8)

def rd32 (R : RegisterFile) (off : BitVec 6) : Long :=
  ((rd16 R off).setWidth 32 <<< 16) ||| (rd16 R (off + 2#6)).setWidth 32

def wr32 (R : RegisterFile) (off : BitVec 6) (v : Long) : RegisterFile :=
  wr16 (wr16 R off ((v >>> 16).setWidth 16)) (off + 2#6) (v.setWidth 16)

theorem rd16_congr {R R' : RegisterFile} {off : BitVec 6}
    (hhi : R off = R' off) (hlo : R (off + 1#6) = R' (off + 1#6)) :
    rd16 R off = rd16 R' off := by
  unfold rd16
  rw [hhi, hlo]

/-!
## Memory hooks

An engine reaches memory only through its two hooks, so it is written over
any memory type that has them.
-/

/-- The pair `pistorm_blit_read16` / `pistorm_blit_write16`, respectively
`stbox_blit_mem_r16` / `stbox_blit_mem_w16`. -/
structure BlitBus (μ : Type _) where
  read16 : μ -> Long -> Word
  write16 : μ -> Long -> Word -> μ

def flatBus : BlitBus (BitVec 24 -> Byte) where
  read16 m a :=
    let a := (a &&& 0x00FFFFFE#32).setWidth 24
    ((m a).setWidth 16 <<< 8) ||| (m (a + 1)).setWidth 16
  write16 m a v :=
    let a := (a &&& 0x00FFFFFE#32).setWidth 24
    Function.update (Function.update m a ((v >>> 8).setWidth 8)) (a + 1)
      (v.setWidth 8)

/-!
## Source FIFO and operation tables
-/

def fifoShift (desc : Bool) (buf : Long) : Long :=
  if desc then buf >>> 16 else buf <<< 16

def fifoInsert (desc : Bool) (buf : Long) (w : Word) : Long :=
  buf ||| (if desc then w.setWidth 32 <<< 16 else w.setWidth 32)

/-- A word pushed into the FIFO: the shift followed by the insertion. -/
def fifoPush (desc : Bool) (buf : Long) (w : Word) : Long :=
  fifoInsert desc (fifoShift desc buf) w

def lopSrc (op : Byte) : Bool :=
  [false, true, true, true, true, false, true, true,
    true, true, false, true, true, true, true, false].getD op.toNat false

def lopDst (op : Byte) : Bool :=
  [false, true, true, false, true, true, true, true,
    true, true, true, true, false, true, true, false].getD op.toNat false

/-- `(line + (dyi >= 0 ? 1 : -1)) & 0xF`. -/
def nextLine (line dyi : Long) : Long :=
  (line + (if dyi.slt 0 then -1 else 1)) &&& 0xF

theorem nextLine_lt (line dyi : Long) : (nextLine line dyi).toNat < 16 := by
  unfold nextLine
  rw [BitVec.toNat_and]
  exact Nat.lt_of_le_of_lt Nat.and_le_right (by decide)

/-- The bytes a guest write of `size` bytes at `addr` puts into the file. -/
def pokeBytes (R : RegisterFile) (off : BitVec 6) (val : Long) (size : Nat) :
    RegisterFile :=
  (List.range size).foldl
    (fun R i => Function.update R (off + BitVec.ofNat 6 i)
      ((val >>> (8 * (size - 1 - i))).setWidth 8)) R

/-- `addr & 0x3F`. -/
def regOffset (addr : Long) : BitVec 6 :=
  addr.setWidth 6

/-- A guest read of `size` bytes, most significant first, over a byte view. -/
def peekBytes (view : BitVec 6 -> Byte) (off : BitVec 6) (size : Nat) : Long :=
  (List.range size).foldl
    (fun v i => (v <<< 8) ||| (view (off + BitVec.ofNat 6 i)).setWidth 32) 0

theorem peekBytes_congr {view view' : BitVec 6 -> Byte}
    (h : forall o, view o = view' o) (off : BitVec 6) (size : Nat) :
    peekBytes view off size = peekBytes view' off size := by
  have hview : view = view' := funext h
  rw [hview]

end Blitter
end PistormAtari
