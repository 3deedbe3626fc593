import Mathlib
import PistormAtari.Dsp.Registers

/-!
# The interpreter of the DSP: address generation

An address register is stepped linearly, with a reversed carry, or inside a buffer,
after the modifier that goes with it.
-/

namespace PistormAtari
namespace Dsp56k

variable {π : Type}

def reverseBits (x : BitVec 16) : BitVec 16 :=
  (List.range 16).foldl (fun (out : BitVec 16) i => out ||| ((x >>> i &&& (1 : BitVec 16)) <<< (15 - i))) 0

def blockSize (size : Nat) : Nat :=
  if size = 1 then 1 else 1 <<< (Nat.log2 (size - 1) + 1)

def aguMod (d : Dsp π) (rn : Fin 8) (delta : Int) : BitVec 16 :=
  let r := d.r rn
  let m := d.m rn
  if m = 0 then
    let rr := reverseBits r
    let dd := reverseBits (BitVec.ofInt 16 delta)
    reverseBits (rr + dd)
  else if m.toNat ≤ 0x7FFF then
    let size := m.toNat + 1
    let p2 := blockSize size
    let ad := delta.natAbs
    if size ≤ ad ∧ ad &&& (p2 - 1) = 0 then BitVec.ofInt 16 (r.toNat + delta)
    else
      let base := r &&& ~~~(BitVec.ofNat 16 (p2 - 1))
      let off : Int := ((r.toNat : Int) - base.toNat) + delta
      let off :=
        if (size : Int) ≤ off then
          let off := off - size
          if (size : Int) ≤ off then off.tmod size else off
        else if off < 0 then
          let off := off + size
          if off < 0 then
            let off := off.tmod size
            if off < 0 then off + size else off
          else off
        else off
      BitVec.ofInt 16 (base.toNat + off)
  else BitVec.ofInt 16 (r.toNat + delta)

def aguAdd (d : Dsp π) (rn : Fin 8) (delta : Int) : BitVec 16 :=
  if d.m rn = 0xFFFF then BitVec.ofInt 16 ((d.r rn).toNat + delta) else aguMod d rn delta

def stepR (rn : Fin 8) (delta : Int) (d : Dsp π) : Dsp π := setR rn (aguAdd d rn delta) d

/-- An effective address, with the data itself where the mode is immediate. -/
structure Ea where
  addr : BitVec 16
  imm : Option (BitVec 32)

/-- The effective address of a mode and a register, which may fetch an extension word. -/
def eaCalc (mmmrrr : Nat) (d : Dsp π) : Ea × Dsp π :=
  let rn : Fin 8 := Fin.ofNat 8 mmmrrr
  let ea := d.r rn
  match (mmmrrr >>> 3) % 8 with
  | 0 => (⟨ea, none⟩, stepR rn (-(d.n rn).toInt) d)
  | 1 => (⟨ea, none⟩, stepR rn (d.n rn).toInt d)
  | 2 => (⟨ea, none⟩, stepR rn (-1) d)
  | 3 => (⟨ea, none⟩, stepR rn 1 d)
  | 4 => (⟨ea, none⟩, d)
  | 5 => (⟨aguAdd d rn (d.n rn).toInt, none⟩, d)
  | 6 =>
      let w := fetch d
      if rn.val &&& 4 ≠ 0 then (⟨0, some w.1⟩, w.2) else (⟨w.1.setWidth 16, none⟩, w.2)
  | _ =>
      let d := stepR rn (-1) d
      (⟨d.r rn, none⟩, d)

/-- The address of an X or Y move: no change, by the offset, down or up. -/
def eaXy (mm : Nat) (rn : Fin 8) (d : Dsp π) : BitVec 16 × Dsp π :=
  let ea := d.r rn
  match mm with
  | 1 => (ea, stepR rn (d.n rn).toInt d)
  | 2 => (ea, stepR rn (-1) d)
  | 3 => (ea, stepR rn 1 d)
  | _ => (ea, d)

end Dsp56k
end PistormAtari
