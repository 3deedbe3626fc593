import PistormAtari.Foundation.CText

/-!
# Numbers in C strings

`strtol` with base 0, and the conversions of a `long` that its callers make.
-/

namespace PistormAtari
namespace Foundation

/-- The value of a character as a digit, whatever the base. -/
def digitValue (c : Char) : Option Nat :=
  if '0' ≤ c ∧ c ≤ '9' then some (c.toNat - '0'.toNat)
  else if 'a' ≤ c ∧ c ≤ 'z' then some (c.toNat - 'a'.toNat + 10)
  else if 'A' ≤ c ∧ c ≤ 'Z' then some (c.toNat - 'A'.toNat + 10)
  else none

def isDigitOf (base : Nat) (c : Char) : Bool :=
  match digitValue c with
  | some d => decide (d < base)
  | none => false

def digitsValue (base : Nat) (s : Text) : Nat :=
  s.foldl (fun n c => n * base + (digitValue c).getD 0) 0

def clampLong (i : Int) : Int :=
  max (-2 ^ 63) (min (2 ^ 63 - 1) i)

/-- The base that `strtol` reads off the digits, and where they start. -/
def numberBase : Text -> Nat × Text
  | '0' :: x :: c :: cs =>
      if (x = 'x' ∨ x = 'X') ∧ isDigitOf 16 c then (16, c :: cs) else (8, '0' :: x :: c :: cs)
  | '0' :: cs => (8, '0' :: cs)
  | s => (10, s)

/-- `strtol(s, &end, 0)`: the value and what stands at `end`, or nothing where no
digit was found. -/
def strtol (s : Text) : Option (Int × Text) :=
  let s := s.dropWhile isspace
  let (negative, s) :=
    match s with
    | '-' :: cs => (true, cs)
    | '+' :: cs => (false, cs)
    | _ => (false, s)
  let (base, s) := numberBase s
  let digits := s.takeWhile (isDigitOf base)
  if digits.isEmpty then none
  else
    let n : Int := digitsValue base digits
    some (clampLong (if negative then -n else n), s.drop digits.length)

/-- `(int)n` of a `long`. -/
def toInt32 (i : Int) : Int :=
  (BitVec.ofInt 32 i).toInt

end Foundation
end PistormAtari
