import PistormAtari.Foundation.CNumber

/-!
# The values of the loader's lines

The words and numbers that `config_file.c` reads off the text behind a command.
-/

namespace PistormAtari
namespace Config

open Foundation

/-!
## Numbers
-/

/-- `strtoul(s, &end, 0)`: the value and what stands at `end`. -/
def strtoul (s : Text) : Nat × Text :=
  let digitsFrom (negative : Bool) (d : Text) : Nat × Text :=
    let (base, d) := numberBase d
    let digits := d.takeWhile (isDigitOf base)
    if digits.isEmpty then (0, s)
    else
      let n := digitsValue base digits
      (if 2 ^ 64 ≤ n then 2 ^ 64 - 1 else if negative then (2 ^ 64 - n) % 2 ^ 64 else n,
        d.drop digits.length)
  match s.dropWhile isspace with
  | '-' :: cs => digitsFrom true cs
  | '+' :: cs => digitsFrom false cs
  | cs => digitsFrom false cs

def atoi (s : Text) : Int :=
  let digits (d : Text) : Int := digitsValue 10 (d.takeWhile (isDigitOf 10))
  match s.dropWhile isspace with
  | '-' :: cs => toInt32 (clampLong (-digits cs))
  | '+' :: cs => toInt32 (clampLong (digits cs))
  | cs => toInt32 (clampLong (digits cs))

def suffixed (kilo mega giga : Nat) (s : Text) : Nat :=
  match (skipBlanks s).head?.map Char.toUpper with
  | some 'K' => kilo
  | some 'M' => mega
  | some 'G' => giga
  | _ => 1

def getInt (str : Text) : UInt32 :=
  if str = [] then UInt32.ofNat (2 ^ 32 - 1)
  else
    let n := strtoul (skipBlanks str)
    UInt32.ofNat (n.1 * suffixed 1024 (1024 * 1024) (1024 * 1024 * 1024) n.2)

def getSizeKb (str : Text) : Int32 :=
  if skipBlanks str = [] then 0
  else
    let n := strtoul (skipBlanks str)
    Int32.ofInt (n.1 * suffixed 1 1024 (1024 * 1024) n.2 : Nat)

/-!
## Words
-/

/-- The word a switch compares: up to a blank, in lower case, and cut to its buffer. -/
def switchWord (str : Text) : Text :=
  lowercase (((skipBlanks str).takeWhile (fun c => !isBlank c)).take 31)

def falseWords : List Text :=
  ["0".toList, "off".toList, "no".toList, "false".toList, "disabled".toList, "disable".toList]

def trueWords : List Text :=
  ["1".toList, "on".toList, "yes".toList, "true".toList, "enabled".toList, "enable".toList]

def getBoolDefaultTrue (str : Text) : Bool :=
  !falseWords.contains (switchWord str)

def isBoolFalse (str : Text) : Bool := falseWords.contains (switchWord str)

def isBoolTrue (str : Text) : Bool := trueWords.contains (switchWord str)

def cpuTypes : List Text :=
  ["NONE".toList, "68000".toList, "68010".toList, "68020".toList, "68030".toList,
    "68040".toList, "68060".toList]

def getM68kCpuType (name : Text) : Nat :=
  (cpuTypes.findIdx? (· == name)).getD 1

def hostfsDriveIndex (drive : Char) : Option Nat :=
  let drive := drive.toUpper
  if 'A' ≤ drive ∧ drive ≤ 'Z' then some (drive.toNat - 'A'.toNat)
  else if '0' ≤ drive ∧ drive ≤ '5' then some (26 + (drive.toNat - '0'.toNat))
  else none

/-- A slot in front of a value, by the names that `slotOf` knows. -/
def slotInFront (slotOf : Char -> Option Nat) (val : Text) : Option Nat × Text :=
  let val := skipBlanks val
  match val with
  | c :: d :: rest =>
      match slotOf c with
      | some slot =>
          if d = ':' ∨ isBlank d then (some slot, skipBlanks rest) else (none, val)
      | none => (none, val)
  | _ => (none, val)

def slotPrefix : Text -> Option Nat × Text :=
  slotInFront fun c => if '0' ≤ c ∧ c ≤ '7' then some (c.toNat - '0'.toNat) else none

def fddSlotPrefix : Text -> Option Nat × Text :=
  slotInFront fun c =>
    if '0' ≤ c ∧ c ≤ '9' then some (c.toNat - '0'.toNat)
    else if c = 'A' ∨ c = 'a' then some 0
    else if c = 'B' ∨ c = 'b' then some 1
    else none

/-!
## Paths
-/

/-- `snprintf(out, n, "%s", s)`. -/
def printed (n : Nat) (s : Text) : Text := s.take (n - 1)

def expandHome (userHome : Text) (n : Nat) (path : Text) : Text :=
  match path with
  | ['~'] => printed n userHome
  | '~' :: '/' :: rest => printed n (userHome ++ '/' :: rest)
  | _ => printed n path

def resolvePath (userHome base file : Text) (n : Nat) : Text :=
  let file := skipBlanks file
  if file.head? = some '/' ∨ file.head? = some '~' then expandHome userHome n file
  else if base ≠ [] then
    let bexp := expandHome userHome 512 base
    if bexp.getLast? = some '/' then printed n (bexp ++ file) else printed n (bexp ++ '/' :: file)
  else printed n file

end Config
end PistormAtari
