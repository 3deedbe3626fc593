import PistormAtari.Setup.SetupEnums

/-!
# How a value reads

The first half of `setup_page.c`: which values are switches and which of them are on,
what the page shows for a value, and what it writes for a typed one.
-/

namespace PistormAtari
namespace Setup

open Foundation

def falseWords : List Text := texts ["0", "off", "no", "false", "disabled", "disable"]
def trueWords : List Text := texts ["1", "on", "yes", "true", "enabled", "enable"]

def firstWord (v : Text) : Text :=
  v.takeWhile (fun c => !isBlank c)

def restAfterWord (val : Text) (n : Nat) : Text :=
  skipBlanks (val.drop n)

def wordIn (w : Text) (list : List Text) : Bool :=
  list.any (fun x => sameCase w x)

def wordInFalseFirst (v : Text) : Bool :=
  wordIn (firstWord v) falseWords

def firstWordIsBool (v : Text) : Bool :=
  wordIn (firstWord v) falseWords || wordIn (firstWord v) trueWords

/-- What `device_key` finds: a value that names its device, or `kbd` with a plain
word; and the rest of the value. -/
inductive DeviceKey
  | named (rest : Text)
  | keyboard (rest : Text)
  | none

def deviceKey (key val : Text) : DeviceKey :=
  if sameCase key "kbd".toList then
    if startsWith val "usb".toList then .named (restAfterWord val 3) else .keyboard val
  else if sameCase key "usb".toList ∧ startsWith val "gamepad".toList then
    .named (restAfterWord val 7)
  else .none

def spIsSwitch (val : Text) : Bool :=
  val = [] || firstWordIsBool val

def switchOn (val : Text) : Bool :=
  val = [] || !wordInFalseFirst val

def spRowOn (key val : Text) : Bool :=
  match deviceKey key val with
  | .named rest => rest = [] || !wordInFalseFirst rest
  | .keyboard rest => !wordInFalseFirst rest
  | .none => switchOn val

def hostfsDrive : Text -> Bool
  | c :: d :: _ => c.isAlpha && (isBlank d || d == ':')
  | _ => false

def hostfsPath (val : Text) : Text :=
  match val.drop 1 with
  | ':' :: rest => skipBlanks rest
  | rest => skipBlanks rest

def spSwitchText (val : Text) : Text :=
  if spIsSwitch val then
    if switchOn val then "enabled".toList else "disabled".toList
  else val

def spRowValue (key : Text) (val : Option Text) : Text :=
  match (if seCount key = 0 then none else seIndex key (val.getD [])) with
  | some i => (seLabel key i).getD []
  | none =>
      match val with
      | none => []
      | some v =>
          let shown (rest : Text) : Text :=
            let word := if spRowOn key v then "enabled".toList else "disabled".toList
            let opts :=
              if firstWordIsBool rest then restAfterWord rest (firstWord rest).length else rest
            bounded lineLen (if opts = [] then word else word ++ " (".toList ++ opts ++ ")".toList)
          match deviceKey key v with
          | .named rest | .keyboard rest => shown rest
          | .none =>
              if sameCase key "hostfs".toList ∧ hostfsDrive v then
                bounded lineLen (v.take 1 ++ ": ".toList ++ hostfsPath v)
              else spSwitchText v

def spValueFromEdit (key typed : Text) : Text :=
  if sameCase key "hostfs".toList ∧ hostfsDrive typed then
    bounded lineLen (typed.take 1 ++ ' ' :: hostfsPath typed)
  else typed

def listOff (key val : Text) : Bool :=
  match seIndex key val with
  | some i => (seChoice key i).any (fun c => sameCase c "disabled".toList)
  | none => false

def choiceIsOff (key : Text) (i : Nat) : Bool :=
  (seChoice key i).any (fun c => sameCase c "disabled".toList)

/-!
## Slots
-/

def driveSlots : Nat := 8

def slotOf (val : Option Text) : Option Nat × Text :=
  match val with
  | none => (none, [])
  | some v =>
      match skipBlanks v with
      | c :: d :: rest =>
          if '0' ≤ c ∧ c ≤ '7' ∧ (d = ':' ∨ isBlank d) then
            (some (c.toNat - '0'.toNat), skipBlanks rest)
          else (none, c :: d :: rest)
      | v => (none, v)

def isSwitchLine (key : Text) (v : Option Text) : Bool :=
  sameCase key "acsi".toList && v.any spIsSwitch

def isDisk (key : Text) : Bool :=
  sameCase key "hdd".toList || sameCase key "acsi".toList || sameCase key "fdd".toList

def acsiSwitchLine (c : Cfg) (sec : Text) : Option Nat :=
  (List.range (scCount c sec "acsi".toList)).find?
    (fun i => isSwitchLine "acsi".toList (scGetN c sec "acsi".toList i))

abbrev SlotMap := List (Option Nat)

/-- The first loop of `slot_map`: a pinned line takes its slot if that is free. -/
def pinnedSlots (c : Cfg) (sec key : Text) : SlotMap :=
  (List.range (scCount c sec key)).foldl (fun map (i : Nat) =>
    let v := scGetN c sec key i
    if isSwitchLine key v then map
    else
      match (slotOf v).1 with
      | some sl => if map.getD sl none = none then map.set sl (some i) else map
      | none => map) (List.replicate driveSlots none)

/-- The second loop of `slot_map`, with the slot that the next hdd line takes. -/
def slotMap (c : Cfg) (sec key : Text) : SlotMap :=
  ((List.range (scCount c sec key)).foldl (fun (s : SlotMap × Nat) (i : Nat) =>
    let v := scGetN c sec key i
    if isSwitchLine key v ∨ (slotOf v).1.isSome then s
    else if sameCase key "hdd".toList then
      if s.2 < driveSlots then (s.1.set s.2 (some i), s.2 + 1) else s
    else
      match s.1.findIdx? (fun e => e = none) with
      | some k => (s.1.set k (some i), s.2)
      | none => s) (pinnedSlots c sec key, 0)).1

def pinnedValue (sl : Nat) (img : Text) : Text :=
  bounded lineLen (unsigned (sl % driveSlots) ++ ':' :: img.take (lineLen - 16))

def pinAll (c : Cfg) (sec key : Text) : Cfg :=
  let map := slotMap c sec key
  (List.range driveSlots).foldl (fun c sl =>
    match map.getD sl none with
    | none => c
    | some i =>
        let pinned := slotOf (scGetN c sec key i)
        if pinned.1 = some sl then c
        else (scSetN c sec key i (some (pinnedValue sl pinned.2))).2) c

/-!
## Settings that follow each other

`did` is the note of what was changed, in a buffer of `n` characters.
-/

def note (n : Nat) (sep : String) (did what : Text) : Text :=
  bounded n (did ++ (if did = [] then [] else sep.toList) ++ what)

def setNoted (n : Nat) (sep : String) (sec key : Text) (val : Option Text) (what : Text)
    (s : Cfg × Text) : Cfg × Text :=
  let r := scSet s.1 sec key val
  (r.2, if r.1 then note n sep s.2 what else s.2)

def jitIsOff (c : Cfg) (sec : Text) : Bool :=
  match scGet c sec "jit_power".toList with
  | none => false
  | some jp =>
      match strtol jp with
      | none => true
      | some (n, _) => n == 0

def spJitRule (c : Cfg) (sec key : Text) : Option Text :=
  if sameCase key "jit_cache".toList ∧ jitIsOff c sec then
    some "the JIT is off (jit_power 0)".toList
  else if sameCase key "cpu_speed".toList ∧ ¬ jitIsOff c sec then
    some "needs the JIT off (jit_power 0)".toList
  else if (sameCase key "comp_constjump".toList ∨ sameCase key "compnf".toList ∨
      sameCase key "compfpu".toList) ∧ jitIsOff c sec then
    some "needs the JIT on (jit_power > 0)".toList
  else none

/-- Ticking cpu_compatible switches the JIT off and paces the interpreter. -/
def jitOffForPrefetch (n : Nat) (sec : Text) (s : Cfg × Text) : Cfg × Text :=
  let s :=
    if jitIsOff s.1 sec then s
    else
      setNoted n ", " sec "jit_power".toList (some "0".toList) "jit_power 0".toList s
  if (scGet s.1 sec "cpu_speed".toList).isSome then s
  else
    setNoted n ", " sec "cpu_speed".toList (some "8mhz".toList) "cpu_speed 8mhz".toList s

def jitPowerChanged (n : Nat) (sec : Text) (s : Cfg × Text) : Cfg × Text :=
  let drop (key : String) (s : Cfg × Text) : Cfg × Text :=
    setNoted n ", " sec key.toList none ('-' :: key.toList) s
  let s :=
    if ((scGet s.1 sec "jit_power".toList).isNone ∨ jitIsOff s.1 sec) ∧
        (scGet s.1 sec "jit_cache".toList).isSome then drop "jit_cache" s
    else s
  if jitIsOff s.1 sec then s
  else
    let s :=
      if (scGet s.1 sec "cpu_compatible".toList).any (spRowOn "cpu_compatible".toList) then
        drop "cpu_compatible" s
      else s
    if (scGet s.1 sec "cpu_speed".toList).isSome then drop "cpu_speed" s else s

def spJitFollow (c : Cfg) (sec key : Text) (n : Nat) : Cfg × Text :=
  let compatible :=
    sameCase key "cpu_compatible".toList &&
      (scGet c sec "cpu_compatible".toList).any (spRowOn "cpu_compatible".toList)
  let s := if compatible then jitOffForPrefetch n sec (c, []) else (c, [])
  if sameCase key "jit_power".toList ∨ compatible then jitPowerChanged n sec s else s

def spShifterFollow (c : Cfg) (sec key : Text) (n : Nat) : Cfg × Text :=
  let m := scGet c sec "machine".toList
  let mi :=
    match m with
    | none | some [] => 0
    | some w => (seIndex "machine".toList w).getD 0
  match seChoice "machine".toList mi with
  | none => (c, [])
  | some mw =>
      if sameCase mw "falcon".toList then (c, [])
      else
        let ste := sameCase mw "ste".toList
        let sh := scGet c sec "shifter".toList
        let isSte :=
          (sh.bind (seIndex "shifter".toList)).any
            (fun i => (seChoice "shifter".toList i).any (fun w => sameCase w "ste".toList))
        if sameCase key "machine".toList then
          let want := if ste then "ste".toList else "st".toList
          if sh.isNone ∨ isSte ≠ ste then
            let r := scSet c sec "shifter".toList (some want)
            (r.2, if r.1 then bounded n ("shifter ".toList ++ want) else [])
          else (c, [])
        else if sameCase key "shifter".toList ∧ isSte ∧ ¬ ste then
          let r := scSet c sec "shifter".toList (some "st".toList)
          (r.2, if r.1 then bounded n "shifter ste needs machine ste - kept st".toList else [])
        else (c, [])

/-- A section of `sp_fill_defaults`, whose machine word was read first. -/
def fillSection (c : Cfg) (sec : Text) : Cfg :=
  let m := scGet c sec "machine".toList
  let c := (Tab.all.flatMap tabKeys).foldl (fun c k =>
    match seDefaultWord k m with
    | none => c
    | some w =>
        if seRetired k ∨ (seEnvRule k sec).isSome then c
        else
          let present :=
            if sameCase k "acsi".toList then (acsiSwitchLine c sec).isSome
            else (scGet c sec k).isSome
          if present then c else (scSetN c sec k (scCount c sec k) (some w)).2) c
  always.foldl (fun c e =>
    if (scGet c sec e.1.toList).isSome then c
    else (scSet c sec e.1.toList (some e.2.toList)).2) c

def maxBuilds : Nat := 16

def spFillDefaults (c : Cfg) : Cfg :=
  (scSections c (maxBuilds + 1)).foldl (fun c sec =>
    if sameCase sec "psctrl".toList then c else fillSection c sec) c

end Setup
end PistormAtari
