import PistormAtari.Foundation.Run
import PistormAtari.Config.Save

/-!
# `psctrl_settings_call`

The calls by which the settings accessory reads and writes the table, and the
deferred queue that the translator drains between blocks.
-/

namespace PistormAtari
namespace Psctrl

open Foundation
open Config
open Floppy

def pathMax : Nat := 4096

/-- What the calls ask of the host.  `gemdosToHost` is `emulator_gemdos_to_host`, which
maps a path on a host drive; the file of the configuration has a path and a text, and
`cfgWritable` says if its replacement can be written. -/
structure PsHost where
  files : HostFiles
  gemdosToHost : Text -> Option Text
  cfgPath : Text
  cfgText : Option Text
  cfgWritable : Bool
  /-- `emulator_config_section()`. -/
  booted : CBuf 32

/-!
## The deferred queue
-/

/-- `check_prefs_changed_comp(false)`: the FPU is translated whenever the translator is
on. -/
def checkPrefsChangedComp (s : PsState) : PsState :=
  let prefs := s.changedPrefs
  let prefs := if prefs.cachesize = 0 then prefs else { prefs with compfpu := true }
  { s with currprefs := prefs, changedPrefs := prefs }

def powerCache (s : PsState) : Int32 :=
  match s.current with
  | some c => if c.jitCacheSet ∧ 0 < c.jitCache then c.jitCache else 8192
  | none => 8192

def withChanged (f : JitPrefs -> JitPrefs) (s : PsState) : PsState :=
  checkPrefsChangedComp { s with changedPrefs := f s.changedPrefs }

def applyOne (s : PsState) (e : Nat × Int32) : PsState :=
  if e.1 = powerIdx then
    if e.2 = 0 then withChanged (fun p => { p with cachesize := 0 }) s
    else
      let s := withChanged (fun p => { p with cachesize := powerCache s }) s
      if s.currprefs.cachesize = 0 then s else setTunable .pissoffMult (multOfPower e.2) s
  else if e.1 = cacheIdx then
    withChanged (fun p => { p with cachesize := Int32.ofNat (rung cacheKb e.2) }) s
  else if e.1 = constjumpIdx then
    withChanged (fun p => { p with compConstjump := e.2 != 0 }) s
  else if e.1 = compnfIdx then withChanged (fun p => { p with compnf := e.2 != 0 }) s
  else if e.1 = compfpuIdx then withChanged (fun p => { p with compfpu := e.2 != 0 }) s
  else s

def applyPending (s : PsState) : PsState :=
  if s.armed then s.pending.foldl applyOne { s with pending := [], armed := false } else s

/-!
## Strings
-/

def PsState.drive (s : PsState) (b : Bool) : Drive :=
  if b then s.driveB else s.driveA

def PsState.setDrive (s : PsState) (b : Bool) (d : Drive) : PsState :=
  if b then { s with driveB := d } else { s with driveA := d }

def floppyDrive (name : Text) : Option Bool :=
  if name = "floppy_a".toList then some false
  else if name = "floppy_b".toList then some true
  else none

def itemStr (it : PsItem) (s : PsState) : Text :=
  if it.name = "rom".toList then (seeded s).rom.path.chars
  else if it.name = "stbox_tos".toList then (seeded s).stboxTos.chars
  else
    match floppyDrive it.name with
    | some b => (queryPath (s.drive b)).getD "(empty)".toList
    | none => []

def dirOf (path : Text) : Text :=
  ((path.reverse.dropWhile (· != '/')).drop 1).reverse

def fddirDefault (s : PsState) : PsState :=
  if s.fddir ≠ [] then s
  else
    let dir := match s.current with
      | some c => dirOf c.fdd.imgPath.chars
      | none => []
    { s with fddir := if dir = [] then "floppies".toList else dir }

def setstrMap (host : PsHost) (str : Text) : Text :=
  (host.gemdosToHost str).getD str

/-- The image file that a floppy row is set to, `none` when its path is too long. -/
def floppyPath (host : PsHost) (str : Text) (s : PsState) : Option Text × PsState :=
  match host.gemdosToHost str with
  | some path => (some path, s)
  | none =>
      if '/' ∈ str then (some str, s)
      else
        let s := fddirDefault s
        if s.fddir.length + str.length + 2 > pathMax then (none, s)
        else (some (s.fddir ++ '/' :: str), s)

def setFloppy (host : PsHost) (b : Bool) (str : Text) (s : PsState) : PsResult × PsState :=
  if s.fdcBusy then (.busy, s)
  else
    match floppyPath host str s with
    | (none, s) => (.reject, s)
    | (some path, s) =>
        match insertDisk host.files path false (s.drive b) with
        | (false, d) => (.reject, s.setDrive b d)
        | (true, d) => (.ok, s.setDrive b (pulseMedia d))

def itemSetstr (host : PsHost) (it : PsItem) (str : Text) (s : PsState) : PsResult × PsState :=
  if it.name = "rom".toList then
    (.restart, editBoot (fun c => { c with rom := { c.rom with path := pathBuf (setstrMap host str) } }) s)
  else if it.name = "stbox_tos".toList then
    (.boxboot, editBoot (fun c => { c with stboxTos := pathBuf (setstrMap host str) }) s)
  else
    match floppyDrive it.name with
    | some b => setFloppy host b str s
    | none => (.reject, s)

/-!
## Actions
-/

/-- The text that `config_file_save` writes, when it can; without a file it writes a
new one. -/
def savedText (host : PsHost) (s : PsState) : Option Text :=
  if host.cfgPath = [] ∨ host.cfgWritable = false then none
  else some (configFileSave ⟨host.booted, seeded s, s⟩ (host.cfgText.getD []))

def saveCfg (host : PsHost) (s : PsState) : PsResult × PsState :=
  match savedText host s with
  | none => (.reject, bootSeed s)
  | some _ => (.ok, { bootSeed s with bootDirty := false })

def swapDisks (host : PsHost) (s : PsState) : PsState :=
  let a := ejectDisk s.driveA
  let b := ejectDisk s.driveB
  let a := match queryPath s.driveB with
    | some path => (insertDisk host.files path s.driveB.writeProtected a).2
    | none => a
  let b := match queryPath s.driveA with
    | some path => (insertDisk host.files path s.driveA.writeProtected b).2
    | none => b
  { s with driveA := pulseMedia a, driveB := pulseMedia b }

def ejectDrive (name : Text) : Option Bool :=
  if name = "floppy_eject_a".toList then some false
  else if name = "floppy_eject_b".toList then some true
  else none

def doAction (host : PsHost) (it : PsItem) (s : PsState) : PsResult × PsState :=
  if it.name = "jit_flush".toList then defer flushIdx 1 s
  else
    match ejectDrive it.name with
    | some b =>
        if s.fdcBusy then (.busy, s)
        else (.ok, s.setDrive b (pulseMedia (ejectDisk (s.drive b))))
    | none =>
        if it.name = "floppy_swap".toList then
          if s.fdcBusy then (.busy, s) else (.ok, swapDisks host s)
        else if it.name = "save_cfg".toList then saveCfg host s
        else (.reject, s)

/-!
## The entry point
-/

/-- What `describe` writes for a row: its fixed fields, and its value now. -/
structure PsRecord where
  name : Text
  tab : Tab
  kind : Kind
  klass : Klass
  min : Int32
  max : Int32
  step : Int32
  unit : PsUnit
  newline : Bool
  value : Int32
  labels : List Text
  title : String

def describe (it : PsItem) (s : PsState) : PsRecord where
  name := it.name
  tab := it.tab
  kind := it.kind
  klass := it.klass
  min := it.min
  max := it.max
  step := it.step
  unit := it.unit
  newline := it.newline
  value := it.value s
  labels := it.labels
  title := it.title

/-- The calls that return to the guest.  A string is what the guest's memory holds at
the address it gives, `none` for address 0. -/
inductive PsCall
  | setapi
  | count
  | describe (p0 : UInt32)
  | getint (p0 : UInt32)
  | getstr (p0 : UInt32)
  | setstr (p0 : UInt32) (str : Option (CBuf pathMax))
  | setint (p0 : UInt32) (p1 : Int32)
  | action (p0 : UInt32)
  | save
  | list

inductive PsReply
  | result (r : PsResult)
  | number (n : Nat)
  | value (v : Int32)
  | text (t : Text)
  | record (r : PsRecord)
  | failed

def setApiVersion : Nat := 1

def rowAt (p0 : UInt32) : Option PsItem :=
  gItems[p0.toNat]?

/-- The rows whose getter is one of the `bg_` functions, which seed the shadow. -/
def readsShadow (it : PsItem) : Bool :=
  (it.klass == .boot || it.klass == .boxboot) && it.kind != .str && it.tgt.isNone

def strInShadow (it : PsItem) : Bool :=
  it.name == "rom".toList || it.name == "stbox_tos".toList

/-- `psctrl_settings_call`; `getint` is `psctrl_settings_getint`. -/
def settingsCall (host : PsHost) : PsCall -> PsState -> PsReply × PsState
  | .setapi, s => (.number setApiVersion, s)
  | .count, s => (.number gItems.length, s)
  | .list, s => (.number 0, s)
  | .describe p0, s =>
      match rowAt p0 with
      | some it => (.record (describe it s), if readsShadow it then bootSeed s else s)
      | none => (.failed, s)
  | .getint p0, s =>
      match rowAt p0 with
      | some it => (.value (it.value s), if readsShadow it then bootSeed s else s)
      | none => (.failed, s)
  | .getstr p0, s =>
      match rowAt p0 with
      | some it => (.text (itemStr it s), if strInShadow it then bootSeed s else s)
      | none => (.failed, s)
  | .setstr p0 str, s =>
      match rowAt p0, str with
      | some it, some str =>
          let r := itemSetstr host it str.chars s
          (.result r.1, r.2)
      | _, _ => (.result .reject, s)
  | .setint p0 p1, s =>
      match (rowAt p0).bind (·.set) with
      | some set =>
          let r := set false p1 s
          (.result r.1, r.2)
      | none => (.result .reject, s)
  | .action p0, s =>
      match rowAt p0 with
      | some it =>
          let r := doAction host it s
          (.result r.1, r.2)
      | none => (.result .reject, s)
  | .save, s =>
      let r := saveCfg host s
      (.result r.1, r.2)

/-!
## Runs
-/

/-- What the machine does to a drive, the controller and the readouts. -/
structure Outside where
  driveA : Drive
  driveB : Drive
  fdcBusy : Bool
  readouts : Readouts

inductive PsOp
  | call (host : PsHost) (c : PsCall)
  | drain
  | machine (w : Outside)

def psStep (s : PsState) : PsOp -> PsState
  | .call host c => (settingsCall host c s).2
  | .drain => applyPending s
  | .machine w =>
      { s with
        driveA := w.driveA
        driveB := w.driveB
        fdcBusy := w.fdcBusy
        readouts := w.readouts }

end Psctrl
end PistormAtari
