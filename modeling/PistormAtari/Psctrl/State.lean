import PistormAtari.Floppy.Drive

/-!
# State behind the settings

The tunables that the emulator re-reads while it runs, the translator's
preferences, the shadow of the configuration that boot settings are edited in, the
queue of deferred settings and the floppy drives.
-/

namespace PistormAtari
namespace Psctrl

open Foundation
open Config
open Floppy

/-- The `pst_*` variables that a setting or a `.cfg` key reaches. -/
inductive Tunable
  | pissoffMult
  | drmDirtyband | drmAsync | fvdiScale
  | blitTimedNs
  | ymGainX100 | ymLagMs | lmc | audioFrames
  | mouseThresh | mouseScale
  | stboxSliceCyc | stboxTelemetry
  | iplConfirmNs | vblRefractNs
  | verbose | compConstjump | compnf | compfpu | fddMfpIrq
  | dbgIplStats | dbgIrqStats | dbgMfp | dbgMfpHub | dbgBlitTrace | dbgDmasnd | dbgAcsi
  | dbgIde | dbgHostfs | dbgGemdos | dbgStram | dbgNet | dbgIkbd
deriving DecidableEq, Repr

abbrev Tunables := Tunable -> Int32

def defaultTunables : Tunables
  | .pissoffMult => 1024
  | .drmDirtyband => 1
  | .ymGainX100 => 100
  | .ymLagMs => 100
  | .lmc => 1
  | .audioFrames => 2048
  | .mouseScale => 1
  | .stboxSliceCyc => 64
  | .iplConfirmNs => 2000
  | .vblRefractNs => 5000000
  | .compConstjump => -1
  | .compnf => -1
  | .compfpu => -1
  | .dbgHostfs => -1
  | _ => 0

structure JitPrefs where
  cachesize : Int32
  compConstjump : Bool
  compnf : Bool
  compfpu : Bool
deriving DecidableEq

structure Readouts where
  cpuRunning : Int32
  fpuRunning : Int32
  socTemp : Int32
  throttled : Int32
  stboxRunning : Int32

structure PsState where
  /-- `emulator_config_current()`. -/
  current : Option EmulatorConfig
  /-- `g_boot`, with `g_boot_ready` and `g_boot_dirty`. -/
  boot : EmulatorConfig
  bootReady : Bool
  bootDirty : Bool
  /-- `g_pend_idx` and `g_pend_val`, oldest first. -/
  pending : List (Nat × Int32)
  armed : Bool
  tun : Tunables
  currprefs : JitPrefs
  changedPrefs : JitPrefs
  driveA : Drive
  driveB : Drive
  /-- The controller's BUSY bit. -/
  fdcBusy : Bool
  /-- `g_fddir`. -/
  fddir : Text
  readouts : Readouts

def PsState.startup : PsState where
  current := none
  boot := {}
  bootReady := false
  bootDirty := false
  pending := []
  armed := false
  tun := defaultTunables
  currprefs := ⟨0, false, false, false⟩
  changedPrefs := ⟨0, false, false, false⟩
  driveA := {}
  driveB := {}
  fdcBusy := false
  fddir := []
  readouts := ⟨0, 0, 0, 0, 0⟩

inductive PsResult
  | ok | defer | restart | boxboot | reject | busy
deriving DecidableEq, Repr

def pendMax : Nat := 24

def seeded (s : PsState) : EmulatorConfig :=
  if s.bootReady then s.boot else s.current.getD {}

def bootSeed (s : PsState) : PsState :=
  { s with boot := seeded s, bootReady := true }

/-- A boot setting: the shadow changes, and the change is not saved yet. -/
def editBoot (f : EmulatorConfig -> EmulatorConfig) (s : PsState) : PsState :=
  { s with boot := f (seeded s), bootReady := true, bootDirty := true }

def defer (idx : Nat) (v : Int32) (s : PsState) : PsResult × PsState :=
  if pendMax ≤ s.pending.length then (.reject, s)
  else (.defer, { s with pending := s.pending ++ [(idx, v)], armed := true })

def setTunable (t : Tunable) (v : Int32) (s : PsState) : PsState :=
  { s with tun := Function.update s.tun t v }

end Psctrl
end PistormAtari
