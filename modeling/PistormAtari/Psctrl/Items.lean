import PistormAtari.Psctrl.State

/-!
# The table of settings

Every setting is a row of `g_items`: its name, which is also its `.cfg` key, what
the dialog draws, its range, and how it is read and written.  `loading` is set while
the `.cfg` file is read.
-/

namespace PistormAtari
namespace Psctrl

open Foundation
open Config
open Floppy

inductive Tab
  | jit | cpu | video | audio | input | stbox | floppy | net | debug | adv
deriving DecidableEq, Repr

inductive Kind
  | bool | enum | int | str | action | info
deriving DecidableEq, Repr

inductive Klass
  | live | defer | boot | boxboot | ro
deriving DecidableEq, Repr

inductive PsUnit
  | none | ms | ns | cyc | x100
deriving DecidableEq, Repr

abbrev Getter := PsState -> Int32
abbrev Setter := Bool -> Int32 -> PsState -> PsResult × PsState

structure PsItem where
  name : Text
  title : String
  tab : Tab
  kind : Kind
  klass : Klass
  unit : PsUnit := .none
  min : Int32 := 0
  max : Int32 := 0
  step : Int32 := 0
  labels : List Text := []
  newline : Bool := false
  tgt : Option Tunable := Option.none
  get : Option Getter := Option.none
  set : Option Setter := Option.none

/-!
## Generic accessors
-/

def genGet (t : Tunable) : Getter :=
  fun s => s.tun t

/-- `gen_set`.  The `apply` callbacks re-arm timers from the tunables and change
nothing that a setting shows. -/
def genSet (lo hi : Int32) (t : Tunable) : Setter :=
  fun _ v s => if v < lo ∨ hi < v then (.reject, s) else (.ok, setTunable t v s)

def ofBool (b : Bool) : Int32 :=
  if b then 1 else 0

def bootBoolGet (f : EmulatorConfig -> Bool) : Getter :=
  fun s => ofBool (f (seeded s))

def bootBoolSet (f : Bool -> EmulatorConfig -> EmulatorConfig) : Setter :=
  fun _ v s => (.restart, editBoot (f (v != 0)) s)

def bootIntGet (f : EmulatorConfig -> Int32) : Getter :=
  fun s => f (seeded s)

/-- `BOOT_INT`, the setter: the shadow is seeded before the range is checked. -/
def bootIntSet (lo hi : Int32) (f : Int32 -> EmulatorConfig -> EmulatorConfig) : Setter :=
  fun _ v s =>
    if v < lo ∨ hi < v then (.reject, bootSeed s) else (.restart, editBoot (f v) s)

/-- A boot setting with a range of its own: `bs_cpu`, `bs_blitter` and their like. -/
def rangedBootSet (lo hi : Int32) (f : Int32 -> EmulatorConfig -> EmulatorConfig) : Setter :=
  fun _ v s => if v < lo ∨ hi < v then (.reject, s) else (.restart, editBoot (f v) s)

/-- The place of a value in a ladder of sizes, `dflt` when it is not there. -/
def rungOf (ladder : List Nat) (n : Nat) (dflt : Nat) : Int32 :=
  Int32.ofNat ((ladder.findIdx? (· == n)).getD dflt)

def rung (ladder : List Nat) (v : Int32) : Nat :=
  ladder.getD v.toInt.toNat 0

/-!
## Boot settings
-/

def setBlitter (v : Int32) (c : EmulatorConfig) : EmulatorConfig :=
  { c with blitter := v != 0, blitterReal := v == 1, blitterSet := true }

def getBlitter (c : EmulatorConfig) : Int32 :=
  if c.blitter then (if c.blitterReal then 1 else 2) else 0

/-- `bs_kbd`: 0 disabled, then USB with the real keyboard detected, merged or ignored. -/
def setKbd (v : Int32) (c : EmulatorConfig) : EmulatorConfig :=
  { c with kbdUsb := v != 0, kbdMode := if 0 < v then v - 1 else 0 }

def getKbd (c : EmulatorConfig) : Int32 :=
  if c.kbdUsb then c.kbdMode + 1 else 0

def stramKb : List Nat := [0, 512, 1024, 2048, 4096, 8192, 14336]
def ttramMb : List Nat := [0, 16, 32, 64, 128, 256]
def cacheKb : List Nat := [0, 2048, 4096, 8192, 16384]
def framesV : List Nat := [512, 1024, 2048, 4096, 8192]

def setStram (v : Int32) (c : EmulatorConfig) : EmulatorConfig :=
  { c with stramSize := UInt32.ofNat (rung stramKb v * 1024) }

def getStram (c : EmulatorConfig) : Int32 :=
  rungOf (stramKb.map (· * 1024)) c.stramSize.toNat 0

def setTtramSize (v : Int32) (c : EmulatorConfig) : EmulatorConfig :=
  let mb := rung ttramMb v
  { c with
    ttram := mb != 0
    ttramSize := UInt32.ofNat (mb * 1024 * 1024)
    addr32 := mb != 0 || c.addr32 }

def getTtramSize (c : EmulatorConfig) : Int32 :=
  rungOf ttramMb (if c.ttram then c.ttramSize.toNat / (1024 * 1024) else 0) 0

def setShifterSte (b : Bool) (c : EmulatorConfig) : EmulatorConfig :=
  { c with shifterSte := b, shifterSet := true }

def setCard (v : Int32) (c : EmulatorConfig) : EmulatorConfig :=
  { c with card := GraphicsCard.all.getD v.toInt.toNat .none }

def getCard (c : EmulatorConfig) : Int32 :=
  Int32.ofNat (GraphicsCard.all.findIdx (· == c.card))

def setDriver (v : Int32) (c : EmulatorConfig) : EmulatorConfig :=
  { c with driver := GraphicsDriver.all.getD v.toInt.toNat .none }

def getDriver (c : EmulatorConfig) : Int32 :=
  Int32.ofNat (GraphicsDriver.all.findIdx (· == c.driver))

/-!
## The translator
-/

def powerIdx : Nat := 0
def cacheIdx : Nat := 1
def constjumpIdx : Nat := 2
def compnfIdx : Nat := 3
def compfpuIdx : Nat := 4
def flushIdx : Nat := 5

def powerOfMultLoop (mult : Int32) : Nat -> Nat -> Int32 -> Nat
  | 0, n, _ => n
  | fuel + 1, n, m => if m < mult ∧ n < 6 then powerOfMultLoop mult fuel (n + 1) (m * 2) else n

def powerOfMult (mult : Int32) : Int32 :=
  Int32.ofNat (powerOfMultLoop mult 6 1 256)

/-- `256 << (v - 1)`. -/
def multOfPower (v : Int32) : Int32 :=
  Int32.ofNat (256 * 2 ^ (v.toInt.toNat - 1))

def getPower : Getter :=
  fun s => if s.currprefs.cachesize == 0 then 0 else powerOfMult (s.tun .pissoffMult)

def setPower : Setter :=
  fun loading v s =>
    if v < 0 ∨ 6 < v then (.reject, s)
    else if loading then
      (.ok, if v == 0 then s else setTunable .pissoffMult (multOfPower v) s)
    else if v == 0 then defer powerIdx 0 s
    else if s.currprefs.cachesize == 0 then defer powerIdx v s
    else (.ok, setTunable .pissoffMult (multOfPower v) s)

def getCache : Getter :=
  fun s => rungOf cacheKb s.currprefs.cachesize.toInt.toNat 0

/-- `js_cache`: the shadow is written before the queue is asked. -/
def setCache : Setter :=
  fun _ v s =>
    if v < 0 ∨ 4 < v then (.reject, s)
    else
      let boot := { seeded s with jitCache := Int32.ofNat (rung cacheKb v), jitCacheSet := true }
      defer cacheIdx v { s with boot := boot, bootReady := true }

/-- `js_constjump`, `js_compnf` and `js_compfpu`: the tunable is written before the
queue is asked. -/
def setComp (t : Tunable) (idx : Nat) : Setter :=
  fun loading v s =>
    let on := ofBool (v != 0)
    let s := setTunable t on s
    if loading then (.ok, s) else defer idx on s

def setFlush : Setter :=
  fun _ _ s => defer flushIdx 1 s

def getFrames : Getter :=
  fun s => rungOf framesV (s.tun .audioFrames).toInt.toNat 2

def setFrames : Setter :=
  fun _ v s =>
    if v < 0 ∨ 4 < v then (.reject, s)
    else (.restart, setTunable .audioFrames (Int32.ofNat (rung framesV v)) s)

def getHostfs : Getter :=
  fun s => if s.tun .dbgHostfs < 0 then 0 else if s.tun .dbgHostfs == 0 then 1 else 2

def setHostfs : Setter :=
  fun _ v s =>
    if v < 0 ∨ 2 < v then (.reject, s)
    else (.ok, setTunable .dbgHostfs (if v == 0 then -1 else ofBool (v == 2)) s)

def getZero : Getter :=
  fun _ => 0

/-!
## Rows
-/

def lOffon : List Text := ["off".toList, "on".toList]
def lNoyes : List Text := ["no".toList, "yes".toList]
def lMachine : List Text := ["st".toList, "ste".toList, "megast".toList, "falcon".toList]
def lCpu : List Text :=
  ["68000".toList, "68010".toList, "68020".toList, "68030".toList, "68040".toList,
    "68060".toList]
def lBlitter : List Text := ["off".toList, "real chip".toList, "emulated".toList]
def lShifter : List Text := ["st".toList, "ste".toList]
def lMonitor : List Text := ["auto".toList, "mono".toList, "colour".toList]
def lStram : List Text :=
  ["flat 4M".toList, "512K".toList, "1M".toList, "2M".toList, "4M".toList, "8M".toList,
    "14M".toList]
def lTtram : List Text :=
  ["off".toList, "16M".toList, "32M".toList, "64M".toList, "128M".toList, "256M".toList]
def lCache : List Text :=
  ["off".toList, "2048K".toList, "4096K".toList, "8192K".toList, "16384K".toList]
def lKbd : List Text :=
  ["disabled".toList, "usb auto".toList, "usb merge".toList, "usb standalone".toList]
def lFrames : List Text :=
  ["512".toList, "1024".toList, "2048".toList, "4096".toList, "8192".toList]
def lFvdiscale : List Text :=
  ["fit".toList, "integer".toList, "stretch".toList, "fit_sharp".toList]
def lDmasnd : List Text := ["off".toList, "verbose".toList, "summary".toList]
def lHostfsd : List Text := ["follow cfg".toList, "off".toList, "on".toList]
def lCard : List Text := ["none".toList, "ET4000AX".toList, "ATI".toList, "Matrox".toList]
def lDriver : List Text :=
  ["none".toList, "NOVA".toList, "XVDI".toList, "NVDI".toList, "fVDI".toList]

def liveInt (name : String) (title : String) (tab : Tab) (unit : PsUnit) (lo hi step : Int32)
    (t : Tunable) : PsItem where
  name := name.toList
  title := title
  tab := tab
  kind := .int
  klass := .live
  unit := unit
  min := lo
  max := hi
  step := step
  tgt := some t
  get := some (genGet t)
  set := some (genSet lo hi t)

def liveBool (name : String) (title : String) (tab : Tab) (t : Tunable) : PsItem where
  name := name.toList
  title := title
  tab := tab
  kind := .bool
  klass := .live
  max := 1
  step := 1
  labels := lOffon
  tgt := some t
  get := some (genGet t)
  set := some (genSet 0 1 t)

def enumItem (name : String) (title : String) (tab : Tab) (klass : Klass) (labels : List Text)
    (get : Getter) (set : Setter) : PsItem where
  name := name.toList
  title := title
  tab := tab
  kind := .enum
  klass := klass
  max := Int32.ofNat (labels.length - 1)
  step := 1
  labels := labels
  get := some get
  set := some set

def bootB (name : String) (title : String) (tab : Tab) (get : EmulatorConfig -> Bool)
    (set : Bool -> EmulatorConfig -> EmulatorConfig) : PsItem where
  name := name.toList
  title := title
  tab := tab
  kind := .bool
  klass := .boot
  max := 1
  step := 1
  labels := lOffon
  get := some (bootBoolGet get)
  set := some (bootBoolSet set)

def roInt (name : String) (title : String) (tab : Tab) (get : Getter) : PsItem where
  name := name.toList
  title := title
  tab := tab
  kind := .info
  klass := .ro
  get := some get

def compItem (name : String) (title : String) (t : Tunable) (idx : Nat)
    (get : JitPrefs -> Bool) : PsItem where
  name := name.toList
  title := title
  tab := .jit
  kind := .bool
  klass := .defer
  max := 1
  step := 1
  labels := lOffon
  tgt := some t
  get := some (fun s => ofBool (get s.currprefs))
  set := some (setComp t idx)

def strItem (name : String) (title : String) (tab : Tab) (klass : Klass) : PsItem where
  name := name.toList
  title := title
  tab := tab
  kind := .str
  klass := klass
  get := some getZero

def actionItem (name : String) (title : String) (tab : Tab) (newline : Bool) : PsItem where
  name := name.toList
  title := title
  tab := tab
  kind := .action
  klass := .live
  newline := newline
  get := some getZero

def wpItem (name : String) (title : String) (get : PsState -> Bool)
    (set : Bool -> PsState -> PsState) : PsItem where
  name := name.toList
  title := title
  tab := .floppy
  kind := .bool
  klass := .live
  max := 1
  step := 1
  labels := lOffon
  get := some (fun s => ofBool (get s))
  set := some (fun _ v s => (.ok, set (v != 0) s))

/-!
## `g_items`
-/

def jitItems : List PsItem :=
  [{ name := "jit_power".toList, title := "JIT power", tab := .jit, kind := .int,
     klass := .live, max := 6, step := 1, get := some getPower, set := some setPower },
    { enumItem "jit_cache" "Translation cache" .jit .defer lCache getCache setCache with
      newline := true },
    compItem "comp_constjump" "Follow constant jumps" .compConstjump constjumpIdx
      (·.compConstjump),
    compItem "compnf" "Skip dead flags" .compnf compnfIdx (·.compnf),
    compItem "compfpu" "Translate FPU" .compfpu compfpuIdx (·.compfpu),
    { name := "jit_flush".toList, title := "Flush cache now", tab := .jit, kind := .action,
      klass := .defer, newline := true, get := some getZero, set := some setFlush }]

def cpuItems : List PsItem :=
  [enumItem "machine" "Machine" .cpu .boot lMachine (bootIntGet (·.machineKind))
      (bootIntSet 0 3 (fun v c => { c with machineKind := v })),
    enumItem "cpu" "CPU" .cpu .boot lCpu (bootIntGet (fun c => Int32.ofNat c.cpuType.toNat))
      (rangedBootSet 0 5 (fun v c => { c with cpuType := UInt8.ofNat v.toInt.toNat })),
    bootB "fpu" "FPU" .cpu (·.fpu) (fun b c => { c with fpu := b }),
    bootB "mmu" "MMU" .cpu (·.mmu) (fun b c => { c with mmu := b }),
    bootB "cpu_compatible" "Prefetch-accurate 68000" .cpu (·.cpuCompatible)
      (fun b c => { c with cpuCompatible := b }),
    enumItem "shifter" "Shifter" .cpu .boot lShifter (bootBoolGet (·.shifterSte))
      (bootBoolSet setShifterSte),
    enumItem "blitter" "Blitter" .cpu .boot lBlitter (bootIntGet getBlitter)
      (rangedBootSet 0 2 setBlitter),
    { enumItem "stram_size" "ST-RAM" .cpu .boot lStram (bootIntGet getStram)
        (rangedBootSet 0 6 setStram) with newline := true },
    enumItem "ttram" "TT-RAM" .cpu .boot lTtram (bootIntGet getTtramSize)
      (rangedBootSet 0 5 setTtramSize),
    bootB "addr32" "32-bit addressing" .cpu (·.addr32) (fun b c => { c with addr32 := b }),
    bootB "stram_cache" "ST-RAM cache" .cpu (·.stramCache)
      (fun b c => { c with stramCache := b }),
    bootB "stram_direct" "ST-RAM direct" .cpu (·.stramDirect)
      (fun b c => { c with stramDirect := b }),
    { enumItem "monitor" "Monitor detect" .cpu .boot lMonitor (bootIntGet (·.monitorForce))
        (bootIntSet 0 2 (fun v c => { c with monitorForce := v })) with newline := true },
    strItem "rom" "TOS image" .cpu .boot,
    liveInt "blit_timed_ns" "Blitter bus cost (0 = instant)" .cpu .ns 0 2000 50 .blitTimedNs,
    roInt "cpu_running" "CPU now running" .cpu (·.readouts.cpuRunning),
    roInt "fpu_running" "FPU now running" .cpu (·.readouts.fpuRunning),
    roInt "soc_temp" "SoC temperature" .cpu (·.readouts.socTemp),
    roInt "throttled" "Firmware throttle bits" .cpu (·.readouts.throttled)]

def videoItems : List PsItem :=
  [liveInt "vbl_refract_ns" "VBL refractory" .video .ns 0 20000000 100000 .vblRefractNs,
    liveBool "drm_dirtyband" "DRM dirty band" .video .drmDirtyband,
    { enumItem "fvdi_scale" "fVDI scaling" .video .live lFvdiscale (genGet .fvdiScale)
        (genSet 0 3 .fvdiScale) with tgt := some .fvdiScale },
    { liveBool "drm_async" "DRM async page flip" .video .drmAsync with klass := .boot },
    bootB "native_hdmi" "Native HDMI" .video (·.nativeHdmi)
      (fun b c => { c with nativeHdmi := b }),
    bootB "psvidel" "Falcon Videl/SuperVidel" .video (·.psvidel)
      (fun b c => { c with psvidel := b }),
    { enumItem "vga_card" "Graphics card" .video .boot lCard (bootIntGet getCard)
        (rangedBootSet 0 3 setCard) with newline := true },
    enumItem "vga_driver" "Graphics driver" .video .boot lDriver (bootIntGet getDriver)
      (rangedBootSet 0 4 setDriver)]

def audioItems : List PsItem :=
  [bootB "ym2149" "YM2149" .audio (·.ym2149) (fun b c => { c with ym2149 := b }),
    bootB "dma_sound" "STE DMA sound" .audio (·.dmaSound) (fun b c => { c with dmaSound := b }),
    bootB "falcon_dsp" "Falcon DSP + sound" .audio (·.falconDsp)
      (fun b c => { c with falconDsp := b }),
    liveInt "ym_gain" "YM gain" .audio .x100 0 400 5 .ymGainX100,
    liveInt "ym_lag_ms" "YM lag" .audio .ms 5 200 5 .ymLagMs,
    liveBool "lmc" "LMC1992 shadow" .audio .lmc,
    { enumItem "audio_frames" "SDL buffer" .audio .boot lFrames getFrames setFrames with
      tgt := some .audioFrames }]

def inputItems : List PsItem :=
  [enumItem "kbd" "Keyboard source" .input .boot lKbd (bootIntGet getKbd)
      (rangedBootSet 0 3 setKbd),
    { bootB "kbd_nograb" "Leave devices to the Pi console" .input (fun c => !c.kbdGrab)
        (fun b c => { c with kbdGrab := !b }) with labels := lNoyes },
    { name := "mousediv".toList, title := "Host mouse divisor", tab := .input, kind := .int,
      klass := .boot, min := 1, max := 16, step := 1, get := some (bootIntGet (·.kbdMouseDiv)),
      set := some (bootIntSet 1 16 (fun v c => { c with kbdMouseDiv := v })) },
    liveInt "mouse_thresh" "IKBD threshold (0 = off)" .input .none 0 15 1 .mouseThresh,
    liveInt "mouse_scale" "Delta scale" .input .none 1 16 1 .mouseScale]

def stboxItems : List PsItem :=
  [strItem "stbox_tos" "Box TOS image" .stbox .boxboot,
    { name := "stbox_plane".toList, title := "DRM plane (0 = auto)", tab := .stbox,
      kind := .int, klass := .boxboot, max := 128, step := 1,
      get := some (bootIntGet (·.stboxPlane)),
      set := some (bootIntSet 0 128 (fun v c => { c with stboxPlane := v })) },
    liveInt "stbox_slice_cyc" "Admission slice" .stbox .cyc 8 4096 8 .stboxSliceCyc,
    liveBool "stbox_telemetry" "Telemetry" .stbox .stboxTelemetry,
    roInt "stbox_running" "Box running" .stbox (·.readouts.stboxRunning)]

def floppyItems : List PsItem :=
  [strItem "floppy_a" "Drive A:" .floppy .live,
    strItem "floppy_b" "Drive B:" .floppy .live,
    wpItem "floppy_a_wp" "A: write protect" (·.driveA.writeProtected)
      (fun b s => { s with driveA := setWriteProtect b s.driveA }),
    wpItem "floppy_b_wp" "B: write protect" (·.driveB.writeProtected)
      (fun b s => { s with driveB := setWriteProtect b s.driveB }),
    actionItem "floppy_eject_a" "Eject A:" .floppy true,
    actionItem "floppy_eject_b" "Eject B:" .floppy false,
    actionItem "floppy_swap" "Swap A: <-> B:" .floppy false]

def netItems : List PsItem :=
  [bootB "network" "Network" .net (·.networkEnabled)
      (fun b c => { c with networkEnabled := b }),
    { name := "network_irq".toList, title := "IRQ level", tab := .net, kind := .int,
      klass := .boot, min := 1, max := 7, step := 1,
      get := some (bootIntGet (fun c => Int32.ofNat c.networkIrqLevel.toNat)),
      set := some (rangedBootSet 1 7
        (fun v c => { c with networkIrqLevel := UInt8.ofNat v.toInt.toNat })) },
    bootB "ide" "IDE" .net (·.ide) (fun b c => { c with ide := b }),
    liveBool "network_debug" "Network trace" .net .dbgNet]

def debugItems : List PsItem :=
  [liveInt "ipl_confirm_ns" "IPL confirm window" .debug .ns 0 10000 100 .iplConfirmNs,
    liveBool "verbose" "Verbose console" .debug .verbose,
    liveBool "ipl_stats" "IPL statistics" .debug .dbgIplStats,
    liveBool "irq_stats" "IRQ statistics" .debug .dbgIrqStats,
    liveBool "mfp_debug" "MFP trace" .debug .dbgMfp,
    liveBool "mfp_hub_debug" "MFP hub trace" .debug .dbgMfpHub,
    liveBool "fdd_mfp_irq" "FDC MFP interrupt" .debug .fddMfpIrq,
    liveInt "blit_trace" "Blits to trace" .debug .none 0 10000 10 .dbgBlitTrace,
    { enumItem "dmasnd_debug" "DMA sound trace" .debug .live lDmasnd (genGet .dbgDmasnd)
        (genSet 0 2 .dbgDmasnd) with tgt := some .dbgDmasnd },
    liveBool "acsi_debug" "ACSI trace" .debug .dbgAcsi,
    liveBool "ide_debug" "IDE trace" .debug .dbgIde,
    enumItem "hostfs_debug" "HOSTFS trace" .debug .live lHostfsd getHostfs setHostfs,
    liveBool "gemdos_debug" "GEMDOS trace" .debug .dbgGemdos,
    liveBool "stram_debug" "ST-RAM trace" .debug .dbgStram]

def advItems : List PsItem :=
  [actionItem "save_cfg" "Save to .cfg" .adv false,
    roInt "cfg_dirty" "Unsaved boot changes" .adv (fun s => ofBool s.bootDirty)]

def gItems : List PsItem :=
  jitItems ++ cpuItems ++ videoItems ++ audioItems ++ inputItems ++ stboxItems ++ floppyItems ++
    netItems ++ debugItems ++ advItems

end Psctrl
end PistormAtari
