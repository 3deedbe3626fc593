import PistormAtari.Foundation.CText

/-!
# The machine configuration

`struct emulator_config`, with the widths of its fields.  A path is a buffer of
256 characters.  The network strings are copied by `get_next_string`, which checks
no bound; they are kept whole here.  `struct HDD` is never filled in and is left
out: the images go to the drive tables of the disk modules.
-/

namespace PistormAtari
namespace Config

open Foundation

inductive GraphicsCard
  | none | et4000ax | ati | matrox
deriving DecidableEq, Repr

inductive GraphicsDriver
  | none | nova | xvdi | nvdi | fvdi
deriving DecidableEq, Repr

def GraphicsCard.all : List GraphicsCard := [.none, .et4000ax, .ati, .matrox]

def GraphicsDriver.all : List GraphicsDriver := [.none, .nova, .xvdi, .nvdi, .fvdi]

abbrev PathBuf := CBuf 256

/-- `snprintf(path, 256, "%s", s)`. -/
def pathBuf (s : Text) : PathBuf :=
  CBuf.print 256 (by decide) s

def noPath : PathBuf := pathBuf []

structure Rom where
  size : Int32 := 0
  path : PathBuf := noPath
  ptr : List UInt8 := []
  address : UInt32 := 0
deriving DecidableEq

structure Fdd where
  enabled : Bool := false
  imgPath : PathBuf := noPath
  imgPathB : PathBuf := noPath
deriving DecidableEq

structure Hostfs where
  enabled : Bool := false
  drive : Char := nul
  path : PathBuf := noPath
  readonly : Bool := false
deriving DecidableEq

/-- `struct emulator_config`; the defaults are those of a structure filled with
zeros. -/
structure EmulatorConfig where
  cpuType : UInt8 := 0
  jit : Bool := false
  cpuCompatible : Bool := false
  mmu : Bool := false
  monitorForce : Int32 := 0
  fpu : Bool := false
  card : GraphicsCard := .none
  driver : GraphicsDriver := .none
  fps : Int32 := 0
  ttram : Bool := false
  ttramSize : UInt32 := 0
  addr32 : Bool := false
  rom : Rom := {}
  ide : Bool := false
  ideByteorder : Int32 := 0
  fdd : Fdd := {}
  dmaSound : Bool := false
  dmaSoundSet : Bool := false
  ym2149 : Bool := false
  kbdUsb : Bool := false
  kbdGrab : Bool := false
  kbdMode : Int32 := 0
  kbdMouseDiv : Int32 := 0
  usbGamepad : Bool := false
  blitter : Bool := false
  blitterSet : Bool := false
  machineSet : Bool := false
  machineMch : UInt32 := 0
  machineKind : Int32 := 0
  shifterSet : Bool := false
  shifterSte : Bool := false
  blitterReal : Bool := false
  stramCache : Bool := false
  stramDirect : Bool := false
  stramSize : UInt32 := 0
  falconStram : UInt32 := 0
  nativeHdmi : Bool := false
  hdmiOnly : Bool := false
  cpuSpeedKhz : Int32 := 0
  jitCacheSet : Bool := false
  jitCache : Int32 := 0
  networkEnabled : Bool := false
  networkBackend : Text := []
  networkTap : Text := []
  networkBase : UInt32 := 0
  networkMac : Text := []
  networkIrqLevel : UInt8 := 0
  networkHostIp : Text := []
  networkAtariIp : Text := []
  networkNetmask : Text := []
  networkDebug : Bool := false
  hostfs : List Hostfs := List.replicate 32 {}
  stboxTos : PathBuf := noPath
  stboxSte : Bool := false
  stboxPlane : Int32 := 0
  psvidel : Bool := false
  falconDsp : Bool := false
deriving DecidableEq

end Config
end PistormAtari
