import PistormAtari.Psctrl.Items

/-!
# Settings as `.cfg` keys

The keys that the saver manages: the boot keys, one `debug` line for the trace
flags, and a key for each row of the table that is a plain tunable.
-/

namespace PistormAtari
namespace Psctrl

open Foundation
open Config

def gBootkeys : List Text :=
  ["machine".toList, "cpu".toList, "fpu".toList, "mmu".toList, "cpu_compatible".toList,
    "shifter".toList, "blitter".toList, "stram_size".toList, "ttram".toList, "addr32".toList,
    "stram_cache".toList, "stram_direct".toList, "native_hdmi".toList, "psvidel".toList,
    "vga".toList, "monitor".toList, "ym2149".toList, "dma_sound".toList, "falcon_dsp".toList,
    "ide".toList, "kbd".toList, "network".toList, "network_irq".toList, "rom".toList,
    "stbox_tos".toList, "stbox_plane".toList, "jit_cache".toList, "cpu_speed".toList]

def gDbg : List (Text × Tunable) :=
  [("verbose".toList, .verbose), ("ipl".toList, .dbgIplStats), ("irq".toList, .dbgIrqStats),
    ("mfp".toList, .dbgMfp), ("mfphub".toList, .dbgMfpHub), ("dmasnd".toList, .dbgDmasnd),
    ("acsi".toList, .dbgAcsi), ("ide".toList, .dbgIde), ("gemdos".toList, .dbgGemdos),
    ("stram".toList, .dbgStram), ("net".toList, .dbgNet), ("ikbd".toList, .dbgIkbd),
    ("hostfs".toList, .dbgHostfs)]

def itemIsCfgTunable (it : PsItem) : Bool :=
  if it.name = "jit_power".toList then true
  else
    match it.tgt with
    | none => false
    | some t =>
        it.kind != .info && it.kind != .action && !(gDbg.map (·.2)).contains t &&
          !gBootkeys.contains it.name

def cfgTunables : List PsItem :=
  gItems.filter itemIsCfgTunable

def settingsKeys : List Text :=
  gBootkeys ++ "debug".toList :: cfgTunables.map (·.name)

def PsItem.value (it : PsItem) (s : PsState) : Int32 :=
  match it.get with
  | none => 0
  | some get => get s

def labelAt (labels : List Text) (v : Int32) : Text :=
  labels.getD v.toInt.toNat []

def dbgFlag (s : PsState) (d : Text × Tunable) : Option Text :=
  let v := s.tun d.2
  if v ≤ 0 then none
  else some (if 1 < v then d.1 ++ '=' :: decimal v.toInt else d.1)

def renderDebug (s : PsState) : Text :=
  match gDbg.filterMap (dbgFlag s) with
  | [] => "debug none".toList
  | flags => "debug ".toList ++ (flags.intersperse [',']).flatten

def renderItem (it : PsItem) (s : PsState) : Text :=
  if it.kind = .enum ∧ it.labels ≠ [] then it.name ++ ' ' :: labelAt it.labels (it.value s)
  else it.name ++ ' ' :: decimal (it.value s).toInt

def settingsRenderKey (key : Text) (s : PsState) : Option Text :=
  if key = "debug".toList then some (renderDebug s)
  else (cfgTunables.find? (·.name == key)).map (renderItem · s)

theorem cfgTunables_names : cfgTunables.map (·.name) =
    ["jit_power".toList, "comp_constjump".toList, "compnf".toList, "compfpu".toList,
      "blit_timed_ns".toList, "vbl_refract_ns".toList, "drm_dirtyband".toList,
      "fvdi_scale".toList, "drm_async".toList, "ym_gain".toList, "ym_lag_ms".toList,
      "lmc".toList, "audio_frames".toList, "mouse_thresh".toList, "mouse_scale".toList,
      "stbox_slice_cyc".toList, "stbox_telemetry".toList, "ipl_confirm_ns".toList,
      "fdd_mfp_irq".toList, "blit_trace".toList] := by
  decide +kernel

end Psctrl
end PistormAtari
