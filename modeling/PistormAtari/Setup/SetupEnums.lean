import PistormAtari.Setup.SetupCfg

/-!
# The catalogue of settings

`setup_enums.c`: the choices of each list, the tab and the control of each key, what
a key needs, and what the cpu, the machine and the build allow.
-/

namespace PistormAtari
namespace Setup

open Foundation

def texts (words : List String) : List Text :=
  words.map String.toList

inductive Tab
  | machine
  | video
  | sound
  | input
  | drives
  | network
  | tuning
deriving DecidableEq

def Tab.all : List Tab := [.machine, .video, .sound, .input, .drives, .network, .tuning]

/-- `(tab + 1) % SE_TAB_N`. -/
def Tab.next : Tab -> Tab
  | .machine => .video
  | .video => .sound
  | .sound => .input
  | .input => .drives
  | .drives => .network
  | .network => .tuning
  | .tuning => .machine

/-- `(tab + SE_TAB_N - 1) % SE_TAB_N`. -/
def Tab.previous : Tab -> Tab
  | .machine => .tuning
  | .video => .machine
  | .sound => .video
  | .input => .sound
  | .drives => .input
  | .network => .drives
  | .tuning => .network

inductive Kind
  | list
  | switch
  | text
  | int
deriving DecidableEq

/-- The value of the first row whose key is `key`, whatever its case. -/
def lookup {α : Type _} (rows : List (String × α)) (key : Text) : Option α :=
  (rows.find? (fun r => sameCase key r.1.toList)).map Prod.snd

/-!
## Lists of choices
-/

structure Table where
  list : List Text
  labels : List Text

def plain (words : List String) : Table :=
  { list := texts words, labels := texts words }

def labelled (words labels : List String) : Table :=
  { list := texts words, labels := texts labels }

def tables : List (String × Table) :=
  [("cpu", plain ["68000", "68010", "68020", "68030", "68040", "68060"]),
    ("machine", plain ["st", "ste", "megast", "falcon"]),
    ("shifter", plain ["st", "ste"]),
    ("blitter", labelled ["", "disabled", "enabled", "real"]
      ["not set - follows the machine", "off", "emulated", "real - the board's own chip"]),
    ("monitor", plain ["auto", "mono", "colour"]),
    ("vga", plain ["ET4000AX FVDI", "ET4000AX NVDI", "ET4000AX NOVA", "ET4000AX XVDI", "NONE"]),
    ("jit_cache", plain ["2048", "4096", "8192", "16384"]),
    ("ttram", plain ["disabled", "32M", "64M", "128M", "256M"]),
    ("stbox_machine", plain ["st", "ste"]),
    ("audio_frames", plain ["512", "1024", "2048", "4096", "8192"]),
    ("fvdi_scale", labelled ["fit", "integer", "stretch", "fit_sharp"]
      ["fit - fill keeping aspect (default)", "integer - whole multiples only, centred",
        "stretch - fill, ignore aspect", "fit_sharp - fill keeping aspect, no smoothing"]),
    ("jit_power", labelled ["0", "1", "2", "3", "4", "5", "6"]
      ["0 - JIT disabled", "1 - 256", "2 - 512", "3 - 1024 (default)", "4 - 2048", "5 - 4096",
        "6 - 8192"]),
    ("cpu_speed", labelled ["8mhz", "16mhz"] ["8mhz - a real ST", "16mhz - a Mega STE"]),
    ("stram_size", labelled ["", "128K", "512K", "1M", "2M", "2560K", "4M"]
      ["not set - flat 4 MB, Pi-backed (APJ-OS)", "128K  (honest: caps at the board)",
        "512K  (honest: caps at the board)", "1M    (honest: caps at the board)",
        "2M    (honest: caps at the board)", "2.5M  (honest: caps at the board)",
        "4M    (honest: caps at the board)"]),
    ("falcon_stram", labelled ["", "14M"]
      ["not set - 4MB (the board's)", "14M - 14MB Falcon, Pi-backed above 4MB"])]

def aliases : List (String × String × String) :=
  [("blitter", "", "enabled"), ("blitter", "on", "enabled"), ("blitter", "1", "enabled"),
    ("blitter", "yes", "enabled"), ("blitter", "true", "enabled"),
    ("blitter", "enable", "enabled"), ("blitter", "off", "disabled"),
    ("blitter", "0", "disabled"), ("blitter", "no", "disabled"),
    ("blitter", "false", "disabled"), ("blitter", "disable", "disabled"),
    ("ttram", "", "128M"), ("ttram", "on", "128M"), ("ttram", "1", "128M"),
    ("ttram", "yes", "128M"), ("ttram", "true", "128M"), ("ttram", "enabled", "128M"),
    ("ttram", "enable", "128M"), ("ttram", "off", "disabled"), ("ttram", "0", "disabled"),
    ("ttram", "no", "disabled"), ("ttram", "false", "disabled"), ("ttram", "disable", "disabled"),
    ("monitor", "", "auto"), ("monitor", "color", "colour"), ("monitor", "rgb", "colour"),
    ("monitor", "sc1224", "colour"), ("monitor", "monochrome", "mono"),
    ("monitor", "sm124", "mono"), ("monitor", "high", "mono"), ("shifter", "", "st"),
    ("machine", "mst", "megast")]

def seCount (key : Text) : Nat :=
  match lookup tables key with
  | some t => t.list.length
  | none => 0

def seChoice (key : Text) (i : Nat) : Option Text :=
  (lookup tables key).bind (fun t => t.list[i]?)

def seLabel (key : Text) (i : Nat) : Option Text :=
  (lookup tables key).bind (fun t => t.labels[i]?)

def choiceIndex (list : List Text) (val : Text) : Option Nat :=
  list.findIdx? (fun c => sameCase val c)

def aliasIndex (key : Text) (list : List Text) (val : Text) : Option Nat :=
  (aliases.filter (fun a => sameCase key a.1.toList && sameCase val a.2.1.toList)).findSome?
    (fun a => choiceIndex list a.2.2.toList)

def seIndex (key val : Text) : Option Nat :=
  match lookup tables key with
  | none => none
  | some t =>
      let bare := if val = [] then aliasIndex key t.list [] else none
      (bare.or (choiceIndex t.list val)).or (aliasIndex key t.list val)

def seIndexExact (key val : Text) : Option Nat :=
  (lookup tables key).bind (fun t => choiceIndex t.list val)

/-!
## Keys
-/

def known : List (String × String) :=
  [("network", "disabled"), ("jit_power", "3"), ("jit_cache", "8192"), ("stram_size", ""),
    ("blitter", ""), ("acsi", "disabled"), ("monitor", "auto"), ("shifter", "st"),
    ("stbox_tos", ""), ("stram_cache", "disabled"), ("stram_direct", "disabled"),
    ("mouse_thresh", "0"), ("mouse_scale", "1")]

def always : List (String × String) :=
  [("mouse_thresh", "0"), ("mouse_scale", "1")]

def seKnownDefault (key : Text) : Option Text :=
  (lookup known key).map String.toList

/-- The builds that a key belongs to; a key that is not listed belongs to both. -/
inductive Env
  | gem
  | apj
  | both
deriving DecidableEq

def envOf : List (String × Env) :=
  [("monitor", .gem), ("shifter", .gem), ("cpu_compatible", .gem), ("cpu_speed", .gem),
    ("stbox_tos", .apj), ("stbox_machine", .apj), ("stbox_plane", .apj),
    ("stbox_slice_cyc", .apj), ("stbox_telemetry", .apj)]

def retired : List String :=
  ["vga_render", "loopcycles", "rtc", "fps", "m68k_speed", "cpu_clock_multiplier", "jit"]

def developer : List String :=
  ["addr32", "stram_cache", "stram_direct", "network_debug"]

def seRetired (key : Text) : Bool :=
  retired.any (fun w => sameCase key w.toList)

def seDeveloper (key : Text) : Bool :=
  developer.any (fun w => sameCase key w.toList)

def needsOf : List (String × String) :=
  [("network_backend", "network"), ("network_tap", "network"), ("network_base", "network"),
    ("network_mac", "network"), ("network_irq", "network"), ("network_host_ip", "network"),
    ("network_atari_ip", "network"), ("network_netmask", "network"),
    ("network_debug", "network")]

def seEnv (key : Text) : Env :=
  (lookup envOf key).getD .both

def seNeeds (key : Text) : Option Text :=
  (lookup needsOf key).map String.toList

/-!
## The catalogue
-/

/-- A key of the catalogue with its tab, its control and its tick value. -/
structure Entry where
  tab : Tab
  kind : Kind
  tick : String

def catalogue : List (String × Entry) :=
  [("cpu", ⟨.machine, .list, "68040"⟩),
    ("fpu", ⟨.machine, .switch, "enabled"⟩),
    ("mmu", ⟨.machine, .switch, "enabled"⟩),
    ("machine", ⟨.machine, .list, "ste"⟩),
    ("stram_size", ⟨.machine, .list, "1M"⟩),
    ("falcon_stram", ⟨.machine, .list, "14M"⟩),
    ("ttram", ⟨.machine, .list, "128M"⟩),
    ("blitter", ⟨.machine, .list, "enabled"⟩),
    ("jit_power", ⟨.machine, .list, "3"⟩),
    ("jit_cache", ⟨.machine, .list, "16384"⟩),
    ("rom", ⟨.machine, .text, ""⟩),
    ("stbox_tos", ⟨.machine, .text, ""⟩),
    ("stbox_machine", ⟨.machine, .list, "ste"⟩),
    ("cpu_compatible", ⟨.machine, .switch, "enabled"⟩),
    ("cpu_speed", ⟨.machine, .list, "8mhz"⟩),
    ("vga", ⟨.video, .list, "ET4000AX FVDI"⟩),
    ("native_hdmi", ⟨.video, .switch, "enabled"⟩),
    ("hdmi_only", ⟨.video, .switch, "enabled"⟩),
    ("psvidel", ⟨.video, .switch, "enabled"⟩),
    ("monitor", ⟨.video, .list, "auto"⟩),
    ("shifter", ⟨.video, .list, "st"⟩),
    ("stbox_plane", ⟨.video, .int, "0"⟩),
    ("drm_dirtyband", ⟨.video, .switch, "1"⟩),
    ("drm_async", ⟨.video, .switch, "1"⟩),
    ("fvdi_scale", ⟨.video, .list, "fit"⟩),
    ("vbl_refract_ns", ⟨.video, .int, "5000000"⟩),
    ("ym2149", ⟨.sound, .switch, "enabled"⟩),
    ("dma_sound", ⟨.sound, .switch, "enabled"⟩),
    ("falcon_dsp", ⟨.sound, .switch, "enabled"⟩),
    ("ym_gain", ⟨.sound, .int, "100"⟩),
    ("ym_lag_ms", ⟨.sound, .int, "100"⟩),
    ("lmc", ⟨.sound, .switch, "1"⟩),
    ("audio_frames", ⟨.sound, .list, "2048"⟩),
    ("kbd", ⟨.input, .switch, "usb"⟩),
    ("usb", ⟨.input, .switch, "gamepad"⟩),
    ("mouse_thresh", ⟨.input, .int, "0"⟩),
    ("mouse_scale", ⟨.input, .int, "1"⟩),
    ("ide", ⟨.drives, .switch, "enabled"⟩),
    ("hdd", ⟨.drives, .text, ""⟩),
    ("acsi", ⟨.drives, .switch, "enabled"⟩),
    ("fdd", ⟨.drives, .text, ""⟩),
    ("hostfs", ⟨.drives, .text, ""⟩),
    ("network", ⟨.network, .switch, "enabled"⟩),
    ("network_backend", ⟨.network, .text, "tap"⟩),
    ("network_tap", ⟨.network, .text, "tap0"⟩),
    ("network_base", ⟨.network, .text, "0x00F10000"⟩),
    ("network_mac", ⟨.network, .text, ""⟩),
    ("network_irq", ⟨.network, .int, "4"⟩),
    ("network_host_ip", ⟨.network, .text, "192.168.50.1"⟩),
    ("network_atari_ip", ⟨.network, .text, "192.168.50.2"⟩),
    ("network_netmask", ⟨.network, .text, "255.255.255.0"⟩),
    ("network_debug", ⟨.network, .switch, "enabled"⟩),
    ("stram_cache", ⟨.tuning, .switch, "enabled"⟩),
    ("stram_direct", ⟨.tuning, .switch, "enabled"⟩),
    ("addr32", ⟨.tuning, .switch, "enabled"⟩),
    ("comp_constjump", ⟨.tuning, .switch, "1"⟩),
    ("compnf", ⟨.tuning, .switch, "1"⟩),
    ("compfpu", ⟨.tuning, .switch, "1"⟩),
    ("blit_timed_ns", ⟨.tuning, .int, "0"⟩),
    ("stbox_slice_cyc", ⟨.tuning, .int, "64"⟩),
    ("stbox_telemetry", ⟨.tuning, .switch, "1"⟩),
    ("ipl_confirm_ns", ⟨.tuning, .int, "2000"⟩),
    ("blit_trace", ⟨.tuning, .int, "0"⟩),
    ("debug", ⟨.tuning, .text, ""⟩)]

/-- The keys of a tab, `se_tab_key(tab, 0)` first. -/
def tabKeys (tab : Tab) : List Text :=
  (catalogue.filter (fun e => e.2.tab = tab)).map (fun e => e.1.toList)

def seKind (key : Text) : Kind :=
  match lookup catalogue key with
  | some e => e.kind
  | none => .text

def seTickValue (key : Text) : Text :=
  match lookup catalogue key with
  | some e => e.tick.toList
  | none => []

/-!
## Rules
-/

/-- A key that is allowed only with some words, and what the page says otherwise. -/
structure Rule where
  words : String
  why : String

def cpuRules : List (String × Rule) :=
  [("fpu", ⟨" 68020 68030 68040 68060 ", "needs 68020+"⟩),
    ("ttram", ⟨" 68020 68030 68040 68060 ", "needs 68020+"⟩),
    ("addr32", ⟨" 68020 68030 68040 68060 ", "needs 68020+"⟩),
    ("mmu", ⟨" 68030 68040 68060 ", "needs 68030+"⟩),
    ("cpu_compatible", ⟨" 68000 ", "68000 only"⟩)]

def machineRules : List (String × Rule) :=
  [("acsi", ⟨" st ste megast ", "no ACSI on a Falcon"⟩),
    ("cpu_compatible", ⟨" st ste megast ", "not on a Falcon (68030)"⟩),
    ("falcon_stram", ⟨" falcon ", "Falcon only"⟩),
    ("dma_sound", ⟨" ste falcon ", "STE/Falcon only"⟩),
    ("shifter", ⟨" ste ", "STE only"⟩)]

def brokenRule (rules : List (String × Rule)) (key word : Text) : Option Text :=
  match lookup rules key with
  | none => none
  | some r =>
      let pad := bounded 16 (' ' :: word.take 12 ++ [' '])
      if (strstr pad r.words.toList).isSome then none else some r.why.toList

def seCpuRule (key : Text) (cpu : Option Text) : Option Text :=
  let word :=
    match cpu with
    | none | some [] => "68000".toList
    | some w => w
  brokenRule cpuRules key word

def machineWord (machine : Option Text) : Text :=
  let i :=
    match machine with
    | none | some [] => 0
    | some m => (seIndex "machine".toList m).getD 0
  (seChoice "machine".toList i).getD "st".toList

def seMachineRule (key : Text) (machine : Option Text) : Option Text :=
  brokenRule machineRules key (machineWord machine)

def machineWants : List (String × String × String) :=
  [("ste", "dma_sound", "enabled"), ("falcon", "dma_sound", "enabled"),
    ("ste", "blitter", "enabled"), ("megast", "blitter", "enabled"),
    ("falcon", "blitter", "enabled"), ("falcon", "psvidel", "enabled"),
    ("falcon", "falcon_dsp", "enabled")]

def seMachineWants (machine : Option Text) : List (Text × Text) :=
  (machineWants.filter (fun w => sameCase (machineWord machine) w.1.toList)).map
    (fun w => (w.2.1.toList, w.2.2.toList))

def seMachineMinCpu (machine : Option Text) : Option Text :=
  if sameCase (machineWord machine) "falcon".toList then some "68030".toList else none

/-- `absent_on`: the word that turns a switch off, and whether it is on without a line. -/
def absentOn : List (String × String × Bool) :=
  [("lmc", "0", true), ("drm_dirtyband", "0", true), ("comp_constjump", "0", false),
    ("compnf", "0", false), ("compfpu", "0", true), ("dma_sound", "disabled", true),
    ("acsi", "disabled", false), ("ide", "disabled", false)]

def seAbsentOn (key : Text) : Bool :=
  match lookup absentOn key with
  | some r => r.2
  | none => false

def seOffValue (key : Text) : Option Text :=
  match lookup absentOn key with
  | some r => some r.1.toList
  | none => if seDeveloper key ∧ seKind key = .switch then some "disabled".toList else none

def intRanges : List (String × Int × Int) :=
  [("vbl_refract_ns", 0, 20000000), ("ym_gain", 0, 400), ("ym_lag_ms", 5, 200),
    ("mouse_thresh", 0, 15), ("mouse_scale", 1, 16), ("stbox_plane", 0, 128),
    ("stbox_slice_cyc", 8, 4096), ("blit_timed_ns", 0, 2000), ("ipl_confirm_ns", 0, 1000000),
    ("blit_trace", 0, 1000000), ("network_irq", 1, 7)]

def seIntRange (key : Text) : Option (Int × Int) :=
  lookup intRanges key

def seEnvRule (key sec : Text) : Option Text :=
  let apj := startsWith sec "apj".toList
  match seEnv key with
  | .apj => if apj then none else some "apj-os only".toList
  | .gem => if apj then some "gem only".toList else none
  | .both => none

def seDefaultWord (key : Text) (machine : Option Text) : Option Text :=
  if seKind key ≠ .switch ∨ seRetired key then none
  else
    let m := machineWord machine
    let on :=
      if sameCase key "dma_sound".toList then
        sameCase m "ste".toList || sameCase m "falcon".toList
      else seAbsentOn key
    let t := seTickValue key
    if on then some t
    else if t = "1".toList then some "0".toList
    else if sameCase key "usb".toList then some "gamepad off".toList
    else some "disabled".toList

end Setup
end PistormAtari
