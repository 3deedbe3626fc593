import PistormAtari.Config.Tokens
import PistormAtari.Config.LineValues
import PistormAtari.Foundation.Separators
import PistormAtari.Psctrl.Keys

/-!
# Loading a configuration

`load_config_file_section` reads the lines of one section into `struct emulator_config`.
A key that its own table does not know goes to the settings, which have their tunables
as keys.
-/

namespace PistormAtari
namespace Config

open Foundation
open Psctrl

structure LoaderHost where
  /-- `user_home`. -/
  userHome : Text
  /-- A file as `fopen` and `fread` give it. -/
  file : Text -> Option (List UInt8)

/-- What a load changes besides the configuration, and keeps from load to load. -/
structure LoadedElsewhere where
  /-- The tunables and the settings behind them. -/
  ps : PsState := PsState.startup
  /-- `atari_image_file`. -/
  atariImageFile : Nat -> Option Text := fun _ => none
  /-- The static `idx` of the `hdd` lines. -/
  hddIdx : Nat := 0
  /-- `hdd_mode` and `acsi_mode` of `disk_order.c`. -/
  hddMode : Nat -> Nat := fun _ => 0
  acsiMode : Nat -> Nat := fun _ => 0
  /-- The calls of `acsi_attach_at`: a pinned ID or none, and the image. -/
  acsiAttached : List (Option Nat × Text) := []

structure LoaderState where
  cfg : EmulatorConfig
  elsewhere : LoadedElsewhere
  gRomPath : Text := []
  gDiskPath : Text := []
  gFddPath : Text := []
  acsiEnabled : Bool := false
  acsiSwitchSeen : Bool := false
  /-- `acsi_id` and `acsi_img`, with `acsi_n` their length. -/
  acsiImg : List (Option Nat × Text) := []
  curSection : Text := []
  curCmd : Text

/-!
## The settings' keys
-/

/-- The tokens of `strtok(buf, ", \t")`. -/
def debugTokens (value : Text) : List Text :=
  (pieces (fun c => c == ',' || isBlank c) (printed 256 value)).filter (· ≠ [])

/-- One token of a `debug` line: a tag, and a number behind an equals sign. -/
def debugToken (ps : PsState) (tok : Text) : PsState :=
  let tag := tok.takeWhile (· ≠ '=')
  let v : Int32 :=
    match tok.drop tag.length with
    | [] => 1
    | _ :: n => Int32.ofInt (atoi n)
  gDbg.foldl (fun ps d => if sameCase tag d.1 then setTunable d.2 v ps else ps) ps

def debugCleared (ps : PsState) : PsState :=
  gDbg.foldl (fun ps d => setTunable d.2 (if d.2 = .dbgHostfs then -1 else 0) ps) ps

/-- The settings a row's setter leaves when it runs while a file is loaded. -/
def setLoading (it : PsItem) (v : Int32) (ps : PsState) : PsState :=
  match it.set with
  | none => ps
  | some set => (set true v ps).2

def settingsConfigKey (key value : Text) (ps : PsState) : PsState :=
  if key = "debug".toList then
    let ps := debugCleared ps
    if value = [] ∨ sameCase value "none".toList then ps
    else (debugTokens value).foldl debugToken ps
  else
    match cfgTunables.find? (fun it => it.name == key) with
    | none => ps
    | some it =>
        let label :=
          if it.kind = .enum then it.labels.findIdx? (fun l => sameCase l value) else none
        match label with
        | some k => setLoading it (Int32.ofNat k) ps
        | none => setLoading it (Int32.ofInt (((strtol value).map Prod.fst).getD 0)) ps

/-!
## Keys with more than a value
-/

def monitorForced (arg : Text) : Int32 :=
  let arg := lowercase arg
  if ["mono".toList, "monochrome".toList, "sm124".toList, "high".toList].contains arg then 1
  else if ["colour".toList, "color".toList, "rgb".toList, "sc1224".toList].contains arg then 2
  else 0

def graphicsDrivers : List Text :=
  ["NONE".toList, "NOVA".toList, "XVDI".toList, "NVDI".toList, "FVDI".toList]

def loadGraphics (line : Text) (strpos : Nat) (c : EmulatorConfig) : EmulatorConfig :=
  let c := { c with card := .none, driver := .none }
  let next := getNextString line strpos ' '
  match graphicsCardTypes.findIdx? (· == next.held []) with
  | none => c
  | some i =>
      let c := { c with card := GraphicsCard.all.getD i .none }
      let driver := (getNextString line next.strpos ' ').held []
      match graphicsDrivers.findIdx? (· == driver) with
      | none => c
      | some j => { c with driver := GraphicsDriver.all.getD j .none }

def loadTtram (arg : Text) (c : EmulatorConfig) : EmulatorConfig :=
  let ttram := getBoolDefaultTrue arg
  let c := { c with ttram := ttram }
  let arg := skipBlanks arg
  if ttram = false then c
  else if arg = [] ∨ isBoolTrue arg then { c with ttramSize := 128 * 1024 * 1024 }
  else if isBoolFalse arg then { c with ttram := false, ttramSize := 0 }
  else { c with ttramSize := getInt arg }

def loadRom (host : LoaderHost) (gRomPath arg : Text) (c : EmulatorConfig) : EmulatorConfig :=
  let path := resolvePath host.userHome gRomPath arg 256
  let c := { c with rom := { c.rom with path := pathBuf path } }
  match host.file path with
  | none => c
  | some bytes =>
      let size := bytes.length
      let c := { c with rom := { c.rom with size := Int32.ofNat size } }
      if 256 * 1024 ≤ size then
        { c with rom := { c.rom with address := 0x00E00000, ptr := bytes } }
      else if 192 * 1024 ≤ size then
        { c with rom := { c.rom with address := 0x00FC0000, ptr := bytes } }
      else c

def loadKbd (arg : Text) (c : EmulatorConfig) : EmulatorConfig :=
  let arg := skipBlanks arg
  if startsWith arg "usb".toList then
    let mode : Int32 :=
      if (strstr "standalone".toList arg).isSome then 2
      else if (strstr "merge".toList arg).isSome then 1
      else 0
    let div : Int32 :=
      match strstr "mousediv".toList arg with
      | none => 1
      | some md =>
          let n := atoi (md.drop 8)
          if 1 ≤ n ∧ n ≤ 16 then Int32.ofInt n else 1
    { c with
      kbdUsb := true
      kbdGrab := (strstr "nograb".toList arg).isNone
      kbdMode := mode
      kbdMouseDiv := div }
  else { c with kbdUsb := getBoolDefaultTrue arg, kbdGrab := true, kbdMode := 0 }

def loadUsb (arg : Text) (c : EmulatorConfig) : EmulatorConfig :=
  let arg := skipBlanks arg
  if startsWith arg "gamepad".toList then
    { c with usbGamepad := getBoolDefaultTrue (skipBlanks (arg.drop 7)) }
  else c

def loadMachine (arg : Text) (c : EmulatorConfig) : EmulatorConfig :=
  let arg := skipBlanks arg
  let machine : Option (UInt32 × Int32) :=
    if startsWith arg "falcon".toList then some (0x00030000, 3)
    else if startsWith arg "megast".toList ∨ startsWith arg "mst".toList then some (0, 2)
    else if startsWith arg "ste".toList then some (0x00010000, 1)
    else if startsWith arg "st".toList then some (0, 0)
    else none
  match machine with
  | none => { c with machineSet := false }
  | some (mch, kind) =>
      let c := { c with machineSet := true, machineMch := mch, machineKind := kind }
      if c.shifterSet = false ∧ (kind = 1 ∨ kind = 3) then { c with shifterSte := true } else c

def loadBlitter (arg : Text) (c : EmulatorConfig) : EmulatorConfig :=
  if startsWith (skipBlanks arg) "real".toList then
    { c with blitter := true, blitterReal := true, blitterSet := true }
  else { c with blitter := getBoolDefaultTrue arg, blitterReal := false, blitterSet := true }

def loadCpuSpeed (arg : Text) (c : EmulatorConfig) : EmulatorConfig :=
  let mhz := atoi arg
  if startsWith arg "max".toList then { c with cpuSpeedKhz := 0 }
  else if mhz = 8 ∨ mhz = 16 then { c with cpuSpeedKhz := Int32.ofInt (mhz * 1000) }
  else c

/-- The option at the end of a `hostfs` line, and the path without it. -/
def hostfsOption (path : Text) : Option Bool × Text :=
  let option := (path.reverse.takeWhile (· ≠ ' ')).reverse
  if option.length = path.length then (none, path)
  else
    let word := lowercase (option.take 31)
    let before := trimWhitespace (path.take (path.length - option.length - 1))
    if word = "readonly".toList ∨ word = "ro".toList then (some true, before)
    else if word = "readwrite".toList ∨ word = "rw".toList then (some false, before)
    else (none, path)

def loadHostfs (line : Text) (strpos : Nat) (c : EmulatorConfig) : EmulatorConfig :=
  let drive := getNextString line strpos ' '
  match (drive.held []).head? with
  | none => c
  | some d =>
      match hostfsDriveIndex d with
      | none => c
      | some idx =>
          let rest := skipBlanks (line.drop drive.strpos)
          if rest = [] then c
          else
            let (readonly, path) := hostfsOption (trimWhitespace (printed 256 rest))
            let old := c.hostfs.getD idx {}
            let entry : Hostfs :=
              { enabled := true
                drive := d.toUpper
                path := pathBuf path
                readonly := readonly.getD old.readonly }
            { c with hostfs := c.hostfs.set idx entry }

def loadStboxMachine (arg : Text) (c : EmulatorConfig) : EmulatorConfig :=
  let arg := lowercase arg
  if arg = "ste".toList then { c with stboxSte := true }
  else if arg = "st".toList ∨ arg = [] then { c with stboxSte := false }
  else c

def diskOrderParseMode (s : Text) : Option Nat :=
  let s := skipBlanks s
  if startsWith s "auto".toList then some 0
  else if startsWith s "native".toList then some 1
  else if startsWith s "swapped".toList then some 2
  else if startsWith s "bootswap".toList then some 3
  else none

def orderLine (arg : Text) : Option (Nat × Nat) :=
  match skipBlanks arg with
  | c :: d :: rest =>
      if ('0' ≤ c ∧ c ≤ '7') ∧ isBlank d then
        (diskOrderParseMode rest).map fun m => (c.toNat - '0'.toNat, m)
      else none
  | _ => none

/-!
## Image lines
-/

def loadHdd (host : LoaderHost) (arg : Text) (s : LoaderState) : LoaderState :=
  let (slot, img) := slotPrefix arg
  let e := s.elsewhere
  let placed : Option Nat × Nat :=
    match slot with
    | some n => (some n, e.hddIdx)
    | none => if e.hddIdx < 8 then (some e.hddIdx, e.hddIdx + 1) else (none, e.hddIdx)
  let e := { e with hddIdx := placed.2 }
  match placed.1 with
  | some n =>
      let path := resolvePath host.userHome s.gDiskPath img 512
      let files := Function.update e.atariImageFile n (some path)
      { s with elsewhere := { e with atariImageFile := files } }
  | none => { s with elsewhere := e }

def loadFdd (host : LoaderHost) (arg : Text) (s : LoaderState) : LoaderState :=
  let (drv, img) := fddSlotPrefix arg
  let drv := drv.getD (if s.cfg.fdd.imgPath.chars = [] then 0 else 1)
  let path := pathBuf (resolvePath host.userHome s.gFddPath img 256)
  if 1 < drv then s
  else if drv = 0 then
    { s with cfg := { s.cfg with fdd := { s.cfg.fdd with enabled := true, imgPath := path } } }
  else { s with cfg := { s.cfg with fdd := { s.cfg.fdd with enabled := true, imgPathB := path } } }

/-- `acsi`: the switch, or an image that is attached once the file is read. -/
def loadAcsi (host : LoaderHost) (arg : Text) (s : LoaderState) : LoaderState :=
  if isBoolTrue arg ∨ isBoolFalse arg then
    { s with acsiSwitchSeen := true, acsiEnabled := getBoolDefaultTrue arg }
  else if s.acsiImg.length < 8 then
    let (id, img) := slotPrefix arg
    let path := resolvePath host.userHome s.gDiskPath img 512
    { s with acsiImg := s.acsiImg ++ [(id, path)] }
  else s

/-!
## One line
-/

def LoaderState.withCfg (f : EmulatorConfig -> EmulatorConfig) (s : LoaderState) : LoaderState :=
  { s with cfg := f s.cfg }

/-- The cases of the loader's switch; `line` is the line without its end and `strpos` the
position behind the command. -/
def loadItem (host : LoaderHost) (line : Text) (strpos : Nat) (item : ConfigItem)
    (s : LoaderState) : LoaderState :=
  let arg := line.drop strpos
  let on := getBoolDefaultTrue arg
  let word (old : Text) := (getNextString line strpos ' ').held old
  match item with
  | .cpu => s.withCfg fun c => { c with cpuType := UInt8.ofNat (getM68kCpuType arg) - 1 }
  | .monitor =>
      s.withCfg fun c =>
        { c with monitorForce := monitorForced ((getNextString arg 0 ' ').held []) }
  | .cpuCompatible => s.withCfg fun c => { c with cpuCompatible := on }
  | .mmu => s.withCfg fun c => { c with mmu := on }
  | .fpu => s.withCfg fun c => { c with fpu := on }
  | .graphicsCard => s.withCfg (loadGraphics line strpos)
  | .fps => s
  | .ttram => s.withCfg (loadTtram arg)
  | .addr32 => s.withCfg fun c => { c with addr32 := on }
  | .rom => s.withCfg (loadRom host s.gRomPath arg)
  | .ide => s.withCfg fun c => { c with ide := on }
  | .ideByteorder => s
  | .hddOrder =>
      match orderLine arg with
      | none => s
      | some (n, m) =>
          { s with elsewhere := { s.elsewhere with
            hddMode := Function.update s.elsewhere.hddMode n m } }
  | .acsiOrder =>
      match orderLine arg with
      | none => s
      | some (n, m) =>
          { s with elsewhere := { s.elsewhere with
            acsiMode := Function.update s.elsewhere.acsiMode n m } }
  | .cpuSpeed => s.withCfg (loadCpuSpeed arg)
  | .hdd => loadHdd host arg s
  | .fdd => loadFdd host arg s
  | .acsi => loadAcsi host arg s
  | .dmaSound => s.withCfg fun c => { c with dmaSound := on, dmaSoundSet := true }
  | .ym2149 => s.withCfg fun c => { c with ym2149 := on }
  | .kbd => s.withCfg (loadKbd arg)
  | .usb => s.withCfg (loadUsb arg)
  | .blitter => s.withCfg (loadBlitter arg)
  | .shifter =>
      s.withCfg fun c =>
        { c with shifterSte := startsWith (skipBlanks arg) "ste".toList, shifterSet := true }
  | .machine => s.withCfg (loadMachine arg)
  | .stramCache => s.withCfg fun c => { c with stramCache := on }
  | .stramDirect => s.withCfg fun c => { c with stramDirect := on }
  | .nativeHdmi => s.withCfg fun c => { c with nativeHdmi := on }
  | .hdmiOnly => s.withCfg fun c => { c with hdmiOnly := on }
  | .psvidel => s.withCfg fun c => { c with psvidel := on }
  | .falconDsp => s.withCfg fun c => { c with falconDsp := on }
  | .jitCache => s.withCfg fun c => { c with jitCache := getSizeKb arg, jitCacheSet := true }
  | .network => s.withCfg fun c => { c with networkEnabled := on }
  | .networkBackend => s.withCfg fun c => { c with networkBackend := word c.networkBackend }
  | .networkTap => s.withCfg fun c => { c with networkTap := word c.networkTap }
  | .networkBase => s.withCfg fun c => { c with networkBase := getInt arg }
  | .networkMac => s.withCfg fun c => { c with networkMac := word c.networkMac }
  | .networkIrq => s.withCfg fun c => { c with networkIrqLevel := (getInt arg).toUInt8 }
  | .networkHostIp => s.withCfg fun c => { c with networkHostIp := word c.networkHostIp }
  | .networkAtariIp => s.withCfg fun c => { c with networkAtariIp := word c.networkAtariIp }
  | .networkNetmask => s.withCfg fun c => { c with networkNetmask := word c.networkNetmask }
  | .networkDebug => s.withCfg fun c => { c with networkDebug := on }
  | .hostfs => s.withCfg (loadHostfs line strpos)
  | .stboxTos =>
      s.withCfg fun c =>
        { c with
          stboxTos := pathBuf (trimWhitespace (resolvePath host.userHome s.gRomPath arg 256)) }
  | .stboxMachine => s.withCfg (loadStboxMachine ((getNextString arg 0 ' ').held []))
  | .stboxPlane => s.withCfg fun c => { c with stboxPlane := (getInt arg).toInt32 }
  | .stramSize =>
      s.withCfg fun c => { c with stramSize := (getSizeKb arg).toUInt32 * 1024 }
  | .falconStram =>
      s.withCfg fun c => { c with falconStram := (getSizeKb arg).toUInt32 * 1024 }
  | .none =>
      let s :=
        if sameCase s.curCmd "jit_power".toList then
          s.withCfg fun c => { c with jit := ((strtol arg).map Prod.fst).getD 0 ≠ 0 }
        else s
      { s with elsewhere := { s.elsewhere with
        ps := settingsConfigKey s.curCmd arg s.elsewhere.ps } }

/-- The value of a path variable: the rest of the line without blanks at its ends. -/
def pathValue (line : Text) (strpos : Nat) : Text :=
  skipBlanks (trimWhitespace (printed 512 (line.drop strpos)))

def setPathVariable (kw val : Text) (s : LoaderState) : LoaderState :=
  if sameCase kw "rom_path".toList then { s with gRomPath := val }
  else if sameCase kw "disk_path".toList then { s with gDiskPath := val }
  else { s with gFddPath := val }

def loadConfigLine (host : LoaderHost) (wantSection : Option Text) (s : LoaderState)
    (raw : Text) : LoaderState :=
  let line := cstr raw
  if skippedLine line then s
  else
    match configSectionHeader 32 line with
    | some name => { s with curSection := name }
    | none =>
        let kw := getNextString line 0 ' '
        if isPathVariable (kw.held []) then
          setPathVariable (kw.held []) (pathValue line kw.strpos) s
        else if ¬ sectionWanted wantSection s.curSection then s
        else
          let line := trimWhitespace line
          let cmd := getNextString line 0 ' '
          let curCmd := cmd.held s.curCmd
          loadItem host line cmd.strpos (getConfigItemType curCmd) { s with curCmd := curCmd }

/-!
## The loop's own state

The cases of the switch change neither the section nor the command, so the loop makes the
calls of its tokens.
-/

def LoaderState.loop (s : LoaderState) : LoopState :=
  { curSection := s.curSection, curCmd := s.curCmd }

theorem loadItem_frame (host : LoaderHost) (line : Text) (strpos : Nat) (item : ConfigItem)
    (s : LoaderState) :
    loadItem host line strpos item s =
      { s with
        cfg := (loadItem host line strpos item s).cfg
        elsewhere := (loadItem host line strpos item s).elsewhere
        acsiEnabled := (loadItem host line strpos item s).acsiEnabled
        acsiSwitchSeen := (loadItem host line strpos item s).acsiSwitchSeen
        acsiImg := (loadItem host line strpos item s).acsiImg } := by
  cases item with
  | hdd =>
      unfold loadItem loadHdd
      dsimp only
      split <;> rfl
  | fdd =>
      unfold loadItem loadFdd
      dsimp only
      generalize (fddSlotPrefix (line.drop strpos)).1.getD
        (if s.cfg.fdd.imgPath.chars = [] then 0 else 1) = drv
      split
      · rfl
      · split <;> rfl
  | acsi =>
      unfold loadItem loadAcsi
      dsimp only
      split
      · rfl
      · split <;> rfl
  | hddOrder =>
      unfold loadItem
      dsimp only
      split <;> rfl
  | acsiOrder =>
      unfold loadItem
      dsimp only
      split <;> rfl
  | none =>
      unfold loadItem
      dsimp only
      split <;> rfl
  | _ => rfl

theorem loadItem_loop (host : LoaderHost) (line : Text) (strpos : Nat) (item : ConfigItem)
    (s : LoaderState) : (loadItem host line strpos item s).loop = s.loop := by
  rw [loadItem_frame]
  rfl

theorem loadConfigLine_loop (host : LoaderHost) (wantSection : Option Text) (s : LoaderState)
    (raw : Text) :
    (loadConfigLine host wantSection s raw).loop = (loadLine wantSection s.loop raw).1 := by
  unfold loadConfigLine loadLine
  dsimp only
  split
  · rfl
  · cases configSectionHeader 32 (cstr raw) with
    | some name => rfl
    | none =>
        dsimp only
        cases isPathVariable ((getNextString (cstr raw) 0 ' ').held []) with
        | true =>
            rw [if_pos rfl, if_pos (Or.inl rfl)]
            unfold setPathVariable
            split
            · rfl
            · split
              · rfl
              · rfl
        | false =>
            rw [if_neg (by decide)]
            cases hwanted : sectionWanted wantSection s.curSection with
            | true =>
                have hloop : sectionWanted wantSection s.loop.curSection = true := hwanted
                rw [if_neg (by decide), hloop, if_neg (by decide), loadItem_loop]
                rfl
            | false =>
                have hloop : sectionWanted wantSection s.loop.curSection = false := hwanted
                rw [if_pos (by decide), hloop, if_pos (by decide)]

/-!
## The whole file
-/

/-- What follows the line loop: a Falcon is a 68030, and what a 24-bit processor cannot
have is off. -/
def settled (c : EmulatorConfig) : EmulatorConfig :=
  let c := if c.machineSet ∧ c.machineKind = 3 then { c with cpuType := 3 } else c
  if c.cpuType < 2 then { c with fpu := false, ttram := false, ttramSize := 0, addr32 := false }
  else if c.ttram then
    let size := if c.ttramSize = 0 then 128 * 1024 * 1024 else c.ttramSize
    { c with ttramSize := min size (256 * 1024 * 1024), addr32 := true }
  else c

def unread : EmulatorConfig :=
  { cpuType := 0, jit := true, blitter := true, ideByteorder := 1, nativeHdmi := false }

def loadStart (curCmd : Text) (e : LoadedElsewhere) : LoaderState :=
  { cfg := unread, elsewhere := e, curCmd := curCmd }

/-- What a load leaves behind; the path variables are statics of the module. -/
structure Loaded where
  cfg : EmulatorConfig
  elsewhere : LoadedElsewhere
  gRomPath : Text
  gDiskPath : Text
  gFddPath : Text

def loadEnd (s : LoaderState) : Loaded :=
  let attached := if s.acsiEnabled then s.acsiImg else []
  { cfg := settled s.cfg
    elsewhere := { s.elsewhere with acsiAttached := s.elsewhere.acsiAttached ++ attached }
    gRomPath := s.gRomPath
    gDiskPath := s.gDiskPath
    gFddPath := s.gFddPath }

/-- `load_config_file_section` of a file that opens; `curCmd` is what the command's buffer
holds before the first line. -/
def loadConfigFile (host : LoaderHost) (wantSection : Option Text) (curCmd : Text)
    (e : LoadedElsewhere) (file : Text) : Loaded :=
  loadEnd ((fgets 512 file).foldl (loadConfigLine host wantSection) (loadStart curCmd e))

end Config
end PistormAtari
