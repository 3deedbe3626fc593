import PistormAtari.Foundation.TextLines
import PistormAtari.Psctrl.Keys

/-!
# `config_file_save`

The saver edits the text of the `.cfg` file line by line.  It writes the result to a
temporary file and renames it; here it is a function from the old text to the new
one.
-/

namespace PistormAtari
namespace Config

open Foundation
open Psctrl

def maxline : Nat := 1024

/-!
## Rendered lines
-/

def cpuNames : List Text :=
  ["NONE".toList, "68000".toList, "68010".toList, "68020".toList, "68030".toList,
    "68040".toList, "68060".toList]

def cpuName (t : Nat) : Text :=
  cpuNames.getD t "68000".toList

def cardName : GraphicsCard -> Text
  | .none => "NONE".toList
  | .et4000ax => "ET4000AX".toList
  | .ati => "ATI".toList
  | .matrox => "MATROX".toList

def driverName : GraphicsDriver -> Text
  | .none => "NONE".toList
  | .nova => "NOVA".toList
  | .xvdi => "XVDI".toList
  | .nvdi => "NVDI".toList
  | .fvdi => "FVDI".toList

def boolName (b : Bool) : Text :=
  if b then "true".toList else "false".toList

def nameAt (names : List Text) (i : Int32) (dflt : Text) : Text :=
  if 0 ≤ i then names.getD i.toInt.toNat dflt else dflt

def kbdValue (c : EmulatorConfig) : Text :=
  if !c.kbdUsb then "false".toList
  else
    "usb".toList ++ (if c.kbdGrab then [] else " nograb".toList) ++
      (if c.kbdMode = 1 then " merge".toList
        else if c.kbdMode = 2 then " standalone".toList else []) ++
      (if 1 < c.kbdMouseDiv then " mousediv ".toList ++ decimal c.kbdMouseDiv.toInt else [])

/-- What `render_boot_key` prints behind each key it knows; `none` where it writes no
line. -/
def bootValues (c : EmulatorConfig) : List (Text × Option Text) :=
  [("machine".toList, if c.machineSet then some (nameAt lMachine c.machineKind "st".toList)
      else none),
    ("cpu".toList, some (cpuName (c.cpuType.toNat + 1))),
    ("fpu".toList, some (boolName c.fpu)),
    ("mmu".toList, some (boolName c.mmu)),
    ("cpu_compatible".toList, some (boolName c.cpuCompatible)),
    ("shifter".toList, if c.shifterSet then
        some (if c.shifterSte then "ste".toList else "st".toList) else none),
    ("blitter".toList, some (if !c.blitter then "false".toList
        else if c.blitterReal then "real".toList else "true".toList)),
    ("stram_size".toList, some (unsigned (c.stramSize.toNat / 1024) ++ ['K'])),
    ("ttram".toList, some (if !c.ttram then "false".toList
        else unsigned (c.ttramSize.toNat / (1024 * 1024)) ++ ['M'])),
    ("addr32".toList, some (boolName c.addr32)),
    ("stram_cache".toList, some (boolName c.stramCache)),
    ("stram_direct".toList, some (boolName c.stramDirect)),
    ("native_hdmi".toList, some (boolName c.nativeHdmi)),
    ("psvidel".toList, some (boolName c.psvidel)),
    ("falcon_dsp".toList, some (boolName c.falconDsp)),
    ("vga".toList, some (cardName c.card ++ ' ' :: driverName c.driver)),
    ("monitor".toList, some (nameAt lMonitor c.monitorForce "auto".toList)),
    ("ym2149".toList, some (boolName c.ym2149)),
    ("dma_sound".toList, some (boolName c.dmaSound)),
    ("ide".toList, some (boolName c.ide)),
    ("kbd".toList, some (kbdValue c)),
    ("network".toList, some (boolName c.networkEnabled)),
    ("network_irq".toList, some (unsigned c.networkIrqLevel.toNat)),
    ("fps".toList, some (decimal c.fps.toInt)),
    ("rom".toList, if c.rom.path.chars = [] then none else some c.rom.path.chars),
    ("stbox_tos".toList, if c.stboxTos.chars = [] then none else some c.stboxTos.chars),
    ("stbox_plane".toList, some (decimal c.stboxPlane.toInt)),
    ("jit_cache".toList, if c.jitCacheSet then some (decimal c.jitCache.toInt) else none),
    ("cpu_speed".toList, if c.cpuSpeedKhz = 0 then none
        else some (decimal (c.cpuSpeedKhz / 1000).toInt ++ "mhz".toList))]

def renderBootKey (key : Text) (c : EmulatorConfig) : Option Text :=
  match (bootValues c).lookup key with
  | some (some v) => some (key ++ ' ' :: v)
  | _ => none

def renderKey (c : EmulatorConfig) (s : PsState) (key : Text) : Option Text :=
  match renderBootKey key c with
  | some line => some line
  | none => settingsRenderKey key s

/-!
## Reading a line
-/

def headerName : Nat -> Text -> Option Text
  | _, [] => none
  | 0, c :: _ => if c = ']' then some [] else none
  | n + 1, c :: cs => if c = ']' then some [] else (headerName n cs).map (c :: ·)

def saveSectionHeader (line : Text) : Option Text :=
  match skipBlanks line with
  | '[' :: rest =>
      match headerName 31 rest with
      | some [] => none
      | name => name
  | _ => none

def lineKey (line : Text) : Option Text :=
  match skipBlanks line with
  | [] => none
  | c :: cs =>
      if c = '#' ∨ c = '/' ∨ c = '\r' ∨ c = '\n' then none
      else
        match ((c :: cs).takeWhile (fun c => !isspace c)).take 63 with
        | [] => none
        | key => some (lowercase key)

/-!
## Saving
-/

structure SaveJob where
  /-- `emulator_config_section()`. -/
  want : CBuf 32
  cfg : EmulatorConfig
  state : PsState

/-- What the saver keeps between lines: if it is inside the booted section, if it has
met that section, and the keys it has seen there. -/
structure SaveState where
  inTarget : Bool
  targetSeen : Bool
  seen : List Text

/-- `snprintf(g_cfg_section, 32, "%s", s)`; empty when a file without sections was
booted. -/
def sectionBuf (s : Text) : CBuf 32 :=
  CBuf.print 32 (by decide) s

variable (job : SaveJob)

def SaveJob.scoped : Bool :=
  !job.want.chars.isEmpty

def SaveJob.render (key : Text) : Option Text :=
  renderKey job.cfg job.state key

def flushUnseen (seen : List Text) : Text :=
  match (settingsKeys.filter (· ∉ seen)).filterMap job.render with
  | [] => []
  | lines => "# --- written by PSCTRL ---\n".toList ++ lines.flatMap (· ++ ['\n'])

/-- One round of the loop over the lines: what is written, and the state after it. -/
def saveLine (st : SaveState) (piece : Text) : Text × SaveState :=
  let line := cstr piece
  match if job.scoped then saveSectionHeader line else none with
  | some sec =>
      let added := if st.inTarget then flushUnseen job st.seen else []
      let mine := sameCase sec job.want.chars
      (added ++ (if added.isEmpty then [] else ['\n']) ++ line,
        { st with inTarget := mine, targetSeen := st.targetSeen || mine })
  | none =>
      match lineKey line with
      | none => (line, st)
      | some key =>
          match if st.inTarget then job.render key else none with
          | none => (line, st)
          | some rendered =>
              if key ∈ settingsKeys then
                (if key ∈ st.seen then [] else rendered ++ ['\n'],
                  { st with seen := st.seen.insert key })
              else (rendered ++ ['\n'], st)

def saveEnd (st : SaveState) : Text :=
  if st.inTarget then flushUnseen job st.seen
  else if job.scoped && !st.targetSeen then
    "\n[".toList ++ job.want.chars ++ "]\n".toList ++ flushUnseen job st.seen
  else []

def saveLoop : SaveState -> List Text -> Text
  | st, [] => saveEnd job st
  | st, p :: ps => (saveLine job st p).1 ++ saveLoop (saveLine job st p).2 ps

def saveStart : SaveState where
  inTarget := !job.scoped
  targetSeen := !job.scoped
  seen := []

def configFileSave (text : Text) : Text :=
  saveLoop job (saveStart job) (fgets maxline text)

end Config
end PistormAtari
