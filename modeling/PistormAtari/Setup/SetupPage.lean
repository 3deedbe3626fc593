import PistormAtari.Setup.Values

/-!
# The state of the setup page

The second half of `setup_page.c`: the list of builds, the rows of the editor, and what
the keys do to a row.  The rows are built afresh from the file on every turn of the loop.
-/

namespace PistormAtari
namespace Setup

open Foundation

inductive Screen
  | builds
  | edit
deriving DecidableEq

inductive RowKind
  | key
  | label
  | slot
  | add
  | save
  | boot
deriving DecidableEq

structure Row where
  kind : RowKind := .key
  text : Text := []
  ord : Int := 0
  ticked : Bool := false
  blocked : Bool := false
  why : Option Text := none
  col : Nat := 0
  line : Nat := 0
  label : Text := []
  slot : Nat := 0
deriving DecidableEq

/-- `struct state` without the countdown, which only the loop knows, and with the two
switches of the clock. -/
structure Page where
  cfg : Cfg := {}
  screen : Screen := .builds
  builds : List Text := []
  bsel : Nat := 0
  boot : Text := []
  naming : Bool := false
  copying : Bool := false
  asking : Bool := false
  warned : Bool := false
  sec : Text := []
  tab : Tab := .machine
  row : List Row := []
  sel : Nat := 0
  top : Nat := 0
  listRows : Nat := 0
  editing : Bool := false
  choosing : Bool := false
  choice : Nat := 0
  edit : Text := []
  msg : Text := []
  picking : Bool := false
  pick : Nat := 0
  ptop : Nat := 0
  files : List Text := []
  pickdir : Text := []
  pickvar : Option Text := none
  clock12h : Bool := false
  dateMdy : Bool := false
deriving DecidableEq

/-- What a key finds in the host: the home directory, the entries of a directory with
whether they are regular files, why a save fails, and what the screendump writer answers. -/
structure World where
  home : Text := []
  dir : Text -> Option (List (Text × Bool)) := fun _ => none
  saveFails : Option Text := none
  dumper : Option (Option Text) := none

/-- `snprintf(st->msg, sizeof st->msg, "%s", s)`. -/
def Page.say (p : Page) (s : Text) : Page :=
  { p with msg := bounded 64 s }

def Page.cur (p : Page) : Row :=
  p.row.getD p.sel {}

def Page.get (p : Page) (key : Text) : Option Text :=
  scGet p.cfg p.sec key

/-- `sc_set_n` of a key of the build, whether it succeeds or not. -/
def Page.setN (p : Page) (key : Text) (n : Int) (val : Option Text) : Page :=
  { p with cfg := (scSetN p.cfg p.sec key n val).2 }

/-!
## Builds
-/

def Page.loadBuilds (p : Page) : Page :=
  let builds :=
    ((scSections p.cfg (maxBuilds + 1)).filter (fun s => !sameCase s "psctrl".toList)).take maxBuilds
  let boot :=
    match scGet p.cfg "psctrl".toList "boot".toList with
    | none | some [] => builds.headD []
    | some b => if sameCase b "psctrl".toList then builds.headD [] else b
  let boot := bounded secLen boot
  let bsel :=
    (List.range builds.length).foldl (fun sel i =>
      if sameCase (builds.getD i []) boot then i else sel) 0
  { p with builds := builds, boot := boot, bsel := bsel }

def Page.clockLoad (p : Page) : Page :=
  { p with
    clock12h := scGet p.cfg "psctrl".toList "clock".toList == some "12".toList
    dateMdy := (scGet p.cfg "psctrl".toList "date".toList).any (fun v => sameCase v "mdy".toList) }

def nameChar (c : Char) : Bool :=
  c.isAlphanum || c == '-' || c == '_'

/-- `name_ok`: the name is lower-cased up to its first bad character. -/
def Page.nameOk (p : Page) : Bool × Page :=
  if p.edit = [] then (false, p.say "a name is needed".toList)
  else
    let good := (lowercase p.edit).takeWhile nameChar
    match (lowercase p.edit).drop good.length with
    | c :: _ =>
        let p := { p with edit := good ++ c :: p.edit.drop (good.length + 1) }
        (false, p.say ('\'' :: c :: "' cannot be in a build name".toList))
    | [] =>
        let p := { p with edit := good }
        if good = "psctrl".toList then (false, p.say "[psctrl] is the page's own block".toList)
        else if p.builds.contains good then
          (false, p.say ("there is already a [".toList ++ good.take 15 ++ "]".toList))
        else (true, p)

def Page.openEditor (p : Page) : Page :=
  { p with screen := .edit, tab := .machine, sel := 0, top := 0 }

def Page.newBuild (p : Page) : Page :=
  let r :=
    if p.choice = 0 then scAddSection p.cfg p.edit
    else scCopySection p.cfg (p.builds.getD (p.choice - 1) []) p.edit
  let p := { p with cfg := r.2, copying := false }
  if r.1 = false then
    p.say ("could not add [".toList ++ p.edit.take 15 ++ "] - the file is full".toList)
  else
    let p := { p with sec := p.edit.take 15 }.loadBuilds.openEditor
    p.say ("new build [".toList ++ p.sec ++ "] - Save keeps it".toList)

def Page.deleteBuild (p : Page) : Page :=
  let name := p.builds.getD p.bsel []
  let r := scDelSection p.cfg name
  let p := { p with asking := false }
  if r.1 = false then p
  else
    let cfg :=
      if sameCase p.boot name then (scSet r.2 "psctrl".toList "boot".toList none).2 else r.2
    let p := { p with cfg := cfg }.loadBuilds
    let p :=
      if p.builds.length ≤ p.bsel ∧ p.builds ≠ [] then { p with bsel := p.builds.length - 1 } else p
    p.say ("deleted [".toList ++ name ++ "] - S saves it".toList)

/-- The save that a key asks for: the build to boot and the missing switches are written
out first. -/
def Page.saveNow (w : World) (p : Page) : Page :=
  let cfg := (scSet p.cfg "psctrl".toList "boot".toList (some p.boot)).2
  let r := scSave w.saveFails (spFillDefaults cfg)
  let p := { p with cfg := r.2 }
  if r.1 then { p.say "saved".toList with warned := false }
  else p.say ("SAVE FAILED - ".toList ++ (scSaveError p.cfg).take 48)

/-!
## Rows
-/

def parentOff (c : Cfg) (sec key : Text) : Bool :=
  match seNeeds key with
  | none => false
  | some needs =>
      match scGet c sec needs with
      | none => true
      | some v => !spRowOn needs v

def Row.usable (r : Row) : Bool :=
  match r.kind with
  | .label => false
  | .key | .slot | .add => !r.blocked && r.why.isNone
  | .save | .boot => true

def moveDown (rows : List Row) (sel : Nat) : Nat :=
  match (rows.drop (sel + 1)).findIdx? Row.usable with
  | some i => sel + 1 + i
  | none => sel

def moveUp (rows : List Row) (sel : Nat) : Nat :=
  match (rows.take sel).reverse.findIdx? Row.usable with
  | some i => sel - 1 - i
  | none => sel

def settle (rows : List Row) (sel : Nat) : Nat :=
  if (rows.getD sel {}).usable then sel
  else if moveDown rows sel = sel then moveUp rows sel
  else moveDown rows sel

def listRoom : Nat := 25 - 5 - 3

def maxRows : Nat := 96

def footerRows : List Row :=
  [{ kind := .save }, { kind := .boot }]

def ordOf : Option Nat -> Int
  | some i => i
  | none => -1

def slotRow (key : String) (map : SlotMap) (col line i : Nat) (label : Text) : Row :=
  { kind := .slot, text := key.toList, ord := ordOf (map.getD i none), col := col, line := line
    label := label, ticked := (map.getD i none).isSome, slot := i }

def hostfsLabel : Option Text -> Text
  | some (c :: _) => [c.toUpper, ':']
  | _ => "?:".toList

def driveRows (c : Cfg) (sec : Text) : List Row :=
  let hmap := slotMap c sec "hdd".toList
  let amap := slotMap c sec "acsi".toList
  let fmap := slotMap c sec "fdd".toList
  let ns := scCount c sec "hostfs".toList
  let ideOn := (scGet c sec "ide".toList).any (spRowOn "ide".toList)
  let asw := acsiSwitchLine c sec
  let acsiOn :=
    (asw.bind (fun i => scGetN c sec "acsi".toList i)).any (spRowOn "acsi".toList)
  let noAcsi := seMachineRule "acsi".toList (scGet c sec "machine".toList)
  let shown := min ns (listRoom - (driveSlots + 3))
  [{ kind := .key, text := "ide".toList, ticked := ideOn }] ++
    (List.range driveSlots).map (fun i =>
      { slotRow "hdd" hmap 0 (1 + i) i (unsigned i) with blocked := !ideOn }) ++
    [{ kind := .label, text := "fdd".toList, line := driveSlots + 2 }] ++
    (List.range 2).map (fun i =>
      slotRow "fdd" fmap 0 (driveSlots + 3 + i) i (if i = 0 then "A:".toList else "B:".toList)) ++
    [{ kind := .key, text := "acsi".toList, ord := ordOf asw, col := 1, ticked := acsiOn
       why := noAcsi }] ++
    (List.range driveSlots).map (fun i =>
      { slotRow "acsi" amap 1 (1 + i) i (unsigned i) with blocked := !acsiOn, why := noAcsi }) ++
    [{ kind := .label, text := "hostfs".toList, col := 1, line := driveSlots + 2 }] ++
    (List.range shown).map (fun (i : Nat) =>
      { kind := .slot, text := "hostfs".toList, ord := i, col := 1, line := driveSlots + 3 + i
        label := hostfsLabel (scGetN c sec "hostfs".toList i), ticked := true }) ++
    (if driveSlots + 3 + shown < listRoom then
      [{ kind := .add, text := "hostfs".toList, ord := ns, col := 1, line := driveSlots + 3 + shown
         label := "+".toList }]
    else [])

def hiddenKey (c : Cfg) (sec k : Text) : Bool :=
  seRetired k || (seDeveloper k && (scGet c sec k).isNone && (seKnownDefault k).isNone)

/-- The box of a key: ticked where the build has the line and it is on. -/
def tickedKey (c : Cfg) (sec k : Text) : Bool :=
  match scGet c sec k with
  | none => seAbsentOn k
  | some v =>
      match seKind k with
      | .switch => spRowOn k v
      | .list => !listOff k v
      | .text | .int => true

def keyRow (c : Cfg) (sec k : Text) : Row :=
  let ticked := tickedKey c sec k
  let why := (seEnvRule k sec).or (seCpuRule k (scGet c sec "cpu".toList))
  let why := why.or (seMachineRule k (scGet c sec "machine".toList))
  let why :=
    if why.isNone ∧ (ticked = false ∨ startsWith k "comp".toList) then spJitRule c sec k else why
  { kind := .key, text := bounded keyLen k, ticked := ticked, blocked := parentOff c sec k
    why := why }

def keyRows (c : Cfg) (sec : Text) (tab : Tab) : List Row :=
  (((tabKeys tab).filter (fun k => !hiddenKey c sec k)).map (keyRow c sec)).take (maxRows - 2)

def editorRows (c : Cfg) (sec : Text) (tab : Tab) : List Row :=
  (if tab = .drives then driveRows c sec else keyRows c sec tab) ++ footerRows

def scrolled (nk room sel top : Nat) : Nat :=
  let top := if sel < top then sel else top
  let top := if sel < nk ∧ top + room ≤ sel then sel - room + 1 else top
  min top (nk - room)

def Page.buildRows (p : Page) : Page :=
  let rows := editorRows p.cfg p.sec p.tab
  let sel := min p.sel (rows.length - 1)
  { p with
    row := rows
    listRows := listRoom
    top := if p.tab = .drives then 0 else scrolled (rows.length - 2) listRoom sel p.top
    sel := settle rows sel }

/-!
## The machine and the cpu of a build
-/

/-- Where a value stands in the file: the line and how far into its text. -/
structure ValueAt where
  line : Nat
  skip : Nat

def valueAt (c : Cfg) (sec key : Text) : Option ValueAt :=
  match c.findN sec key 0 with
  | none => none
  | some i =>
      c.line[i]?.map (fun l => { line := i, skip := l.text.length - (lineValue l.text).length })

/-- The array of lines after an operation: behind the lines in use the old ones stay. -/
def overlay (old : List Line) (c : Cfg) : List Line :=
  c.line ++ old.drop c.line.length

/-- What a pointer to a value reads in the array, wherever the lines have moved to. -/
def readAt (lines : List Line) (v : ValueAt) : Text :=
  ((lines[v.line]?.map Line.text).getD []).drop v.skip

def Page.pinMachineCpu (p : Page) : Page :=
  match seMachineMinCpu (p.get "machine".toList) with
  | none => p
  | some need =>
      if (p.get "cpu".toList).any (fun cpu => sameCase cpu need) then p
      else
        let r := scSet p.cfg p.sec "cpu".toList (some need)
        let p := { p with cfg := r.2 }
        if r.1 then
          p.say ("falcon needs a ".toList ++ need ++ " - cpu kept at ".toList ++ need)
        else p

/-- One key of `drop_by_rules`.  `cpu` points into the lines, which move when a line
before it goes. -/
def dropKey (sec : Text) (cpu : Option ValueAt) (s : Cfg × List Line × Text) (k : Text) :
    Cfg × List Line × Text :=
  let word := cpu.map (readAt s.2.1)
  if (seCpuRule k word).isNone ∨ (scGet s.1 sec k).isNone then s
  else
    let c := (scSet s.1 sec k none).2
    (c, overlay s.2.1 c, note 48 ", " s.2.2 (k.take 14))

def Page.dropByRules (p : Page) : Page :=
  let cpu := valueAt p.cfg p.sec "cpu".toList
  let s := (Tab.all.flatMap tabKeys).foldl (dropKey p.sec cpu) (p.cfg, p.cfg.line, [])
  let p := { p with cfg := s.1 }
  if s.2.2 = [] then p
  else
    let word := (cpu.map (readAt s.2.1)).getD "68000".toList
    p.say ("cpu ".toList ++ word.take 8 ++ ": dropped ".toList ++ s.2.2.take 40)

def wantKey (sec : Text) (s : Cfg × Text) (want : Text × Text) : Cfg × Text :=
  let key := want.1
  let on : Bool :=
    match scGet s.1 sec key with
    | some v => if seKind key = .list then !listOff key v else spRowOn key v
    | none => seAbsentOn key || sameCase key "blitter".toList
  if on then s else setNoted 64 " " sec key (some want.2) ('+' :: key.take 10) s

def Page.applyMachine (p : Page) : Page :=
  let m := p.get "machine".toList
  let place := valueAt p.cfg p.sec "machine".toList
  let s := (seMachineWants m).foldl (wantKey p.sec) (p.cfg, [])
  let s :=
    match seMachineMinCpu m with
    | none => s
    | some need =>
        if (scGet s.1 p.sec "cpu".toList).any (fun cpu => sameCase cpu need) then s
        else
          setNoted 64 " " p.sec "cpu".toList (some need) ("cpu ".toList ++ need.take 6) s
  let s :=
    match acsiSwitchLine s.1 p.sec with
    | none => s
    | some asw =>
        if (scGetN s.1 p.sec "acsi".toList asw).any (spRowOn "acsi".toList) ∧
            (seMachineRule "acsi".toList m).isSome then
          let r := scSetN s.1 p.sec "acsi".toList asw (seOffValue "acsi".toList)
          (r.2, if r.1 then note 64 " " s.2 "-acsi".toList else s.2)
        else s
  let lines := s.1.line
  let s :=
    if (scGet s.1 p.sec "cpu_compatible".toList).isSome ∧
        (seMachineRule "cpu_compatible".toList m).isSome then
      setNoted 64 " " p.sec "cpu_compatible".toList none "-cpu_compatible".toList s
    else s
  let lines := overlay lines s.1
  let sh := spShifterFollow s.1 p.sec "machine".toList 48
  let lines := overlay lines sh.1
  let did := if sh.2 = [] then s.2 else note 64 " " s.2 sh.2
  let p := { p with cfg := sh.1 }
  if did = [] then p
  else
    -- the machine's line may have moved: the message reads what stands there now
    let word := (place.map (readAt lines)).getD "st".toList
    p.say (word.take 6 ++ ": ".toList ++ did.take 54)

def Page.sayAlso (p : Page) (did : Text) : Page :=
  p.say (p.msg.take 21 ++ "; ".toList ++ did.take 40)

def Page.jitFollow (p : Page) (key : Text) : Page :=
  let r := spJitFollow p.cfg p.sec key 48
  let p := { p with cfg := r.1 }
  if r.2 = [] then p else p.sayAlso r.2

/-!
## The image picker
-/

def imageBaseKey (key : Text) : Option Text :=
  if sameCase key "hdd".toList ∨ sameCase key "acsi".toList then some "disk_path".toList
  else if sameCase key "fdd".toList then some "fdd_path".toList
  else if sameCase key "rom".toList ∨ sameCase key "stbox_tos".toList then some "rom_path".toList
  else none

def maxFiles : Nat := 128
def maxFname : Nat := 64

def pickDir (home base : Text) : Text :=
  bounded 512
    (match base with
    | ['~'] => home
    | '~' :: '/' :: rest => home ++ '/' :: rest
    | base => base)

/-- The files of a directory that the picker lists, sorted as `strcasecmp` orders them. -/
def pickFiles (entries : List (Text × Bool)) : List Text :=
  let names :=
    (entries.filter (fun e => e.1.head? ≠ some '.' && e.1.length < maxFname && e.2)).map Prod.fst
  (names.take maxFiles).mergeSort (fun a b => decide (lowercase a ≤ lowercase b))

def Page.openPicker (w : World) (p : Page) (key : Text) (current : Option Text) : Bool × Page :=
  match imageBaseKey key with
  | none => (false, p)
  | some var =>
      match scGet p.cfg "psctrl".toList var with
      | none | some [] => (false, p)
      | some base =>
          let p := { p with pickdir := pickDir w.home base }
          match w.dir p.pickdir with
          | none => (false, p.say (var ++ ": cannot read ".toList ++ p.pickdir.take 40))
          | some entries =>
              let files := pickFiles entries
              if files = [] then
                (false,
                  { p with files := [] }.say ("no files in ".toList ++ p.pickdir.take 50))
              else
                let pick :=
                  match current.bind (fun name => files.findIdx? (fun f => sameCase f name)) with
                  | some i => i + 1
                  | none => 0
                let plural := if files.length = 1 then [] else ['s']
                (true, { p with files := files, pickvar := some var, pick := pick, ptop := 0
                                picking := true }.say
                  (unsigned files.length ++ " file".toList ++ plural))

/-!
## Ticking a row
-/

def Page.setCur (p : Page) (f : Row -> Row) : Page :=
  { p with row := p.row.modify p.sel f }

def Page.ordToWrite (p : Page) (r : Row) : Int :=
  if r.ord < 0 then (scCount p.cfg p.sec r.text : Int) else r.ord

def Page.slotLine (p : Page) : Page :=
  p.setCur (fun r => { r with ord := ordOf ((slotMap p.cfg p.sec r.text).getD r.slot none) })

/-- The editor opens on a new line, where the picker has nothing to offer. -/
def Page.askValue (w : World) (p : Page) (what : Text) : Page :=
  let r := p.openPicker w p.cur.text none
  if r.1 then r.2 else { r.2 with edit := [], editing := true }.say what

def Page.tickSlot (w : World) (p : Page) (openEditor : Bool) : Page :=
  let r := p.cur
  let name := r.text.take 10 ++ ' ' :: r.label
  match r.why with
  | some why => p.say (name ++ ": ".toList ++ why)
  | none =>
      if r.blocked then
        let needs := if sameCase r.text "hdd".toList then "ide".toList else r.text
        p.say (name ++ " needs ".toList ++ needs.take 10 ++ " ticked".toList)
      else if r.ticked then
        let p :=
          if isDisk r.text then { p with cfg := pinAll p.cfg p.sec r.text }.slotLine else p
        (p.setN r.text p.cur.ord none).say (name ++ " removed".toList)
      else if openEditor then
        p.askValue w
          (if sameCase r.text "hostfs".toList then
            "type letter and path, e.g. S /home/pistorm/atari-share".toList
          else "type the image for ".toList ++ name)
      else p

/-- The acsi switch of `tick_row`: the other switch lines go, and the line it is written to
is found again. -/
def Page.onlyAcsiSwitch (p : Page) (ord : Int) : Int × Page :=
  let n := scCount p.cfg p.sec "acsi".toList
  let cfg := (List.range n).reverse.foldl (fun (c : Cfg) (i : Nat) =>
    if (i : Int) ≠ ord ∧ isSwitchLine "acsi".toList (scGetN c p.sec "acsi".toList i) then
      (scSetN c p.sec "acsi".toList i none).2
    else c) p.cfg
  let line :=
    match acsiSwitchLine cfg p.sec with
    | some i => i
    | none => scCount cfg p.sec "acsi".toList
  (line, { p with cfg := cfg })

def Page.tickKey (w : World) (p : Page) (openEditor : Bool) : Page :=
  let r := p.cur
  let name := r.text.take 20
  match r.why with
  | some why => p.say (name ++ ": ".toList ++ why)
  | none =>
      if r.blocked then
        let needs := (seNeeds r.text).getD "its parent".toList
        p.say (name ++ " needs ".toList ++ needs.take 20 ++ " ticked".toList)
      else
        let found :=
          if sameCase r.text "acsi".toList ∧ 0 ≤ r.ord then p.onlyAcsiSwitch r.ord
          else (p.ordToWrite r, p)
        let p := found.2
        if r.ticked then
          (p.setN r.text found.1 (seOffValue r.text)).say
            (name ++ (if seKind r.text = .switch then " off".toList
              else " removed from the build".toList))
        else
          let tv := seTickValue r.text
          if seKind r.text = .text ∧ tv = [] then
            if openEditor then p.askValue w ("type a value for ".toList ++ name) else p
          else
            let p := p.setN r.text found.1 (some tv)
            let p :=
              if seKind r.text = .switch then p.say (name ++ " on".toList)
              else p.say (name ++ " = ".toList ++ tv.take 30)
            let p := if sameCase r.text "cpu".toList then p.dropByRules.pinMachineCpu else p
            if sameCase r.text "machine".toList then p.applyMachine else p

def Page.tickRow (w : World) (p : Page) (openEditor : Bool) : Page :=
  match p.cur.kind with
  | .slot | .add => p.tickSlot w openEditor
  | .key => p.tickKey w openEditor
  | .label | .save | .boot => p

def Page.tick (w : World) (p : Page) (openEditor : Bool) : Page :=
  let key := p.cur.text
  let wasKey := p.cur.kind = .key
  let p := p.tickRow w openEditor
  if wasKey then
    let p := p.jitFollow key
    if sameCase key "shifter".toList ∨ sameCase key "machine".toList then
      let sh := spShifterFollow p.cfg p.sec key 48
      let p := { p with cfg := sh.1 }
      if sh.2 = [] then p
      else if sameCase key "shifter".toList then p.say sh.2
      else p.sayAlso sh.2
    else p
  else p

/-!
## Editing a value
-/

def intFault (key val : Text) : Option Text :=
  match strtol val with
  | some (n, []) =>
      match seIntRange key with
      | some (lo, hi) =>
          if n < lo ∨ n > hi then
            some (key.take 20 ++ " must be ".toList ++ decimal lo ++ " to ".toList ++ decimal hi)
          else none
      | none => none
  | _ => some (key.take 20 ++ " must be a number".toList)

def Page.commitEdit (p : Page) : Page :=
  let r := p.cur
  let val := spValueFromEdit r.text p.edit
  let p := { p with editing := false }
  if val = [] then
    let p := if r.kind = .add then p else p.setN r.text r.ord none
    p.say (r.text.take 20 ++ " left empty".toList)
  else if sameCase r.text "hostfs".toList ∧ ¬ hostfsDrive val then
    { p with editing := true }.say "hostfs needs a drive letter first: S /path".toList
  else
    let disk := r.kind = .slot ∧ isDisk r.text
    let val := if disk then pinnedValue r.slot (slotOf (some val)).2 else val
    let p := if disk then { p with cfg := pinAll p.cfg p.sec r.text }.slotLine else p
    let ord := p.ordToWrite p.cur
    let p := p.setCur (fun r => { r with ord := ord })
    match (if seKind r.text = .int then intFault r.text val else none) with
    | some fault => p.say fault
    | none =>
        let s := scSetN p.cfg p.sec r.text ord (some val)
        let p := { p with cfg := s.2 }
        if s.1 then p.say (r.text.take 20 ++ " = ".toList ++ val.take 30) else p

/-- The picker opens on a value, or the editor where it has nothing to offer. -/
def Page.editValue (w : World) (p : Page) (shown : Text) : Page :=
  let p := { p with edit := bounded lineLen shown }
  let r := p.openPicker w p.cur.text (some p.edit)
  if r.1 then r.2 else { r.2 with editing := true }

def startChoice (k : Text) (v : Option Text) : Nat :=
  let found :=
    match v with
    | some v => seIndex k v
    | none =>
        match seKnownDefault k with
        | some kd => seIndexExact k kd
        | none => seIndex k (seTickValue k)
  let choice := found.getD 0
  if choiceIsOff k choice then (seIndex k (seTickValue k)).getD 0 else choice

def Page.editRow (w : World) (p : Page) : Page :=
  let r := p.cur
  let v := scGetN p.cfg p.sec r.text r.ord
  match r.kind with
  | .slot | .add =>
      if r.ticked = false then p.tick w true
      else
        p.editValue w
          (match v with
          | none => []
          | some _ => if isDisk r.text then (slotOf v).2 else spRowValue r.text v)
  | .key =>
      if r.blocked ∨ r.why.isSome then p.tick w false
      else if seCount r.text ≠ 0 then
        { p with choice := startChoice r.text v, choosing := true }
      else if seKind r.text = .switch then p.tick w false
      else p.editValue w (match v with | none => [] | some _ => spRowValue r.text v)
  | .label | .save | .boot => p

def Page.chooseAccept (p : Page) : Page :=
  let r := p.cur
  let p := { p with choosing := false }
  match seChoice r.text p.choice with
  | none => p
  | some [] =>
      (p.setN r.text r.ord none).say (r.text.take 20 ++ " removed (not set)".toList)
  | some c =>
      let s := scSetN p.cfg p.sec r.text r.ord (some c)
      let p := { p with cfg := s.2 }
      if s.1 = false then p
      else
        let p := p.say (r.text.take 20 ++ " = ".toList ++ ((seLabel r.text p.choice).getD []).take 30)
        let p := if sameCase r.text "cpu".toList then p.dropByRules.pinMachineCpu else p
        let p := if sameCase r.text "machine".toList then p.applyMachine else p
        let p := p.jitFollow r.text
        if sameCase r.text "shifter".toList then
          let sh := spShifterFollow p.cfg p.sec r.text 48
          let p := { p with cfg := sh.1 }
          if sh.2 = [] then p else p.say sh.2
        else p

end Setup
end PistormAtari
