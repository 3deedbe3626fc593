import PistormAtari.Foundation.TextLines
import PistormAtari.Services.DosClient
import PistormAtari.Services.SurfaceFetch

/-!
# psdos

The DOS service: the options of its core, the input as the core reads it, the view, the
frames and their way into the shared surface, and the commands.  A second game gets a fresh
process, which starts from what the old one left in its environment.
-/

namespace PistormAtari
namespace Services

open Foundation

/-!
## Options
-/

structure Opt where
  key : Text
  val : Text
  fromCmd : Bool
deriving DecidableEq

def maxOpt : Nat := 128

def optFind (opts : List Opt) (key : Text) : Option Opt := opts.find? fun o => o.key == key

def Opt.put (o : Opt) (val : Text) (dirty : Bool) : Opt :=
  { o with
    val := if o.val = val then o.val else val.take 95
    fromCmd := o.fromCmd || dirty }

def optSet (opts : List Opt) (key val : Text) (dirty : Bool) : List Opt :=
  match opts.findIdx? fun o => o.key == key with
  | some i => opts.modify i fun o => o.put val dirty
  | none =>
      if maxOpt ≤ opts.length then opts
      else
        let o : Opt := { key := key.take 63, val := [], fromCmd := false }
        opts ++ [o.put val dirty]

def isLineBlank (c : Char) : Bool := isBlank c || c == '\r' || c == '\n'

/-- The key and the value of a line `key = value`; `#` starts a comment. -/
def optLine (line : Text) : Option (Text × Text) :=
  let line := line.takeWhile (· != '#')
  match line.dropWhile (· != '=') with
  | [] => none
  | _ :: v =>
      let k := ((line.takeWhile (· != '=')).dropWhile isBlank).rdropWhile isBlank
      let v := (v.dropWhile isBlank).rdropWhile isLineBlank
      if k = [] ∨ v = [] then none else some (k, v)

def optParseLine (opts : List Opt) (line : Text) (dirty : Bool) : List Opt :=
  match optLine line with
  | none => opts
  | some (k, v) => optSet opts k v dirty

def ourDefaults : List (Text × Text) :=
  [("dosbox_pure_cpu_core".toList, "dynamic".toList),
    ("dosbox_pure_cycles".toList, "auto".toList),
    ("dosbox_pure_machine".toList, "svga".toList),
    ("dosbox_pure_svga".toList, "svga_s3".toList),
    ("dosbox_pure_memory_size".toList, "16".toList),
    ("dosbox_pure_sblaster_type".toList, "sb16".toList),
    ("dosbox_pure_audiorate".toList, "48000".toList),
    ("dosbox_pure_mouse_input".toList, "true".toList),
    ("dosbox_pure_menu_time".toList, "99".toList),
    ("dosbox_pure_perfstats".toList, "none".toList),
    ("dosbox_pure_savestate".toList, "disabled".toList),
    ("dosbox_pure_aspect_correction".toList, "true".toList)]

def optDefaults (conf : List Text) : List Opt :=
  conf.foldl (fun opts line => optParseLine opts line false)
    (ourDefaults.foldl (fun opts d => optSet opts d.1 d.2 false) [])

/-- The core names its options; those that are set already stay. -/
def setVariables (opts : List Opt) (vars : List (Text × Text)) : List Opt :=
  vars.foldl
    (fun opts v =>
      match optFind opts v.1 with
      | some _ => opts
      | none => optSet opts v.1 v.2 false)
    opts

/-!
## Input
-/

def retrokLast : Nat := 324

structure PsdosInput where
  keys : Nat -> Bool
  mouseDx : BitVec 32
  mouseDy : BitVec 32
  mouseBtn : BitVec 32
  joy : Nat -> BitVec 16
  stick : Nat -> Nat -> BitVec 16
  trig : Nat -> Nat -> BitVec 16

def PsdosInput.none : PsdosInput :=
  { keys := fun _ => false
    mouseDx := 0
    mouseDy := 0
    mouseBtn := 0
    joy := fun _ => 0
    stick := fun _ _ => 0
    trig := fun _ _ => 0 }

def keyEvent (i : PsdosInput) (down : Bool) (code : Nat) : PsdosInput :=
  if code = 0 ∨ retrokLast ≤ code then i
  else { i with keys := Function.update i.keys code down }

def keysUp (i : PsdosInput) : PsdosInput :=
  { i with
    keys := fun k => if 1 ≤ k ∧ k < retrokLast then false else i.keys k
    mouseBtn := 0
    joy := fun _ => 0
    stick := fun _ _ => 0
    trig := fun _ _ => 0 }

def high16 (v : BitVec 32) : BitVec 16 := (v >>> 16).setWidth 16
def low16 (v : BitVec 32) : BitVec 16 := v.setWidth 16

def padEvent (i : PsdosInput) (c : PsdosCmd) : PsdosInput :=
  if c.a = 0 ∨ c.a = 1 then
    let p := c.a.toNat
    { i with
      joy := Function.update i.joy p (low16 c.b)
      stick := Function.update i.stick p fun axis =>
        match axis with
        | 0 => high16 c.c
        | 1 => low16 c.c
        | 2 => high16 c.d
        | _ => low16 c.d
      trig := Function.update i.trig p fun axis => if axis = 0 then high16 c.e else low16 c.e }
  else i

/-!
## The view and the frames
-/

/-- The scale map, for a source of `sw` by `sh` in a view of `vw` by `vh`. -/
structure ScaleMap where
  sw : Nat
  sh : Nat
  vw : Nat
  vh : Nat
  dx : Nat
  dy : Nat
  dw : Nat
  dh : Nat
deriving DecidableEq

def ScaleMap.xmap (m : ScaleMap) (x : Nat) : Nat := x * m.sw / m.dw
def ScaleMap.ymap (m : ScaleMap) (y : Nat) : Nat := y * m.sh / m.dh

structure PsdosView where
  active : Bool
  visible : Bool
  full : Bool
  w : Nat
  h : Nat
  bpp : Nat
  map : Option ScaleMap

/-- The aspect of the core's picture: the height that goes with a width and the width that
goes with a height, for a source of `sw` by `sh`. -/
structure Aspect where
  height : Nat -> Nat -> Nat -> Int
  width : Nat -> Nat -> Nat -> Int

inductive PixelFormat where
  | rgb1555
  | xrgb8888
  | rgb565
deriving DecidableEq

/-- A frame of the core, `bpp` bytes a pixel, by row and column. -/
structure SrcFrame where
  w : Nat
  h : Nat
  bpp : Nat
  px : Nat -> Nat -> BitVec 32

/-- The latest frame, with the room for it, and the one last published. -/
structure Frames where
  cap : Nat
  src : SrcFrame
  fresh : Bool
  prev : Nat -> Nat -> BitVec 32
  prevW : Nat
  prevH : Nat

def Frames.none : Frames :=
  { cap := 0
    src := { w := 0, h := 0, bpp := 0, px := fun _ _ => 0 }
    fresh := false
    prev := fun _ _ => 0
    prevW := 0
    prevH := 0 }

structure PsdosCore where
  opened : Bool
  inited : Bool
  loaded : Bool
  exited : Bool
  failed : Bool
  used : Bool
  lastPath : Text
  fmt : PixelFormat
  aspect : Aspect

/-- The surface that the emulator reads, its pixels, and what they show: the frame that was
last published, its format and its map. -/
structure Picture where
  surface : PsdosSurface
  pixels : Bytes
  shown : Option (SrcFrame × PixelFormat × ScaleMap)

structure Psdos where
  opts : List Opt
  input : PsdosInput
  view : PsdosView
  frames : Frames
  core : PsdosCore
  picture : Picture
  inbuf : List (BitVec 8)
  quit : Bool

def buildMap (a : Aspect) (src : SrcFrame) (v : PsdosView) : ScaleMap :=
  let dh := a.height src.w src.h v.w
  let tall := decide ((v.h : Int) < dh)
  let dw : Int := if tall then a.width src.w src.h v.h else v.w
  let dh : Int := if tall then v.h else dh
  let dw : Int := if dw < 1 then 1 else dw
  let dh : Int := if dh < 1 then 1 else dh
  let dw : Int := if (v.w : Int) < dw then v.w else dw
  { sw := src.w
    sh := src.h
    vw := v.w
    vh := v.h
    dx := (v.w - dw.toNat) / 2
    dy := (v.h - dh.toNat) / 2
    dw := dw.toNat
    dh := dh.toNat }

def PsdosView.mapped (v : PsdosView) (a : Aspect) (src : SrcFrame) : PsdosView × ScaleMap :=
  match v.map with
  | some m =>
      if m.sw = src.w ∧ m.sh = src.h ∧ m.vw = v.w ∧ m.vh = v.h then (v, m)
      else ({ v with map := some (buildMap a src v), full := true }, buildMap a src v)
  | none => ({ v with map := some (buildMap a src v), full := true }, buildMap a src v)

def rgbOf (r g b : BitVec 32) : BitVec 32 := r <<< 16 ||| g <<< 8 ||| b

def srcPx (fmt : PixelFormat) (src : SrcFrame) (row x : Nat) : BitVec 32 :=
  let p := src.px row x
  if src.bpp = 4 then p &&& 0xFFFFFF
  else if fmt = .rgb1555 then
    let r := p >>> 10 &&& 31
    let g := p >>> 5 &&& 31
    let b := p &&& 31
    rgbOf (r <<< 3 ||| r >>> 2) (g <<< 3 ||| g >>> 2) (b <<< 3 ||| b >>> 2)
  else
    let r := p >>> 11 &&& 31
    let g := p >>> 5 &&& 63
    let b := p &&& 31
    rgbOf (r <<< 3 ||| r >>> 2) (g <<< 2 ||| g >>> 4) (b <<< 3 ||| b >>> 2)

def putPx (rgb : BitVec 32) (bpp k : Nat) : BitVec 8 :=
  if bpp = 32 then
    match k with
    | 0 => 0
    | 1 => (rgb >>> 16).setWidth 8
    | 2 => (rgb >>> 8).setWidth 8
    | _ => rgb.setWidth 8
  else
    let v := (rgb >>> 8 &&& 0xf800) ||| (rgb >>> 5 &&& 0x07e0) ||| (rgb >>> 3 &&& 0x001f)
    if k = 0 then (v >>> 8).setWidth 8 else v.setWidth 8

def paintRow (fmt : PixelFormat) (src : SrcFrame) (m : ScaleMap) (bpp stride vy : Nat)
    (pixels : Bytes) : Bytes :=
  if vy < m.dy ∨ m.dh ≤ vy - m.dy then pixels
  else fun i =>
    let first := vy * stride + m.dx * (bpp / 8)
    if first ≤ i ∧ i < first + m.dw * (bpp / 8) then
      putPx (srcPx fmt src (m.ymap (vy - m.dy)) (m.xmap ((i - first) / (bpp / 8)))) bpp
        ((i - first) % (bpp / 8))
    else pixels i

def paintRows (fmt : PixelFormat) (src : SrcFrame) (m : ScaleMap) (bpp stride y0 : Nat) :
    Nat -> Bytes -> Bytes
  | 0, pixels => pixels
  | n + 1, pixels =>
      paintRow fmt src m bpp stride (y0 + n) (paintRows fmt src m bpp stride y0 n pixels)

def surfaceFree (s : Psdos) : Bool :=
  s.picture.surface.consumed == s.picture.surface.serial

/-- The first and the last of the numbers below `n` that pass a test. -/
def bandOf (n : Nat) (p : Nat -> Bool) : Option (Nat × Nat) :=
  match ((List.range n).filter p).head?, ((List.range n).filter p).getLast? with
  | some lo, some hi => some (lo, hi)
  | _, _ => none

def rowChanged (f : Frames) (y : Nat) : Bool :=
  decide (exists x, x < f.src.w ∧ f.src.px y x ≠ f.prev y x)

/-- The rows from `y0` to `y1` are painted and handed to the emulator. -/
def publishRows (s : Psdos) (m : ScaleMap) (pixels : Bytes) (y0 y1 : Nat) : Psdos :=
  let stride := s.view.w * (s.view.bpp / 8)
  { s with
    view := { s.view with full := false }
    frames :=
      { s.frames with
        prev := s.frames.src.px
        prevW := s.frames.src.w
        prevH := s.frames.src.h
        fresh := false }
    picture :=
      { surface :=
          { w := BitVec.ofNat 32 s.view.w
            h := BitVec.ofNat 32 s.view.h
            bpp := BitVec.ofNat 32 s.view.bpp
            stride := BitVec.ofNat 32 stride
            serial := s.picture.surface.serial + 1
            consumed := s.picture.surface.consumed
            damage := { x := 0, y := y0, w := s.view.w, h := y1 - y0 + 1 } }
        pixels := paintRows s.core.fmt s.frames.src m s.view.bpp stride y0 (y1 - y0 + 1) pixels
        shown := some (s.frames.src, s.core.fmt, m) } }

def publish (s : Psdos) : Psdos :=
  if s.view.active && s.view.visible && s.frames.fresh && surfaceFree s &&
      s.frames.src.w != 0 then
    let (view, m) := s.view.mapped s.core.aspect s.frames.src
    let s := { s with view := view }
    if s.view.full || s.frames.prevW != s.frames.src.w || s.frames.prevH != s.frames.src.h then
      let stride := s.view.w * (s.view.bpp / 8)
      publishRows s m (fun i => if i < stride * s.view.h then 0 else s.picture.pixels i) 0
        (s.view.h - 1)
    else
      let s := { s with frames := { s.frames with fresh := false } }
      match bandOf s.frames.src.h (rowChanged s.frames) with
      | none => s
      | some (s0, s1) =>
          match bandOf m.dh fun y => decide (s0 ≤ m.ymap y ∧ m.ymap y ≤ s1) with
          | none => s
          | some (y0, y1) => publishRows s m s.picture.pixels (y0 + m.dy) (y1 + m.dy)
  else s

/-- A frame of the core, or nothing new.  New room for it holds `junk`. -/
def videoRefresh (s : Psdos) (frame : Option (Nat × Nat × (Nat -> Nat -> BitVec 32)))
    (junk : Nat -> Nat -> BitVec 32) : Psdos :=
  match frame with
  | none => s
  | some (w, h, px) =>
      if w = 0 ∨ h = 0 then s
      else
        let bpp := if s.core.fmt = .xrgb8888 then 4 else 2
        let grown := decide (s.frames.cap < w * bpp * h)
        let changed := decide (w ≠ s.frames.src.w ∨ h ≠ s.frames.src.h ∨ bpp ≠ s.frames.src.bpp)
        { s with
          view := { s.view with full := s.view.full || grown || changed }
          frames :=
            { s.frames with
              cap := if grown then w * bpp * h else s.frames.cap
              prev := if grown then junk else s.frames.prev
              src := { w := w, h := h, bpp := bpp, px := px }
              fresh := true } }

/-!
## The core
-/

structure PsdosHost where
  execOk : Bool
  opens : Bool
  loads : Bool
  vars : List (Text × Text)
  fmt : PixelFormat
  aspect : Aspect
  conf : List Text

def coreUnload (s : Psdos) : Psdos :=
  { s with
    input := PsdosInput.none
    frames := { s.frames with fresh := false }
    core := { s.core with loaded := false } }

def coreLoad (ans : PsdosHost) (s : Psdos) (path : Text) : Psdos :=
  if s.core.opened = false ∧ ans.opens = false then { s with core := { s.core with failed := true } }
  else
    let s := coreUnload s
    let opts := if s.core.inited then s.opts else setVariables s.opts ans.vars
    let core :=
      { s.core with
        opened := true
        inited := true
        exited := false
        lastPath := path.take 4095
        fmt := if s.core.inited then s.core.fmt else ans.fmt
        aspect := if s.core.inited then s.core.aspect else ans.aspect }
    if ans.loads then
      { s with
        opts := opts
        view := { s.view with full := true }
        core := { core with loaded := true, used := true, failed := false } }
    else { s with opts := opts, core := { core with failed := true } }

/-!
## A fresh process
-/

def hexDigit (n : Nat) : Char :=
  if n < 10 then Char.ofNat (48 + n) else Char.ofNat (87 + n)

def hexText (bs : List (BitVec 8)) : Text :=
  bs.flatMap fun b => [hexDigit (b.toNat / 16), hexDigit (b.toNat % 16)]

def hexValue (c : Char) : Option Nat :=
  if '0' ≤ c ∧ c ≤ '9' then some (c.toNat - 48)
  else if 'a' ≤ c ∧ c ≤ 'f' then some (c.toNat - 87)
  else if 'A' ≤ c ∧ c ≤ 'F' then some (c.toNat - 55)
  else none

def unhexText : Nat -> Text -> List (BitVec 8)
  | room + 1, c :: d :: rest =>
      match hexValue c, hexValue d with
      | some hi, some lo => BitVec.ofNat 8 (hi * 16 + lo) :: unhexText room rest
      | _, _ => []
  | _, _ => []

def psdosInbufSize : Nat := 32 + psdosStrMax + 16

def resumeRoom : Nat := maxOpt * 170

def resumeOpts : List Opt -> Text -> Text
  | [], text => text
  | o :: rest, text =>
      if o.fromCmd ∧ text.length + 170 < resumeRoom then
        resumeOpts rest (text ++ (o.key ++ '=' :: o.val ++ [newline]))
      else resumeOpts rest text

/-- The lines of the environment that are short enough are parsed again. -/
def resumeParse (opts : List Opt) (text : Text) : List Opt :=
  (textLines text).foldl
    (fun opts line => if line.length < 256 then optParseLine opts line true else opts) opts

/-- The new process: the old one's view, buffer and options set by commands, and the load that
it was started for. -/
def resumed (ans : PsdosHost) (s : Psdos) (path : Text) : Psdos :=
  let opts := resumeParse (optDefaults ans.conf) (resumeOpts s.opts [])
  let fresh : Psdos :=
    { opts := opts
      input := PsdosInput.none
      view := { s.view with full := true, map := none }
      frames := Frames.none
      core :=
        { opened := false
          inited := false
          loaded := false
          exited := false
          failed := false
          used := false
          lastPath := []
          fmt := .rgb1555
          aspect := ans.aspect }
      picture :=
        { s.picture with
          surface := { s.picture.surface with consumed := s.picture.surface.serial } }
      inbuf := unhexText psdosInbufSize (hexText s.inbuf)
      quit := false }
  if ans.opens then coreLoad ans fresh (path.take 4095) else fresh

/-- A game after the first gets a fresh process, unless the host cannot start one. -/
def loadGame (ans : PsdosHost) (s : Psdos) (path : Text) : Psdos :=
  if s.core.used ∧ ans.execOk then resumed ans s path else coreLoad ans s path

def psdosStart (ans : PsdosHost) : Psdos :=
  { opts := optDefaults ans.conf
    input := PsdosInput.none
    view :=
      { active := false, visible := false, full := false, w := 0, h := 0, bpp := 0, map := none }
    frames := Frames.none
    core :=
      { opened := ans.opens
        inited := false
        loaded := false
        exited := false
        failed := false
        used := false
        lastPath := []
        fmt := .rgb1555
        aspect := ans.aspect }
    picture :=
      { surface :=
          { w := 0
            h := 0
            bpp := 0
            stride := 0
            serial := 0
            consumed := 0
            damage := { x := 0, y := 0, w := 0, h := 0 } }
        pixels := fun _ => 0
        shown := none }
    inbuf := []
    quit := false }

/-!
## Commands
-/

def cmdText (str : List (BitVec 8)) : Text := cstr (str.map fun b => Char.ofNat b.toNat)

def psdosMaxW : Int := 1920
def psdosMaxH : Int := 1080

def viewCmd (s : Psdos) (fresh : Bool) (c : PsdosCmd) : Psdos :=
  let w := min c.a.toInt psdosMaxW
  let h := min c.b.toInt psdosMaxH
  let bpp : Int := if fresh then c.c.toInt else s.view.bpp
  if w < 16 ∨ h < 16 ∨ (bpp ≠ 16 ∧ bpp ≠ 32) then s
  else
    { s with
      view :=
        { active := true
          visible := s.view.visible || fresh
          full := true
          w := w.toNat
          h := h.toNat
          bpp := bpp.toNat
          map := s.view.map.map fun m => { m with vw := 0 } }
      frames := { s.frames with fresh := s.frames.src.w != 0 }
      picture :=
        { s.picture with
          surface := { s.picture.surface with consumed := s.picture.surface.serial } } }

def stateCmd (s : Psdos) (c : PsdosCmd) : Psdos :=
  let vis := c.a &&& 1 != 0
  let shows := vis && !s.view.visible
  { s with
    view := { s.view with full := s.view.full || shows, visible := vis }
    frames := { s.frames with fresh := if shows then s.frames.src.w != 0 else s.frames.fresh }
    input := if !vis || c.a &&& 2 == 0 then keysUp s.input else s.input }

def viewFree (s : Psdos) : Psdos :=
  let s := coreUnload s
  { s with view := { s.view with active := false, visible := false } }

def handleCmd (ans : PsdosHost) (s : Psdos) (c : PsdosCmd) : Psdos :=
  match c.type with
  | .hello => s
  | .viewNew => viewCmd s true c
  | .viewSize => viewCmd s false c
  | .viewFree => viewFree s
  | .state => stateCmd s c
  | .load => loadGame ans s (cmdText c.str)
  | .key => { s with input := keyEvent s.input (c.a != 0) c.b.toNat }
  | .mouse =>
      { s with
        input :=
          { s.input with
            mouseDx := s.input.mouseDx + c.a
            mouseDy := s.input.mouseDy + c.b
            mouseBtn := c.c &&& 7 } }
  | .joy =>
      if c.a = 0 ∨ c.a = 1 then
        { s with
          input := { s.input with joy := Function.update s.input.joy c.a.toNat (low16 c.b) } }
      else s
  | .pad => { s with input := padEvent s.input c }
  | .reset =>
      if s.core.loaded ∧ s.core.exited = false then s
      else loadGame ans s s.core.lastPath
  | .option =>
      if c.str = [] then s
      else { s with opts := optParseLine s.opts ((cmdText c.str).take 255) true }
  | .keysUp => { s with input := keysUp s.input }
  | .quit => { s with quit := true }

end Services
end PistormAtari
