import PistormAtari.Foundation.Run
import PistormAtari.Setup.SetupPage

/-!
# The loop of the setup page

`sp_run`: every turn draws the page, polls the keyboard for a tenth of a second, and
goes through one chain of modes with the key or with no key.
-/

namespace PistormAtari
namespace Setup

open Foundation

inductive Key
  | none
  | up
  | down
  | left
  | right
  | enter
  | esc
  | tab
  | backspace
  | space
  | home
  | insert
  | delete
  | f1
  | f2
  | f3
  | f4
  | f5
  | f6
  | f7
  | f8
  | f9
  | f10
  | tick
  | snap
  | char
deriving DecidableEq

structure Event where
  key : Key
  ch : Char := nul
deriving DecidableEq

/-- What a poll returns, the host as the key finds it, and the time in milliseconds. -/
structure Poll where
  event : Event
  world : World
  now : Nat

inductive SpResult
  | boot
  | quit
deriving DecidableEq

structure Outcome where
  result : SpResult
  chosen : Text
  cfg : Cfg
deriving DecidableEq

structure Loop where
  page : Page
  secs : Int
  tickAt : Nat
deriving DecidableEq

-- The length of the buffer for the chosen build.
variable (chosenLen : Nat)

def Page.leave (p : Page) : Outcome :=
  { result := .quit, chosen := bounded chosenLen p.boot, cfg := p.cfg }

def Page.bootNow (w : World) (p : Page) : Outcome :=
  let cfg := (scSet p.cfg "psctrl".toList "boot".toList (some p.boot)).2
  let cfg := if cfg.dirty then (scSave w.saveFails (spFillDefaults cfg)).2 else cfg
  { result := .boot, chosen := bounded chosenLen p.boot, cfg := cfg }

def Page.snapNow (w : World) (p : Page) : Page :=
  match w.dumper with
  | none => p.say "no screendump writer in this build".toList
  | some none => p.say "screen dump failed".toList
  | some (some path) =>
      let name := ((bounded 600 path).reverse.takeWhile (· != '/')).reverse
      p.say ("saved ".toList ++ name.take 55)

def appendCh (s : Text) (c : Char) : Text :=
  if c = nul then s else s ++ [c]

/-!
## The builds screen
-/

def Page.nameKey (p : Page) (e : Event) : Page :=
  match e.key with
  | .char => if p.edit.length + 1 < secLen then { p with edit := appendCh p.edit e.ch } else p
  | .backspace => { p with edit := p.edit.dropLast }
  | .enter =>
      let r := p.nameOk
      if r.1 then { r.2 with naming := false, copying := true, choice := 0, msg := [] } else r.2
  | .esc => { p with naming := false, msg := [] }
  | _ => p

def Page.copyKey (p : Page) (e : Event) : Page :=
  match e.key with
  | .up => { p with choice := p.choice - 1 }
  | .down => if p.choice < p.builds.length then { p with choice := p.choice + 1 } else p
  | .enter => p.newBuild
  | .esc => { p with copying := false, msg := [] }
  | _ => p

def Page.askKey (p : Page) (e : Event) : Page :=
  let p := { p with asking := false, msg := [] }
  if e.key = .char ∧ (e.ch = 'y' ∨ e.ch = 'Y') then p.deleteBuild
  else if e.key ≠ .none then p.say "not deleted".toList
  else p

def Page.letterKey (w : World) (p : Page) (ch : Char) : Page :=
  if (ch = 'e' ∨ ch = 'E') ∧ p.builds ≠ [] then
    { p with sec := p.builds.getD p.bsel [], msg := [] }.openEditor
  else if ch = 'n' ∨ ch = 'N' then
    if maxBuilds ≤ p.builds.length then p.say "16 builds is as many as the page lists".toList
    else { p with naming := true, edit := [], msg := [] }
  else if (ch = 'd' ∨ ch = 'D') ∧ p.builds ≠ [] then
    if p.builds.length = 1 then p.say "the last build stays - make another first".toList
    else
      { p with asking := true }.say
        ("delete [".toList ++ p.builds.getD p.bsel [] ++ "] and everything in it? Y/N".toList)
  else if ch = 'c' ∨ ch = 'C' then
    let word := if p.clock12h then "24".toList else "12".toList
    { p with
      clock12h := !p.clock12h
      cfg := (scSet p.cfg "psctrl".toList "clock".toList (some word)).2 }
  else if ch = 'm' ∨ ch = 'M' then
    let word := if p.dateMdy then "dmy".toList else "mdy".toList
    { p with
      dateMdy := !p.dateMdy
      cfg := (scSet p.cfg "psctrl".toList "date".toList (some word)).2 }
  else if ch = 's' ∨ ch = 'S' then p.saveNow w
  else p

def Page.buildsKey (w : World) (p : Page) (e : Event) : Except Outcome Page :=
  match e.key with
  | .up => .ok { p with bsel := p.bsel - 1 }
  | .down => .ok (if p.bsel + 1 < p.builds.length then { p with bsel := p.bsel + 1 } else p)
  | .enter =>
      let p := if p.builds = [] then p else { p with boot := p.builds.getD p.bsel [] }
      .error (p.bootNow chosenLen w)
  | .char => .ok (p.letterKey w e.ch)
  | .esc =>
      if p.cfg.dirty ∧ p.warned = false then
        .ok ({ p with warned := true }.say
          "unsaved changes - S saves, ESC again leaves them".toList)
      else .error (p.leave chosenLen)
  | .f10 => .error (p.leave chosenLen)
  | _ => .ok p

/-!
## The editor
-/

def Page.scrollPick (p : Page) : Page :=
  let rows := p.listRows - 1
  let p := if p.pick < p.ptop then { p with ptop := p.pick } else p
  if p.ptop + rows ≤ p.pick then { p with ptop := p.pick + 1 - rows } else p

def Page.pickKey (p : Page) (e : Event) : Except Outcome Page :=
  match e.key with
  | .up => .ok { p with pick := p.pick - 1 }.scrollPick
  | .down =>
      .ok (if p.pick < p.files.length then { p with pick := p.pick + 1 } else p).scrollPick
  | .enter =>
      let p := { p with picking := false }
      .ok
        (if p.pick = 0 then
          { p with editing := true }.say ("type a name for ".toList ++ p.cur.text.take 20)
        else { p with edit := p.files.getD (p.pick - 1) [] }.commitEdit).scrollPick
  | .esc => .ok { p with picking := false, msg := [] }.scrollPick
  | .f10 => .error ({ p with picking := false }.leave chosenLen)
  | _ => .ok p.scrollPick

/-- The next choice that is offered, going `by` places round the list at a time.  No list
is all `disabled`, so `turns` never runs out. -/
def nextChoice (key : Text) (n step : Nat) : Nat -> Nat -> Nat
  | 0, i => i
  | turns + 1, i =>
      let i := (i + step) % n
      if choiceIsOff key i then nextChoice key n step turns i else i

def Page.chooseKey (p : Page) (e : Event) : Except Outcome Page :=
  let key := p.cur.text
  let n := seCount key
  match e.key with
  | .up => .ok { p with choice := nextChoice key n (n - 1) n p.choice }
  | .down => .ok { p with choice := nextChoice key n 1 n p.choice }
  | .enter => .ok p.chooseAccept
  | .esc => .ok { p with choosing := false }
  | .f10 => .error ({ p with choosing := false }.leave chosenLen)
  | _ => .ok p

def Page.editKey (p : Page) (e : Event) : Except Outcome Page :=
  match e.key with
  | .char | .space =>
      .ok (if p.edit.length + 1 < lineLen then { p with edit := appendCh p.edit e.ch } else p)
  | .backspace => .ok { p with edit := p.edit.dropLast }
  | .enter => .ok p.commitEdit
  | .esc => .ok { p with editing := false, msg := [] }
  | .f10 => .error ({ p with editing := false }.leave chosenLen)
  | _ => .ok p

def Page.rowKey (w : World) (p : Page) (e : Event) : Except Outcome Page :=
  match e.key with
  | .up => .ok { p with sel := moveUp p.row p.sel }
  | .down => .ok { p with sel := moveDown p.row p.sel }
  | .left => .ok { p with tab := p.tab.previous, sel := 0, top := 0 }
  | .right => .ok { p with tab := p.tab.next, sel := 0, top := 0 }
  | .space | .tick => .ok (p.tick w true)
  | .enter =>
      match p.cur.kind with
      | .save => .ok (p.saveNow w)
      | .boot => .error ({ p with boot := p.sec }.bootNow chosenLen w)
      | _ => .ok (p.editRow w)
  | .esc => .ok { p with screen := .builds, msg := [] }.loadBuilds
  | .f10 => .error (p.leave chosenLen)
  | _ => .ok p

/-!
## A turn
-/

def Page.handle (w : World) (p : Page) (e : Event) : Except Outcome Page :=
  match p.screen with
  | .builds =>
      if p.naming then .ok (p.nameKey e)
      else if p.copying then .ok (p.copyKey e)
      else if p.asking then .ok (p.askKey e)
      else p.buildsKey chosenLen w e
  | .edit =>
      if p.picking then p.pickKey chosenLen e
      else if p.choosing then p.chooseKey chosenLen e
      else if p.editing then p.editKey chosenLen e
      else p.rowKey chosenLen w e

/-- A key and what it does to the page.  The key for a screendump goes on as no key. -/
def Page.pressed (w : World) (p : Page) (e : Event) : Except Outcome Page :=
  if e.key = .snap then (p.snapNow w).handle chosenLen w { e with key := .none }
  else p.handle chosenLen w e

def Page.redrawn (p : Page) : Page :=
  match p.screen with
  | .builds => p
  | .edit => p.buildRows

def countdown (l : Loop) (w : World) (now : Nat) : Except Outcome Loop :=
  if 0 < l.secs ∧ l.tickAt + 1000 ≤ now then
    if l.secs = 1 then .error (l.page.bootNow chosenLen w)
    else .ok { l with secs := l.secs - 1, tickAt := now }
  else .ok l

def turn (l : Loop) (q : Poll) : Except Outcome Loop :=
  let secs := if q.event.key ≠ .none ∧ 0 < l.secs then -1 else l.secs
  match l.page.pressed chosenLen q.world q.event with
  | .error o => .error o
  | .ok p =>
      match countdown chosenLen { l with page := p, secs := secs } q.world q.now with
      | .error o => .error o
      | .ok l => .ok { l with page := l.page.redrawn }

def Loop.start (cfg : Cfg) (now : Nat) : Loop where
  page := ({ cfg := cfg } : Page).loadBuilds.clockLoad
  secs := scGetInt cfg "psctrl".toList "countdown".toList 5
  tickAt := now

def step (s : Except Outcome Loop) (q : Poll) : Except Outcome Loop :=
  match s with
  | .ok l => turn chosenLen l q
  | .error o => .error o

end Setup
end PistormAtari
