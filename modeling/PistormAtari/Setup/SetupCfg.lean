import PistormAtari.Foundation.CNumber
import PistormAtari.Foundation.TextLines

/-!
# The lines of psctrl.cfg

`setup_cfg.c`: the setup page keeps the file as its lines, each with the section
it stands in and the key it sets, and edits these lines.
-/

namespace PistormAtari
namespace Setup

open Foundation

def maxLines : Nat := 768
def secLen : Nat := 16
def keyLen : Nat := 40
def lineLen : Nat := 256

/-- `snprintf(buf, n, "%s", s)`. -/
def bounded (n : Nat) (s : Text) : Text :=
  s.take (n - 1)

/-- `snprintf` of a name into a buffer, and `lower` of that buffer. -/
def loweredTo (n : Nat) (s : Text) : Text :=
  lowercase (bounded n s)

structure Line where
  sec : Text := []
  key : Text := []
  text : Text := []
deriving DecidableEq

structure Cfg where
  line : List Line := []
  dirty : Bool := false
  path : Text := []
  err : Text := []
deriving DecidableEq

/-!
## Reading a line
-/

def sectionHeader (line : Text) : Option Text :=
  match skipBlanks line with
  | '[' :: rest =>
      let name := (rest.takeWhile (· != ']')).take (secLen - 1)
      if (rest.drop name.length).head? = some ']' ∧ name ≠ [] then some (lowercase name) else none
  | _ => none

/-- `line_key`; the key of a comment or of a blank line is empty. -/
def lineKey (line : Text) : Text :=
  match skipBlanks line with
  | [] => []
  | c :: cs =>
      if c = '#' ∨ c = '/' ∨ c = '[' ∨ c = '\r' ∨ c = '\n' then []
      else lowercase (((c :: cs).takeWhile (fun c => !isspace c)).take (keyLen - 1))

def lineValue (line : Text) : Text :=
  skipBlanks ((skipBlanks line).dropWhile (fun c => !isspace c))

/-- The text of a line of the file: without its CR, and cut to the buffer. -/
def lineText (raw : Text) : Text :=
  (if raw.getLast? = some '\r' then raw.dropLast else raw).take (lineLen - 1)

/-- The line that `sc_load_text` makes of a text under a section. -/
def loadLine (sec raw : Text) : Line :=
  let text := lineText raw
  { sec := (sectionHeader text).getD sec, key := lineKey text, text := text }

def loadLines (sec : Text) : List Text -> List Line
  | [] => []
  | raw :: rest =>
      let l := loadLine sec raw
      l :: loadLines l.sec rest

/-- `sc_load_text`, or nothing where the text has too many lines. -/
def scLoadText (text : Text) : Option Cfg :=
  let raws := textLines (cstr text)
  if raws.length ≤ maxLines then some { line := loadLines [] raws } else none

def scLoad (path text : Text) : Option Cfg :=
  if text.length ≤ maxLines * lineLen - 2 then
    (scLoadText text).map (fun c => { c with path := bounded 512 path })
  else none

/-!
## Finding a line
-/

def Line.sets (s k : Text) (l : Line) : Bool :=
  l.key ≠ [] ∧ l.sec = s ∧ l.key = k

def nthIndex (p : Line -> Bool) : Int -> List Line -> Option Nat
  | _, [] => none
  | n, l :: ls =>
      if p l then
        if n = 0 then some 0 else (nthIndex p (n - 1) ls).map (· + 1)
      else (nthIndex p n ls).map (· + 1)

def Cfg.findN (c : Cfg) (sec key : Text) (n : Int) : Option Nat :=
  nthIndex (Line.sets (loweredTo secLen sec) (loweredTo keyLen key)) n c.line

def scCount (c : Cfg) (sec key : Text) : Nat :=
  c.line.countP (Line.sets (loweredTo secLen sec) (loweredTo keyLen key))

def scGetN (c : Cfg) (sec key : Text) (n : Int) : Option Text :=
  match c.findN sec key n with
  | some i => c.line[i]?.map (fun l => lineValue l.text)
  | none => none

def scGet (c : Cfg) (sec key : Text) : Option Text :=
  scGetN c sec key 0

def scGetInt (c : Cfg) (sec key : Text) (dflt : Int) : Int :=
  match scGet c sec key with
  | none | some [] => dflt
  | some v =>
      match strtol v with
      | none => dflt
      | some (n, _) => toInt32 n

/-- `section_end`: one past the last line of the section that is not blank. -/
def Cfg.sectionEnd (c : Cfg) (sec : Text) : Option Nat :=
  let s := loweredTo secLen sec
  let isOne (l : Line) : Bool := l.sec = s ∧ l.text ≠ []
  if c.line.any isOne then
    some (c.line.length - (c.line.reverse.takeWhile (fun l => !isOne l)).length)
  else none

/-!
## Editing

An operation that fails with -1 returns `false` and the lines as it leaves them.
-/

def madeLine (sec text : Text) : Line :=
  { sec := bounded secLen sec, key := lineKey (bounded lineLen text), text := bounded lineLen text }

def Cfg.insert (c : Cfg) (pos : Nat) (sec text : Text) : Bool × Cfg :=
  if c.line.length ≥ maxLines then (false, c)
  else (true, { c with line := c.line.take pos ++ madeLine sec text :: c.line.drop pos })

def scAddSection (c : Cfg) (sec : Text) : Bool × Cfg :=
  let s := loweredTo secLen sec
  if s = [] then (false, c)
  else if (c.sectionEnd s).isSome then (true, c)
  else
    let hdr := '[' :: s ++ [']']
    let spaced :=
      if c.line.getLast?.any (fun l => l.text ≠ []) then c.insert c.line.length s []
      else (true, c)
    if spaced.1 = false then (false, spaced.2)
    else
      let headed := spaced.2.insert spaced.2.line.length s hdr
      if headed.1 = false then (false, headed.2)
      else (true, { headed.2 with dirty := true })

def keyText (k val : Text) : Text :=
  bounded lineLen (if val = [] then k else k ++ ' ' :: val)

/-- `sc_set_n` where the line is there: its text is replaced or, without a value, the
line is removed. -/
def Cfg.setLine (c : Cfg) (i : Nat) (k : Text) : Option Text -> Cfg
  | none => { c with line := c.line.eraseIdx i, dirty := true }
  | some val =>
      match c.line[i]? with
      | none => c
      | some l =>
          if keyText k val = l.text then c
          else { c with line := c.line.set i { l with text := keyText k val }, dirty := true }

def Cfg.addLine (c : Cfg) (s k val : Text) : Bool × Cfg :=
  let placed :=
    match c.sectionEnd s with
    | some pos => (true, pos, c)
    | none =>
        let added := scAddSection c s
        (added.1, added.2.line.length, added.2)
  if placed.1 = false then (false, placed.2.2)
  else
    let made := placed.2.2.insert placed.2.1 s (keyText k val)
    if made.1 = false then (false, made.2) else (true, { made.2 with dirty := true })

def scSetN (c : Cfg) (sec key : Text) (n : Int) (val : Option Text) : Bool × Cfg :=
  let s := loweredTo secLen sec
  let k := loweredTo keyLen key
  if n < 0 ∨ n > scCount c s k then (false, c)
  else
    match c.findN s k n, val with
    | some i, _ => (true, c.setLine i k val)
    | none, none => (true, c)
    | none, some v => c.addLine s k v

def scSet (c : Cfg) (sec key : Text) (val : Option Text) : Bool × Cfg :=
  scSetN c sec key 0 val

def Cfg.keyLine (c : Cfg) (s : Text) (k : Nat) : Option Line :=
  (nthIndex (fun l => l.key ≠ [] ∧ l.sec = s) k c.line).bind (fun i => c.line[i]?)

/-- The loop of `sc_copy_section` from its `k`th line on.  Every turn adds a line, so
the room in the file bounds the turns. -/
def copyKeys (f t : Text) : Nat -> Nat -> Cfg -> Bool × Cfg
  | 0, _, c => (false, c)
  | room + 1, k, c =>
      match c.keyLine f k with
      | none => (true, c)
      | some l =>
          let r := scSetN c t l.key (scCount c t l.key) (some (lineValue l.text))
          if r.1 = false then (false, r.2) else copyKeys f t room (k + 1) r.2

def scCopySection (c : Cfg) (fromSec toSec : Text) : Bool × Cfg :=
  let f := loweredTo secLen fromSec
  let t := loweredTo secLen toSec
  if f = t then (false, c)
  else
    let added := scAddSection c t
    if added.1 = false then (false, added.2) else copyKeys f t (maxLines + 1) 0 added.2

/-- `sc_del_section`: as many lines as the section has go, from its first on. -/
def scDelSection (c : Cfg) (sec : Text) : Bool × Cfg :=
  let s := loweredTo secLen sec
  let isOne (l : Line) : Bool := l.sec = s
  match c.line.findIdx? isOne with
  | none => (false, c)
  | some pos =>
      let rest := c.line.take pos ++ c.line.drop (pos + c.line.countP isOne)
      let c' := { c with line := rest }
      let spaced :=
        match rest[pos - 1]?, rest[pos]? with
        | some l, some l' =>
            if 0 < pos ∧ l.text ≠ [] ∧ l'.text ≠ [] then (c'.insert pos l.sec []).2 else c'
        | _, _ => c'
      (true, { spaced with dirty := true })

def scSections (c : Cfg) (max : Nat) : List Text :=
  c.line.foldl (fun out l =>
    if out.length < max ∧ l.sec ≠ [] ∧ !out.contains l.sec then out ++ [l.sec] else out) []

/-!
## Saving
-/

def putLines (c : Cfg) : Text :=
  unlines (c.line.map Line.text)

/-- `sc_save` to the file's own path, where the host answers with the step that failed
and its reason. -/
def scSave (failed : Option Text) (c : Cfg) : Bool × Cfg :=
  if c.path = [] then (false, { c with err := "no path".toList })
  else
    match failed with
    | some reason => (false, { c with err := bounded 96 reason })
    | none => (true, { c with path := bounded 512 c.path, err := [], dirty := false })

def scSaveError (c : Cfg) : Text := c.err

end Setup
end PistormAtari
