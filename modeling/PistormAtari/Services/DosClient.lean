import PistormAtari.Foundation.SessionRing

/-!
# The emulator's link to psdos

The guest and the input threads put commands into a ring under one lock; the connector
thread sends them.  A call first looks at whether there is a session, without the lock, and
does the rest later.
-/

namespace PistormAtari
namespace Services

open Foundation

inductive PsdosCmdType where
  | hello
  | viewNew
  | viewFree
  | viewSize
  | state
  | load
  | key
  | mouse
  | joy
  | reset
  | option
  | keysUp
  | quit
  | pad
deriving DecidableEq

structure PsdosCmd where
  type : PsdosCmdType
  a : BitVec 32
  b : BitVec 32
  c : BitVec 32
  d : BitVec 32
  e : BitVec 32
  str : List (BitVec 8)
deriving DecidableEq

def psdosStrMax : Nat := 1024
def psdosRingN : Nat := 256

/-- The record of `push_entry`: a string that is too long is cut. -/
def pushEntry (type : PsdosCmdType) (a b c d e : BitVec 32) (str : List (BitVec 8)) : PsdosCmd :=
  { type := type, a := a, b := b, c := c, d := d, e := e, str := str.take (psdosStrMax - 1) }

def keysUpCmd : PsdosCmd := pushEntry .keysUp 0 0 0 0 0 []

inductive DosCall where
  | push (cmd : PsdosCmd)
  | pushInput (cmd : PsdosCmd)
  | pushPad (cmd : PsdosCmd)
  | setCapture (on : Bool)
  | setFocus (focused : Bool)
deriving DecidableEq

/-- Where the connector is: between sessions, in one, past its end, past the release of the
capture. -/
inductive ConnectorAt where
  | idle
  | session
  | ended
  | released
deriving DecidableEq

structure DosClient where
  link : SessionRing PsdosCmd
  connector : ConnectorAt
  viewReady : Bool
  capture : Bool
  focus : Bool
  calls : List DosCall

namespace DosClient

def start (w : Nat -> PsdosCmd) : DosClient :=
  { link := SessionRing.empty w
    connector := .idle
    viewReady := false
    capture := false
    focus := false
    calls := [] }

def putEntry (s : DosClient) (cmd : PsdosCmd) : DosClient :=
  { s with link := s.link.push psdosRingN cmd }

def padsWanted (s : DosClient) : Bool := s.link.connected && s.viewReady && s.focus

def begin (s : DosClient) : DosCall -> DosClient
  | .setCapture on =>
      let on := on && (s.link.connected && s.viewReady && s.focus)
      { s with calls := s.calls ++ [.setCapture on] }
  | .setFocus focused => { s with calls := s.calls ++ [.setFocus focused] }
  | call => if s.link.connected then { s with calls := s.calls ++ [call] } else s

def psdosSetCapture (s : DosClient) (on : Bool) : DosClient :=
  if on = s.capture then s
  else
    let s := { s with capture := on }
    if !on && s.link.connected then s.putEntry keysUpCmd else s

/-- The pads held at the switch are let go of; the capture is dropped after that, as a call
of its own. -/
def psdosSetFocus (s : DosClient) (focused : Bool) : DosClient :=
  let lost := s.focus && !focused
  let s := { s with focus := focused }
  let s := if lost && s.link.connected && !s.capture then s.putEntry keysUpCmd else s
  if focused then s else { s with calls := s.calls ++ [.setCapture false] }

def finish (s : DosClient) : DosCall -> DosClient
  | .push cmd => s.putEntry cmd
  | .pushInput cmd => if s.capture then s.putEntry cmd else s
  | .pushPad cmd => if s.padsWanted then s.putEntry cmd else s
  | .setCapture on => s.psdosSetCapture on
  | .setFocus focused => s.psdosSetFocus focused

def locked (s : DosClient) (i : Nat) : DosClient :=
  match s.calls[i]? with
  | none => s
  | some call => { s with calls := s.calls.eraseIdx i }.finish call

def drain (s : DosClient) : DosClient := { s with link := s.link.send psdosRingN }

end DosClient

/-!
## The connector
-/

/-- What happens around the ring: calls of the other threads, and the connector's steps. -/
inductive DosStep where
  | begin (call : DosCall)
  | locked (i : Nat)
  | freeView
  | connect
  | hello
  | view (ready : Bool)
  | drain
  | disconnect
  | dropCapture
  | clearRing
deriving DecidableEq

/-- A send that fails ends the session with the command still in the ring. -/
def dosStep (s : DosClient) : DosStep -> DosClient
  | .begin call => s.begin call
  | .locked i => s.locked i
  | .freeView => { s with viewReady := false }
  | .connect => if s.connector = .idle then { s with connector := .session } else s
  | .hello => if s.connector = .session then { s with link := s.link.accept } else s
  | .view ready => if s.connector = .session then { s with viewReady := ready } else s
  | .drain => if s.connector = .session then s.drain else s
  | .disconnect =>
      if s.connector = .session then
        { s with connector := .ended, link := s.link.close, viewReady := false }
      else s
  | .dropCapture =>
      if s.connector = .ended then { s with connector := .released, capture := false } else s
  | .clearRing =>
      if s.connector = .released then { s with connector := .idle, link := s.link.clear } else s

/-!
## The web client

Its ring has one producer and no lock, and nothing empties it between two sessions.
-/

structure PswebCmd where
  type : BitVec 32
  a : BitVec 32
  b : BitVec 32
  c : BitVec 32
  d : BitVec 32
  e : BitVec 32
  f : BitVec 32
  str : List (BitVec 8)
deriving DecidableEq

def pswebStrMax : Nat := 2048
def pswebRingN : Nat := 128

structure WebClient where
  link : SessionRing PswebCmd
  connector : ConnectorAt
  viewReady : Bool
  calls : List PswebCmd

/-- What happens around the web client's ring.  A call carries its string in UTF-8. -/
inductive WebStep where
  | begin (cmd : PswebCmd)
  | finish (i : Nat)
  | connect
  | hello
  | view (ready : Bool)
  | drain
  | disconnect
deriving DecidableEq

def WebClient.start (w : Nat -> PswebCmd) : WebClient :=
  { link := SessionRing.empty w, connector := .idle, viewReady := false, calls := [] }

def PswebCmd.entry (cmd : PswebCmd) : PswebCmd :=
  { cmd with str := cmd.str.take (pswebStrMax - 1) }

def webStep (s : WebClient) : WebStep -> WebClient
  | .begin cmd => if s.link.connected then { s with calls := s.calls ++ [cmd] } else s
  | .finish i =>
      match s.calls[i]? with
      | none => s
      | some cmd =>
          { s with calls := s.calls.eraseIdx i, link := s.link.push pswebRingN cmd.entry }
  | .connect => if s.connector = .idle then { s with connector := .session } else s
  | .hello => if s.connector = .session then { s with link := s.link.accept } else s
  | .view ready => if s.connector = .session then { s with viewReady := ready } else s
  | .drain => if s.connector = .session then { s with link := s.link.send pswebRingN } else s
  | .disconnect =>
      if s.connector = .session then
        { s with connector := .idle, link := s.link.close, viewReady := false }
      else s

end Services
end PistormAtari
