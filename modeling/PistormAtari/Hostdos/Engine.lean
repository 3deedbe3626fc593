import PistormAtari.Hostdos.Paths

/-!
# The engine's state

Drives, current folders, open handles, searches, the program about to be loaded,
and the tables they rest on.  Guest memory is not part of the state: each call
is given the memory it finds and returns the memory it leaves.
-/

namespace PistormAtari
namespace Hostdos

open Foundation

/-!
## Guest memory
-/

abbrev Addr := BitVec 32
abbrev Mem := Addr -> Byte

def readMem (m : Mem) (a : Addr) (n : Nat) : List Byte :=
  (List.range n).map (fun i => m (a + BitVec.ofNat 32 i))

def writeMem (m : Mem) (a : Addr) (bs : List Byte) : Mem :=
  fun x => bs.getD (x - a).toNat (m x)

def be16 (v : BitVec 16) : List Byte :=
  [(v >>> 8).setWidth 8, v.setWidth 8]

def be32 (v : BitVec 32) : List Byte :=
  [(v >>> 24).setWidth 8, (v >>> 16).setWidth 8, (v >>> 8).setWidth 8, v.setWidth 8]

def word32 (b0 b1 b2 b3 : Byte) : BitVec 32 :=
  b0.setWidth 32 <<< 24 ||| b1.setWidth 32 <<< 16 ||| b2.setWidth 32 <<< 8 ||| b3.setWidth 32

def word16 (b0 b1 : Byte) : BitVec 16 :=
  b0.setWidth 16 <<< 8 ||| b1.setWidth 16

def rd32 (m : Mem) (a : Addr) : BitVec 32 :=
  word32 (m a) (m (a + 1)) (m (a + 2)) (m (a + 3))

def rd16 (m : Mem) (a : Addr) : BitVec 16 :=
  word16 (m a) (m (a + 1))

def wr32 (m : Mem) (a : Addr) (v : BitVec 32) : Mem :=
  writeMem m a (be32 v)

def wr16 (m : Mem) (a : Addr) (v : BitVec 16) : Mem :=
  writeMem m a (be16 v)

def rdstr (m : Mem) (a : Addr) : Name :=
  if a = 0 then [] else (readMem m a 256).takeWhile (· != 0)

/-!
## Times
-/

def seconds (mtime : Int) : Int :=
  mtime / 1000000000

def dosTime (env : Env) (t : Int) : BitVec 16 :=
  let tm := env.localtime t
  BitVec.ofInt 16 tm.hour <<< 11 ||| BitVec.ofInt 16 tm.min <<< 5 |||
    BitVec.ofInt 16 (tm.sec.tdiv 2)

def dosDate (env : Env) (t : Int) : BitVec 16 :=
  let tm := env.localtime t
  let y := tm.year - 80
  let y := if y < 0 then 0 else y
  let y := if y > 127 then 127 else y
  BitVec.ofInt 16 y <<< 9 ||| BitVec.ofInt 16 (tm.mon + 1) <<< 5 ||| BitVec.ofInt 16 tm.mday

def fromDos (env : Env) (time date : BitVec 16) : Int :=
  env.mktime
    { year := ((date >>> 9) &&& 0x7F).toNat + 80
      mon := ((date >>> 5) &&& 0x0F).toNat - 1
      mday := (date &&& 0x1F).toNat
      hour := ((time >>> 11) &&& 0x1F).toNat
      min := ((time >>> 5) &&& 0x3F).toNat
      sec := (time &&& 0x1F).toNat * 2 }

/-!
## State
-/

structure Drive where
  enabled : Bool
  readonly : Bool
  path : Option Path

/-- `hfile`, with what its descriptor holds: the node, the position and whether
it is open for reading. -/
structure HFile where
  node : Node
  pos : Nat
  readable : Bool
  drive : Nat
  canwrite : Bool
  owner : BitVec 32
  path : Path

structure Hit where
  name : Name
  attr : Byte
  time : BitVec 16
  date : BitVec 16
  size : BitVec 32

structure Search where
  id : BitVec 32
  hits : List Hit
  pos : Nat

structure Pend where
  valid : Bool
  path : Path
  tlen : BitVec 32
  dlen : BitVec 32
  blen : BitVec 32
  slen : BitVec 32
  flags : BitVec 32
  absflag : BitVec 16

structure Dos where
  drives : Nat -> Drive
  fs : HostFs
  cache : Cache
  cwd : Nat -> List Name
  files : List (Option HFile)
  searches : List Search
  nextSearch : BitVec 32
  pend : Pend
  mint : Bool

def NDRIVES : Nat := 26
def HOSTDOS_MAX_FILES : Nat := 32
def HOSTDOS_HANDLE_BASE : Nat := 64
def MAX_SEARCHES : Nat := 32

namespace Dos

def init (drives : Nat -> Drive) (fs : HostFs) : Dos where
  drives := drives
  fs := fs
  cache := []
  cwd := fun _ => []
  files := List.replicate HOSTDOS_MAX_FILES none
  searches := List.replicate MAX_SEARCHES ⟨0, [], 0⟩
  nextSearch := 1
  pend := ⟨false, [], 0, 0, 0, 0, 0, 0⟩
  mint := false

def driveOk (dos : Dos) (d : Nat) : Bool :=
  decide (d < NDRIVES) && (dos.drives d).enabled && (dos.drives d).path.isSome

def driveRo (dos : Dos) (d : Nat) : Bool :=
  (dos.drives d).readonly

def rootOf (dos : Dos) (d : Nat) : Path :=
  (dos.drives d).path.getD []

def dcacheDrop (dos : Dos) : Dos :=
  { dos with cache := [] }

def resetAll (dos : Dos) : Dos :=
  { dos with
    files := dos.files.map (fun _ => none)
    searches := dos.searches.map (fun s => { s with id := 0, hits := [] })
    cwd := fun _ => []
    pend := { dos.pend with valid := false }
    cache := [] }

def fileOf (dos : Dos) (h : BitVec 16) : Option (Nat × HFile) :=
  let i := h.toInt - HOSTDOS_HANDLE_BASE
  if i < 0 ∨ HOSTDOS_MAX_FILES ≤ i then none
  else (dos.files.getD i.toNat none).map (fun f => (i.toNat, f))

def setFile (dos : Dos) (i : Nat) (f : Option HFile) : Dos :=
  { dos with files := dos.files.set i f }

def fileNew (dos : Dos) (f : HFile) : Int × Dos :=
  match dos.files.findIdx? Option.isNone with
  | some i => (((HOSTDOS_HANDLE_BASE + i : Nat) : Int), dos.setFile i (some f))
  | none => (ENHNDL, dos)

def onCache {α : Type} (dos : Dos) (x : StateM Cache α) : α × Dos :=
  ((x dos.cache).1, { dos with cache := (x dos.cache).2 })

def parseOn (dos : Dos) (d : Nat) (gem : Name) : List Name :=
  parse (dos.cwd d) gem

def resolveOn (dos : Dos) (d : Nat) (gem : Name) : Except Int (Path × Stat) × Dos :=
  dos.onCache (resolve dos.fs (dos.rootOf d) (dos.parseOn d gem))

def resolveNewOn (dos : Dos) (d : Nat) (gem : Name) : Except Int NewPath × Dos :=
  dos.onCache (resolveNew dos.fs (dos.rootOf d) (dos.parseOn d gem))

end Dos

/-- What a call returns: its result, and the state and the memory it leaves. -/
structure Reply where
  result : Int
  dos : Dos
  mem : Mem

def isRo (st : Stat) : Bool :=
  !st.node.isDir && st.inode.mode &&& 0o222 == 0

def int32 (n : Nat) : Int :=
  (BitVec.ofNat 32 n).toInt

end Hostdos
end PistormAtari
