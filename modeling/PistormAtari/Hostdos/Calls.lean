import PistormAtari.Hostdos.Engine

/-!
# The calls

One function for each GEMDOS call that the engine takes, the dispatcher over
them, and the operations of the NatFeat.
-/

namespace PistormAtari
namespace Hostdos

open Foundation

def FA_RDONLY : BitVec 16 := 0x01
def FA_LABEL : BitVec 16 := 0x08
def FA_DIR : BitVec 16 := 0x10
def HOSTDOS_API_VERSION : Int := 1
def HOSTDOS_DTA_MAGIC : BitVec 32 := 0x48444F53

/-- `(int32_t)HOSTDOS_PASS` and `(int32_t)HOSTDOS_PEXEC`. -/
def HOSTDOS_PASS : Int := -2147483648
def HOSTDOS_PEXEC : Int := -2147483647

/-!
## Searches
-/

def makeHit (env : Env) (name : Name) (st : Stat) : Hit where
  name := name
  attr := (if st.node.isDir then 0x10 else 0) ||| (if isRo st then 0x01 else 0)
  time := dosTime env (seconds st.inode.mtime)
  date := dosDate env (seconds st.inode.mtime)
  size :=
    if st.node.isDir then 0
    else if st.inode.data.length > 0x7FFFFFFF then 0x7FFFFFFF
    else BitVec.ofNat 32 st.inode.data.length

def dtaBytes (id : BitVec 32) (h : Hit) : List Byte :=
  be32 HOSTDOS_DTA_MAGIC ++ be32 id ++ List.replicate 13 0 ++ [h.attr] ++ be16 h.time ++
    be16 h.date ++ be32 h.size ++ (h.name ++ List.replicate 13 0).take 13 ++ [0]

def dtaFill (m : Mem) (dta : Addr) (id : BitVec 32) (h : Hit) : Mem :=
  writeMem m dta (dtaBytes id h)

def pickSlotFrom : Nat -> BitVec 32 -> Nat -> List Search -> Nat
  | best, _, _, [] => best
  | best, bestId, i, x :: xs =>
      if x.id = 0 then i
      else if x.id < bestId then pickSlotFrom i x.id (i + 1) xs
      else pickSlotFrom best bestId (i + 1) xs

def pickSlot : List Search -> Nat
  | [] => 0
  | x :: xs => pickSlotFrom 0 x.id 0 (x :: xs)

/-- The hits of a search in `dir`: the dots below the root, then the table. -/
def hitsIn (env : Env) (fs : HostFs) (dir : Path) (pat : Name) (attr : BitVec 16)
    (belowRoot : Bool) (m : Option (List Ent)) : List Hit :=
  let dots :=
    match fs.stat dir with
    | some st =>
        if belowRoot && attr &&& FA_DIR != 0 then
          ([[dot], [dot, dot]].filter (match83 pat)).map (fun n => makeHit env n st)
        else []
    | none => []
  let hits := (m.getD []).filterMap (fun e =>
    if match83 pat e.tos then
      match fs.stat (dir ++ [e.host]) with
      | some st =>
          if st.node.isDir && attr &&& FA_DIR == 0 then none else some (makeHit env e.tos st)
      | none => none
    else none)
  dots ++ hits

def searchHits (env : Env) (fs : HostFs) (dir : Path) (pat : Name) (attr : BitVec 16)
    (belowRoot : Bool) : StateM Cache (List Hit) := do
  let m <- mapDir fs dir
  return hitsIn env fs dir pat attr belowRoot m

def doFsfirst (env : Env) (dos : Dos) (m : Mem) (d : Nat) (a dta : Addr) : Reply :=
  let spec := rdstr m (rd32 m (a + 2))
  let attr := rd16 m (a + 6)
  if dta = 0 then ⟨EFILNF, dos, m⟩
  else if attr &&& 0xFF = FA_LABEL then ⟨EFILNF, dos, m⟩
  else
    let c := dos.parseOn d spec
    match c.getLast? with
    | none => ⟨EFILNF, dos, m⟩
    | some pat =>
        match dos.onCache (walk dos.fs (dos.rootOf d) c (c.length - 1)) with
        | (.error err, dos) => ⟨err, dos, m⟩
        | (.ok dir, dos) =>
            let i := pickSlot dos.searches
            match dos.onCache (searchHits env dos.fs dir pat attr (decide (c.length > 1))) with
            | ([], dos) =>
                ⟨EFILNF, { dos with searches := dos.searches.set i ⟨0, [], 0⟩ }, m⟩
            | (hit :: hits, dos) =>
                let id := dos.nextSearch
                let next := if id + 1 = 0 then 1 else id + 1
                ⟨0, { dos with
                    searches := dos.searches.set i ⟨id, hit :: hits, 1⟩
                    nextSearch := next },
                  dtaFill m dta id hit⟩

def doFsnext (dos : Dos) (m : Mem) (dta : Addr) : Reply :=
  if dta = 0 ∨ rd32 m dta ≠ HOSTDOS_DTA_MAGIC then ⟨ENMFIL, dos, m⟩
  else
    let id := rd32 m (dta + 4)
    match dos.searches.findIdx? (fun s => s.id == id && id != 0) with
    | none => ⟨ENMFIL, dos, m⟩
    | some i =>
        let s := dos.searches.getD i ⟨0, [], 0⟩
        match s.hits[s.pos]? with
        | none => ⟨ENMFIL, { dos with searches := dos.searches.set i ⟨0, [], s.pos⟩ }, m⟩
        | some hit =>
            ⟨0, { dos with searches := dos.searches.set i { s with pos := s.pos + 1 } },
              dtaFill m dta id hit⟩

/-!
## Files by name
-/

def doFopen (env : Env) (dos : Dos) (m : Mem) (d : Nat) (a : Addr) (bp : BitVec 32) : Reply :=
  let name := rdstr m (rd32 m (a + 2))
  let mode := rd16 m (a + 6) &&& 3
  match dos.resolveOn d name with
  | (.error err, dos) => ⟨err, dos, m⟩
  | (.ok (host, st), dos) =>
      if st.node.isDir then ⟨EFILNF, dos, m⟩
      else if mode ≠ 0 ∧ dos.driveRo d then ⟨EWRPRO, dos, m⟩
      else
        match env.refuse .open 0 with
        | some e => ⟨errnoTos e EFILNF, dos, m⟩
        | none =>
            let r := dos.fileNew ⟨st.node, 0, decide (mode ≠ 1), d, decide (mode ≠ 0), bp, host⟩
            ⟨r.1, r.2, m⟩

def createPath (np : NewPath) : HostPath :=
  match np.exist with
  | some host => ⟨host, false⟩
  | none => HostPath.join np.dir np.leaf

def existBlocked (fs : HostFs) (np : NewPath) : Bool :=
  match np.exist with
  | none => false
  | some host =>
      match fs.stat host with
      | some st => st.node.isDir || isRo st
      | none => false

def doFcreate (env : Env) (dos : Dos) (m : Mem) (d : Nat) (a : Addr) (bp : BitVec 32) : Reply :=
  let name := rdstr m (rd32 m (a + 2))
  let attr := rd16 m (a + 6)
  if attr &&& (FA_LABEL ||| FA_DIR) ≠ 0 then ⟨EACCDN, dos, m⟩
  else if dos.driveRo d then ⟨EWRPRO, dos, m⟩
  else
    match dos.resolveNewOn d name with
    | (.error err, dos) => ⟨err, dos, m⟩
    | (.ok np, dos) =>
        if existBlocked dos.fs np then ⟨EACCDN, dos, m⟩
        else
          match dos.fs.openCreate env (createPath np) with
          | .error e => ⟨errnoTos e EPTHNF, dos, m⟩
          | .ok (fs, v) =>
              let fs := if attr &&& FA_RDONLY ≠ 0 then fs.fchmod env v 0o444 else fs
              let dos := { dos with fs := fs }.dcacheDrop
              let r := dos.fileNew ⟨v, 0, true, d, true, bp, (createPath np).path⟩
              ⟨r.1, r.2, m⟩

def doFdelete (env : Env) (dos : Dos) (m : Mem) (d : Nat) (a : Addr) : Reply :=
  let name := rdstr m (rd32 m (a + 2))
  match dos.resolveOn d name with
  | (.error err, dos) => ⟨err, dos, m⟩
  | (.ok (host, st), dos) =>
      if st.node.isDir then ⟨EFILNF, dos, m⟩
      else if dos.driveRo d then ⟨EWRPRO, dos, m⟩
      else if isRo st then ⟨EACCDN, dos, m⟩
      else
        match dos.fs.unlink env host with
        | .error e => ⟨errnoTos e EFILNF, dos, m⟩
        | .ok fs => ⟨0, { dos with fs := fs }.dcacheDrop, m⟩

def doDcreate (env : Env) (dos : Dos) (m : Mem) (d : Nat) (a : Addr) : Reply :=
  let name := rdstr m (rd32 m (a + 2))
  if dos.driveRo d then ⟨EWRPRO, dos, m⟩
  else
    match dos.resolveNewOn d name with
    | (.error err, dos) => ⟨err, dos, m⟩
    | (.ok np, dos) =>
        if np.exist.isSome then ⟨EACCDN, dos, m⟩
        else
          match dos.fs.mkdir env (HostPath.join np.dir np.leaf) with
          | .error e => ⟨errnoTos e EPTHNF, dos, m⟩
          | .ok fs => ⟨0, { dos with fs := fs }.dcacheDrop, m⟩

def doDdelete (env : Env) (dos : Dos) (m : Mem) (d : Nat) (a : Addr) : Reply :=
  let name := rdstr m (rd32 m (a + 2))
  let c := dos.parseOn d name
  match dos.resolveOn d name with
  | (.error _, dos) => ⟨EPTHNF, dos, m⟩
  | (.ok (host, st), dos) =>
      if st.node.isDir = false ∨ c = [] then ⟨EPTHNF, dos, m⟩
      else if dos.driveRo d then ⟨EWRPRO, dos, m⟩
      else
        match dos.fs.rmdir env host with
        | .error e => ⟨errnoTos e EPTHNF, dos, m⟩
        | .ok fs => ⟨0, { dos with fs := fs }.dcacheDrop, m⟩

def otherDrive (newn : Name) (d : Nat) : Bool :=
  match newn with
  | x :: y :: _ => y == ch ':' && decide ((toupper x).toNat - (0x41 : Int) ≠ d)
  | _ => false

def doFrename (env : Env) (dos : Dos) (m : Mem) (d : Nat) (a : Addr) : Reply :=
  let oldn := rdstr m (rd32 m (a + 4))
  let newn := rdstr m (rd32 m (a + 8))
  if otherDrive newn d then ⟨ENSAME, dos, m⟩
  else
    match dos.resolveOn d oldn with
    | (.error err, dos) => ⟨err, dos, m⟩
    | (.ok (host, _), dos) =>
        if dos.driveRo d then ⟨EWRPRO, dos, m⟩
        else
          match dos.resolveNewOn d newn with
          | (.error err, dos) => ⟨err, dos, m⟩
          | (.ok np, dos) =>
              if np.exist.isSome then ⟨EACCDN, dos, m⟩
              else
                match dos.fs.rename env host (HostPath.join np.dir np.leaf) with
                | .error e => ⟨errnoTos e EPTHNF, dos, m⟩
                | .ok fs => ⟨0, { dos with fs := fs }.dcacheDrop, m⟩

def doFattrib (env : Env) (dos : Dos) (m : Mem) (d : Nat) (a : Addr) : Reply :=
  let name := rdstr m (rd32 m (a + 2))
  let wflag := rd16 m (a + 6)
  let attr := rd16 m (a + 8)
  match dos.resolveOn d name with
  | (.error err, dos) => ⟨err, dos, m⟩
  | (.ok (host, st), dos) =>
      let cur : Int := (if st.node.isDir then 0x10 else 0) + (if isRo st then 0x01 else 0)
      if wflag = 0 then ⟨cur, dos, m⟩
      else if dos.driveRo d then ⟨EWRPRO, dos, m⟩
      else if st.node.isDir then ⟨cur, dos, m⟩
      else
        let mode := st.inode.mode
        let mode := if attr &&& FA_RDONLY ≠ 0 then mode &&& ~~~ 0o222 else mode ||| 0o200
        match dos.fs.chmod env host mode with
        | .error e => ⟨errnoTos e EACCDN, dos, m⟩
        | .ok fs => ⟨if attr &&& FA_RDONLY ≠ 0 then 1 else 0, { dos with fs := fs }, m⟩

/-!
## Files by handle
-/

def doFclose (dos : Dos) (m : Mem) (a : Addr) : Reply :=
  match dos.fileOf (rd16 m (a + 2)) with
  | none => ⟨EIHNDL, dos, m⟩
  | some (i, _) => ⟨0, dos.setFile i none, m⟩

def chunkSize : Nat := 65536

def readFd (env : Env) (fs : HostFs) (f : HFile) (pos k want : Nat) : Option (List Byte) :=
  match env.refuse .read k with
  | some _ => none
  | none =>
      if f.readable = false then none
      else
        match f.node.kind with
        | .special => some ((env.device k).take want)
        | _ => some (((fs.inode f.node.ino).data.drop pos).take want)

/-- The loop of `do_fread`: the result, the position and the memory. -/
def freadLoop (env : Env) (fs : HostFs) (f : HFile) (count : Nat) (buf : Addr) :
    Nat -> Nat -> Nat -> Nat -> Mem -> Int × Nat × Mem
  | 0, _, pos, total, m => (int32 total, pos, m)
  | fuel + 1, k, pos, total, m =>
      if count ≤ total then (int32 total, pos, m)
      else
        match readFd env fs f pos k (min (count - total) chunkSize) with
        | none => (if total = 0 then ERROR else int32 total, pos, m)
        | some [] => (int32 total, pos, m)
        | some (b :: bs) =>
            freadLoop env fs f count buf fuel (k + 1) (pos + (b :: bs).length)
              (total + (b :: bs).length)
              (writeMem m (buf + BitVec.ofNat 32 total) (b :: bs))

def doFread (env : Env) (dos : Dos) (m : Mem) (a : Addr) : Reply :=
  let count := (rd32 m (a + 4)).toNat
  let buf := rd32 m (a + 8)
  match dos.fileOf (rd16 m (a + 2)) with
  | none => ⟨EIHNDL, dos, m⟩
  | some (i, f) =>
      match freadLoop env dos.fs f count buf count 0 f.pos 0 m with
      | (result, pos, m) => ⟨result, dos.setFile i (some { f with pos := pos }), m⟩

/-- File contents with `bs` written at `pos`; a gap reads as zeros. -/
def writeAt (data : List Byte) (pos : Nat) (bs : List Byte) : List Byte :=
  data.take pos ++ List.replicate (pos - data.length) 0 ++ bs ++ data.drop (pos + bs.length)

/-- `write` of `bs` at `pos` with `room` bytes left on the disk: how many went
out, and the file system after it. -/
def writeFd (env : Env) (fs : HostFs) (v : Node) (pos k room : Nat) (bs : List Byte) :
    Except Errno (Nat × HostFs) :=
  match env.refuse .write k with
  | some e => .error e
  | none =>
      if room = 0 then .error .nospc
      else
        let put := bs.take room
        match v.kind with
        | .special => .ok (put.length, fs)
        | _ =>
            .ok (put.length, fs.modify v.ino (fun x =>
              { x with data := writeAt x.data pos put, mtime := env.now }))

/-- The loop of `do_fwrite`: the result, the position and the file system. -/
def fwriteLoop (env : Env) (m : Mem) (v : Node) (count : Nat) (buf : Addr) :
    Nat -> Nat -> Nat -> Nat -> Nat -> HostFs -> Int × Nat × HostFs
  | 0, _, _, pos, total, fs => (int32 total, pos, fs)
  | fuel + 1, k, room, pos, total, fs =>
      if count ≤ total then (int32 total, pos, fs)
      else
        let want := min (count - total) chunkSize
        let chunk := readMem m (buf + BitVec.ofNat 32 total) want
        match writeFd env fs v pos k room chunk with
        | .error e => (if total = 0 then errnoTos e EACCDN else int32 total, pos, fs)
        | .ok (put, fs) =>
            if put < want then (int32 (total + put), pos + put, fs)
            else
              fwriteLoop env m v count buf fuel (k + 1) (room - put) (pos + put) (total + put) fs

def doFwrite (env : Env) (dos : Dos) (m : Mem) (a : Addr) : Reply :=
  let count := (rd32 m (a + 4)).toNat
  let buf := rd32 m (a + 8)
  match dos.fileOf (rd16 m (a + 2)) with
  | none => ⟨EIHNDL, dos, m⟩
  | some (i, f) =>
      if f.canwrite = false then ⟨EACCDN, dos, m⟩
      else
        match fwriteLoop env m f.node count buf count 0 env.room f.pos 0 dos.fs with
        | (result, pos, fs) =>
            ⟨result, { dos with fs := fs }.setFile i (some { f with pos := pos }), m⟩

def seekBase (env : Env) (f : HFile) (size : Nat) (mode : BitVec 16) : Int :=
  if mode = 0 then 0
  else if mode = 1 then (if (env.refuse .lseek 0).isSome then -1 else f.pos)
  else if mode = 2 then size
  else -1

def doFseek (env : Env) (dos : Dos) (m : Mem) (a : Addr) : Reply :=
  let off := (rd32 m (a + 2)).toInt
  let mode := rd16 m (a + 8)
  match dos.fileOf (rd16 m (a + 6)) with
  | none => ⟨EIHNDL, dos, m⟩
  | some (i, f) =>
      let size := (dos.fs.inode f.node.ino).data.length
      let base := seekBase env f size mode
      if base < 0 then ⟨ERROR, dos, m⟩
      else
        let pos := base + off
        if pos < 0 ∨ pos > size then ⟨ERANGE_T, dos, m⟩
        else
          match env.refuse .lseek 1 with
          | some _ => ⟨ERROR, dos, m⟩
          | none => ⟨int32 pos.toNat, dos.setFile i (some { f with pos := pos.toNat }), m⟩

def doFdatime (env : Env) (dos : Dos) (m : Mem) (a : Addr) : Reply :=
  let tp := rd32 m (a + 2)
  let wflag := rd16 m (a + 8)
  match dos.fileOf (rd16 m (a + 6)) with
  | none => ⟨EIHNDL, dos, m⟩
  | some (_, f) =>
      if wflag ≠ 0 then
        if dos.driveRo f.drive then ⟨EWRPRO, dos, m⟩
        else
          let t := fromDos env (rd16 m tp) (rd16 m (tp + 2))
          match env.refuse .futimens 0 with
          | some e => ⟨errnoTos e EACCDN, dos, m⟩
          | none =>
              ⟨0, { dos with fs := dos.fs.modify f.node.ino (fun x =>
                { x with mtime := t * 1000000000 }) }, m⟩
      else
        let t := seconds (dos.fs.inode f.node.ino).mtime
        ⟨0, dos, wr16 (wr16 m tp (dosTime env t)) (tp + 2) (dosDate env t)⟩

/-!
## Folders and drives
-/

def doDsetpath (dos : Dos) (m : Mem) (d : Nat) (a : Addr) : Reply :=
  let name := rdstr m (rd32 m (a + 2))
  if name = [] ∨ (name.length = 2 ∧ name[1]? = some (ch ':')) then ⟨0, dos, m⟩
  else
    let c := dos.parseOn d name
    match dos.resolveOn d name with
    | (.error _, dos) => ⟨EPTHNF, dos, m⟩
    | (.ok (_, st), dos) =>
        if st.node.isDir = false then ⟨EPTHNF, dos, m⟩
        else ⟨0, { dos with cwd := Function.update dos.cwd d c }, m⟩

def doDgetpath (dos : Dos) (m : Mem) (d : Nat) (a : Addr) : Reply :=
  let s := (dos.cwd d).flatMap (fun c => ch '\\' :: c)
  ⟨0, dos, writeMem m (rd32 m (a + 2)) (s.take 127 ++ [0])⟩

def doDfree (env : Env) (dos : Dos) (m : Mem) (d : Nat) (a : Addr) : Reply :=
  let buf := rd32 m (a + 2)
  let clbytes := 1024
  let maxcl := 0x7FFFFFFF / clbytes
  let v := (env.statvfs (dos.rootOf d)).getD (0, 0, 0)
  let total := min (v.1 * v.2.2 % 2 ^ 64 / clbytes) maxcl
  let avail := if dos.driveRo d then 0 else min (v.2.1 * v.2.2 % 2 ^ 64 / clbytes) total
  ⟨0, dos, wr32 (wr32 (wr32 (wr32 m buf (BitVec.ofNat 32 avail)) (buf + 4)
    (BitVec.ofNat 32 total)) (buf + 8) 512) (buf + 12) 2⟩

/-!
## Programs
-/

/-- The bytes that can be read from a path; a folder gives none. -/
def fileBytes (fs : HostFs) (st : Stat) : List Byte :=
  match st.node.kind with
  | .reg => (fs.inode st.node.ino).data
  | _ => []

def be32At (bs : List Byte) (o : Nat) : BitVec 32 :=
  word32 (bs.getD o 0) (bs.getD (o + 1) 0) (bs.getD (o + 2) 0) (bs.getD (o + 3) 0)

def doPexec (env : Env) (dos : Dos) (m : Mem) (d : Nat) (a : Addr) : Reply :=
  let mode := rd16 m (a + 2)
  if mode ≠ 0 ∧ mode ≠ 3 then ⟨HOSTDOS_PASS, dos, m⟩
  else
    let name := rdstr m (rd32 m (a + 4))
    match dos.resolveOn d name with
    | (.error err, dos) => ⟨err, dos, m⟩
    | (.ok (host, st), dos) =>
        if st.node.isDir then ⟨EFILNF, dos, m⟩
        else
          match env.refuse .open 0 with
          | some e => ⟨errnoTos e EFILNF, dos, m⟩
          | none =>
              let h := (fileBytes dos.fs st).take 28
              if h.length ≠ 28 ∨ h.getD 0 0 ≠ 0x60 ∨ h.getD 1 0 ≠ 0x1A then ⟨EPLFMT, dos, m⟩
              else
                ⟨HOSTDOS_PEXEC, { dos with pend :=
                  { valid := true
                    path := host
                    tlen := be32At h 2
                    dlen := be32At h 6
                    blen := be32At h 10
                    slen := be32At h 14
                    flags := be32At h 22
                    absflag := word16 (h.getD 26 0) (h.getD 27 0) } }, m⟩

def MAX_PRG_BYTES : Nat := 64 * 2 ^ 20

def patch (tbase : BitVec 32) (im : List Byte) (off : Nat) : Option (List Byte) :=
  if off + 4 > im.length ∨ off % 2 = 1 then none
  else some (im.take off ++ be32 (be32At im off + tbase) ++ im.drop (off + 4))

def fixupLoop (tbase : BitVec 32) : List Byte -> Nat -> List Byte -> Option (List Byte)
  | [], _, im => some im
  | b :: bs, pos, im =>
      if b = 0 then some im
      else if b = 1 then fixupLoop tbase bs (pos + 254) im
      else
        match patch tbase im (pos + b.toNat) with
        | none => none
        | some im => fixupLoop tbase bs (pos + b.toNat) im

def fixups (tbase : BitVec 32) (file : List Byte) (ro : Nat) (im : List Byte) :
    Option (List Byte) :=
  if ro + 4 ≤ file.length then
    let pos := (be32At file ro).toNat
    if pos = 0 then some im
    else
      match patch tbase im pos with
      | none => none
      | some im => fixupLoop tbase (file.drop (ro + 4)) pos im
  else some im

def doLoad (env : Env) (dos : Dos) (m : Mem) (bp : Addr) : Reply :=
  let p := dos.pend
  if p.valid = false then ⟨EPLFMT, dos, m⟩
  else
    let dos := { dos with pend := { p with valid := false } }
    let lowtpa := rd32 m bp
    let hitpa := rd32 m (bp + 4)
    let img := p.tlen.toNat + p.dlen.toNat
    let need := 0x100 + img + p.blen.toNat
    if img > MAX_PRG_BYTES ∨ lowtpa.toNat + need > hitpa.toNat then ⟨ENSMEM, dos, m⟩
    else
      match dos.fs.stat p.path, env.refuse .open 0 with
      | none, _ => ⟨EFILNF, dos, m⟩
      | some _, some _ => ⟨EFILNF, dos, m⟩
      | some st, none =>
          -- Whole chunks are read until the file is longer than 128 MiB.
          let file := (fileBytes dos.fs st).take (2 * MAX_PRG_BYTES + chunkSize)
          if file.length < 28 + img then ⟨EPLFMT, dos, m⟩
          else
            let im := (file.drop 28).take img
            let tbase := lowtpa + 0x100
            let im :=
              if p.absflag = 0 then fixups tbase file (28 + img + p.slen.toNat) im else some im
            match im with
            | none => ⟨EPLFMT, dos, m⟩
            | some im =>
                let bbase := tbase + BitVec.ofNat 32 img
                let clear := if p.flags &&& 1 ≠ 0 then p.blen else hitpa - bbase
                let m := writeMem m tbase im
                let m := writeMem m bbase (List.replicate clear.toNat 0)
                let m := wr32 m (bp + 8) tbase
                let m := wr32 m (bp + 12) p.tlen
                let m := wr32 m (bp + 16) (tbase + p.tlen)
                let m := wr32 m (bp + 20) p.dlen
                let m := wr32 m (bp + 24) bbase
                let m := wr32 m (bp + 28) p.blen
                ⟨0, dos, m⟩

/-!
## Dispatch
-/

def dispatch (env : Env) (dos : Dos) (m : Mem) (a : Addr) (d : Nat) (bp : BitVec 32)
    (dta : Addr) : Reply :=
  match (rd16 m a).toNat with
  | 0x3E => doFclose dos m a
  | 0x3F => doFread env dos m a
  | 0x40 => doFwrite env dos m a
  | 0x42 => doFseek env dos m a
  | 0x57 => doFdatime env dos m a
  | 0x4F => doFsnext dos m dta
  | fn =>
      if dos.driveOk d = false then ⟨HOSTDOS_PASS, dos, m⟩
      else
        match fn with
        | 0x36 => doDfree env dos m d a
        | 0x39 => doDcreate env dos m d a
        | 0x3A => doDdelete env dos m d a
        | 0x3B => doDsetpath dos m d a
        | 0x3C => doFcreate env dos m d a bp
        | 0x3D => doFopen env dos m d a bp
        | 0x41 => doFdelete env dos m d a
        | 0x43 => doFattrib env dos m d a
        | 0x47 => doDgetpath dos m d a
        | 0x4B => doPexec env dos m d a
        | 0x4E => doFsfirst env dos m d a dta
        | 0x56 => doFrename env dos m d a
        | _ => ⟨HOSTDOS_PASS, dos, m⟩

def driveBits (dos : Dos) : BitVec 32 :=
  (List.range NDRIVES).foldl
    (fun bits d => if dos.driveOk d then bits ||| 1 <<< d else bits) 0

def hostdosCall (env : Env) (dos : Dos) (m : Mem) (subid : Nat) (p : Nat -> BitVec 32) : Reply :=
  match subid with
  | 0 => ⟨HOSTDOS_API_VERSION, dos, m⟩
  | 1 =>
      let dos := { dos.resetAll with mint := false }
      ⟨(driveBits dos).toNat, dos, m⟩
  | 2 =>
      if dos.mint then ⟨HOSTDOS_PASS, dos, m⟩
      else dispatch env dos m (p 0) (p 1).toNat (p 2) (p 3)
  | 3 =>
      ⟨0, { dos with files := dos.files.map (fun f =>
        f.bind (fun f => if f.owner = p 0 then none else some f)) }, m⟩
  | 4 => ⟨if dos.pend.valid then dos.pend.flags.toNat else 0, dos, m⟩
  | 5 => doLoad env dos m (p 0)
  | _ => ⟨ERROR, dos, m⟩

def noteMint (dos : Dos) : Dos :=
  { (if dos.mint then dos else dos.resetAll) with mint := true }

/-- What can happen to the engine: the guest makes a call, or MiNT mounts a
drive.  The memory a call finds and what the host contributes come with it. -/
inductive Op where
  | call (env : Env) (m : Mem) (subid : Nat) (p : Nat -> BitVec 32)
  | mount

def step (dos : Dos) : Op -> Dos
  | .call env m subid p => (hostdosCall env dos m subid p).dos
  | .mount => noteMint dos

def runOps (drives : Nat -> Drive) (fs : HostFs) (ops : List Op) : Dos :=
  run step (Dos.init drives fs) ops

end Hostdos
end PistormAtari
