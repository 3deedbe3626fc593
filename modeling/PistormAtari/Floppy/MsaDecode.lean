import PistormAtari.Floppy.Drive

/-!
# The two MSA decoders

`msa_open_decoded` of `atari_fdd.c` and `disk_load` of `stbox_host.c` decode an
archive with the same loops over three indices: into the file, into the image and
to the end of a track.  Here each read of the file and each write of the image is
checked, and one out of bounds is a fault.
-/

namespace PistormAtari
namespace Floppy

open Foundation
open Config

/-- How a decoder stops early: at `goto bad`, or out of bounds. -/
inductive Stop
  | bad
  | fault
deriving DecidableEq, Repr

def readAt (raw : List UInt8) (i : Nat) : Except Stop UInt8 :=
  if i < raw.length then .ok (raw.getD i 0) else .error .fault

/-- `img[o] = b`. -/
def writeAt (img : List UInt8) (o : Nat) (b : UInt8) : Except Stop (List UInt8) :=
  if o < img.length then .ok (img.set o b) else .error .fault

/-- `memcpy(img + dst, raw + src, n)`. -/
def copyBlock (raw : List UInt8) (src : Nat) (img : List UInt8) (dst n : Nat) :
    Except Stop (List UInt8) :=
  if src + n ≤ raw.length ∧ dst + n ≤ img.length then
    .ok (img.take dst ++ (raw.drop src).take n ++ img.drop (dst + n))
  else .error .fault

/-- `(raw[i] << 8) | raw[i + 1]`. -/
def readBe16 (raw : List UInt8) (i : Nat) : Except Stop Nat := do
  let hi <- readAt raw i
  let lo <- readAt raw (i + 1)
  return hi.toNat * 256 + lo.toNat

/-- `while (n-- && o < dst + tlen) img[o++] = v;` -/
def fillRun (v : UInt8) (stop : Nat) : Nat -> List UInt8 -> Nat -> Except Stop (List UInt8 × Nat)
  | 0, img, o => .ok (img, o)
  | n + 1, img, o =>
      if o < stop then do
        let img <- writeAt img o v
        fillRun v stop n img (o + 1)
      else .ok (img, o)

/-- The loop over one coded block, up to `e` in the file and `stop` in the image.
Each turn takes a byte, so that `e - i` turns are enough. -/
def rleLoop (raw : List UInt8) (e stop : Nat) :
    Nat -> List UInt8 -> Nat -> Nat -> Except Stop (List UInt8)
  | 0, img, _, _ => .ok img
  | fuel + 1, img, o, i =>
      if i < e ∧ o < stop then do
        let b <- readAt raw i
        if b ≠ 0xE5 then
          let img <- writeAt img o b
          rleLoop raw e stop fuel img (o + 1) (i + 1)
        else if i + 1 + 3 > e then .error .bad
        else
          let v <- readAt raw (i + 1)
          let n <- readBe16 raw (i + 2)
          let (img, o) <- fillRun v stop n img o
          rleLoop raw e stop fuel img o (i + 4)
      else .ok img

def loadBlock (raw : List UInt8) (tlen src dlen : Nat) (img : List UInt8) (dst : Nat) :
    Except Stop (List UInt8) :=
  if dlen = tlen then copyBlock raw src img dst tlen
  else rleLoop raw (src + dlen) (dst + tlen) dlen img dst src

def trackLoop (raw : List UInt8) (tlen total : Nat) :
    Nat -> List UInt8 -> Nat -> Nat -> Except Stop (List UInt8)
  | 0, img, _, _ => .ok img
  | tracks + 1, img, src, dst =>
      if src + 2 > raw.length then .error .bad
      else do
        let dlen <- readBe16 raw src
        let src := src + 2
        if src + dlen > raw.length ∨ dst + tlen > total then .error .bad
        else
          let img <- loadBlock raw tlen src dlen img dst
          trackLoop raw tlen total tracks img (src + dlen) (dst + tlen)

structure MsaHeader where
  spt : Nat
  sides : Nat
  tstart : Nat
  tend : Nat

def MsaHeader.tlen (h : MsaHeader) : Nat := 512 * h.spt

def MsaHeader.tracks (h : MsaHeader) : Nat := (h.tend - h.tstart + 1) * h.sides

def MsaHeader.total (h : MsaHeader) : Nat := h.tlen * h.sides * (h.tend - h.tstart + 1)

def MsaHeader.rejected (h : MsaHeader) : Prop :=
  h.spt = 0 ∨ h.spt > 12 ∨ h.sides > 2 ∨ h.tend < h.tstart ∨ h.total > 2048 * 1024

instance (h : MsaHeader) : Decidable h.rejected := by
  unfold MsaHeader.rejected
  infer_instance

/-- The side count is stored as one less, and the sum is cut to 16 bits. -/
def readHeader (raw : List UInt8) : Except Stop MsaHeader := do
  let spt <- readBe16 raw 2
  let sides <- readBe16 raw 4
  let tstart <- readBe16 raw 6
  let tend <- readBe16 raw 8
  return { spt := spt, sides := (sides + 1) % 65536, tstart := tstart, tend := tend }

def msaDecode (raw : List UInt8) : Except Stop (List UInt8) := do
  let h <- readHeader raw
  if h.rejected then .error .bad
  else trackLoop raw h.tlen h.total h.tracks (List.replicate h.total 0) 10 0

def msaMagic (raw : List UInt8) : Bool :=
  byteAt raw 0 = 0x0E ∧ byteAt raw 1 = 0x0F

def msaOpenFile (raw : List UInt8) : Except Stop Msa :=
  if raw.length < 2 ∨ msaMagic raw = false then .ok .raw
  else if raw.length < 12 ∨ raw.length > 2 * 1024 * 1024 then .error .bad
  else (msaDecode raw).map .decoded

def diskLoad (raw : List UInt8) : Except Stop (List UInt8) :=
  if raw.length < 1024 ∨ raw.length > 2 * 1024 * 1024 then .error .bad
  else if msaMagic raw = false then .ok raw
  else msaDecode raw

/-!
## One block

The bytes from `i` to `e` of the file are a list that the loop consumes from the
front.  What is written so far stands before the zeros that are left.
-/

def slice (raw : List UInt8) (i e : Nat) : List UInt8 :=
  (raw.take e).drop i

def orBad {α : Type} : Option α -> Except Stop α
  | Option.none => .error .bad
  | some a => .ok a

variable {raw : List UInt8}

theorem slice_cons {i e : Nat} (hi : i < e) (he : e ≤ raw.length) :
    slice raw i e = raw.getD i 0 :: slice raw (i + 1) e := by
  have hlen : i < (raw.take e).length := by
    rw [List.length_take]
    lia
  unfold slice
  rw [List.drop_eq_getElem_cons hlen, List.getElem_take]
  rw [List.getD_eq_getElem raw 0 (by lia)]

theorem slice_length {i e : Nat} (he : e ≤ raw.length) :
    (slice raw i e).length = e - i := by
  unfold slice
  rw [List.length_drop, List.length_take]
  lia

theorem slice_nil {i e : Nat} (he : e ≤ raw.length) (hie : e ≤ i) :
    slice raw i e = [] := by
  apply List.eq_nil_of_length_eq_zero
  rw [slice_length he]
  lia

theorem readAt_ok {i : Nat} (hi : i < raw.length) :
    readAt raw i = .ok (raw.getD i 0) :=
  if_pos hi

theorem readBe16_ok {i : Nat} (hi : i + 2 ≤ raw.length) :
    readBe16 raw i = .ok (be16 raw i) := by
  unfold readBe16
  rw [readAt_ok (by lia), readAt_ok (by lia)]
  rfl

def partImage (done : List UInt8) (left : Nat) : List UInt8 :=
  done ++ List.replicate left 0

theorem partImage_length (done : List UInt8) (left : Nat) :
    (partImage done left).length = done.length + left := by
  simp [partImage]

theorem writeAt_partImage (done : List UInt8) (left : Nat) (b : UInt8) :
    writeAt (partImage done (left + 1)) done.length b = .ok (partImage (done ++ [b]) left) := by
  unfold writeAt
  rw [if_pos (by rw [partImage_length]; lia)]
  simp [partImage, List.replicate_succ]

theorem fillRun_partImage (v : UInt8) (n : Nat) (done : List UInt8) (left room : Nat)
    (hroom : room ≤ left) :
    fillRun v (done.length + room) n (partImage done left) done.length =
      .ok (partImage (done ++ List.replicate (min n room) v) (left - min n room),
        done.length + min n room) := by
  induction n generalizing done left room with
  | zero => simp [fillRun]
  | succ n ih =>
      unfold fillRun
      cases room with
      | zero =>
          rw [if_neg (by lia)]
          simp
      | succ room =>
          rcases Nat.exists_eq_add_of_le hroom with ⟨more, hmore⟩
          have hleft : left = (room + more) + 1 := by lia
          have hnext := ih (done ++ [v]) (room + more) room (by lia)
          rw [List.length_append, List.length_singleton] at hnext
          rw [if_pos (by lia), hleft, writeAt_partImage]
          have hstop : done.length + (room + 1) = done.length + 1 + room := by lia
          have hmin : min (n + 1) (room + 1) = min n room + 1 := by lia
          rw [hstop, hmin]
          refine Eq.trans hnext ?_
          rw [List.replicate_succ, List.append_assoc, List.singleton_append]
          have hrest : room + more + 1 - (min n room + 1) = room + more - min n room := by lia
          have hend : done.length + 1 + min n room = done.length + (min n room + 1) := by lia
          rw [hrest, hend]

theorem rleLoop_partImage {e : Nat} (he : e ≤ raw.length) (fuel : Nat)
    (done : List UInt8) (left room i : Nat) (hroom : room ≤ left) :
    rleLoop raw e (done.length + room) fuel (partImage done left) done.length i =
      (orBad (rleTrack fuel (slice raw i e) room)).map
        (fun t => partImage (done ++ t) (left - t.length)) := by
  induction fuel generalizing done left room i with
  | zero => simp [rleLoop, rleTrack, orBad, Except.map]
  | succ fuel ih =>
      unfold rleLoop
      by_cases hi : i < e
      · rw [slice_cons hi he]
        unfold rleTrack
        by_cases hzero : room = 0
        · rw [if_neg (by lia), if_pos hzero]
          simp [orBad, Except.map]
        · rcases Nat.exists_eq_add_of_lt (Nat.pos_of_ne_zero hzero) with ⟨room', hroom'⟩
          rcases Nat.exists_eq_add_of_le hroom with ⟨more, hmore⟩
          have hsucc : room = room' + 1 := by lia
          have hleft : left = (room' + more) + 1 := by lia
          rw [if_pos (by lia), if_neg hzero, readAt_ok (by lia)]
          simp only [bind, Except.bind]
          by_cases hb : raw.getD i 0 ≠ 0xE5
          · -- a literal goes into the image as it is
            rw [if_pos hb, if_pos hb, hleft, writeAt_partImage]
            have hnext := ih (done ++ [raw.getD i 0]) (room' + more) room' (i + 1) (by lia)
            rw [List.length_append, List.length_singleton] at hnext
            have hstop : done.length + room = done.length + 1 + room' := by lia
            have hpred : room - 1 = room' := by lia
            rw [hstop, hpred]
            refine Eq.trans hnext ?_
            cases rleTrack fuel (slice raw (i + 1) e) room' with
            | none => rfl
            | some t => simp [orBad, Except.map, Nat.add_sub_add_right]
          · rw [if_neg hb, if_neg hb]
            by_cases hcut : i + 1 + 3 > e
            · -- a marker that the block cuts off
              rw [if_pos hcut]
              have hshort : (slice raw (i + 1) e).length < 3 := by
                rw [slice_length he]
                lia
              cases hslice : slice raw (i + 1) e with
              | nil => rfl
              | cons x xs =>
                  cases xs with
                  | nil => rfl
                  | cons y ys =>
                      cases ys with
                      | nil => rfl
                      | cons z zs =>
                          rw [hslice] at hshort
                          simp at hshort
                          lia
            · have hv : i + 1 < e := by lia
              have hhi : i + 1 + 1 < e := by lia
              have hlo : i + 1 + 1 + 1 < e := by lia
              rw [if_neg hcut, slice_cons hv he, slice_cons hhi he, slice_cons hlo he,
                readAt_ok (by lia), readBe16_ok (by lia)]
              have hrun := fillRun_partImage (raw.getD (i + 1) 0) (be16 raw (i + 2)) done
                left room hroom
              simp only [hrun]
              have hnext := ih
                (done ++ List.replicate (min (be16 raw (i + 2)) room) (raw.getD (i + 1) 0))
                (left - min (be16 raw (i + 2)) room) (room - min (be16 raw (i + 2)) room)
                (i + 4) (by lia)
              rw [List.length_append, List.length_replicate] at hnext
              have hstop : done.length + room = done.length + min (be16 raw (i + 2)) room +
                  (room - min (be16 raw (i + 2)) room) := by lia
              rw [hstop]
              refine Eq.trans hnext ?_
              have hcount : be16 raw (i + 2) =
                  (raw.getD (i + 1 + 1) 0).toNat * 256 + (raw.getD (i + 1 + 1 + 1) 0).toNat := rfl
              rw [← hcount]
              cases rleTrack fuel (slice raw (i + 4) e)
                  (room - min (be16 raw (i + 2)) room) with
              | none => rfl
              | some t => simp [orBad, Except.map, Nat.sub_sub]
      · rw [if_neg (by lia), slice_nil he (by lia)]
        simp [rleTrack, orBad, Except.map]

/-!
## All tracks
-/

theorem slice_eq_take (raw : List UInt8) (src n : Nat) :
    slice raw src (src + n) = (raw.drop src).take n := by
  unfold slice
  rw [List.drop_take, Nat.add_sub_cancel_left]

theorem copyBlock_partImage {src n left : Nat} (done : List UInt8)
    (hsrc : src + n ≤ raw.length) (hleft : n ≤ left) :
    copyBlock raw src (partImage done left) done.length n =
      .ok (partImage (done ++ slice raw src (src + n)) (left - n)) := by
  unfold copyBlock
  rw [if_pos ⟨hsrc, by rw [partImage_length]; lia⟩, slice_eq_take]
  unfold partImage
  rw [List.take_left, List.drop_append, List.drop_replicate]
  simp

/-- A track is as long as the track length, whatever its block holds. -/
theorem rleTrack_length {fuel room : Nat} {data t : List UInt8}
    (h : rleTrack fuel data room = some t) : t.length ≤ room := by
  induction fuel generalizing data room t with
  | zero =>
      cases h
      exact Nat.zero_le _
  | succ fuel ih =>
      cases data with
      | nil =>
          cases h
          exact Nat.zero_le _
      | cons b rest =>
          unfold rleTrack at h
          split at h
          · cases h
            exact Nat.zero_le _
          · next hroom =>
            split at h
            · rcases Option.map_eq_some_iff.mp h with ⟨t', ht', rfl⟩
              have hlen := ih ht'
              rw [List.length_cons]
              lia
            · split at h
              · rcases Option.map_eq_some_iff.mp h with ⟨t', ht', rfl⟩
                have hlen := ih ht'
                rw [List.length_append, List.length_replicate]
                lia
              · cases h

theorem msaTrack_length {data t : List UInt8} {tlen : Nat} (h : msaTrack data tlen = some t) :
    t.length = tlen := by
  unfold msaTrack at h
  split at h
  · next hlen =>
    cases h
    exact hlen
  · rcases Option.map_eq_some_iff.mp h with ⟨t', ht', rfl⟩
    have hlen := rleTrack_length ht'
    rw [List.length_append, List.length_replicate]
    lia

theorem loadBlock_partImage {src dlen tlen left : Nat} (done : List UInt8)
    (hsrc : src + dlen ≤ raw.length) (hleft : tlen ≤ left) :
    loadBlock raw tlen src dlen (partImage done left) done.length =
      (orBad (msaTrack ((raw.drop src).take dlen) tlen)).map
        (fun t => partImage (done ++ t) (left - tlen)) := by
  have hlen : ((raw.drop src).take dlen).length = dlen := by
    rw [List.length_take, List.length_drop]
    lia
  unfold loadBlock msaTrack
  rw [hlen]
  by_cases hraw : dlen = tlen
  · rw [if_pos hraw, if_pos hraw, ← hraw, copyBlock_partImage done hsrc (by lia), slice_eq_take]
    rfl
  · rw [if_neg hraw, if_neg hraw, rleLoop_partImage hsrc dlen done left tlen src hleft,
      slice_eq_take]
    cases ht : rleTrack dlen ((raw.drop src).take dlen) tlen with
    | none => rfl
    | some t =>
        have hroom := rleTrack_length ht
        have hzeros : left - t.length = (tlen - t.length) + (left - tlen) := by lia
        simp only [orBad, Except.map, partImage]
        rw [hzeros, List.replicate_add, Option.map_some]
        simp

theorem trackLoop_partImage (raw : List UInt8) (tlen : Nat) (tracks : Nat)
    (done : List UInt8) (src : Nat) :
    trackLoop raw tlen (done.length + tracks * tlen) tracks (partImage done (tracks * tlen))
        src done.length =
      (orBad (msaTracks raw tlen tracks src)).map (done ++ ·) := by
  induction tracks generalizing done src with
  | zero => simp [trackLoop, msaTracks, orBad, Except.map, partImage]
  | succ tracks ih =>
      unfold trackLoop msaTracks
      by_cases hhead : src + 2 > raw.length
      · rw [if_pos hhead, if_pos hhead]
        rfl
      · have hmul : (tracks + 1) * tlen = tlen + tracks * tlen := by
          rw [Nat.succ_mul, Nat.add_comm]
        rw [if_neg hhead, if_neg hhead, readBe16_ok (by lia)]
        simp only [bind, Except.bind]
        by_cases hblock : src + 2 + be16 raw src > raw.length
        · rw [if_pos (Or.inl hblock), if_pos hblock]
          rfl
        · have hfits : ¬ (src + 2 + be16 raw src > raw.length ∨
              done.length + tlen > done.length + (tracks + 1) * tlen) := by
            rintro (hlong | hfull)
            · exact hblock hlong
            · lia
          rw [if_neg hfits, if_neg hblock,
            loadBlock_partImage done (by lia) (by lia)]
          cases ht : msaTrack ((raw.drop (src + 2)).take (be16 raw src)) tlen with
          | none => rfl
          | some t =>
              have hnext := ih (done ++ t) (src + 2 + be16 raw src)
              rw [List.length_append, msaTrack_length ht] at hnext
              have hleft : (tracks + 1) * tlen - tlen = tracks * tlen := by lia
              have htotal : done.length + (tracks + 1) * tlen =
                  done.length + tlen + tracks * tlen := by lia
              simp only [orBad, Except.map, hleft, htotal]
              refine Eq.trans hnext ?_
              cases msaTracks raw tlen tracks (src + 2 + be16 raw src) with
              | none => rfl
              | some img => simp [orBad, Except.map]

/-!
## The decoders
-/

def header (raw : List UInt8) : MsaHeader :=
  { spt := be16 raw 2
    sides := (be16 raw 4 + 1) % 65536
    tstart := be16 raw 6
    tend := be16 raw 8 }

theorem readHeader_ok (hlen : 12 ≤ raw.length) :
    readHeader raw = .ok (header raw) := by
  unfold readHeader
  rw [readBe16_ok (by lia), readBe16_ok (by lia), readBe16_ok (by lia), readBe16_ok (by lia)]
  rfl

theorem MsaHeader.total_eq (h : MsaHeader) : h.total = h.tracks * h.tlen := by
  unfold MsaHeader.total MsaHeader.tracks
  ring

def listDecode (raw : List UInt8) : Option (List UInt8) :=
  if (header raw).rejected then Option.none
  else msaTracks raw (header raw).tlen (header raw).tracks 10

theorem msaDecode_eq (hlen : 12 ≤ raw.length) :
    msaDecode raw = orBad (listDecode raw) := by
  unfold msaDecode listDecode
  rw [readHeader_ok hlen]
  simp only [bind, Except.bind]
  by_cases hrej : (header raw).rejected
  · rw [if_pos hrej, if_pos hrej]
    rfl
  · rw [if_neg hrej, if_neg hrej, MsaHeader.total_eq]
    have hloop := trackLoop_partImage raw (header raw).tlen (header raw).tracks [] 10
    rw [List.length_nil, Nat.zero_add] at hloop
    refine Eq.trans hloop ?_
    cases msaTracks raw (header raw).tlen (header raw).tracks 10 with
    | none => rfl
    | some img => rfl

theorem orBad_ne_fault {α : Type} (x : Option α) : orBad x ≠ .error .fault := by
  cases x with
  | none => simp [orBad]
  | some a => simp [orBad]

theorem msaOpenFile_ne_fault (raw : List UInt8) : msaOpenFile raw ≠ .error .fault := by
  unfold msaOpenFile
  by_cases hraw : raw.length < 2 ∨ msaMagic raw = false
  · rw [if_pos hraw]
    simp
  · rw [if_neg hraw]
    by_cases hsize : raw.length < 12 ∨ raw.length > 2 * 1024 * 1024
    · rw [if_pos hsize]
      simp
    · rw [if_neg hsize, msaDecode_eq (by lia)]
      cases listDecode raw with
      | none => simp [orBad, Except.map]
      | some img => simp [orBad, Except.map]

theorem diskLoad_ne_fault (raw : List UInt8) : diskLoad raw ≠ .error .fault := by
  unfold diskLoad
  by_cases hsize : raw.length < 1024 ∨ raw.length > 2 * 1024 * 1024
  · rw [if_pos hsize]
    simp
  · rw [if_neg hsize]
    by_cases hraw : msaMagic raw = false
    · rw [if_pos hraw]
      simp
    · rw [if_neg hraw, msaDecode_eq (by lia)]
      exact orBad_ne_fault _

theorem msaOpenDecoded_eq (host : HostFiles) (path : Text) :
    msaOpenDecoded host path =
      match host.contents path with
      | Option.none => .raw
      | some raw =>
          match msaOpenFile raw with
          | .ok found => found
          | .error _ => .corrupt := by
  unfold msaOpenDecoded
  cases host.contents path with
  | none => rfl
  | some raw =>
      have hmagic : msaMagic raw = false <-> byteAt raw 0 ≠ 0x0E ∨ byteAt raw 1 ≠ 0x0F := by
        unfold msaMagic
        rw [decide_eq_false_iff_not, not_and_or]
      simp only [msaOpenFile, hmagic]
      by_cases hraw : raw.length < 2 ∨ byteAt raw 0 ≠ 0x0E ∨ byteAt raw 1 ≠ 0x0F
      · rw [if_pos hraw, if_pos hraw]
      · rw [if_neg hraw, if_neg hraw]
        by_cases hsize : raw.length < 12 ∨ raw.length > 2 * 1024 * 1024
        · rw [if_pos hsize, if_pos hsize]
        · rw [if_neg hsize, if_neg hsize, msaDecode_eq (by lia)]
          unfold listDecode
          by_cases hrej : (header raw).rejected
          · rw [if_pos hrej]
            exact if_pos hrej
          · rw [if_neg hrej]
            refine Eq.trans (if_neg hrej) ?_
            show _ = match (orBad (msaTracks raw (512 * be16 raw 2)
                ((be16 raw 8 - be16 raw 6 + 1) * ((be16 raw 4 + 1) % 65536)) 10)).map
                Msa.decoded with
              | .ok found => found
              | .error _ => .corrupt
            cases msaTracks raw (512 * be16 raw 2)
                ((be16 raw 8 - be16 raw 6 + 1) * ((be16 raw 4 + 1) % 65536)) 10 with
            | none => rfl
            | some img => rfl

theorem msaTracks_length {raw img : List UInt8} {tlen tracks src : Nat}
    (h : msaTracks raw tlen tracks src = some img) : img.length = tracks * tlen := by
  induction tracks generalizing src img with
  | zero =>
      cases h
      rw [List.length_nil, Nat.zero_mul]
  | succ tracks ih =>
      unfold msaTracks at h
      split at h
      · cases h
      · dsimp only at h
        split at h
        · cases h
        · split at h
          · cases h
          · rename_i t ht
            rcases Option.map_eq_some_iff.mp h with ⟨rest, hrest, rfl⟩
            rw [List.length_append, msaTrack_length ht, ih hrest, Nat.succ_mul, Nat.add_comm]

/-- Whatever the file holds, neither decoder reads or writes out of bounds, the image of an
archive has the length its header gives and is 2 MB at most, and the drive finds what the checked
decoder does. -/
theorem msa_decoders_in_bounds (host : HostFiles) (path : Text) (raw : List UInt8) :
    msaOpenFile raw ≠ .error .fault ∧ diskLoad raw ≠ .error .fault ∧
      (forall img, msaOpenFile raw = .ok (.decoded img) ->
        img.length = (header raw).total ∧ img.length ≤ 2048 * 1024) ∧
      msaOpenDecoded host path =
        ((host.contents path).map fun raw => (msaOpenFile raw).toOption.getD .corrupt).getD .raw := by
  refine ⟨msaOpenFile_ne_fault raw, diskLoad_ne_fault raw, ?_, ?_⟩
  · intro img himg
    unfold msaOpenFile at himg
    split at himg
    · cases himg
    · split at himg
      · cases himg
      · rename_i hsize
        rw [msaDecode_eq (by lia)] at himg
        cases hlist : listDecode raw with
        | none =>
            rw [hlist] at himg
            cases himg
        | some found =>
            rw [hlist] at himg
            cases himg
            unfold listDecode at hlist
            split at hlist
            · cases hlist
            · rename_i hgood
              have hlen := msaTracks_length hlist
              rw [← MsaHeader.total_eq] at hlen
              unfold MsaHeader.rejected at hgood
              exact ⟨hlen, by lia⟩
  · rw [msaOpenDecoded_eq]
    cases host.contents path with
    | none => rfl
    | some raw =>
        dsimp only [Option.map_some, Option.getD_some]
        cases msaOpenFile raw with
        | ok found => rfl
        | error stop => rfl

end Floppy
end PistormAtari
