import PistormAtari.Foundation.EscapedRuns
import PistormAtari.Floppy.MsaDecode

/-!
# MSA archives

An archive has a header and a block for each track: the track as it stands, or
tokens that expand to it.  Both loaders undo the coding.  They also take files
that are no archives: the blocks may stop short of their tracks or run past them,
and the side count may wrap to zero.
-/

namespace PistormAtari
namespace Floppy

open Foundation
open Config

/-- A run is `0xE5`, the byte, and how often it stands as a big-endian word. -/
def msaCode : EscapeCode UInt8 :=
  { mark := 0xE5, count := fun hi lo => hi.toNat * 256 + lo.toNat }

/-!
## Coded tracks
-/

theorem rleTrack_encode (tokens : List (Token msaCode)) (rest : List UInt8) (fuel room : Nat)
    (hfuel : (encodeTokens tokens ++ rest).length ≤ fuel)
    (hend : rest = [] ∨ room ≤ (expandTokens tokens).length) :
    rleTrack fuel (encodeTokens tokens ++ rest) room = some ((expandTokens tokens).take room) := by
  induction tokens generalizing fuel room with
  | nil =>
      have hstop : rest = [] ∨ room = 0 := by
        rcases hend with hnil | hfull
        · exact Or.inl hnil
        · exact Or.inr (Nat.le_zero.mp hfull)
      cases fuel with
      | zero => simp [rleTrack]
      | succ fuel =>
          cases rest with
          | nil => simp [rleTrack]
          | cons b rest =>
              have hzero : room = 0 := hstop.resolve_left (List.cons_ne_nil b rest)
              simp [rleTrack, hzero]
  | cons t tokens ih =>
      cases fuel with
      | zero =>
          cases t with
          | literal b hb => simp [Token.code] at hfuel
          | run v hi lo => simp [Token.code] at hfuel
      | succ fuel =>
          by_cases hzero : room = 0
          · cases t with
            | literal b hb => simp [Token.code, rleTrack, hzero]
            | run v hi lo => simp [Token.code, rleTrack, hzero]
          · cases t with
            | literal b hb =>
                have hmark : b ≠ 0xE5 := hb
                simp only [encodeTokens_cons, expandTokens_cons, Token.code, Token.expansion,
                  List.cons_append, List.nil_append, List.length_cons] at hfuel hend ⊢
                have hnext := ih fuel (room - 1) (by lia) (by
                  rcases hend with hnil | hfull
                  · exact Or.inl hnil
                  · exact Or.inr (by lia))
                unfold rleTrack
                rw [if_neg hzero, if_pos hmark, hnext, List.take_cons (by lia)]
                rfl
            | run v hi lo =>
                simp only [encodeTokens_cons, expandTokens_cons, Token.code, Token.expansion,
                  List.cons_append, List.nil_append, List.length_cons, List.length_append,
                  List.length_replicate] at hfuel hend ⊢
                have hnext := ih fuel (room - min (msaCode.count hi lo) room)
                  (by rw [List.length_append]; lia) (by
                    rcases hend with hnil | hfull
                    · exact Or.inl hnil
                    · exact Or.inr (by lia))
                have hcount : msaCode.count hi lo = hi.toNat * 256 + lo.toNat := rfl
                have hmark : ¬ msaCode.mark ≠ 0xE5 := not_not.mpr rfl
                unfold rleTrack
                rw [if_neg hzero, if_neg hmark]
                simp only [← hcount]
                rw [hnext, List.take_append, List.length_replicate, List.take_replicate,
                  Nat.min_comm room]
                have hrest : room - msaCode.count hi lo =
                    room - min (msaCode.count hi lo) room := by lia
                rw [hrest]
                rfl

theorem rleTrack_isSome_iff (data : List UInt8) (fuel room : Nat) (hfuel : data.length ≤ fuel) :
    (rleTrack fuel data room).isSome = true <-> FillsFrom msaCode room data := by
  constructor
  · intro hsome
    induction fuel generalizing data room with
    | zero =>
        rw [List.eq_nil_of_length_eq_zero (Nat.le_zero.mp hfuel)]
        exact fillsFrom_nil room
    | succ fuel ih =>
        cases data with
        | nil => exact fillsFrom_nil room
        | cons b rest =>
            have hshorter : rest.length ≤ fuel := Nat.le_of_succ_le_succ hfuel
            unfold rleTrack at hsome
            by_cases hzero : room = 0
            · rw [hzero]
              exact fillsFrom_full _
            · have hroom : 0 < room := Nat.pos_of_ne_zero hzero
              rw [if_neg hzero] at hsome
              by_cases hb : b ≠ 0xE5
              · rw [if_pos hb, Option.isSome_map] at hsome
                exact (fillsFrom_literal hroom hb).mpr (ih rest (room - 1) hshorter hsome)
              · rw [if_neg hb] at hsome
                have hmark : b = msaCode.mark := not_not.mp hb
                rw [hmark]
                split at hsome
                · next v hi lo rest' =>
                  rw [Option.isSome_map] at hsome
                  apply (fillsFrom_run hroom).mpr
                  have hnext := ih rest' _ (by simp at hshorter; lia) hsome
                  have hleft : room - min (hi.toNat * 256 + lo.toNat) room =
                      room - msaCode.count hi lo := by
                    have hcount : msaCode.count hi lo = hi.toNat * 256 + lo.toNat := rfl
                    lia
                  rwa [hleft] at hnext
                · simp at hsome
  · rintro ⟨tokens, rest, rfl, hend⟩
    rw [rleTrack_encode tokens rest fuel room hfuel hend]
    rfl

def ReadableBlock (tlen : Nat) (data : List UInt8) : Prop :=
  data.length = tlen ∨ FillsFrom msaCode tlen data

/-- A block is the track itself, or tokens that expand to exactly one track. -/
def ExactBlock (tlen : Nat) (data : List UInt8) : Prop :=
  data.length = tlen ∨
    exists tokens : List (Token msaCode),
      data = encodeTokens tokens ∧ (expandTokens tokens).length = tlen

theorem msaTrack_isSome_iff (data : List UInt8) (tlen : Nat) :
    (msaTrack data tlen).isSome = true <-> ReadableBlock tlen data := by
  unfold msaTrack ReadableBlock
  by_cases hlen : data.length = tlen
  · rw [if_pos hlen]
    simp [hlen]
  · rw [if_neg hlen, Option.isSome_map, rleTrack_isSome_iff data data.length tlen le_rfl]
    simp [hlen]

theorem msaTrack_encode {tokens : List (Token msaCode)} {tlen : Nat}
    (hne : (encodeTokens tokens).length ≠ tlen) (hfull : (expandTokens tokens).length = tlen) :
    msaTrack (encodeTokens tokens) tlen = some (expandTokens tokens) := by
  have htrack := rleTrack_encode tokens [] (encodeTokens tokens).length tlen
    (by rw [List.append_nil]) (Or.inl rfl)
  rw [List.append_nil, List.take_of_length_le (by lia)] at htrack
  unfold msaTrack
  rw [if_neg hne, htrack, Option.map_some, hfull, Nat.sub_self]
  simp

/-!
## Archives
-/

def word16 (n : Nat) : List UInt8 :=
  [UInt8.ofNat (n / 256), UInt8.ofNat (n % 256)]

theorem be16_word16 (pre post : List UInt8) {n : Nat} (hn : n < 65536) :
    be16 (pre ++ word16 n ++ post) pre.length = n := by
  have hhi : (pre ++ word16 n ++ post).getD pre.length 0 = UInt8.ofNat (n / 256) := by
    simp [word16]
  have hlo : (pre ++ word16 n ++ post).getD (pre.length + 1) 0 = UInt8.ofNat (n % 256) := by
    simp [word16]
  unfold be16 byteAt
  rw [hhi, hlo, UInt8.toNat_ofNat', UInt8.toNat_ofNat']
  lia

inductive Block (tlen : Nat)
  | raw (track : List UInt8) (hlen : track.length = tlen)
  | coded (tokens : List (Token msaCode)) (hfull : (expandTokens tokens).length = tlen)
      (hne : (encodeTokens tokens).length ≠ tlen) (hword : (encodeTokens tokens).length < 65536)

def Block.data {tlen : Nat} : Block tlen -> List UInt8
  | .raw track _ => track
  | .coded tokens _ _ _ => encodeTokens tokens

def Block.track {tlen : Nat} : Block tlen -> List UInt8
  | .raw track _ => track
  | .coded tokens _ _ _ => expandTokens tokens

def Block.stored {tlen : Nat} (b : Block tlen) : List UInt8 :=
  word16 b.data.length ++ b.data

variable {tlen : Nat}

theorem Block.length_word (hword : tlen < 65536) (b : Block tlen) :
    b.data.length < 65536 := by
  cases b with
  | raw track hlen =>
      have htrack : track.length < 65536 := by rw [hlen]; exact hword
      exact htrack
  | coded tokens hfull hne hword => exact hword

theorem Block.length_stored (b : Block tlen) :
    b.stored.length = 2 + b.data.length := by
  unfold Block.stored
  rw [List.length_append]
  rfl

theorem Block.exists_run (v hi lo : UInt8) (hne : 4 ≠ msaCode.count hi lo) :
    exists b : Block (msaCode.count hi lo),
      b.data.length = 4 ∧ b.track = List.replicate (msaCode.count hi lo) v := by
  have hexpand : expandTokens [Token.run (c := msaCode) v hi lo] =
      List.replicate (msaCode.count hi lo) v := List.append_nil _
  have hcount : (expandTokens [Token.run (c := msaCode) v hi lo]).length =
      msaCode.count hi lo := by
    rw [hexpand, List.length_replicate]
  have hword : (encodeTokens [Token.run (c := msaCode) v hi lo]).length < 65536 := by
    show 4 < 65536
    decide
  exact ⟨.coded [.run v hi lo] hcount hne hword, rfl, hexpand⟩

theorem msaTrack_block (b : Block tlen) : msaTrack b.data tlen = some b.track := by
  cases b with
  | raw track hlen => exact if_pos hlen
  | coded tokens hfull hne hword => exact msaTrack_encode hne hfull

theorem Block.read_stored (hword : tlen < 65536) (b : Block tlen) (p post : List UInt8) :
    be16 (p ++ b.stored ++ post) p.length = b.data.length ∧
      ((p ++ b.stored ++ post).drop (p.length + 2)).take b.data.length = b.data ∧
      p.length + 2 + b.data.length ≤ (p ++ b.stored ++ post).length := by
  have htwo : (word16 b.data.length).length = 2 := rfl
  have hfile : p ++ b.stored ++ post = p ++ word16 b.data.length ++ (b.data ++ post) := by
    simp [Block.stored]
  have hpre : p.length + 2 = (p ++ word16 b.data.length).length := by
    rw [List.length_append, htwo]
  rw [hfile]
  constructor
  · exact be16_word16 p (b.data ++ post) (b.length_word hword)
  constructor
  · rw [hpre, List.drop_left, List.take_left]
  · simp only [List.length_append, htwo]
    lia

theorem msaTracks_blocks (hword : tlen < 65536) (blocks : List (Block tlen)) (p : List UInt8) :
    msaTracks (p ++ blocks.flatMap Block.stored) tlen blocks.length p.length =
      some (blocks.flatMap Block.track) := by
  induction blocks generalizing p with
  | nil => rfl
  | cons b rest ih =>
      have hfile : p ++ (b :: rest).flatMap Block.stored =
          p ++ b.stored ++ rest.flatMap Block.stored := by
        rw [List.flatMap_cons, List.append_assoc]
      have hnext := ih (p ++ b.stored)
      rw [List.length_append, b.length_stored, ← Nat.add_assoc] at hnext
      rcases b.read_stored hword p (rest.flatMap Block.stored) with ⟨hdlen, hdata, hfits⟩
      rw [hfile, List.length_cons]
      unfold msaTracks
      rw [if_neg (by lia), hdlen, if_neg (by lia), hdata, msaTrack_block]
      simp only [hnext]
      rfl

/-- An archive of a geometry that the loaders accept.  The side count is stored as
one less. -/
structure Archive where
  spt : Nat
  sides : Nat
  tstart : Nat
  tend : Nat
  hspt : 1 ≤ spt ∧ spt ≤ 12
  hsides : sides = 1 ∨ sides = 2
  hrange : tstart ≤ tend ∧ tend < 65536
  htotal : 512 * spt * sides * (tend - tstart + 1) ≤ 2048 * 1024
  blocks : List (Block (512 * spt))
  hblocks : blocks.length = (tend - tstart + 1) * sides

def Archive.header (a : Archive) : List UInt8 :=
  [0x0E, 0x0F] ++ word16 a.spt ++ word16 (a.sides - 1) ++ word16 a.tstart ++ word16 a.tend

def Archive.file (a : Archive) : List UInt8 :=
  a.header ++ a.blocks.flatMap Block.stored

def Archive.image (a : Archive) : List UInt8 :=
  a.blocks.flatMap Block.track

theorem be16_of_split {file p post : List UInt8} {n i : Nat} (hn : n < 65536)
    (hfile : file = p ++ word16 n ++ post) (hi : p.length = i) : be16 file i = n := by
  rw [hfile, ← hi]
  exact be16_word16 p post hn

variable (a : Archive)

theorem Archive.header_file :
    Floppy.header a.file =
      { spt := a.spt, sides := a.sides, tstart := a.tstart, tend := a.tend } := by
  have hsides := a.hsides
  have hrange := a.hrange
  have hspt := a.hspt
  have hsptField : be16 a.file 2 = a.spt :=
    be16_of_split (p := [0x0E, 0x0F]) (by lia) rfl rfl
  have hsidesField : be16 a.file 4 = a.sides - 1 :=
    be16_of_split (p := [0x0E, 0x0F] ++ word16 a.spt) (by lia) rfl rfl
  have htstartField : be16 a.file 6 = a.tstart :=
    be16_of_split (p := [0x0E, 0x0F] ++ word16 a.spt ++ word16 (a.sides - 1)) (by lia) rfl rfl
  have htendField : be16 a.file 8 = a.tend :=
    be16_of_split (p := [0x0E, 0x0F] ++ word16 a.spt ++ word16 (a.sides - 1) ++ word16 a.tstart)
      (by lia) rfl rfl
  have hback : (a.sides - 1 + 1) % 65536 = a.sides := by lia
  unfold Floppy.header
  rw [hsptField, hsidesField, htstartField, htendField, hback]

theorem Archive.length_header : a.header.length = 10 := rfl

theorem Archive.length_file : 12 ≤ a.file.length := by
  have hsides := a.hsides
  have hsome : 0 < a.blocks.length := by
    rw [a.hblocks]
    rcases hsides with hone | htwo
    · rw [hone]
      lia
    · rw [htwo]
      lia
  unfold Archive.file
  rw [List.length_append, a.length_header]
  cases hcase : a.blocks with
  | nil =>
      rw [hcase] at hsome
      cases hsome
  | cons b rest =>
      rw [List.flatMap_cons, List.length_append, Block.stored, List.length_append]
      have htwo : (word16 b.data.length).length = 2 := rfl
      lia

theorem Archive.msaMagic_file : msaMagic a.file = true := rfl

theorem Archive.header_accepted : ¬ (Floppy.header a.file).rejected := by
  have hspt := a.hspt
  have htotal := a.htotal
  have hsides := a.hsides
  have hrange := a.hrange
  rw [a.header_file]
  simp only [MsaHeader.rejected, MsaHeader.total, MsaHeader.tlen]
  lia

theorem Archive.listDecode_file : listDecode a.file = some a.image := by
  have hspt := a.hspt
  unfold listDecode
  rw [if_neg a.header_accepted, a.header_file]
  simp only [MsaHeader.tlen, MsaHeader.tracks]
  rw [← a.hblocks]
  exact msaTracks_blocks (by lia) a.blocks a.header

/-- Both loaders take files up to 2 MB, `disk_load` from 1 KB on.  They decode such
archives to their tracks, and stay within bounds whatever the file holds. -/
theorem archives_decode :
    (forall a : Archive, a.file.length ≤ 2 * 1024 * 1024 ->
      msaOpenFile a.file = .ok (.decoded a.image) ∧
        (1024 ≤ a.file.length -> diskLoad a.file = .ok a.image)) ∧
    forall raw, msaOpenFile raw ≠ .error .fault ∧ diskLoad raw ≠ .error .fault := by
  constructor
  · intro a hmax
    have hmin := a.length_file
    have hmagic := a.msaMagic_file
    constructor
    · unfold msaOpenFile
      rw [if_neg (by rw [hmagic]; lia), if_neg (by lia), msaDecode_eq hmin, a.listDecode_file]
      rfl
    · intro hfloor
      unfold diskLoad
      rw [if_neg (by lia), if_neg (by rw [hmagic]; lia), msaDecode_eq hmin, a.listDecode_file]
      rfl
  · intro raw
    exact ⟨msaOpenFile_ne_fault raw, diskLoad_ne_fault raw⟩

/-- A track of two sectors on each side: the first as it stands, the second one run. -/
theorem archives_decode_two_tracks :
    exists a : Archive, a.file.length = 1042 ∧ a.image.length = 2048 ∧
      msaOpenFile a.file = .ok (.decoded a.image) ∧ diskLoad a.file = .ok a.image := by
  rcases @exists_eq' _ (List.replicate 1024 (0 : UInt8)) with ⟨zeros, hzeros⟩
  have hlen : zeros.length = 512 * 2 := by rw [← hzeros, List.length_replicate]
  rcases Block.exists_run 7 4 0 (by decide) with ⟨second, hdata, htrack⟩
  let a : Archive :=
    { spt := 2, sides := 2, tstart := 0, tend := 0, hspt := by decide, hsides := Or.inr rfl
      hrange := by decide, htotal := by decide, blocks := [.raw zeros hlen, second], hblocks := rfl }
  have hfile : a.file.length = 1042 := by
    show (a.header ++ (Block.stored (.raw zeros hlen) ++ (second.stored ++ []))).length = 1042
    simp only [List.length_append, Block.length_stored, a.length_header, hdata]
    show 10 + (2 + zeros.length + (2 + 4 + 0)) = 1042
    rw [hlen]
  have himage : a.image.length = 2048 := by
    show (zeros ++ (second.track ++ [])).length = 2048
    rw [List.length_append, List.length_append, htrack, List.length_replicate, hlen]
    rfl
  have hdecode := archives_decode.1 a (by rw [hfile]; decide)
  exact ⟨a, hfile, himage, hdecode.1, hdecode.2 (by rw [hfile]; decide)⟩

/-- An archive of a full 2 MB disk whose tracks are stored as they stand is larger
than 2 MB, and neither loader takes it. -/
theorem full_archive_not_decoded :
    ¬ forall a : Archive,
      msaOpenFile a.file = .ok (.decoded a.image) ∧ diskLoad a.file = .ok a.image := by
  intro hall
  rcases @exists_eq' _ (List.replicate 4096 (0 : UInt8)) with ⟨zeros, hzeros⟩
  have hlen : zeros.length = 512 * 8 := by rw [← hzeros, List.length_replicate]
  have hcount : (List.replicate 512 (Block.raw zeros hlen)).length = (255 - 0 + 1) * 2 :=
    List.length_replicate
  let a : Archive :=
    { spt := 8, sides := 2, tstart := 0, tend := 255, hspt := by decide, hsides := Or.inr rfl
      hrange := by decide, htotal := by decide
      blocks := List.replicate 512 (.raw zeros hlen), hblocks := hcount }
  have hlong : a.file.length > 2 * 1024 * 1024 := by
    have hstored : (Block.raw zeros hlen).stored.length = 4098 := by
      rw [Block.length_stored]
      show 2 + zeros.length = 4098
      rw [hlen]
    have hblocks : ((List.replicate 512 (Block.raw zeros hlen)).flatMap Block.stored).length =
        512 * 4098 := by
      rw [List.length_flatMap, List.map_replicate, List.sum_replicate, hstored]
      rfl
    have hfile : a.file.length = 10 + 512 * 4098 := by
      rw [← hblocks, ← a.length_header]
      exact List.length_append
    rw [hfile]
    decide
  have hmagic := a.msaMagic_file
  have hopen := (hall a).1
  unfold msaOpenFile at hopen
  rw [if_neg (by rw [hmagic]; lia), if_pos (Or.inr hlong)] at hopen
  cases hopen

/-!
## Files that are no archives
-/

def blocksAt (raw : List UInt8) : Nat -> Nat -> Option (List (List UInt8))
  | 0, _ => some []
  | tracks + 1, src =>
      if src + 2 + be16 raw src > raw.length then Option.none
      else
        (blocksAt raw tracks (src + 2 + be16 raw src)).map
          ((raw.drop (src + 2)).take (be16 raw src) :: ·)

def AllBlocks (good : Nat -> List UInt8 -> Prop) (raw : List UInt8) : Prop :=
  exists blocks, blocksAt raw (header raw).tracks 10 = some blocks ∧
    forall b, b ∈ blocks -> good (header raw).tlen b

/-- A file of the loaders' sizes with a header that they accept, whose blocks can
be read to the end of each track. -/
def Readable (raw : List UInt8) : Prop :=
  12 ≤ raw.length ∧ raw.length ≤ 2 * 1024 * 1024 ∧ ¬ (header raw).rejected ∧
    AllBlocks ReadableBlock raw

/-- One or two sides, and a block in the file for each track, that gives exactly it. -/
def WellFormed (raw : List UInt8) : Prop :=
  ((header raw).sides = 1 ∨ (header raw).sides = 2) ∧ AllBlocks ExactBlock raw

theorem msaTracks_isSome_iff (raw : List UInt8) (tlen tracks src : Nat) :
    (msaTracks raw tlen tracks src).isSome = true <->
      exists blocks, blocksAt raw tracks src = some blocks ∧
        forall b, b ∈ blocks -> ReadableBlock tlen b := by
  induction tracks generalizing src with
  | zero => simp [msaTracks, blocksAt]
  | succ tracks ih =>
      unfold msaTracks blocksAt
      by_cases hblock : src + 2 + be16 raw src > raw.length
      · simp only [if_pos hblock, ite_self]
        simp
      · rw [if_neg (by lia), if_neg hblock, if_neg hblock]
        have hnext := ih (src + 2 + be16 raw src)
        have htrack := msaTrack_isSome_iff ((raw.drop (src + 2)).take (be16 raw src)) tlen
        cases ht : msaTrack ((raw.drop (src + 2)).take (be16 raw src)) tlen with
        | none =>
            rw [ht] at htrack
            constructor
            · intro hnone
              cases hnone
            · rintro ⟨blocks, hblocks, hgood⟩
              rcases Option.map_eq_some_iff.mp hblocks with ⟨rest, _, rfl⟩
              exact absurd (htrack.mpr (hgood _ List.mem_cons_self)) Bool.false_ne_true
        | some t =>
            have hgood := htrack.mp (by rw [ht]; rfl)
            simp only [Option.isSome_map, hnext, Option.map_eq_some_iff]
            constructor
            · rintro ⟨rest, hrest, hall⟩
              refine ⟨_, ⟨rest, hrest, rfl⟩, ?_⟩
              intro b hb
              rcases List.mem_cons.mp hb with rfl | hb
              · exact hgood
              · exact hall b hb
            · rintro ⟨blocks, ⟨rest, hrest, rfl⟩, hall⟩
              exact ⟨rest, hrest, fun b hb => hall b (List.mem_cons_of_mem _ hb)⟩

theorem blocksAt_blocks (hword : tlen < 65536) (blocks : List (Block tlen)) (p : List UInt8) :
    blocksAt (p ++ blocks.flatMap Block.stored) blocks.length p.length =
      some (blocks.map Block.data) := by
  induction blocks generalizing p with
  | nil => rfl
  | cons b rest ih =>
      have hfile : p ++ (b :: rest).flatMap Block.stored =
          p ++ b.stored ++ rest.flatMap Block.stored := by
        rw [List.flatMap_cons, List.append_assoc]
      have hnext := ih (p ++ b.stored)
      rw [List.length_append, b.length_stored, ← Nat.add_assoc] at hnext
      rcases b.read_stored hword p (rest.flatMap Block.stored) with ⟨hdlen, hdata, hfits⟩
      rw [hfile, List.length_cons]
      unfold blocksAt
      rw [hdlen, if_neg (by lia), hdata, hnext]
      rfl

theorem Block.exact_data (b : Block tlen) : ExactBlock tlen b.data := by
  cases b with
  | raw track hlen => exact Or.inl hlen
  | coded tokens hfull hne hword => exact Or.inr ⟨tokens, rfl, hfull⟩

theorem listDecode_isSome_iff (raw : List UInt8) :
    (listDecode raw).isSome = true <-> ¬ (header raw).rejected ∧ AllBlocks ReadableBlock raw := by
  unfold listDecode AllBlocks
  by_cases hrej : (header raw).rejected
  · simp [hrej]
  · rw [if_neg hrej, msaTracks_isSome_iff]
    simp [hrej]

variable {raw : List UInt8}

theorem msaOpenFile_eq (hmagic : msaMagic raw = true) :
    msaOpenFile raw =
      if raw.length < 12 ∨ raw.length > 2 * 1024 * 1024 then .error .bad
      else (orBad (listDecode raw)).map .decoded := by
  have htwo : ¬ raw.length < 2 := by
    intro hshort
    cases raw with
    | nil => exact absurd hmagic (by decide)
    | cons b rest =>
        cases rest with
        | nil =>
            have hzero : byteAt [b] 1 = 0 := rfl
            rw [msaMagic, decide_eq_true_eq, hzero] at hmagic
            exact absurd hmagic.2 (by decide)
        | cons b' rest => simp at hshort
  unfold msaOpenFile
  rw [if_neg (by rw [hmagic]; lia)]
  by_cases hsize : raw.length < 12 ∨ raw.length > 2 * 1024 * 1024
  · rw [if_pos hsize, if_pos hsize]
  · rw [if_neg hsize, if_neg hsize, msaDecode_eq (by lia)]

theorem diskLoad_eq (hmagic : msaMagic raw = true) :
    diskLoad raw =
      if raw.length < 1024 ∨ raw.length > 2 * 1024 * 1024 then .error .bad
      else orBad (listDecode raw) := by
  unfold diskLoad
  by_cases hsize : raw.length < 1024 ∨ raw.length > 2 * 1024 * 1024
  · rw [if_pos hsize, if_pos hsize]
  · rw [if_neg hsize, if_neg hsize, if_neg (by rw [hmagic]; decide), msaDecode_eq (by lia)]

def LoadersAgree (raw : List UInt8) : Prop :=
  (msaOpenFile raw = .error .bad ∧ diskLoad raw = .error .bad) ∨
    exists img, msaOpenFile raw = .ok (.decoded img) ∧ diskLoad raw = .ok img

def Accepted (raw : List UInt8) : Prop :=
  (exists img, msaOpenFile raw = .ok (.decoded img)) ∨ exists img, diskLoad raw = .ok img

theorem rejected_of_not_readable (hmagic : msaMagic raw = true) (h : ¬ Readable raw) :
    msaOpenFile raw = .error .bad ∧ diskLoad raw = .error .bad := by
  rw [msaOpenFile_eq hmagic, diskLoad_eq hmagic]
  by_cases hsize : raw.length < 12 ∨ raw.length > 2 * 1024 * 1024
  · rw [if_pos hsize, if_pos (by lia)]
    exact ⟨rfl, rfl⟩
  · have hnone : listDecode raw = Option.none := by
      cases hlist : listDecode raw with
      | none => rfl
      | some img =>
          have hsome : (listDecode raw).isSome = true := by
            rw [hlist]
            rfl
          have hread := (listDecode_isSome_iff raw).mp hsome
          exact absurd ⟨by lia, by lia, hread.1, hread.2⟩ h
    rw [if_neg hsize, hnone]
    constructor
    · rfl
    · split
      · rfl
      · rfl

theorem decoded_of_readable (hmagic : msaMagic raw = true) (h : Readable raw) :
    exists img, msaOpenFile raw = .ok (.decoded img) ∧
      diskLoad raw = if raw.length < 1024 then .error .bad else .ok img := by
  rcases h with ⟨hmin, hmax, haccepted, hblocks⟩
  have hsome := (listDecode_isSome_iff raw).mpr ⟨haccepted, hblocks⟩
  rcases Option.isSome_iff_exists.mp hsome with ⟨img, himg⟩
  refine ⟨img, ?_, ?_⟩
  · rw [msaOpenFile_eq hmagic, if_neg (by lia), himg]
    rfl
  · rw [diskLoad_eq hmagic, himg]
    by_cases hfloor : raw.length < 1024
    · rw [if_pos (Or.inl hfloor), if_pos hfloor]
    · rw [if_neg (by lia), if_neg hfloor]
      rfl

theorem accepted_iff_readable (hmagic : msaMagic raw = true) :
    Accepted raw <-> Readable raw := by
  constructor
  · intro haccepted
    by_contra hread
    rcases rejected_of_not_readable hmagic hread with ⟨hopen, hload⟩
    rcases haccepted with ⟨img, himg⟩ | ⟨img, himg⟩
    · rw [hopen] at himg
      cases himg
    · rw [hload] at himg
      cases himg
  · intro hread
    rcases decoded_of_readable hmagic hread with ⟨img, hopen, _⟩
    exact Or.inl ⟨img, hopen⟩

theorem loadersAgree_iff (hmagic : msaMagic raw = true) :
    LoadersAgree raw <-> (Readable raw -> 1024 ≤ raw.length) := by
  by_cases hread : Readable raw
  · rcases decoded_of_readable hmagic hread with ⟨img, hopen, hload⟩
    by_cases hfloor : raw.length < 1024
    · rw [if_pos hfloor] at hload
      simp [LoadersAgree, hopen, hload, hread]
      lia
    · rw [if_neg hfloor] at hload
      simp [LoadersAgree, hopen, hload]
      lia
  · have hreject := rejected_of_not_readable hmagic hread
    simp [LoadersAgree, hreject, hread]

/-- The stored side count is one less, so that `0xFFFF` wraps to no side at all. -/
theorem sides_one_or_two (haccepted : ¬ (header raw).rejected) :
    (header raw).sides = 1 ∨ (header raw).sides = 2 <-> be16 raw 4 ≠ 0xFFFF := by
  have hword : be16 raw 4 < 65536 := by
    have hhi := UInt8.toNat_lt (raw.getD 4 0)
    have hlo := UInt8.toNat_lt (raw.getD 5 0)
    unfold be16 byteAt
    lia
  have hsides : (header raw).sides = (be16 raw 4 + 1) % 65536 := rfl
  have hmax : ¬ (header raw).sides > 2 := fun hgt => haccepted (Or.inr (Or.inr (Or.inl hgt)))
  lia

def NoSlack (raw : List UInt8) : Prop :=
  forall blocks, blocksAt raw (header raw).tracks 10 = some blocks ->
    forall b, b ∈ blocks -> ExactBlock (header raw).tlen b

theorem allBlocks_exact_iff (hread : AllBlocks ReadableBlock raw) :
    AllBlocks ExactBlock raw <-> NoSlack raw := by
  rcases hread with ⟨blocks, hblocks, _⟩
  constructor
  · rintro ⟨blocks', hblocks', hexact⟩
    intro blocks'' hblocks''
    rw [hblocks'] at hblocks''
    cases hblocks''
    exact hexact
  · intro hslack
    exact ⟨blocks, hblocks, hslack blocks hblocks⟩

/-- The loaders agree on a file with the magic, and take only archives, exactly when a
file that can be read has 1 KB, a side count that does not wrap, and blocks without
slack. -/
theorem loaders_agree_iff (raw : List UInt8) (hmagic : msaMagic raw = true) :
    (LoadersAgree raw ∧ (Accepted raw -> WellFormed raw)) <->
      (Readable raw -> 1024 ≤ raw.length ∧ be16 raw 4 ≠ 0xFFFF ∧ NoSlack raw) := by
  rw [loadersAgree_iff hmagic, accepted_iff_readable hmagic, ← forall_and]
  apply forall_congr'
  intro hread
  rw [← sides_one_or_two hread.2.2.1, ← allBlocks_exact_iff hread.2.2.2]
  exact Iff.rfl

theorem Archive.noSlack_file : NoSlack a.file := by
  intro blocks hblocks
  have hspt := a.hspt
  have hread := blocksAt_blocks (by lia) a.blocks a.header
  rw [a.header_file] at hblocks ⊢
  simp only [MsaHeader.tracks] at hblocks
  rw [← a.hblocks] at hblocks
  have hdata : some blocks = some (a.blocks.map Block.data) := hblocks.symm.trans hread
  cases hdata
  intro data hmem
  rcases List.mem_map.mp hmem with ⟨b, _, rfl⟩
  exact b.exact_data

/-- An archive of 1 KB, with one track of two sectors. -/
theorem loaders_agree_one_track :
    exists raw : List UInt8, raw.length = 1036 ∧ Accepted raw ∧
      LoadersAgree raw ∧ (Accepted raw -> WellFormed raw) := by
  rcases @exists_eq' _ (List.replicate 1024 (0 : UInt8)) with ⟨zeros, hzeros⟩
  have hlen : zeros.length = 512 * 2 := by rw [← hzeros, List.length_replicate]
  let a : Archive :=
    { spt := 2, sides := 1, tstart := 0, tend := 0, hspt := by decide, hsides := Or.inl rfl
      hrange := by decide, htotal := by decide, blocks := [.raw zeros hlen], hblocks := rfl }
  have hfile : a.file.length = 1036 := by
    show (a.header ++ (Block.stored (.raw zeros hlen) ++ [])).length = 1036
    simp only [List.length_append, Block.length_stored, a.length_header]
    show 10 + (2 + zeros.length + 0) = 1036
    rw [hlen]
  have hsides : be16 a.file 4 ≠ 0xFFFF := by
    apply (sides_one_or_two a.header_accepted).mp
    rw [a.header_file]
    exact a.hsides
  have haccepted : Accepted a.file :=
    Or.inl ⟨a.image, (archives_decode.1 a (by rw [hfile]; decide)).1⟩
  have hagree := (loaders_agree_iff a.file a.msaMagic_file).mpr
    (fun _ => ⟨by rw [hfile]; decide, hsides, a.noSlack_file⟩)
  exact ⟨a.file, hfile, haccepted, hagree⟩

/-- A file of 1 KB with a side count of `0xFFFF` is taken for an empty disk. -/
theorem wrapped_sides_accepted :
    ¬ forall raw : List UInt8, msaMagic raw = true ->
      LoadersAgree raw ∧ (Accepted raw -> WellFormed raw) := by
  intro hall
  rcases @exists_eq' _ (List.replicate 1014 (0 : UInt8)) with ⟨zeros, hzeros⟩
  have hlen : zeros.length = 1014 := by rw [← hzeros, List.length_replicate]
  let raw : List UInt8 := [0x0E, 0x0F, 0, 9, 0xFF, 0xFF, 0, 0, 0, 79] ++ zeros
  have hraw : raw.length = 1024 := by
    show (_ ++ zeros).length = 1024
    rw [List.length_append, hlen]
    rfl
  have hheader : header raw = { spt := 9, sides := 0, tstart := 0, tend := 79 } := by
    simp [header, be16, byteAt, raw]
  have hread : Readable raw := by
    have haccepted : ¬ (header raw).rejected := by
      rw [hheader]
      decide
    have htracks : (header raw).tracks = 0 := by
      rw [hheader]
      rfl
    refine ⟨by lia, by lia, haccepted, [], by rw [htracks]; rfl, ?_⟩
    intro b hb
    cases hb
  have hmagic : msaMagic raw = true := rfl
  have hwell := (hall raw hmagic).2 ((accepted_iff_readable hmagic).mpr hread)
  rcases hwell.1 with hone | htwo
  · rw [hheader] at hone
    cases hone
  · rw [hheader] at htwo
    cases htwo

end Floppy
end PistormAtari
