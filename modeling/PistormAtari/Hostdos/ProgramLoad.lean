import PistormAtari.Hostdos.CreatedNames
import PistormAtari.Hostdos.GuestMemory

/-!
# Loading a program

`do_load` places the text and data of a program file in the TPA, relocates them,
clears what is behind and fills in the basepage.  The relocation stream is a first
offset and byte deltas; it is decoded here apart from the patching.
-/

namespace PistormAtari
namespace Hostdos

/-!
## The relocation stream
-/

def deltaTargets : List Byte -> Nat -> List Nat
  | [], _ => []
  | b :: bs, pos =>
      if b = 0 then []
      else if b = 1 then deltaTargets bs (pos + 254)
      else (pos + b.toNat) :: deltaTargets bs (pos + b.toNat)

/-- The offsets that a relocation stream names: the first as a long, where zero
stands for none at all. -/
def targets (stream : List Byte) : List Nat :=
  if stream.length < 4 ∨ be32At stream 0 = 0 then []
  else (be32At stream 0).toNat :: deltaTargets (stream.drop 4) (be32At stream 0).toNat

def addLong (tbase : BitVec 32) (im : List Byte) (off : Nat) : List Byte :=
  im.take off ++ be32 (be32At im off + tbase) ++ im.drop (off + 4)

def fits (len off : Nat) : Bool :=
  decide (off + 4 ≤ len) && decide (off % 2 = 0)

variable {tbase : BitVec 32}

theorem length_addLong {im : List Byte} {off : Nat}
    (h : fits im.length off = true) : (addLong tbase im off).length = im.length := by
  simp only [fits, Bool.and_eq_true, decide_eq_true_eq] at h
  unfold addLong
  rw [List.length_append, List.length_append, List.length_take, length_be32, List.length_drop]
  lia

theorem patch_eq (tbase : BitVec 32) (im : List Byte) (off : Nat) :
    patch tbase im off =
      if fits im.length off = true then some (addLong tbase im off) else none := by
  unfold patch fits
  split
  · rename_i h
    rw [if_neg]
    simp only [Bool.and_eq_true, decide_eq_true_eq]
    lia
  · rename_i h
    rw [if_pos]
    · rfl
    · simp only [Bool.and_eq_true, decide_eq_true_eq]
      lia

/-- The image with `tbase` added once for each target, if all are inside it. -/
def relocated (tbase : BitVec 32) (im : List Byte) (offs : List Nat) : Option (List Byte) :=
  if offs.all (fits im.length) = true then some (offs.foldl (addLong tbase) im) else none

theorem relocated_cons (tbase : BitVec 32) (im : List Byte) (off : Nat) (offs : List Nat) :
    relocated tbase im (off :: offs) =
      if fits im.length off = true then relocated tbase (addLong tbase im off) offs else none := by
  unfold relocated
  rw [List.all_cons, List.foldl_cons]
  split
  · rename_i h
    rw [Bool.and_eq_true] at h
    rw [if_pos h.1, length_addLong h.1, if_pos h.2]
  · rename_i h
    rw [Bool.and_eq_true, not_and] at h
    split
    · rename_i hoff
      rw [length_addLong hoff, if_neg (h hoff)]
    · rfl

theorem fixupLoop_eq (tbase : BitVec 32) (bs : List Byte) (pos : Nat) (im : List Byte) :
    fixupLoop tbase bs pos im = relocated tbase im (deltaTargets bs pos) := by
  induction bs generalizing pos im with
  | nil => rfl
  | cons b bs ih =>
      unfold fixupLoop deltaTargets
      split
      · rfl
      · split
        · exact ih _ _
        · rw [relocated_cons, patch_eq]
          split
          · rename_i h
            split at h
            · cases h
            · rename_i hoff
              rw [if_neg hoff]
          · rename_i im' h
            split at h
            · rename_i hoff
              injection h with h
              rw [if_pos hoff, h]
              exact ih _ _
            · cases h

theorem be32At_drop (bs : List Byte) (n o : Nat) : be32At (bs.drop n) o = be32At bs (n + o) := by
  unfold be32At
  simp only [List.getD_eq_getElem?_getD, List.getElem?_drop, Nat.add_assoc]

theorem fixups_eq (tbase : BitVec 32) (file : List Byte) (ro : Nat) (im : List Byte) :
    fixups tbase file ro im = relocated tbase im (targets (file.drop ro)) := by
  have hfirst : be32At (file.drop ro) 0 = be32At file ro := be32At_drop file ro 0
  unfold fixups targets
  rw [List.length_drop, hfirst, List.drop_drop]
  split
  · rename_i hlen
    dsimp only
    split
    · rename_i hzero
      have hzero : be32At file ro = 0 := BitVec.eq_of_toNat_eq hzero
      rw [if_pos (Or.inr hzero)]
      rfl
    · rename_i hpos
      have hpos : be32At file ro ≠ 0 := by
        intro hzero
        rw [hzero] at hpos
        exact hpos rfl
      rw [if_neg (by rw [not_or]; exact ⟨by lia, hpos⟩), relocated_cons, patch_eq]
      split
      · rename_i h
        split at h
        · cases h
        · rename_i hoff
          rw [if_neg hoff]
      · rename_i im' h
        split at h
        · rename_i hoff
          injection h with h
          rw [if_pos hoff, h]
          exact fixupLoop_eq tbase _ _ _
        · cases h
  · rw [if_pos (Or.inl (by lia))]
    rfl

/-!
## Encoding
-/

/-- A gap as deltas: `1` for each 254 that is too much for one byte, and the rest. -/
def deltaBytes (gap : Nat) : List Byte :=
  List.replicate ((gap - 2) / 254) 1 ++ [BitVec.ofNat 8 (gap - 254 * ((gap - 2) / 254))]

def encodeDeltas : Nat -> List Nat -> List Byte
  | _, [] => [0]
  | pos, o :: os => deltaBytes (o - pos) ++ encodeDeltas o os

def encode : List Nat -> List Byte
  | [] => be32 0
  | o :: os => be32 (BitVec.ofNat 32 o) ++ encodeDeltas o os

theorem deltaTargets_ones (q : Nat) (bs : List Byte) (pos : Nat) :
    deltaTargets (List.replicate q 1 ++ bs) pos = deltaTargets bs (pos + 254 * q) := by
  induction q generalizing pos with
  | zero => rfl
  | succ q ih =>
      rw [List.replicate_succ, List.cons_append, deltaTargets, if_neg (by decide), if_pos rfl, ih]
      congr 1
      lia

theorem deltaTargets_deltaBytes {gap : Nat} (hgap : 2 ≤ gap) (heven : gap % 2 = 0)
    (bs : List Byte) (pos : Nat) :
    deltaTargets (deltaBytes gap ++ bs) pos = (pos + gap) :: deltaTargets bs (pos + gap) := by
  have hrest : gap - 254 * ((gap - 2) / 254) < 256 := by lia
  have hbyte : (BitVec.ofNat 8 (gap - 254 * ((gap - 2) / 254))).toNat =
      gap - 254 * ((gap - 2) / 254) := by
    rw [BitVec.toNat_ofNat, Nat.mod_eq_of_lt hrest]
  have hpos : pos + 254 * ((gap - 2) / 254) + (gap - 254 * ((gap - 2) / 254)) = pos + gap := by
    lia
  unfold deltaBytes
  rw [List.append_assoc, deltaTargets_ones, List.singleton_append, deltaTargets, hbyte, hpos]
  rw [if_neg, if_neg]
  · intro hone
    rw [hone] at hbyte
    have hone' : (1 : Byte).toNat = 1 := rfl
    lia
  · intro hzero
    rw [hzero] at hbyte
    have hzero' : (0 : Byte).toNat = 0 := rfl
    lia

def Separate (offs : List Nat) : Prop :=
  offs.Pairwise (fun a b => a + 4 ≤ b)

theorem deltaTargets_encodeDeltas {pos : Nat} {offs : List Nat}
    (hsep : Separate (pos :: offs)) (heven : forall o, o ∈ pos :: offs -> o % 2 = 0)
    (rest : List Byte) : deltaTargets (encodeDeltas pos offs ++ rest) pos = offs := by
  induction offs generalizing pos with
  | nil =>
      rw [encodeDeltas, List.singleton_append, deltaTargets, if_pos rfl]
  | cons o os ih =>
      rcases List.pairwise_cons.mp hsep with ⟨hfirst, hsep'⟩
      have hgap := hfirst o (by simp)
      have ho := heven o (by simp)
      have hpos := heven pos (by simp)
      rw [encodeDeltas, List.append_assoc, deltaTargets_deltaBytes (by lia) (by lia),
        Nat.add_sub_cancel' (by lia), ih hsep' (fun x hx => heven x (by simp [hx]))]

theorem be32At_be32 (v : BitVec 32) (rest : List Byte) : be32At (be32 v ++ rest) 0 = v :=
  word32_be32 v

variable {offs : List Nat}

theorem targets_encode (hsep : Separate offs)
    (heven : forall o, o ∈ offs -> o % 2 = 0) (hzero : 0 ∉ offs)
    (hbound : forall o, o ∈ offs -> o < 2 ^ 32) (rest : List Byte) :
    targets (encode offs ++ rest) = offs := by
  cases offs with
  | nil =>
      unfold targets encode
      rw [be32At_be32, if_pos (Or.inr rfl)]
  | cons o os =>
      have hpos : o ≠ 0 := by
        rintro rfl
        exact hzero (by simp)
      have ho : (BitVec.ofNat 32 o).toNat = o := by
        rw [BitVec.toNat_ofNat, Nat.mod_eq_of_lt (hbound o (by simp))]
      unfold targets encode
      rw [List.append_assoc, be32At_be32, ho, List.drop_left' (length_be32 _),
        deltaTargets_encodeDeltas hsep heven, if_neg]
      rw [not_or]
      refine ⟨by simp, ?_⟩
      intro hnil
      rw [hnil] at ho
      exact hpos ho.symm

/-!
## The relocated image
-/

theorem getElem?_addLong {im : List Byte} {off j : Nat}
    (h : fits im.length off = true) (hj : j < off ∨ off + 4 ≤ j) :
    (addLong tbase im off)[j]? = im[j]? := by
  simp only [fits, Bool.and_eq_true, decide_eq_true_eq] at h
  have hlen : (im.take off).length = off := by
    rw [List.length_take]
    lia
  unfold addLong
  rcases hj with hj | hj
  · rw [List.append_assoc, List.getElem?_append_left (by lia), List.getElem?_take_of_lt hj]
  · rw [List.getElem?_append_right (by rw [List.length_append, hlen, length_be32]; lia),
      List.length_append, hlen, length_be32, List.getElem?_drop]
    congr 1
    lia

theorem be32At_congr {im im' : List Byte} {o : Nat}
    (h : forall i, i < 4 -> im'[o + i]? = im[o + i]?) : be32At im' o = be32At im o := by
  have h0 := h 0 (by decide)
  have h1 := h 1 (by decide)
  have h2 := h 2 (by decide)
  have h3 := h 3 (by decide)
  rw [Nat.add_zero] at h0
  unfold be32At
  simp only [List.getD_eq_getElem?_getD, h0, h1, h2, h3]

theorem be32At_addLong {im : List Byte} {off : Nat} (h : fits im.length off = true) :
    be32At (addLong tbase im off) off = be32At im off + tbase := by
  simp only [fits, Bool.and_eq_true, decide_eq_true_eq] at h
  have hlen : (im.take off).length = off := by
    rw [List.length_take]
    lia
  have hdrop : (addLong tbase im off).drop off =
      be32 (be32At im off + tbase) ++ im.drop (off + 4) := by
    unfold addLong
    rw [List.append_assoc, List.drop_left' hlen]
  have hfirst : be32At ((addLong tbase im off).drop off) 0 = be32At (addLong tbase im off) off :=
    be32At_drop _ off 0
  rw [← hfirst, hdrop, be32At_be32]

theorem getElem?_foldl_addLong {im : List Byte} {j : Nat}
    (hfits : forall o, o ∈ offs -> fits im.length o = true)
    (hj : forall o, o ∈ offs -> j < o ∨ o + 4 ≤ j) :
    (offs.foldl (addLong tbase) im)[j]? = im[j]? := by
  induction offs generalizing im with
  | nil => rfl
  | cons o os ih =>
      have ho := hfits o (by simp)
      rw [List.foldl_cons, ih, getElem?_addLong ho (hj o (by simp))]
      · intro x hx
        rw [length_addLong ho]
        exact hfits x (by simp [hx])
      · exact fun x hx => hj x (by simp [hx])

theorem be32At_foldl_addLong {im : List Byte} {o : Nat}
    (hsep : Separate offs) (hfits : forall x, x ∈ offs -> fits im.length x = true)
    (ho : o ∈ offs) : be32At (offs.foldl (addLong tbase) im) o = be32At im o + tbase := by
  induction offs generalizing im with
  | nil => cases ho
  | cons x xs ih =>
      rcases List.pairwise_cons.mp hsep with ⟨hfirst, hsep'⟩
      have hx := hfits x (by simp)
      have hfits' : forall y, y ∈ xs -> fits (addLong tbase im x).length y = true := by
        intro y hy
        rw [length_addLong hx]
        exact hfits y (by simp [hy])
      rw [List.foldl_cons]
      rcases List.mem_cons.mp ho with rfl | ho
      · rw [← be32At_addLong hx]
        apply be32At_congr
        intro i hi
        apply getElem?_foldl_addLong hfits'
        intro y hy
        have hle := hfirst y hy
        lia
      · have hle := hfirst o ho
        have hsame : be32At (addLong tbase im x) o = be32At im o := by
          apply be32At_congr
          intro i _
          exact getElem?_addLong hx (Or.inr (by lia))
        rw [ih hsep' hfits' ho, hsame]

/-!
## What is loaded
-/

def fillBasepage (m : Mem) (bp : Addr) (tbase tlen dbase dlen bbase blen : BitVec 32) : Mem :=
  wr32 (wr32 (wr32 (wr32 (wr32 (wr32 m (bp + 8) tbase) (bp + 12) tlen) (bp + 16) dbase)
    (bp + 20) dlen) (bp + 24) bbase) (bp + 28) blen

def programFile (env : Env) (dos : Dos) : Option (List Byte) :=
  match dos.fs.stat dos.pend.path, env.refuse .open 0 with
  | some st, none => some ((fileBytes dos.fs st).take (2 * MAX_PRG_BYTES + chunkSize))
  | _, _ => none

def imageLen (p : Pend) : Nat :=
  p.tlen.toNat + p.dlen.toNat

def programImage (p : Pend) (file : List Byte) : List Byte :=
  (file.drop 28).take (imageLen p)

def programStream (p : Pend) (file : List Byte) : List Byte :=
  file.drop (28 + imageLen p + p.slen.toNat)

def programTargets (p : Pend) (file : List Byte) : List Nat :=
  if p.absflag = 0 then targets (programStream p file) else []

/-- How much is cleared behind the data: the BSS, and the heap without `fastload`. -/
def clearLen (p : Pend) (bbase hitpa : BitVec 32) : BitVec 32 :=
  if p.flags &&& 1 ≠ 0 then p.blen else hitpa - bbase

/-- The memory with the relocated image at `tbase` and zeros behind it. -/
def segments (p : Pend) (file : List Byte) (m : Mem) (tbase hitpa : BitVec 32) : Mem :=
  let bbase := tbase + BitVec.ofNat 32 (imageLen p)
  writeMem
    (writeMem m tbase ((programTargets p file).foldl (addLong tbase) (programImage p file)))
    bbase (List.replicate (clearLen p bbase hitpa).toNat 0)

def loadedMem (p : Pend) (file : List Byte) (m : Mem) (bp : Addr) : Mem :=
  let tbase := rd32 m bp + 0x100
  fillBasepage (segments p file m tbase (rd32 m (bp + 4))) bp tbase p.tlen (tbase + p.tlen)
    p.dlen (tbase + BitVec.ofNat 32 (imageLen p)) p.blen

/-- The program fits into the TPA, its file is long enough and its relocations are
inside it. -/
structure Loadable (p : Pend) (file : List Byte) (lowtpa hitpa : BitVec 32) : Prop where
  valid : p.valid = true
  size : imageLen p ≤ MAX_PRG_BYTES
  room : lowtpa.toNat + (0x100 + imageLen p + p.blen.toNat) ≤ hitpa.toNat
  whole : 28 + imageLen p ≤ file.length
  inside : (programTargets p file).all (fits (imageLen p)) = true

theorem length_programImage {p : Pend} {file : List Byte} (h : 28 + imageLen p ≤ file.length) :
    (programImage p file).length = imageLen p := by
  unfold programImage
  rw [List.length_take, List.length_drop]
  lia

theorem fixups_programImage {p : Pend} {file : List Byte} (tbase : BitVec 32)
    (h : 28 + imageLen p ≤ file.length) :
    (if p.absflag = 0 then
        fixups tbase file (28 + imageLen p + p.slen.toNat) (programImage p file)
      else some (programImage p file)) =
      if (programTargets p file).all (fits (imageLen p)) = true then
        some ((programTargets p file).foldl (addLong tbase) (programImage p file))
      else none := by
  unfold programTargets programStream
  split
  · rw [fixups_eq, relocated, length_programImage h]
  · rfl

theorem doLoad_cases (env : Env) (dos : Dos) (m : Mem) (bp : Addr) :
    ((doLoad env dos m bp).result < 0 ∧ (doLoad env dos m bp).mem = m ∧
      forall file, programFile env dos = some file ->
        ¬ Loadable dos.pend file (rd32 m bp) (rd32 m (bp + 4))) ∨
    exists file, programFile env dos = some file ∧
      Loadable dos.pend file (rd32 m bp) (rd32 m (bp + 4)) ∧
      (doLoad env dos m bp).result = 0 ∧
      (doLoad env dos m bp).mem = loadedMem dos.pend file m bp := by
  unfold doLoad
  dsimp only
  split
  · rename_i hvalid
    refine Or.inl ⟨show EPLFMT < 0 by decide, rfl, ?_⟩
    intro file _ h
    rw [h.valid] at hvalid
    cases hvalid
  · rename_i hvalid
    split
    · rename_i hbounds
      refine Or.inl ⟨show ENSMEM < 0 by decide, rfl, ?_⟩
      intro file _ h
      have hsize := h.size
      have hroom := h.room
      unfold imageLen at hsize hroom
      lia
    · rename_i hbounds
      rw [not_or, Nat.not_lt, Nat.not_lt] at hbounds
      split
      · rename_i hstat
        refine Or.inl ⟨show EFILNF < 0 by decide, rfl, ?_⟩
        intro file hfile
        rw [programFile, hstat] at hfile
        cases hfile
      · rename_i hstat hopen
        refine Or.inl ⟨show EFILNF < 0 by decide, rfl, ?_⟩
        intro file hfile
        rw [programFile, hstat, hopen] at hfile
        cases hfile
      · rename_i st hstat hopen
        have hread : programFile env dos =
            some ((fileBytes dos.fs st).take (2 * MAX_PRG_BYTES + chunkSize)) := by
          rw [programFile, hstat, hopen]
        split
        · rename_i hshort
          refine Or.inl ⟨show EPLFMT < 0 by decide, rfl, ?_⟩
          intro file hfile h
          rw [hread] at hfile
          injection hfile with hfile
          have hwhole := h.whole
          rw [← hfile] at hwhole
          exact absurd hshort (Nat.not_lt.mpr hwhole)
        · rename_i hlong
          have hlong : 28 + imageLen dos.pend ≤ _ := Nat.not_lt.mp hlong
          have himage := fixups_programImage (rd32 m bp + 0x100) hlong
          unfold programImage imageLen at himage
          split
          · rename_i hnone
            rw [himage] at hnone
            refine Or.inl ⟨show EPLFMT < 0 by decide, rfl, ?_⟩
            intro file hfile h
            rw [hread] at hfile
            injection hfile with hfile
            subst hfile
            have hinside := h.inside
            unfold imageLen at hinside
            rw [if_pos hinside] at hnone
            cases hnone
          · rename_i im hsome
            rw [himage] at hsome
            split at hsome
            · rename_i hinside
              injection hsome with hsome
              refine Or.inr ⟨_, hread, ⟨by simpa using hvalid, hbounds.1, hbounds.2, hlong,
                hinside⟩, rfl, ?_⟩
              rw [← hsome]
              rfl
            · cases hsome

/-!
## What can be read back
-/

theorem fillBasepage_outside (m : Mem) {bp x : Addr} (tbase tlen dbase dlen bbase blen : BitVec 32)
    (h : ¬ (8 ≤ (x - bp).toNat ∧ (x - bp).toNat < 32)) :
    fillBasepage m bp tbase tlen dbase dlen bbase blen x = m x := by
  unfold fillBasepage
  rw [wr32_outside _ _ (by bv_omega), wr32_outside _ _ (by bv_omega),
    wr32_outside _ _ (by bv_omega), wr32_outside _ _ (by bv_omega),
    wr32_outside _ _ (by bv_omega), wr32_outside _ _ (by bv_omega)]

structure Basepage (m : Mem) (bp : Addr) (tbase tlen dbase dlen bbase blen : BitVec 32) :
    Prop where
  tbase : rd32 m (bp + 8) = tbase
  tlen : rd32 m (bp + 12) = tlen
  dbase : rd32 m (bp + 16) = dbase
  dlen : rd32 m (bp + 20) = dlen
  bbase : rd32 m (bp + 24) = bbase
  blen : rd32 m (bp + 28) = blen

theorem basepage_fillBasepage (m : Mem) (bp : Addr)
    (tbase tlen dbase dlen bbase blen : BitVec 32) :
    Basepage (fillBasepage m bp tbase tlen dbase dlen bbase blen) bp tbase tlen dbase dlen bbase
      blen := by
  unfold fillBasepage
  constructor
  · rw [rd32_wr32_apart _ _ (by bv_omega) (by bv_omega),
      rd32_wr32_apart _ _ (by bv_omega) (by bv_omega),
      rd32_wr32_apart _ _ (by bv_omega) (by bv_omega),
      rd32_wr32_apart _ _ (by bv_omega) (by bv_omega),
      rd32_wr32_apart _ _ (by bv_omega) (by bv_omega), rd32_wr32]
  · rw [rd32_wr32_apart _ _ (by bv_omega) (by bv_omega),
      rd32_wr32_apart _ _ (by bv_omega) (by bv_omega),
      rd32_wr32_apart _ _ (by bv_omega) (by bv_omega),
      rd32_wr32_apart _ _ (by bv_omega) (by bv_omega), rd32_wr32]
  · rw [rd32_wr32_apart _ _ (by bv_omega) (by bv_omega),
      rd32_wr32_apart _ _ (by bv_omega) (by bv_omega),
      rd32_wr32_apart _ _ (by bv_omega) (by bv_omega), rd32_wr32]
  · rw [rd32_wr32_apart _ _ (by bv_omega) (by bv_omega),
      rd32_wr32_apart _ _ (by bv_omega) (by bv_omega), rd32_wr32]
  · rw [rd32_wr32_apart _ _ (by bv_omega) (by bv_omega), rd32_wr32]
  · rw [rd32_wr32]

structure Layout (p : Pend) (lowtpa hitpa : BitVec 32) : Prop where
  tbase : (lowtpa + 0x100).toNat = lowtpa.toNat + 0x100
  bbase : (lowtpa + 0x100 + BitVec.ofNat 32 (imageLen p)).toNat =
    lowtpa.toNat + 0x100 + imageLen p
  clear : (clearLen p (lowtpa + 0x100 + BitVec.ofNat 32 (imageLen p)) hitpa).toNat =
    if p.flags &&& 1 ≠ 0 then p.blen.toNat
    else hitpa.toNat - (lowtpa.toNat + 0x100 + imageLen p)
  room : lowtpa.toNat + 0x100 + imageLen p +
    (clearLen p (lowtpa + 0x100 + BitVec.ofNat 32 (imageLen p)) hitpa).toNat ≤ hitpa.toNat

theorem Loadable.layout {p : Pend} {file : List Byte} {lowtpa hitpa : BitVec 32}
    (h : Loadable p file lowtpa hitpa) : Layout p lowtpa hitpa := by
  have hroom := h.room
  have hhi := hitpa.isLt
  have htbase : (lowtpa + 0x100).toNat = lowtpa.toNat + 0x100 := by
    rw [BitVec.toNat_add]
    exact Nat.mod_eq_of_lt (by show _ + 256 < _; lia)
  have hbbase : (lowtpa + 0x100 + BitVec.ofNat 32 (imageLen p)).toNat =
      lowtpa.toNat + 0x100 + imageLen p := by
    rw [BitVec.toNat_add, htbase, BitVec.toNat_ofNat]
    lia
  have hclear : (clearLen p (lowtpa + 0x100 + BitVec.ofNat 32 (imageLen p)) hitpa).toNat =
      if p.flags &&& 1 ≠ 0 then p.blen.toNat
      else hitpa.toNat - (lowtpa.toNat + 0x100 + imageLen p) := by
    unfold clearLen
    split
    · rfl
    · rw [toNat_sub_of_le (by lia), hbbase]
  refine ⟨htbase, hbbase, hclear, ?_⟩
  rw [hclear]
  split <;> lia

/-- The segment longs of the basepage are outside the TPA behind the basepage. -/
def BasepageApart (bp : Addr) (lowtpa hitpa : BitVec 32) : Prop :=
  forall x : Addr, 8 ≤ (x - bp).toNat -> (x - bp).toNat < 32 ->
    ¬ (lowtpa.toNat + 0x100 ≤ x.toNat ∧ x.toNat < hitpa.toNat)

/-- A program that was loaded from `file`: what was written, the image with `tbase`
added once for each relocation, what was cleared, and the basepage. -/
structure Loaded (p : Pend) (file : List Byte) (m m' : Mem) (bp : Addr)
    (lowtpa hitpa : BitVec 32) : Prop where
  frame : forall x : Addr, ¬ (8 ≤ (x - bp).toNat ∧ (x - bp).toNat < 32) ->
    ¬ (lowtpa.toNat + 0x100 ≤ x.toNat ∧ x.toNat < hitpa.toNat) -> m' x = m x
  image : BasepageApart bp lowtpa hitpa -> readMem m' (lowtpa + 0x100) (imageLen p) =
    (programTargets p file).foldl (addLong (lowtpa + 0x100)) (programImage p file)
  inside : forall o, o ∈ programTargets p file -> o + 4 ≤ imageLen p ∧ o % 2 = 0
  cleared : BasepageApart bp lowtpa hitpa -> forall x : Addr,
    lowtpa.toNat + 0x100 + imageLen p ≤ x.toNat ->
    x.toNat < (if p.flags &&& 1 ≠ 0 then lowtpa.toNat + 0x100 + imageLen p + p.blen.toNat
      else hitpa.toNat) -> m' x = 0
  basepage : Basepage m' bp (lowtpa + 0x100) p.tlen (lowtpa + 0x100 + p.tlen) p.dlen
    (lowtpa + 0x100 + p.tlen + p.dlen) p.blen

theorem length_foldl_addLong {im : List Byte}
    (hfits : forall o, o ∈ offs -> fits im.length o = true) :
    (offs.foldl (addLong tbase) im).length = im.length := by
  induction offs generalizing im with
  | nil => rfl
  | cons o os ih =>
      have ho := hfits o (by simp)
      rw [List.foldl_cons, ih, length_addLong ho]
      intro x hx
      rw [length_addLong ho]
      exact hfits x (by simp [hx])

theorem Loadable.fits_targets {p : Pend} {file : List Byte} {lowtpa hitpa : BitVec 32}
    (h : Loadable p file lowtpa hitpa) :
    forall o, o ∈ programTargets p file -> fits (programImage p file).length o = true := by
  rw [length_programImage h.whole]
  exact List.all_eq_true.mp h.inside

theorem Loadable.length_image {p : Pend} {file : List Byte} {lowtpa hitpa : BitVec 32}
    (h : Loadable p file lowtpa hitpa) (tbase : BitVec 32) :
    ((programTargets p file).foldl (addLong tbase) (programImage p file)).length =
      imageLen p := by
  rw [length_foldl_addLong h.fits_targets, length_programImage h.whole]

section Segments

variable {p : Pend} {file : List Byte} {lowtpa hitpa : BitVec 32}

theorem Loadable.segments_outside (h : Loadable p file lowtpa hitpa) (m : Mem) {x : Addr}
    (hx : ¬ (lowtpa.toNat + 0x100 ≤ x.toNat ∧ x.toNat < hitpa.toNat)) :
    segments p file m (lowtpa + 0x100) hitpa x = m x := by
  have hlen := h.length_image (lowtpa + 0x100)
  have htbase := h.layout.tbase
  have hbbase := h.layout.bbase
  have hroom := h.layout.room
  have hhi := hitpa.isLt
  unfold segments
  rw [writeMem_block_outside, writeMem_block_outside]
  · rw [hlen]
    lia
  · rw [hlen]
    lia
  · rw [List.length_replicate]
    lia
  · rw [List.length_replicate]
    lia

theorem Loadable.segments_image (h : Loadable p file lowtpa hitpa) (m : Mem) {i : Nat}
    (hi : i < ((programTargets p file).foldl (addLong (lowtpa + 0x100))
      (programImage p file)).length) :
    (lowtpa + 0x100 + BitVec.ofNat 32 i).toNat = lowtpa.toNat + 0x100 + i ∧
      segments p file m (lowtpa + 0x100) hitpa (lowtpa + 0x100 + BitVec.ofNat 32 i) =
        ((programTargets p file).foldl (addLong (lowtpa + 0x100)) (programImage p file))[i] := by
  have hlen := h.length_image (lowtpa + 0x100)
  have htbase := h.layout.tbase
  have hbbase := h.layout.bbase
  have hroom := h.layout.room
  have hhi := hitpa.isLt
  have hx : (lowtpa + 0x100 + BitVec.ofNat 32 i).toNat = lowtpa.toNat + 0x100 + i := by
    rw [BitVec.toNat_add, htbase, BitVec.toNat_ofNat]
    lia
  refine ⟨hx, ?_⟩
  unfold segments
  rw [writeMem_block_outside, writeMem_inside _ _ hi (by lia)]
  · rw [List.length_replicate]
    lia
  · rw [hx]
    lia

theorem Loadable.segments_cleared (h : Loadable p file lowtpa hitpa) (m : Mem) {x : Addr}
    (hlo : lowtpa.toNat + 0x100 + imageLen p ≤ x.toNat)
    (hlt : x.toNat < (if p.flags &&& 1 ≠ 0 then
      lowtpa.toNat + 0x100 + imageLen p + p.blen.toNat else hitpa.toNat)) :
    segments p file m (lowtpa + 0x100) hitpa x = 0 := by
  have hbbase := h.layout.bbase
  have hclear : x.toNat < lowtpa.toNat + 0x100 + imageLen p +
      (clearLen p (lowtpa + 0x100 + BitVec.ofNat 32 (imageLen p)) hitpa).toNat := by
    rw [h.layout.clear]
    split at hlt
    · rename_i hfast
      rw [if_pos hfast]
      exact hlt
    · rename_i hslow
      rw [if_neg hslow]
      lia
  unfold segments
  rw [writeMem_block_inside _ (by lia) (by rw [List.length_replicate]; lia),
    List.getElem_replicate]

end Segments

theorem Loadable.loaded {p : Pend} {file : List Byte} {m : Mem} {bp : Addr}
    (h : Loadable p file (rd32 m bp) (rd32 m (bp + 4))) :
    Loaded p file m (loadedMem p file m bp) bp (rd32 m bp) (rd32 m (bp + 4)) := by
  have hroom := h.room
  have hhi := (rd32 m (bp + 4)).isLt
  have hbase : rd32 m bp + 0x100 + BitVec.ofNat 32 (imageLen p) =
      rd32 m bp + 0x100 + p.tlen + p.dlen := by
    unfold imageLen
    rw [BitVec.ofNat_add, BitVec.ofNat_toNat, BitVec.ofNat_toNat, BitVec.setWidth_eq,
      BitVec.setWidth_eq, BitVec.add_assoc _ p.tlen]
  have hout : forall x : Addr, ¬ (8 ≤ (x - bp).toNat ∧ (x - bp).toNat < 32) ->
      loadedMem p file m bp x = segments p file m (rd32 m bp + 0x100) (rd32 m (bp + 4)) x :=
    fun x hx => fillBasepage_outside _ _ _ _ _ _ _ hx
  refine ⟨?_, ?_, ?_, ?_, ?_⟩
  · intro x hbp htpa
    rw [hout x hbp, h.segments_outside m htpa]
  · intro hapart
    have hlen := h.length_image (rd32 m bp + 0x100)
    apply List.ext_getElem
    · rw [hlen]
      simp [readMem]
    · intro i hi hi'
      rcases h.segments_image m hi' with ⟨hx, hbyte⟩
      have hbp : ¬ (8 ≤ (rd32 m bp + 0x100 + BitVec.ofNat 32 i - bp).toNat ∧
          (rd32 m bp + 0x100 + BitVec.ofNat 32 i - bp).toNat < 32) := by
        rintro ⟨hlo, hlt⟩
        exact hapart _ hlo hlt ⟨by lia, by lia⟩
      rw [← hbyte, ← hout _ hbp]
      simp [readMem]
  · intro o ho
    have hfit := h.fits_targets o ho
    rw [length_programImage h.whole] at hfit
    simpa [fits] using hfit
  · intro hapart x hlo hlt
    have hbp : ¬ (8 ≤ (x - bp).toNat ∧ (x - bp).toNat < 32) := by
      rintro ⟨hb, hb'⟩
      refine hapart x hb hb' ⟨by lia, ?_⟩
      split at hlt <;> lia
    rw [hout x hbp, h.segments_cleared m hlo hlt]
  · rw [← hbase]
    exact basepage_fillBasepage _ bp _ _ _ _ _ _

/-- A file whose relocation stream is the encoding of a list of offsets. -/
structure Encodes (p : Pend) (file : List Byte) (offs : List Nat) : Prop where
  relocatable : p.absflag = 0
  stream : exists rest, programStream p file = encode offs ++ rest
  separate : Separate offs
  even : forall o, o ∈ offs -> o % 2 = 0
  inside : forall o, o ∈ offs -> o + 4 ≤ imageLen p
  nonzero : 0 ∉ offs

theorem Encodes.targets_eq {p : Pend} {file : List Byte} {offs : List Nat}
    (h : Encodes p file offs) (hsize : imageLen p ≤ MAX_PRG_BYTES) :
    programTargets p file = offs := by
  rcases h.stream with ⟨rest, hstream⟩
  unfold programTargets
  rw [if_pos h.relocatable, hstream]
  apply targets_encode h.separate h.even h.nonzero
  intro o ho
  have hle := h.inside o ho
  unfold MAX_PRG_BYTES at hsize
  lia

/-- Loading fails and leaves the memory, or it writes nothing but the segment longs of
the basepage and the TPA, and leaves the program there.  A program whose stream
encodes a list of offsets, and for which there is room, is loaded with exactly these
longs relocated. -/
theorem program_loaded (env : Env) (dos : Dos) (m : Mem) (bp : Addr) :
    (((doLoad env dos m bp).result < 0 ∧ (doLoad env dos m bp).mem = m) ∨
      exists file, programFile env dos = some file ∧ (doLoad env dos m bp).result = 0 ∧
        Loaded dos.pend file m (doLoad env dos m bp).mem bp (rd32 m bp) (rd32 m (bp + 4))) ∧
    forall file offs, programFile env dos = some file -> dos.pend.valid = true ->
      imageLen dos.pend ≤ MAX_PRG_BYTES -> 28 + imageLen dos.pend ≤ file.length ->
      (rd32 m bp).toNat + (0x100 + imageLen dos.pend + dos.pend.blen.toNat) ≤
        (rd32 m (bp + 4)).toNat ->
      BasepageApart bp (rd32 m bp) (rd32 m (bp + 4)) -> Encodes dos.pend file offs ->
      (doLoad env dos m bp).result = 0 ∧
      exists im, readMem (doLoad env dos m bp).mem (rd32 m bp + 0x100) (imageLen dos.pend) = im ∧
        (forall o, o ∈ offs ->
          be32At im o = be32At (programImage dos.pend file) o + (rd32 m bp + 0x100)) ∧
        forall j, (forall o, o ∈ offs -> j < o ∨ o + 4 ≤ j) ->
          im[j]? = (programImage dos.pend file)[j]? := by
  constructor
  · rcases doLoad_cases env dos m bp with ⟨hneg, hmem, _⟩ | ⟨file, hfile, hload, hres, hmem⟩
    · exact Or.inl ⟨hneg, hmem⟩
    · refine Or.inr ⟨file, hfile, hres, ?_⟩
      rw [hmem]
      exact hload.loaded
  · intro file offs hfile hvalid hsize hwhole hroom hapart hencodes
    have htargets := hencodes.targets_eq hsize
    have hinside : (programTargets dos.pend file).all (fits (imageLen dos.pend)) = true := by
      rw [htargets, List.all_eq_true]
      intro o ho
      have hin := hencodes.inside o ho
      have heven := hencodes.even o ho
      simp [fits, hin, heven]
    have hloadable : Loadable dos.pend file (rd32 m bp) (rd32 m (bp + 4)) :=
      ⟨hvalid, hsize, hroom, hwhole, hinside⟩
    rcases doLoad_cases env dos m bp with ⟨_, _, hnot⟩ | ⟨file', hfile', hload, hres, hmem⟩
    · exact absurd hloadable (hnot file hfile)
    · rw [hfile] at hfile'
      injection hfile' with hfile'
      subst hfile'
      have himage := hload.loaded.image hapart
      have hfits := hload.fits_targets
      rw [htargets] at himage hfits
      refine ⟨hres, _, rfl, ?_, ?_⟩
      · intro o ho
        rw [hmem, himage]
        exact be32At_foldl_addLong hencodes.separate hfits ho
      · intro j hj
        rw [hmem, himage]
        exact getElem?_foldl_addLong hfits hj

def prgFile (text stream : List Byte) : List Byte :=
  [0x60, 0x1A] ++ be32 (BitVec.ofNat 32 text.length) ++ be32 0 ++ be32 0 ++ be32 0 ++ be32 0 ++
    be32 0 ++ be16 0 ++ text ++ stream

def prgDos (text stream : List Byte) : Dos :=
  let disk := HostFs.blank.addNode [] [ch 'P'] .reg 0o644 0 (by decide)
  { Dos.init wholeDisk
      (disk.modify 1 (fun x => { x with data := prgFile text stream })) with
    pend := ⟨true, [[ch 'P']], BitVec.ofNat 32 text.length, 0, 0, 0, 0, 0⟩ }

def tpaMem (bp : Addr) (lowtpa hitpa : BitVec 32) : Mem :=
  wr32 (wr32 (fun _ => 0) bp lowtpa) (bp + 4) hitpa

/-- The second of two longs is relocated. -/
theorem program_loaded_two_longs :
    exists im, readMem (doLoad willing (prgDos [0, 0, 0, 1, 0, 0, 0, 5] (encode [4]))
        (tpaMem 0 0x1000 0x1108) 0).mem 0x1100 8 = im ∧ be32At im 4 = 0x1105 := by
  have hlow : rd32 (tpaMem 0 0x1000 0x1108) 0 = 0x1000 := by decide +kernel
  have hhigh : rd32 (tpaMem 0 0x1000 0x1108) (0 + 4) = 0x1108 := by decide +kernel
  have h := (program_loaded willing (prgDos [0, 0, 0, 1, 0, 0, 0, 5] (encode [4]))
    (tpaMem 0 0x1000 0x1108) 0).2 (prgFile [0, 0, 0, 1, 0, 0, 0, 5] (encode [4])) [4]
    (by decide +kernel) (by decide +kernel) (by decide +kernel) (by decide +kernel)
    (by decide +kernel)
  rw [hlow, hhigh] at h
  have happly := h ?_ ?_
  · rcases happly.2 with ⟨im, him, hrel, _⟩
    refine ⟨im, him, ?_⟩
    rw [hrel 4 (by decide)]
    decide +kernel
  · intro x _ hlt
    rw [sub_zero] at hlt
    rintro ⟨hlo, _⟩
    have hlo : 0x1100 ≤ x.toNat := hlo
    lia
  · exact ⟨rfl, ⟨[], by decide +kernel⟩, List.pairwise_singleton _ _, by decide, by decide,
      by decide⟩

/-- A relocation at offset zero cannot be encoded: it reads as none.  And a basepage
inside the TPA is written over the image. -/
theorem offset_zero_not_relocated :
    ((doLoad willing (prgDos [0, 0, 0, 5] (encode [0])) (tpaMem 0 0x1000 0x1104) 0).result = 0 ∧
      be32At (readMem (doLoad willing (prgDos [0, 0, 0, 5] (encode [0]))
        (tpaMem 0 0x1000 0x1104) 0).mem 0x1100 4) 0 = 5) ∧
    ((doLoad willing (prgDos (List.replicate 32 0) (encode [])) (tpaMem 0x1100 0x1000 0x1120)
        0x1100).result = 0 ∧
      be32At (readMem (doLoad willing (prgDos (List.replicate 32 0) (encode []))
        (tpaMem 0x1100 0x1000 0x1120) 0x1100).mem 0x1100 32) 8 = 0x1100) := by
  refine ⟨⟨by decide +kernel, by decide +kernel⟩, by decide +kernel, by decide +kernel⟩

end Hostdos
end PistormAtari
