import PistormAtari.Acsi.Command

/-!
# The disk a guest sees

Behind every layout stands the same abstract disk: a sector of 512 bytes for
each LBA.  `read_lba` looks a sector up, `write_lba` replaces one, and the
loops of `exec_read` and `exec_write` do so for a range of LBAs.
-/

namespace PistormAtari
namespace Acsi

open Foundation

variable {φ : Type _}

/-!
## Host files
-/

structure FileView (φ : Type _) where
  size : φ -> Nat
  bytes : φ -> Nat -> Byte

/-- Inside the file `pread` and `pwrite` move all 512 bytes they are asked to
move, and nothing else. -/
structure HostFile.Lawful (io : HostFile φ) (view : FileView φ) : Prop where
  pread_size : forall f off, view.size (io.pread f off).1 = view.size f
  pread_bytes : forall f off, view.bytes (io.pread f off).1 = view.bytes f
  pread_data : forall f off, off + 512 ≤ view.size f ->
    (io.pread f off).2 = some (readBlock (view.bytes f) off 512)
  pwrite_size : forall f off buf, buf.length = 512 -> off + 512 ≤ view.size f ->
    view.size (io.pwrite f off buf).1 = view.size f
  pwrite_bytes : forall f off buf, buf.length = 512 -> off + 512 ≤ view.size f ->
    view.bytes (io.pwrite f off buf).1 = writeBlock (view.bytes f) off buf
  pwrite_ok : forall f off buf, buf.length = 512 -> off + 512 ≤ view.size f ->
    (io.pwrite f off buf).2 = true

/-- The LBAs a target serves are backed by its file, the root sector apart. -/
structure Mounted (view : FileView φ) (t : Target φ) : Prop where
  root : t.root.length = 512
  backed : t.totalLba.toNat ≤ view.size t.file / 512 + (if t.hfs then 1 else 0)

theorem mounted_openTarget (view : FileView φ) (path : List Char) {img : OpenedImage φ}
    (hsize : view.size img.file = img.size) : Mounted view (openTarget path img) := by
  have hle : (BitVec.ofNat 32 (img.size / 512)).toNat ≤ img.size / 512 := by
    rw [BitVec.toNat_ofNat]
    exact Nat.mod_le _ _
  have hsucc : (BitVec.ofNat 32 (img.size / 512) + 1).toNat ≤ img.size / 512 + 1 := by
    rw [BitVec.toNat_add]
    exact Nat.le_trans (Nat.mod_le _ _) (Nat.add_le_add_right hle 1)
  unfold openTarget
  dsimp only
  split
  · constructor
    · dsimp only
      rw [length_synthRoot]
    · simpa [hsize] using hsucc
  · constructor
    · exact List.length_replicate
    · simpa [hsize] using hle

/-!
## The sector view
-/

def filePos (t : Target φ) (lba : Nat) : Nat :=
  (if t.hfs then lba - 1 else lba) * 512

def IsRoot (t : Target φ) (lba : Nat) : Prop :=
  t.hfs = true ∧ lba = 0

instance (t : Target φ) (lba : Nat) : Decidable (IsRoot t lba) :=
  inferInstanceAs (Decidable (_ ∧ _))

def inFileOrder (t : Target φ) (buf : List Byte) : List Byte :=
  if t.hfs = false ∧ t.swapped = true then diskSwap512 buf else buf

def sector (view : FileView φ) (t : Target φ) (lba : Nat) : List Byte :=
  if IsRoot t lba then t.root
  else inFileOrder t (readBlock (view.bytes t.file) (filePos t lba) 512)

@[simp] theorem length_inFileOrder (t : Target φ) (buf : List Byte) :
    (inFileOrder t buf).length = buf.length := by
  unfold inFileOrder
  split
  · exact length_diskSwap512 buf
  · rfl

@[simp] theorem inFileOrder_inFileOrder (t : Target φ) (buf : List Byte) :
    inFileOrder t (inFileOrder t buf) = buf := by
  unfold inFileOrder
  split
  · exact diskSwap512_diskSwap512 buf
  · rfl

theorem length_sector {view : FileView φ} {t : Target φ} (h : Mounted view t) (lba : Nat) :
    (sector view t lba).length = 512 := by
  unfold sector
  split
  · exact h.root
  · simp

/-- `t'` is `t` with its file in another state of the same size. -/
structure SameImage (view : FileView φ) (t t' : Target φ) : Prop where
  rest : t' = { t with file := t'.file }
  size : view.size t'.file = view.size t.file

theorem SameImage.refl (view : FileView φ) (t : Target φ) : SameImage view t t :=
  ⟨rfl, rfl⟩

theorem SameImage.trans {view : FileView φ} {t t' t'' : Target φ}
    (h : SameImage view t t') (h' : SameImage view t' t'') : SameImage view t t'' := by
  constructor
  · have h1 := h'.rest
    rw [h.rest] at h1
    exact h1
  · rw [h'.size, h.size]

theorem SameImage.mounted {view : FileView φ} {t t' : Target φ} (h : SameImage view t t')
    (hm : Mounted view t) : Mounted view t' := by
  have hroot := hm.root
  have hbacked := hm.backed
  rw [← h.size] at hbacked
  rw [h.rest]
  exact ⟨hroot, hbacked⟩

theorem SameImage.isRoot {view : FileView φ} {t t' : Target φ} (h : SameImage view t t')
    (lba : Nat) : IsRoot t' lba <-> IsRoot t lba := by
  rw [h.rest]
  exact Iff.rfl

theorem SameImage.sector_root {view : FileView φ} {t t' : Target φ}
    (h : SameImage view t t') {lba : Nat} (hroot : IsRoot t lba) :
    sector view t' lba = sector view t lba := by
  unfold sector
  rw [if_pos hroot, if_pos ((h.isRoot lba).mpr hroot), h.rest]

theorem filePos_in_file {view : FileView φ} {t : Target φ} (h : Mounted view t) {lba : Nat}
    (hlba : lba < t.totalLba.toNat) (hroot : ¬ IsRoot t lba) :
    filePos t lba + 512 ≤ view.size t.file := by
  have hbacked := h.backed
  unfold filePos
  unfold IsRoot at hroot
  cases hhfs : t.hfs with
  | true =>
      simp only [hhfs, if_true] at hbacked hroot ⊢
      have hne : lba ≠ 0 := by simpa using hroot
      lia
  | false =>
      simp only [hhfs] at hbacked ⊢
      simp only [Bool.false_eq_true, if_false] at hbacked ⊢
      lia

theorem filePos_disjoint {t : Target φ} {a b : Nat} (hne : a ≠ b) (ha : ¬ IsRoot t a)
    (hb : ¬ IsRoot t b) :
    filePos t a + 512 ≤ filePos t b ∨ filePos t b + 512 ≤ filePos t a := by
  unfold filePos
  unfold IsRoot at ha hb
  cases hhfs : t.hfs with
  | true =>
      simp only [hhfs, if_true, true_and] at ha hb ⊢
      lia
  | false =>
      simp only [Bool.false_eq_true, if_false]
      lia

/-!
## One sector
-/

theorem readLba_eq (io : HostFile φ) (t : Target φ) (lba : BitVec 32) :
    readLba io t lba =
      if IsRoot t lba.toNat then (t, some t.root)
      else
        let r := io.pread t.file (filePos t lba.toNat)
        ({ t with file := r.1 }, r.2.map (inFileOrder t)) := by
  rcases t with ⟨file, hfs, total, root, sense, senseLba, probed, swapped⟩
  unfold readLba filePos IsRoot inFileOrder
  cases hfs with
  | true =>
      rcases eq_or_ne lba 0 with hz | hz
      · subst hz
        simp
      · have hne : lba.toNat ≠ 0 := by
          intro h0
          exact hz (BitVec.eq_of_toNat_eq h0)
        have hsub : (lba - 1).toNat = lba.toNat - 1 := by bv_omega
        simp only [if_true, if_neg hz, hsub, hne, and_false, if_false]
        simp
  | false =>
      cases swapped with
      | true => simp
      | false => simp

theorem writeLba_eq (io : HostFile φ) (t : Target φ) (lba : BitVec 32) (buf : List Byte) :
    writeLba io t lba buf =
      if IsRoot t lba.toNat then (t, true)
      else
        let r := io.pwrite t.file (filePos t lba.toNat) (inFileOrder t buf)
        ({ t with file := r.1 }, r.2) := by
  rcases t with ⟨file, hfs, total, root, sense, senseLba, probed, swapped⟩
  unfold writeLba filePos IsRoot inFileOrder
  cases hfs with
  | true =>
      rcases eq_or_ne lba 0 with hz | hz
      · subst hz
        simp
      · have hne : lba.toNat ≠ 0 := by
          intro h0
          exact hz (BitVec.eq_of_toNat_eq h0)
        have hsub : (lba - 1).toNat = lba.toNat - 1 := by bv_omega
        simp only [if_true, if_neg hz, hsub, hne, and_false, if_false]
        simp
  | false =>
      cases swapped with
      | true => simp
      | false => simp

section Lawful

variable {view : FileView φ} {io : HostFile φ} (hio : io.Lawful view)

include hio

theorem readLba_spec {t : Target φ} (hm : Mounted view t) {lba : BitVec 32}
    (hlba : lba.toNat < t.totalLba.toNat) :
    (readLba io t lba).2 = some (sector view t lba.toNat) ∧
      SameImage view t (readLba io t lba).1 ∧
      forall k, sector view (readLba io t lba).1 k = sector view t k := by
  rw [readLba_eq]
  split
  · rename_i hroot
    refine ⟨?_, SameImage.refl view t, fun _ => rfl⟩
    simp [sector, hroot]
  · rename_i hroot
    have hin := filePos_in_file hm hlba hroot
    refine ⟨?_, ⟨rfl, hio.pread_size _ _⟩, ?_⟩
    · simp [sector, hroot, hio.pread_data _ _ hin]
    · intro k
      unfold sector
      dsimp only
      rw [hio.pread_bytes]
      rfl

theorem writeLba_spec {t : Target φ} (hm : Mounted view t) {lba : BitVec 32}
    (hlba : lba.toNat < t.totalLba.toNat) {buf : List Byte} (hbuf : buf.length = 512) :
    (writeLba io t lba buf).2 = true ∧ SameImage view t (writeLba io t lba buf).1 ∧
      forall k, sector view (writeLba io t lba buf).1 k =
        if k = lba.toNat ∧ ¬ IsRoot t k then buf else sector view t k := by
  rw [writeLba_eq]
  split
  · rename_i hroot
    refine ⟨rfl, SameImage.refl view t, ?_⟩
    intro k
    rw [if_neg]
    rintro ⟨rfl, hnot⟩
    exact hnot hroot
  · rename_i hroot
    have hin := filePos_in_file hm hlba hroot
    have hlen : (inFileOrder t buf).length = 512 := by
      rw [length_inFileOrder, hbuf]
    have hbytes := hio.pwrite_bytes t.file (filePos t lba.toNat) _ hlen hin
    have himage : SameImage view t
        { t with file := (io.pwrite t.file (filePos t lba.toNat) (inFileOrder t buf)).1 } :=
      ⟨rfl, hio.pwrite_size _ _ _ hlen hin⟩
    refine ⟨hio.pwrite_ok _ _ _ hlen hin, himage, ?_⟩
    intro k
    dsimp only
    rcases Decidable.em (IsRoot t k) with hk | hk
    · rw [if_neg (fun h => h.2 hk)]
      exact himage.sector_root hk
    · have hsector : sector view
          { t with file := (io.pwrite t.file (filePos t lba.toNat) (inFileOrder t buf)).1 } k =
          inFileOrder t (readBlock
            (writeBlock (view.bytes t.file) (filePos t lba.toNat) (inFileOrder t buf))
            (filePos t k) 512) := by
        unfold sector
        rw [if_neg ((himage.isRoot k).not.mpr hk), hbytes]
        rfl
      rw [hsector]
      rcases eq_or_ne k lba.toNat with heq | hne
      · subst heq
        have hread := readBlock_writeBlock_self (view.bytes t.file) (filePos t lba.toNat)
          (inFileOrder t buf)
        rw [hlen] at hread
        rw [if_pos ⟨rfl, hk⟩, hread, inFileOrder_inFileOrder]
      · have hdisj := filePos_disjoint hne hk hroot
        rw [← hlen] at hdisj
        rw [if_neg (fun h => hne h.1), sector, if_neg hk]
        rw [readBlock_writeBlock_of_disjoint]
        rw [hlen] at hdisj ⊢
        exact hdisj

end Lawful

/-!
## Delivery into RAM
-/

/-- Data delivered at the DMA address: to the ST-RAM mirror, to the real bus
below 4 MB, and the address moved past it. -/
def Machine.deliver (m : Machine) (data : List Byte) : Machine :=
  { m with
    ram := writeBlock m.ram m.dmaAddr.toNat data
    bus := fun x => if x < 0x400000 then writeBlock m.bus m.dmaAddr.toNat data x else m.bus x
    dmaAddr := m.dmaAddr + BitVec.ofNat 32 data.length }

def InWindow (env : Host φ) (m : Machine) (len : Nat) : Prop :=
  m.dmaAddr.toNat + len ≤ env.stramTop.toNat

instance (env : Host φ) (m : Machine) (len : Nat) : Decidable (InWindow env m len) :=
  inferInstanceAs (Decidable (_ ≤ _))

theorem toNat_dmaAddr_deliver {env : Host φ} {m : Machine} {data : List Byte}
    (h : InWindow env m data.length) :
    (m.deliver data).dmaAddr.toNat = m.dmaAddr.toNat + data.length := by
  have htop := env.stramTop.isLt
  unfold InWindow at h
  exact toNat_add_ofNat (by lia)

theorem deliver_nil (m : Machine) : m.deliver [] = m := by
  unfold Machine.deliver
  simp

theorem deliver_append {env : Host φ} {m : Machine} {xs : List Byte}
    (h : InWindow env m xs.length) (ys : List Byte) :
    (m.deliver xs).deliver ys = m.deliver (xs ++ ys) := by
  have haddr := toNat_dmaAddr_deliver h
  have hram := writeBlock_writeBlock_append m.ram m.dmaAddr.toNat xs ys
  have hbus := writeBlock_writeBlock_append m.bus m.dmaAddr.toNat xs ys
  have hnext : (m.deliver xs).deliver ys =
      { m with
        ram := writeBlock (m.deliver xs).ram (m.deliver xs).dmaAddr.toNat ys
        bus := fun x => if x < 0x400000 then
          writeBlock (m.deliver xs).bus (m.deliver xs).dmaAddr.toNat ys x
          else (m.deliver xs).bus x
        dmaAddr := (m.deliver xs).dmaAddr + BitVec.ofNat 32 ys.length } := rfl
  rw [hnext, haddr]
  unfold Machine.deliver
  dsimp only
  rw [hram, List.length_append, BitVec.ofNat_add, BitVec.add_assoc]
  congr 1
  funext x
  split
  · rename_i hx
    rw [← hbus]
    unfold writeBlock
    simp [hx]
  · rfl

theorem writeBlock_take {α : Type _} (m : Nat -> α) (a c : Nat) (bs : List α) (x : Nat) :
    writeBlock m a (bs.take (c - a)) x = if x < c then writeBlock m a bs x else m x := by
  unfold writeBlock
  simp only [List.getD_eq_getElem?_getD, List.getElem?_take]
  split <;> split <;> grind

theorem advance_ram (m : Machine) (n : Nat) : (m.advance n).ram = m.ram := rfl

theorem advance_advance (m : Machine) (n k : Nat) :
    (m.advance n).advance k = m.advance (n + k) := by
  unfold Machine.advance
  dsimp only
  rw [BitVec.add_assoc, ← BitVec.ofNat_add]

theorem copyToRam_advance (env : Host φ) {m : Machine} {data : List Byte}
    (hpos : 0 < data.length) (h : InWindow env m data.length) :
    (m.copyToRam env data).advance data.length = m.deliver data := by
  unfold InWindow at h
  have hin : m.dmaAddr.toNat < env.stramTop.toNat ∧
      data.length ≤ env.stramTop.toNat - m.dmaAddr.toNat := by lia
  have hbus : writeBlock m.bus m.dmaAddr.toNat (data.take (0x400000 - m.dmaAddr.toNat)) =
      fun x => if x < 0x400000 then writeBlock m.bus m.dmaAddr.toNat data x else m.bus x := by
    funext x
    exact writeBlock_take _ _ _ _ _
  unfold Machine.copyToRam Machine.advance Machine.deliver
  dsimp only
  rw [if_pos hin, hbus]

theorem dmaOut_sector (env : Host φ) {m : Machine} {buf : List Byte}
    (hbuf : buf.length = 512) (h : InWindow env m 512) :
    dmaOut env buf [] m = { buf := [], fifo := [], machine := m.deliver buf } := by
  have hstep : dmaOutStep env { buf := buf, fifo := [], machine := m } =
      { buf := [], fifo := [], machine := m.deliver buf } := by
    have htake : buf.take 512 = buf := by rw [← hbuf, List.take_length]
    have hdrop : buf.drop 512 = [] := by rw [← hbuf, List.drop_length]
    have hpos : 0 < buf.length := by lia
    rw [← hbuf] at h
    have hcopy := copyToRam_advance env hpos h
    rw [hbuf] at hcopy
    unfold dmaOutStep
    simp only [hbuf]
    simp [htake, hdrop, hcopy]
  have hne : (!buf.isEmpty) = true := by
    cases buf with
    | nil => cases hbuf
    | cons b rest => rfl
  unfold dmaOut
  rw [hbuf, whileFuel, if_pos hne, hstep]
  exact whileFuel_of_not_cond _ rfl

/-!
## A range of sectors
-/

def sectors (view : FileView φ) (t : Target φ) : Nat -> Nat -> List Byte
  | _, 0 => []
  | a, n + 1 => sector view t a ++ sectors view t (a + 1) n

theorem length_sectors {view : FileView φ} {t : Target φ} (h : Mounted view t)
    (a n : Nat) : (sectors view t a n).length = 512 * n := by
  induction n generalizing a with
  | zero => rfl
  | succ n ih =>
      rw [sectors, List.length_append, length_sector h, ih]
      lia

theorem sectors_congr {view : FileView φ} {t t' : Target φ} {a n : Nat}
    (h : forall k, a ≤ k -> k < a + n -> sector view t k = sector view t' k) :
    sectors view t a n = sectors view t' a n := by
  induction n generalizing a with
  | zero => rfl
  | succ n ih =>
      rw [sectors, sectors, h a (by lia) (by lia),
        ih (fun k hlo hhi => h k (by lia) (by lia))]

section Loops

variable {view : FileView φ} {env : Host φ} (hio : env.io.Lawful view)

include hio

theorem readLoop_spec (lba : BitVec 32) (todo i : Nat) (t : Target φ) (m : Machine)
    (hm : Mounted view t) (hdisk : lba.toNat + i + todo ≤ t.totalLba.toNat)
    (hwin : InWindow env m (512 * todo)) :
    exists t', readLoop env lba todo i t [] m =
        ((t', [], m.deliver (sectors view t (lba.toNat + i) todo)), none) ∧
      SameImage view t t' ∧ forall k, sector view t' k = sector view t k := by
  induction todo generalizing i t m with
  | zero =>
      refine ⟨t, ?_, SameImage.refl view t, fun _ => rfl⟩
      rw [sectors, deliver_nil]
      rfl
  | succ todo ih =>
      have htotal := t.totalLba.isLt
      have hlba : (lba + BitVec.ofNat 32 i).toNat = lba.toNat + i :=
        toNat_add_ofNat (by lia)
      have hin : (lba + BitVec.ofNat 32 i).toNat < t.totalLba.toNat := by lia
      rcases readLba_spec hio hm hin with ⟨hdata, himage, hsame⟩
      rw [hlba] at hdata
      have hlen := length_sector hm (lba.toNat + i)
      have hwin1 : InWindow env m 512 := by
        unfold InWindow at hwin ⊢
        lia
      have hout := dmaOut_sector env hlen hwin1
      have hdisk' : lba.toNat + (i + 1) + todo ≤
          (readLba env.io t (lba + BitVec.ofNat 32 i)).1.totalLba.toNat := by
        rw [himage.rest]
        change _ ≤ t.totalLba.toNat
        lia
      have hwinData : InWindow env m (sector view t (lba.toNat + i)).length := by
        rwa [hlen]
      have hwin' : InWindow env (m.deliver (sector view t (lba.toNat + i))) (512 * todo) := by
        have haddr := toNat_dmaAddr_deliver hwinData
        unfold InWindow at hwin ⊢
        rw [haddr, hlen]
        lia
      rcases ih (i + 1) _ _ (himage.mounted hm) hdisk' hwin' with
        ⟨t', hloop, himage', hsame'⟩
      refine ⟨t', ?_, himage.trans himage', ?_⟩
      · rw [readLoop]
        simp only [hdata, hout, hloop]
        rw [sectors, ← deliver_append hwinData, Nat.add_assoc,
          sectors_congr fun k _ _ => hsame k]
      · intro k
        rw [hsame', hsame]

theorem writeLoop_spec (lba : BitVec 32) (todo i : Nat) (buf : List Byte) (t : Target φ)
    (m : Machine) (hbuf : buf.length = 512) (hm : Mounted view t)
    (hdisk : lba.toNat + i + todo ≤ t.totalLba.toNat)
    (hwin : InWindow env m (512 * todo)) :
    exists t', writeLoop env lba todo i buf t m =
        ((t', m.advance (512 * todo)), none) ∧
      SameImage view t t' ∧
      forall k, sector view t' k =
        if lba.toNat + i ≤ k ∧ k < lba.toNat + i + todo ∧ ¬ IsRoot t k then
          readBlock m.ram (m.dmaAddr.toNat + 512 * (k - (lba.toNat + i))) 512
        else sector view t k := by
  induction todo generalizing i buf t m with
  | zero =>
      refine ⟨t, ?_, SameImage.refl view t, ?_⟩
      · simp [writeLoop, Machine.advance]
      · intro k
        rw [if_neg (by lia)]
  | succ todo ih =>
      have htotal := t.totalLba.isLt
      have htop := env.stramTop.isLt
      unfold InWindow at hwin
      have hlba : (lba + BitVec.ofNat 32 i).toNat = lba.toNat + i :=
        toNat_add_ofNat (by lia)
      have hin : (lba + BitVec.ofNat 32 i).toNat < t.totalLba.toNat := by lia
      have haddr : (m.advance 512).dmaAddr.toNat = m.dmaAddr.toNat + 512 :=
        toNat_add_ofNat (by lia)
      have hdma : dmaIn env buf 512 m =
          (readBlock m.ram m.dmaAddr.toNat 512, m.advance 512) := by
        have hdrop : buf.drop 512 = [] := by rw [← hbuf, List.drop_length]
        unfold dmaIn
        rw [if_neg (by decide)]
        dsimp only
        rw [if_pos (by lia), hdrop, List.append_nil]
      rcases writeLba_spec hio hm hin (length_readBlock m.ram m.dmaAddr.toNat 512) with
        ⟨hok, himage, hsector⟩
      rw [hlba] at hsector
      have hdisk' : lba.toNat + (i + 1) + todo ≤
          (writeLba env.io t (lba + BitVec.ofNat 32 i)
            (readBlock m.ram m.dmaAddr.toNat 512)).1.totalLba.toNat := by
        rw [himage.rest]
        change _ ≤ t.totalLba.toNat
        lia
      have hwin' : InWindow env (m.advance 512) (512 * todo) := by
        unfold InWindow
        rw [haddr]
        lia
      rcases ih (i + 1) _ _ _ (length_readBlock m.ram m.dmaAddr.toNat 512)
        (himage.mounted hm) hdisk' hwin' with ⟨t', hloop, himage', hsector'⟩
      have hsum : 512 + 512 * todo = 512 * (todo + 1) := by lia
      refine ⟨t', ?_, himage.trans himage', ?_⟩
      · rw [writeLoop]
        simp only [hdma, hok, if_true, hloop]
        rw [advance_advance, hsum]
      · intro k
        have hram : (m.advance 512).ram = m.ram := advance_ram m 512
        have hroot := himage.isRoot k
        rw [hsector' k, hsector k, haddr, hram]
        rcases Decidable.em (IsRoot t k) with hk | hk
        · rw [if_neg (fun h => h.2.2 (hroot.mpr hk)), if_neg (fun h => h.2 hk),
            if_neg (fun h => h.2.2 hk)]
        · have hk' := hroot.not.mpr hk
          rcases Nat.lt_trichotomy k (lba.toNat + i) with hlt | heq | hgt
          · rw [if_neg (by lia), if_neg (by lia), if_neg (by lia)]
          · rw [if_neg (by lia), if_pos ⟨heq, hk⟩, if_pos ⟨by lia, by lia, hk⟩, heq,
              Nat.sub_self, Nat.mul_zero, Nat.add_zero]
          · have hpos : m.dmaAddr.toNat + 512 + 512 * (k - (lba.toNat + (i + 1))) =
                m.dmaAddr.toNat + 512 * (k - (lba.toNat + i)) := by lia
            rw [if_neg (c := k = lba.toNat + i ∧ ¬ IsRoot t k) (by lia), hpos]
            apply if_congr
            · constructor
              · intro h
                exact ⟨by lia, by lia, hk⟩
              · intro h
                exact ⟨by lia, by lia, hk'⟩
            · rfl
            · rfl

end Loops

end Acsi
end PistormAtari
