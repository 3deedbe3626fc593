import PistormAtari.Acsi.Handshake

/-!
# CDB framing

Seen from outside, a target that is not idle has received some bytes of a CDB,
and those bytes alone say how long the CDB is.  The counters of `acsi.c` are
shown to keep exactly that list, and each call is described by what it does to
it.
-/

namespace PistormAtari
namespace Acsi

open Foundation

variable {φ : Type _}

/-!
## The length of a CDB

A leading `$1F` is the ICD wrapper; its length is provisional until the SCSI
opcode behind it is known.
-/

def frameLength : List Byte -> Nat
  | [] => 6
  | b :: rest =>
      if b = 0x1F#8 then
        match rest with
        | [] => 2
        | op :: _ => icdCdbLen op
      else 6

def Whole (bytes : List Byte) : Prop :=
  bytes.length = frameLength bytes

instance (bytes : List Byte) : Decidable (Whole bytes) :=
  inferInstanceAs (Decidable (_ = _))

theorem frameLength_le (bytes : List Byte) : frameLength bytes ≤ 13 := by
  unfold frameLength
  split
  · decide
  · split
    · split
      · decide
      · exact (icdCdbLen_bounds _).2
    · decide

theorem frameLength_two (b op : Byte) (rest : List Byte) :
    frameLength (b :: op :: rest) = if b = 0x1F#8 then icdCdbLen op else 6 := rfl

theorem frameLength_append (b op : Byte) (rest more : List Byte) :
    frameLength (b :: op :: rest ++ more) = frameLength (b :: op :: rest) := rfl

theorem one_lt_frameLength (b : Byte) : 1 < frameLength [b] := by
  change 1 < if b = 0x1F#8 then 2 else 6
  split <;> decide

theorem short_of_whole_append {bytes more : List Byte} (hpos : bytes ≠ [])
    (hmore : more ≠ []) (h : Whole (bytes ++ more)) :
    bytes.length < frameLength bytes := by
  have hlen : 0 < more.length := List.length_pos_iff.mpr hmore
  cases bytes with
  | nil => exact absurd rfl hpos
  | cons b rest =>
      cases rest with
      | nil => exact one_lt_frameLength b
      | cons op rest =>
          unfold Whole at h
          rw [frameLength_append, List.length_append] at h
          lia

theorem frame_next {bytes : List Byte} (hpos : bytes ≠ [])
    (h : bytes.length < frameLength bytes) (v : Byte) :
    Whole (bytes ++ [v]) ∨ (bytes ++ [v]).length < frameLength (bytes ++ [v]) := by
  unfold Whole
  rw [List.length_append, List.length_singleton]
  cases bytes with
  | nil => exact absurd rfl hpos
  | cons b rest =>
      cases rest with
      | nil =>
          right
          have hicd := (icdCdbLen_bounds v).1
          change 2 < if b = 0x1F#8 then icdCdbLen v else 6
          split
          · lia
          · decide
      | cons op rest =>
          rw [frameLength_append]
          lia

/-!
## A CDB under way
-/

structure Collecting (s : State φ) (id : BitVec 3) (bytes : List Byte) : Prop where
  phase : s.phase = .cdb
  owns : s.owns = true
  curId : s.curId = some id
  attached : s.attached id
  received : s.received = bytes
  started : bytes ≠ []
  icd : s.icd = (bytes.head? == some 0x1F#8)
  cdbLen : s.cdbLen = frameLength bytes
  short : bytes.length < frameLength bytes
  statusValid : s.statusValid = false

variable {s : State φ} {id : BitVec 3}

theorem Collecting.cdbGot {bytes : List Byte}
    (h : Collecting s id bytes) : s.cdbGot = bytes.length := by
  rw [← h.received, State.received, length_readBlock]

theorem received_storeByte (v : Byte) (s : State φ) :
    (storeByte v s).received = s.received ++ [v] := by
  unfold State.received storeByte
  rw [readBlock_append]
  congr 1
  · apply readBlock_congr
    intro x _ hx
    have hne : x ≠ s.cdbGot := by lia
    exact Function.update_of_ne hne _ _
  · simp [readBlock]

theorem cdbLen_storeByte {bytes : List Byte} (h : Collecting s id bytes) (v : Byte) :
    (storeByte v s).cdbLen = frameLength (bytes ++ [v]) := by
  have hgot := h.cdbGot
  have hicd := h.icd
  have hlen := h.cdbLen
  have hstarted := h.started
  unfold storeByte
  cases bytes with
  | nil => exact absurd rfl hstarted
  | cons b rest =>
      cases rest with
      | nil =>
          rcases eq_or_ne b 0x1F#8 with hb | hb
          · subst hb
            simp [hgot, hicd, frameLength]
          · simp [hicd, hb, hlen, frameLength]
      | cons op rest =>
          have hne : s.cdbGot + 1 ≠ 2 := by
            rw [hgot]
            simp
          rw [frameLength_append, ← hlen]
          simp [hne]

theorem collecting_storeByte {bytes : List Byte}
    (h : Collecting s id bytes) (v : Byte) (irq : Bool)
    (hshort : (bytes ++ [v]).length < frameLength (bytes ++ [v])) :
    Collecting { storeByte v s with irq := irq } id (bytes ++ [v]) where
  phase := h.phase
  owns := h.owns
  curId := h.curId
  attached := h.attached
  received := by
    rw [← h.received]
    exact received_storeByte v s
  started := by simp
  icd := by
    have hicd := h.icd
    cases bytes with
    | nil => exact absurd rfl h.started
    | cons b rest => exact hicd
  cdbLen := cdbLen_storeByte h v
  short := hshort
  statusValid := h.statusValid

theorem collecting_acceptFirst {v : Byte} (hid : s.attached (idOf v)) :
    Collecting (acceptFirst (idOf v) v s) (idOf v) [v &&& 0x1F] where
  phase := rfl
  owns := rfl
  curId := rfl
  attached := hid
  received := by
    simp [State.received, acceptFirst, readBlock]
  started := by simp
  icd := rfl
  cdbLen := by
    simp [acceptFirst, frameLength]
  short := one_lt_frameLength _
  statusValid := rfl

/-!
## What a command byte does

While a CDB is under way the byte belongs to it, whatever the A1 flag says.
-/

def complete (v : Byte) (s : State φ) : State φ :=
  { storeByte v s with irq := false }

variable (env : Host φ)

theorem cmdByte_collecting
    {bytes : List Byte} (h : Collecting s id bytes) (v : Byte) (firstByte : Bool) :
    cmdByte env v firstByte s =
      if (bytes ++ [v]).length < frameLength (bytes ++ [v]) then
        (true, { storeByte v s with irq := true })
      else (true, execCommand env (complete v s)) := by
  have htargets : nTargets s.tgt ≠ 0 := Nat.pos_iff_ne_zero.mp (nTargets_pos h.attached)
  have hgot := h.cdbGot
  have hpos : 0 < bytes.length := List.length_pos_iff.mpr h.started
  have hshort : s.cdbGot < s.cdbLen := by
    rw [hgot, h.cdbLen]
    exact h.short
  have hflag : (if firstByte = true ∧ s.owns = true ∧ s.phase = .cdb ∧ 0 < s.cdbGot ∧
      s.cdbGot < s.cdbLen then false else firstByte) = false := by
    cases firstByte with
    | false => simp
    | true =>
        rw [if_pos ⟨rfl, h.owns, h.phase, by lia, hshort⟩]
  have howns : ¬ (s.owns = false ∨ s.phase ≠ .cdb) := by
    simp [h.owns, h.phase]
  have hgot' : (storeByte v s).cdbGot = (bytes ++ [v]).length := by
    simp [storeByte, hgot]
  have hiff : (storeByte v s).cdbGot < (storeByte v s).cdbLen <->
      (bytes ++ [v]).length < frameLength (bytes ++ [v]) := by
    rw [hgot', cdbLen_storeByte h v]
  unfold cmdByte
  rw [if_neg htargets]
  dsimp only
  rw [hflag, if_neg (by decide), if_neg howns]
  exact if_congr hiff rfl rfl

theorem cmdByte_first (hs : s.phase ≠ .cdb) {v : Byte} (hid : s.attached (idOf v)) :
    cmdByte env v true s = (true, acceptFirst (idOf v) v s) := by
  have htargets : nTargets s.tgt ≠ 0 := Nat.pos_iff_ne_zero.mp (nTargets_pos hid)
  unfold cmdByte
  simp [htargets, hs, hid]

theorem cmdByte_other (hs : s.phase ≠ .cdb) {v : Byte} (hid : ¬ s.attached (idOf v)) :
    cmdByte env v true s = (false, s) ∨ cmdByte env v true s = (false, release s) := by
  unfold cmdByte
  simp only [hs, hid]
  split
  · left
    rfl
  · right
    simp

theorem cmdByte_rest (hs : s.phase ≠ .cdb) (v : Byte) :
    cmdByte env v false s = (false, s) := by
  unfold cmdByte
  simp [hs]

theorem cmdByte_cases (s : State φ)
    (hs : s.phase = .cdb -> exists id bytes, Collecting s id bytes)
    (v : Byte) (firstByte : Bool) :
    (s.phase ≠ .cdb ∧ (cmdByte env v firstByte s = (false, s) ∨
      cmdByte env v firstByte s = (false, release s))) ∨
    (s.phase ≠ .cdb ∧ firstByte = true ∧ s.attached (idOf v) ∧
      cmdByte env v firstByte s = (true, acceptFirst (idOf v) v s)) ∨
    (exists id bytes, Collecting s id bytes ∧
      (bytes ++ [v]).length < frameLength (bytes ++ [v]) ∧
      cmdByte env v firstByte s = (true, { storeByte v s with irq := true })) ∨
    (exists id bytes, Collecting s id bytes ∧ Whole (bytes ++ [v]) ∧
      cmdByte env v firstByte s = (true, execCommand env (complete v s))) := by
  rcases eq_or_ne s.phase .cdb with hphase | hphase
  · right
    right
    rcases hs hphase with ⟨id, bytes, h⟩
    have hbyte := cmdByte_collecting env h v firstByte
    rcases frame_next h.started h.short v with hwhole | hshort
    · right
      rw [if_neg (by rw [hwhole]; exact Nat.lt_irrefl _)] at hbyte
      exact ⟨id, bytes, h, hwhole, hbyte⟩
    · left
      rw [if_pos hshort] at hbyte
      exact ⟨id, bytes, h, hshort, hbyte⟩
  · cases firstByte with
    | false => exact Or.inl ⟨hphase, Or.inl (cmdByte_rest env hphase v)⟩
    | true =>
        rcases Decidable.em (s.attached (idOf v)) with hid | hid
        · exact Or.inr (Or.inl ⟨hphase, rfl, hid, cmdByte_first env hphase hid⟩)
        · exact Or.inl ⟨hphase, cmdByte_other env hphase hid⟩

theorem execCommand_complete {bytes : List Byte} (h : Collecting s id bytes) (v : Byte) :
    Completed id { complete v s with trace := .exec (bytes ++ [v]) :: s.trace }
      (execCommand env (complete v s)) := by
  have hreceived : (complete v s).received = bytes ++ [v] := by
    rw [← h.received]
    exact received_storeByte v s
  have hdone := execCommand_completed env (s := complete v s) h.curId h.attached
  rw [hreceived] at hdone
  exact hdone

end Acsi
end PistormAtari
