import PistormAtari.Acsi.StatusHistory

/-!
# Sending a CDB

A driver sends a CDB one byte at a time, each with the A1 level it happens to
have.  Once the first byte is accepted the levels of the others do not matter,
and the target runs the command on the bytes as sent.  The length the target
expects behind the ICD wrapper is compared with the groups of SCSI opcodes.
-/

namespace PistormAtari
namespace Acsi

open Foundation

variable {φ : Type _}

/-- Bytes sent in order, each with its A1 flag: which of them the target took,
and the state afterwards. -/
def sendBytes (env : Host φ) : List (Byte × Bool) -> State φ -> List Bool × State φ
  | [], s => ([], s)
  | (v, firstByte) :: rest, s =>
      let now := cmdByte env v firstByte s
      let later := sendBytes env rest now.2
      (now.1 :: later.1, later.2)

/-- A CDB sent with A1 low on its first byte and any levels on the rest. -/
def sendCdb (env : Host φ) (v : Byte) (rest : List (Byte × Bool)) (s : State φ) :
    List Bool × State φ :=
  sendBytes env ((v, true) :: rest) s

variable (env : Host φ)

theorem sendBytes_cons (p : Byte × Bool) (rest : List (Byte × Bool)) (s : State φ) :
    sendBytes env (p :: rest) s =
      ((cmdByte env p.1 p.2 s).1 :: (sendBytes env rest (cmdByte env p.1 p.2 s).2).1,
        (sendBytes env rest (cmdByte env p.1 p.2 s).2).2) := rfl

theorem sendBytes_append (xs ys : List (Byte × Bool)) (s : State φ) :
    sendBytes env (xs ++ ys) s =
      ((sendBytes env xs s).1 ++ (sendBytes env ys (sendBytes env xs s).2).1,
        (sendBytes env ys (sendBytes env xs s).2).2) := by
  induction xs generalizing s with
  | nil => rfl
  | cons x xs ih =>
      rw [List.cons_append, sendBytes_cons, sendBytes_cons, ih]
      rfl

def highA1 (bytes : List Byte) : List (Byte × Bool) :=
  bytes.map fun b => (b, false)

@[simp] theorem map_fst_highA1 (bytes : List Byte) :
    (highA1 bytes).map Prod.fst = bytes := by
  unfold highA1
  rw [List.map_map]
  exact List.map_id bytes

theorem sendBytes_ignored {s : State φ} (hs : s.phase ≠ .cdb) (bytes : List Byte) :
    sendBytes env (highA1 bytes) s = (List.replicate bytes.length false, s) := by
  induction bytes with
  | nil => rfl
  | cons b rest ih =>
      rw [highA1, List.map_cons, sendBytes_cons, ← highA1, cmdByte_rest env hs, ih]
      rfl

/-!
## The rest of a CDB
-/

/-- `s'` is `s` with the bytes of a CDB collected and the command due. -/
structure Ready (s s' : State φ) (bytes : List Byte) : Prop where
  received : s'.received = bytes
  rest : s' = { s with
    cdb := s'.cdb, cdbGot := s'.cdbGot, cdbLen := s'.cdbLen, irq := false }

theorem ready_complete (v : Byte) (s : State φ) :
    Ready s (complete v s) (s.received ++ [v]) where
  received := received_storeByte v s
  rest := rfl

theorem ready_storeByte {s s' : State φ} {v : Byte} {bytes : List Byte}
    (h : Ready { storeByte v s with irq := true } s' bytes) : Ready s s' bytes where
  received := h.received
  rest := by
    have hrest := h.rest
    rw [hrest]
    rfl

/-- The bytes that complete a CDB are all taken, whatever their A1 flags, and
lead to one and the same command. -/
theorem sendBytes_collecting {id : BitVec 3} {more : List Byte}
    (hmore : more ≠ []) {s : State φ} {bytes : List Byte} (hs : Collecting s id bytes)
    (hwhole : Whole (bytes ++ more)) :
    exists s', Ready s s' (bytes ++ more) ∧
      forall flagged, flagged.map Prod.fst = more ->
        sendBytes env flagged s = (List.replicate more.length true, execCommand env s') := by
  induction more generalizing s bytes with
  | nil => exact absurd rfl hmore
  | cons v more ih =>
      cases more with
      | nil =>
          refine ⟨complete v s, ?_, ?_⟩
          · rw [← hs.received]
            exact ready_complete v s
          · intro flagged hflagged
            rcases List.map_eq_singleton_iff.mp hflagged with ⟨p, rfl, rfl⟩
            rw [sendBytes_cons, cmdByte_lastByte env hs hwhole]
            rfl
      | cons w more =>
          have happend : bytes ++ v :: w :: more = (bytes ++ [v]) ++ w :: more := by simp
          rw [happend] at hwhole ⊢
          have hshort := short_of_whole_append (by simp) (by simp) hwhole
          have hnext := collecting_storeByte hs v true hshort
          rcases ih (by simp) hnext hwhole with ⟨s', hready, hsend⟩
          refine ⟨s', ready_storeByte hready, ?_⟩
          intro flagged hflagged
          rcases List.map_eq_cons_iff.mp hflagged with ⟨p, rest, rfl, rfl, hrest⟩
          rw [sendBytes_cons, cmdByte_collecting env hs, if_pos hshort, hsend rest hrest]
          rfl

theorem sendCdb_whole {s : State φ} (hs : s.phase ≠ .cdb) {v : Byte}
    (hid : s.attached (idOf v)) {rest : List Byte}
    (hwhole : Whole ((v &&& 0x1F) :: rest)) :
    exists s', Ready (acceptFirst (idOf v) v s) s' ((v &&& 0x1F) :: rest) ∧
      forall flagged, flagged.map Prod.fst = rest ->
        sendCdb env v flagged s =
          (List.replicate (rest.length + 1) true, execCommand env s') := by
  have hrest : rest ≠ [] := by
    intro hnil
    subst hnil
    have hlt := one_lt_frameLength (v &&& 0x1F)
    rw [← hwhole] at hlt
    exact absurd hlt (by simp)
  rcases sendBytes_collecting env hrest (collecting_acceptFirst hid) hwhole with
    ⟨s', hready, hsend⟩
  refine ⟨s', hready, ?_⟩
  intro flagged hflagged
  rw [sendCdb, sendBytes_cons, cmdByte_first env hs hid, hsend flagged hflagged]
  rfl

theorem sendCdb_completed {s s' : State φ} {v : Byte} {bytes : List Byte}
    (hid : s.attached (idOf v)) (h : Ready (acceptFirst (idOf v) v s) s' bytes) :
    Completed (idOf v) { s' with trace := .exec bytes :: .accept (idOf v) :: s.trace }
      (execCommand env s') := by
  have hcur : s'.curId = some (idOf v) := by
    rw [h.rest]
    rfl
  have hatt : s'.attached (idOf v) := by
    rw [h.rest]
    exact hid
  have htrace : s'.trace = .accept (idOf v) :: s.trace := by
    rw [h.rest]
    rfl
  have hdone := execCommand_completed env hcur hatt
  rwa [h.received, htrace] at hdone

/-!
## The A1 level of the remaining bytes
-/

def unflagged (flagged : List (Byte × Bool)) : List (Byte × Bool) :=
  highA1 (flagged.map Prod.fst)

/-- A CDB that an attached target frames as sent runs the same whatever A1 does
after its first byte: the whole state agrees, the command runs on exactly these
bytes, and once its status is read a first byte starts a new CDB. -/
theorem sendCdb_ignores_a1 (env : Host φ) {s : State φ}
    (hs : s.phase ≠ .cdb) (v : Byte) (hid : s.attached (idOf v))
    (flagged : List (Byte × Bool))
    (hwhole : Whole ((v &&& 0x1F) :: flagged.map Prod.fst)) :
    sendCdb env v flagged s = sendCdb env v (unflagged flagged) s ∧
      (sendCdb env v flagged s).1 = List.replicate (flagged.length + 1) true ∧
      (let s' := (sendCdb env v flagged s).2
       (exists sense lba, s'.trace = .finish s'.statusByte sense lba ::
          .exec ((v &&& 0x1F) :: flagged.map Prod.fst) :: .accept (idOf v) :: s.trace) ∧
        s'.irq = true ∧
        forall w, s.attached (idOf w) ->
          cmdByte env w true (statusRead s').2 =
            (true, acceptFirst (idOf w) w (statusRead s').2)) := by
  rcases sendCdb_whole env hs hid hwhole with ⟨s1, hready, hsend⟩
  have hflagged := hsend flagged rfl
  have hplain := hsend (unflagged flagged) (map_fst_highA1 _)
  have hdone := sendCdb_completed env hid hready
  rw [hflagged, hplain]
  refine ⟨rfl, ?_, hdone.statusByte_finish, hdone.irq, ?_⟩
  · rw [List.length_map]
  · intro w hw
    have hatt : (execCommand env s1).attached (idOf w) := by
      rw [hdone.attached_iff]
      change s1.attached (idOf w)
      rw [hready.rest]
      exact hw
    rw [statusRead_of_valid hdone.statusValid, hdone.phase]
    exact cmdByte_first env (by simp) hatt

def deadHost : Host Unit where
  io := { pread := fun f _ => (f, none), pwrite := fun f _ _ => (f, false) }
  stramTop := 0x400000
  stack := fun _ => 0

def oneTarget : Targets Unit := fun id =>
  if id = 0 then
    some { file := (), hfs := false, totalLba := 16, root := [], sense := 0,
           senseLba := 0, probed := false, swapped := false }
  else none

def clearMachine : Machine where
  ram := fun _ => 0
  bus := fun _ => 0
  dmaAddr := 0x10000
  dmaStatus := 0

/-- TEST UNIT READY sent with A1 lagging on its second byte. -/
theorem sendCdb_ignores_a1_test_unit_ready :
    sendCdb deadHost 0x00 [(0, true), (0, false), (0, false), (0, false), (0, false)]
        (boot oneTarget clearMachine) =
      sendCdb deadHost 0x00
        (unflagged [(0, true), (0, false), (0, false), (0, false), (0, false)])
        (boot oneTarget clearMachine) :=
  (sendCdb_ignores_a1 deadHost (s := boot oneTarget clearMachine) (by decide) 0x00
    (by decide) [(0, true), (0, false), (0, false), (0, false), (0, false)]
    (by decide)).1

/-- With five bytes of a command under way, the first byte of the next CDB ends
that command, and then the A1 flags of the others decide what is read back. -/
theorem a1_decides_after_swallowed_first_byte :
    ¬ forall (env : Host Unit) (s : State Unit), Reachable env s ->
      forall (v : Byte) (flagged : List (Byte × Bool)), s.attached (idOf v) ->
        Whole ((v &&& 0x1F) :: flagged.map Prod.fst) ->
        (statusRead (sendCdb env v flagged s).2).1 =
          (statusRead (sendCdb env v (unflagged flagged) s).2).1 := by
  intro h
  have hread := h deadHost
    (run (step deadHost) (boot oneTarget clearMachine)
      [.cmdByte 0 true, .cmdByte 0 false, .cmdByte 0 false, .cmdByte 0 false,
        .cmdByte 0 false])
    ⟨oneTarget, clearMachine, _, rfl⟩ 0
    [(0, true), (0, true), (0, true), (0, true), (0, true)] (by decide) (by decide)
  exact absurd hread (by decide)

/-!
## The length behind the ICD wrapper
-/

/-- The CDB length of a SCSI opcode's group; groups 3, 6 and 7 have none. -/
def scsiGroupLen (op : Byte) : Option Nat :=
  match (op >>> 5).toNat with
  | 0 => some 6
  | 1 => some 10
  | 2 => some 10
  | 4 => some 16
  | 5 => some 12
  | _ => none

/-- The CDBs a driver sends: six bytes, or the ICD byte followed by a SCSI CDB
of its group's length. -/
inductive DriverCdb : Byte -> List Byte -> Prop where
  | plain {v : Byte} {rest : List Byte} (hv : v &&& 0x1F ≠ 0x1F#8)
      (hlen : rest.length = 5) : DriverCdb v rest
  | wrapped {v op : Byte} {tail : List Byte} {n : Nat} (hv : v &&& 0x1F = 0x1F#8)
      (hn : scsiGroupLen op = some n) (hlen : tail.length + 1 = n) :
      DriverCdb v (op :: tail)

def GroupFour (v : Byte) (rest : List Byte) : Prop :=
  v &&& 0x1F = 0x1F#8 ∧ exists op tail, rest = op :: tail ∧ op >>> 5 = 4#8

/-- `icd_cdb_len` gives the length of the wrapped opcode's group. -/
def IcdLengthRight (v : Byte) (rest : List Byte) : Prop :=
  v &&& 0x1F = 0x1F#8 -> forall op tail n, rest = op :: tail ->
    scsiGroupLen op = some n -> icdCdbLen op = 1 + n

/-- Every byte of the CDB is taken by the target, whatever the A1 flags. -/
def Consumed (env : Host φ) (s : State φ) (v : Byte) (rest : List Byte) : Prop :=
  forall flagged, flagged.map Prod.fst = rest ->
    (sendCdb env v flagged s).1 = List.replicate (rest.length + 1) true

theorem icdCdbLen_eq_iff {op : Byte} {n : Nat} (hn : scsiGroupLen op = some n) :
    icdCdbLen op = 1 + n <-> op >>> 5 ≠ 4#8 := by
  revert op n
  decide

theorem icdLengthRight_iff {v : Byte} {rest : List Byte} (h : DriverCdb v rest) :
    IcdLengthRight v rest <-> ¬ GroupFour v rest := by
  cases h with
  | plain hv _ =>
      constructor
      · intro _ hfour
        exact hv hfour.1
      · intro _ hicd
        exact absurd hicd hv
  | @wrapped op tail n hv hn _ =>
      constructor
      · intro hright hfour
        rcases hfour.2 with ⟨op', tail', heq, hgroup⟩
        cases heq
        exact (icdCdbLen_eq_iff hn).mp (hright hv op tail n rfl hn) hgroup
      · intro hfour _ op' tail' n' heq hn'
        cases heq
        apply (icdCdbLen_eq_iff hn').mpr
        intro hgroup
        exact hfour ⟨hv, op, tail, rfl, hgroup⟩

theorem frameLength_of_plain {b : Byte} (hb : b ≠ 0x1F#8) (rest : List Byte) :
    frameLength (b :: rest) = 6 := if_neg hb

theorem whole_of_not_groupFour {v : Byte} {rest : List Byte} (h : DriverCdb v rest)
    (hfour : ¬ GroupFour v rest) : Whole ((v &&& 0x1F) :: rest) := by
  have hright := (icdLengthRight_iff h).mpr hfour
  unfold Whole
  cases h with
  | plain hv hlen =>
      rw [frameLength_of_plain hv, List.length_cons, hlen]
  | @wrapped op tail n hv hn hlen =>
      rw [frameLength_two, if_pos hv, hright hv op tail n rfl hn, List.length_cons,
        List.length_cons, hlen, Nat.add_comm]

theorem not_consumed_of_groupFour {s : State φ} (hs : s.phase ≠ .cdb)
    {v : Byte} (hid : s.attached (idOf v)) {rest : List Byte} (h : DriverCdb v rest)
    (hfour : GroupFour v rest) : ¬ Consumed env s v rest := by
  rcases hfour with ⟨hv, op, tail, rfl, hgroup⟩
  have hlen : icdCdbLen op = 7 := by
    unfold icdCdbLen
    rw [hgroup]
    rfl
  have htail : tail.length = 15 := by
    cases h with
    | plain hv' _ => exact absurd hv hv'
    | wrapped _ hn htail =>
        have hsixteen : scsiGroupLen op = some 16 := by
          unfold scsiGroupLen
          rw [hgroup]
          rfl
        rw [hn] at hsixteen
        cases hsixteen
        lia
  have hwhole : Whole ((v &&& 0x1F) :: op :: tail.take 5) := by
    unfold Whole
    rw [frameLength_two, if_pos hv, hlen]
    simp [htail]
  intro hall
  rcases sendCdb_whole env hs hid hwhole with ⟨s1, hready, hsend⟩
  have hdone := sendCdb_completed env hid hready
  have hhead := hsend (highA1 (op :: tail.take 5)) (map_fst_highA1 _)
  have hsplit : highA1 (op :: tail) =
      highA1 (op :: tail.take 5) ++ highA1 (tail.drop 5) := by
    unfold highA1
    rw [← List.map_append, List.cons_append, List.take_append_drop]
  have hphase : (execCommand env s1).phase ≠ .cdb := by
    rw [hdone.phase]
    decide
  have hsent := hall (highA1 (op :: tail)) (map_fst_highA1 _)
  rw [sendCdb] at hhead
  rw [hsplit, sendCdb, ← List.cons_append, sendBytes_append, hhead,
    sendBytes_ignored env hphase] at hsent
  have hmem : false ∈ List.replicate ((op :: tail).length + 1) true := by
    rw [← hsent]
    simp [htail]
  simp at hmem

theorem consumed_of_not_groupFour {s : State φ} (hs : s.phase ≠ .cdb)
    {v : Byte} (hid : s.attached (idOf v)) {rest : List Byte} (h : DriverCdb v rest)
    (hfour : ¬ GroupFour v rest) : Consumed env s v rest := by
  rcases sendCdb_whole env hs hid (whole_of_not_groupFour h hfour) with ⟨s1, _, hsend⟩
  intro flagged hflagged
  rw [hsend flagged hflagged]

/-- The target frames a driver's CDB as sent, and takes every byte of it,
exactly when the command is not a wrapped one of the 16-byte group. -/
theorem cdb_framed_iff_not_groupFour (env : Host φ) {s : State φ} (hs : s.phase ≠ .cdb)
    {v : Byte} (hid : s.attached (idOf v)) {rest : List Byte} (h : DriverCdb v rest) :
    ((IcdLengthRight v rest ∧ Consumed env s v rest) <-> ¬ GroupFour v rest) ∧
      (Consumed env s v rest <-> ¬ GroupFour v rest) := by
  have hright := icdLengthRight_iff h
  have hconsumed : Consumed env s v rest <-> ¬ GroupFour v rest := by
    constructor
    · intro hall hfour
      exact not_consumed_of_groupFour env hs hid h hfour hall
    · exact consumed_of_not_groupFour env hs hid h
  refine ⟨?_, hconsumed⟩
  constructor
  · intro hframed
    exact hright.mp hframed.1
  · intro hfour
    exact ⟨hright.mpr hfour, hconsumed.mpr hfour⟩

/-- READ(10) behind the wrapper. -/
theorem cdb_framed_read_ten :
    IcdLengthRight 0x1F [0x28, 0, 0, 0, 0, 0, 0, 0, 1, 0] ∧
      Consumed deadHost (boot oneTarget clearMachine) 0x1F
        [0x28, 0, 0, 0, 0, 0, 0, 0, 1, 0] := by
  refine (cdb_framed_iff_not_groupFour deadHost (s := boot oneTarget clearMachine)
    (by decide) (by decide) (.wrapped (n := 10) (by decide) (by decide) rfl)).1.mpr ?_
  rintro ⟨_, op, tail, heq, hgroup⟩
  cases heq
  exact absurd hgroup (by decide)

/-- READ(16) behind the wrapper: seven bytes are taken and ten are passed on. -/
theorem read_sixteen_forwarded :
    ¬ (IcdLengthRight 0x1F [0x88, 0, 0, 0, 0, 0, 0, 0, 0, 0, 0, 0, 0, 0, 1, 0] ∧
      Consumed deadHost (boot oneTarget clearMachine) 0x1F
        [0x88, 0, 0, 0, 0, 0, 0, 0, 0, 0, 0, 0, 0, 0, 1, 0]) ∧
    (sendCdb deadHost 0x1F
        (highA1 [0x88, 0, 0, 0, 0, 0, 0, 0, 0, 0, 0, 0, 0, 0, 1, 0])
        (boot oneTarget clearMachine)).1 =
      List.replicate 7 true ++ List.replicate 10 false := by
  have hsent : (sendCdb deadHost 0x1F
      (highA1 [0x88, 0, 0, 0, 0, 0, 0, 0, 0, 0, 0, 0, 0, 0, 1, 0])
      (boot oneTarget clearMachine)).1 =
      List.replicate 7 true ++ List.replicate 10 false := by decide
  refine ⟨?_, hsent⟩
  intro hframed
  have hall := hframed.2 (highA1 [0x88, 0, 0, 0, 0, 0, 0, 0, 0, 0, 0, 0, 0, 0, 1, 0]) rfl
  rw [hsent] at hall
  exact absurd hall (by decide)

end Acsi
end PistormAtari
