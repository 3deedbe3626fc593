import PistormAtari.Acsi.Framing

/-!
# The handshake over whole runs

Every call keeps one invariant: a CDB under way belongs to an attached target,
every command of the history ran on a whole CDB and completed once, and a valid
good status is that of the last CDB a target accepted.
-/

namespace PistormAtari
namespace Acsi

open Foundation

variable {φ : Type _}

/-!
## Histories
-/

/-- Commands appear as an execution on a whole CDB directly followed by its one
completion (newest event first). -/
inductive History : List Event -> Prop where
  | nil : History []
  | accept {tr : List Event} (id : BitVec 3) : History tr -> History (.accept id :: tr)
  | statusRead {tr : List Event} (v : Byte) :
      History tr -> History (.statusRead v :: tr)
  | command {tr : List Event} {bytes : List Byte} (st sense : Byte) (lba : BitVec 32) :
      Whole bytes -> History tr -> History (.finish st sense lba :: .exec bytes :: tr)

/-- The last accepted CDB was received whole, executed and finished with status
`st`; since then there were only status reads. -/
def LastFinished (st : Byte) (tr : List Event) : Prop :=
  exists reads sense lba bytes id older,
    tr = reads ++ .finish st sense lba :: .exec bytes :: .accept id :: older ∧
      (forall e, e ∈ reads -> exists v, e = .statusRead v) ∧ Whole bytes

/-- Nothing has happened since a first byte was accepted: the CDB of `id` is
under way or was cut short, and its status has not been read. -/
def Unanswered (id : BitVec 3) (tr : List Event) : Prop :=
  exists older, tr = .accept id :: older

theorem lastFinished_statusRead {st : Byte} {tr : List Event} (h : LastFinished st tr)
    (v : Byte) : LastFinished st (.statusRead v :: tr) := by
  rcases h with ⟨reads, sense, lba, bytes, id, older, htr, hreads, hwhole⟩
  refine ⟨.statusRead v :: reads, sense, lba, bytes, id, older, ?_, ?_, hwhole⟩
  · rw [htr]
    rfl
  · intro e he
    rcases List.mem_cons.mp he with he | he
    · exact ⟨v, he⟩
    · exact hreads e he

/-!
## The invariant
-/

structure HandshakeInv (s : State φ) : Prop where
  collecting : s.phase = .cdb -> exists id bytes, Collecting s id bytes
  history : History s.trace
  noStatus : s.statusValid = false ->
    (s.curId = none ∧ s.trace = []) ∨
      exists id, s.curId = some id ∧ s.attached id ∧ Unanswered id s.trace
  goodStatus : s.statusValid = true -> s.statusByte = 0x00 -> LastFinished 0x00 s.trace
  pending : forall id, Unanswered id s.trace -> s.statusValid = false

theorem handshakeInv_boot (tgt : Targets φ) (m : Machine) : HandshakeInv (boot tgt m) where
  collecting h := by cases h
  history := .nil
  noStatus _ := Or.inl ⟨rfl, rfl⟩
  goodStatus h := by cases h
  pending _ _ := rfl

variable {s : State φ}

theorem handshakeInv_release (h : HandshakeInv s) :
    HandshakeInv (release s) where
  collecting hphase := by cases hphase
  history := h.history
  noStatus := h.noStatus
  goodStatus := h.goodStatus
  pending := h.pending

theorem handshakeInv_acceptFirst (h : HandshakeInv s) {v : Byte}
    (hid : s.attached (idOf v)) : HandshakeInv (acceptFirst (idOf v) v s) where
  collecting _ := ⟨idOf v, [v &&& 0x1F], collecting_acceptFirst hid⟩
  history := .accept (idOf v) h.history
  noStatus _ := Or.inr ⟨idOf v, rfl, hid, s.trace, rfl⟩
  goodStatus hvalid := by cases hvalid
  pending _ _ := rfl

theorem handshakeInv_storeByte (h : HandshakeInv s) {id : BitVec 3}
    {bytes : List Byte} (hs : Collecting s id bytes) {v : Byte}
    (hshort : (bytes ++ [v]).length < frameLength (bytes ++ [v])) :
    HandshakeInv { storeByte v s with irq := true } where
  collecting _ := ⟨id, bytes ++ [v], collecting_storeByte hs v true hshort⟩
  history := h.history
  noStatus := h.noStatus
  goodStatus := h.goodStatus
  pending := h.pending

theorem unanswered_of_collecting (h : HandshakeInv s) {id : BitVec 3}
    {bytes : List Byte} (hs : Collecting s id bytes) : Unanswered id s.trace := by
  rcases h.noStatus hs.statusValid with ⟨hnone, _⟩ | ⟨id', hid', _, hun⟩
  · rw [hs.curId] at hnone
    cases hnone
  · rw [hs.curId] at hid'
    cases hid'
    exact hun

variable (env : Host φ)

theorem handshakeInv_execCommand {s : State φ} (h : HandshakeInv s)
    {id : BitVec 3} {bytes : List Byte} (hs : Collecting s id bytes) {v : Byte}
    (hwhole : Whole (bytes ++ [v])) :
    HandshakeInv (execCommand env (complete v s)) := by
  have hdone := execCommand_complete env hs v
  rcases hdone.statusByte_finish with ⟨sense, lba, htrace⟩
  rcases unanswered_of_collecting h hs with ⟨older, holder⟩
  constructor
  · intro hphase
    rw [hdone.phase] at hphase
    cases hphase
  · rw [htrace]
    exact .command _ sense lba hwhole h.history
  · intro hvalid
    rw [hdone.statusValid] at hvalid
    cases hvalid
  · intro _ hgood
    rw [htrace, hgood]
    refine ⟨[], sense, lba, bytes ++ [v], id, older, ?_, ?_, hwhole⟩
    · rw [← holder]
      rfl
    · intro e he
      cases he
  · intro id' hun
    rcases hun with ⟨older', hun⟩
    rw [htrace] at hun
    cases hun

theorem handshakeInv_cmdByte {s : State φ} (h : HandshakeInv s)
    (v : Byte) (firstByte : Bool) : HandshakeInv (cmdByte env v firstByte s).2 := by
  rcases cmdByte_cases env s h.collecting v firstByte with
    ⟨_, hkeep | hrel⟩ | ⟨_, _, hid, hacc⟩ | ⟨id, bytes, hs, hshort, hmore⟩ |
    ⟨id, bytes, hs, hwhole, hexec⟩
  · rw [hkeep]
    exact h
  · rw [hrel]
    exact handshakeInv_release h
  · rw [hacc]
    exact handshakeInv_acceptFirst h hid
  · rw [hmore]
    exact handshakeInv_storeByte h hs hshort
  · rw [hexec]
    exact handshakeInv_execCommand env h hs hwhole

theorem statusRead_of_invalid (h : s.statusValid = false) :
    (statusRead s).1 = 0x02 ∧ (statusRead s).2.phase = .idle ∧
      (statusRead s).2.statusByte = 0x02 ∧ (statusRead s).2.statusValid = true ∧
      (statusRead s).2.trace = .statusRead 0x02 :: s.trace := by
  unfold statusRead
  simp [h]

theorem statusRead_of_valid (h : s.statusValid = true) :
    statusRead s = (s.statusByte,
      { s with
        irq := false
        phase := if s.phase = .status then .idle else s.phase
        trace := .statusRead s.statusByte :: s.trace }) := by
  unfold statusRead
  simp [h]

theorem handshakeInv_statusRead (h : HandshakeInv s) :
    HandshakeInv (statusRead s).2 := by
  cases hvalid : s.statusValid with
  | false =>
      rcases statusRead_of_invalid hvalid with ⟨_, hphase, hbyte, hval, htrace⟩
      constructor
      · intro hcdb
        rw [hphase] at hcdb
        cases hcdb
      · rw [htrace]
        exact .statusRead _ h.history
      · intro hinvalid
        rw [hval] at hinvalid
        cases hinvalid
      · intro _ hgood
        rw [hbyte] at hgood
        cases hgood
      · intro id hun
        rcases hun with ⟨older, hun⟩
        rw [htrace] at hun
        cases hun
  | true =>
      rw [statusRead_of_valid hvalid]
      constructor
      · intro hcdb
        have hphase : s.phase = .cdb := by
          cases hp : s.phase with
          | idle => simp [hp] at hcdb
          | cdb => rfl
          | status => simp [hp] at hcdb
        rcases h.collecting hphase with ⟨id, bytes, hs⟩
        rw [hs.statusValid] at hvalid
        cases hvalid
      · exact .statusRead _ h.history
      · intro hinvalid
        rw [hvalid] at hinvalid
        cases hinvalid
      · intro _ hgood
        exact lastFinished_statusRead (h.goodStatus hvalid hgood) _
      · intro id hun
        rcases hun with ⟨older, hun⟩
        cases hun

theorem handshakeInv_step (s : State φ) (op : Op) (h : HandshakeInv s) :
    HandshakeInv (step env s op) := by
  cases op with
  | cmdByte v firstByte => exact handshakeInv_cmdByte env h v firstByte
  | statusRead => exact handshakeInv_statusRead h
  | release => exact handshakeInv_release h
  | dmaFifoReset =>
      refine ⟨?_, h.history, h.noStatus, h.goodStatus, h.pending⟩
      intro hphase
      rcases h.collecting hphase with ⟨id, bytes, hs⟩
      exact ⟨id, bytes, hs.1, hs.2, hs.3, hs.4, hs.5, hs.6, hs.7, hs.8, hs.9, hs.10⟩
  | guest m =>
      refine ⟨?_, h.history, h.noStatus, h.goodStatus, h.pending⟩
      intro hphase
      rcases h.collecting hphase with ⟨id, bytes, hs⟩
      exact ⟨id, bytes, hs.1, hs.2, hs.3, hs.4, hs.5, hs.6, hs.7, hs.8, hs.9, hs.10⟩

theorem handshakeInv_run (tgt : Targets φ) (m : Machine) (ops : List Op) :
    HandshakeInv (run (step env) (boot tgt m) ops) :=
  run_invariant (handshakeInv_step env) (handshakeInv_boot tgt m) ops

/-!
## Every CDB is executed once, and only when it is whole
-/

/-- The events one call adds: a command only on the last byte of a CDB. -/
def AddsOnlyWholeCommands (s : State φ) (op : Op) (new : List Event) : Prop :=
  forall bytes, .exec bytes ∈ new ->
    s.phase = .cdb ∧ Whole bytes ∧
      exists v firstByte, op = .cmdByte v firstByte ∧ bytes = s.received ++ [v]

structure HandshakeContract (env : Host φ) (s : State φ) : Prop where
  underWay : s.phase = .cdb ->
    s.owns = true ∧ (exists id, s.curId = some id ∧ s.attached id) ∧
      0 < s.cdbGot ∧ s.cdbGot < s.cdbLen ∧ s.cdbLen ≤ 13
  lastByte : forall v firstByte, s.phase = .cdb -> Whole (s.received ++ [v]) ->
    let s' := (cmdByte env v firstByte s).2
    (exists sense lba, s'.trace =
        .finish s'.statusByte sense lba :: .exec (s.received ++ [v]) :: s.trace) ∧
      s'.phase = .status ∧ s'.irq = true ∧ s'.statusValid = true
  earlierByte : forall v firstByte, s.phase = .cdb -> ¬ Whole (s.received ++ [v]) ->
    let s' := (cmdByte env v firstByte s).2
    s'.trace = s.trace ∧ s'.phase = .cdb ∧ s'.received = s.received ++ [v]
  everyCall : forall op, exists new,
    (step env s op).trace = new ++ s.trace ∧ AddsOnlyWholeCommands s op new
  history : History s.trace

theorem addsOnlyWholeCommands_of_no_exec {op : Op} {new : List Event}
    (h : forall bytes, .exec bytes ∉ new) : AddsOnlyWholeCommands s op new := by
  intro bytes hbytes
  exact absurd hbytes (h bytes)

theorem cmdByte_lastByte {s : State φ} {id : BitVec 3} {bytes : List Byte}
    (hs : Collecting s id bytes) {v : Byte} (hwhole : Whole (bytes ++ [v]))
    (firstByte : Bool) :
    cmdByte env v firstByte s = (true, execCommand env (complete v s)) := by
  rw [cmdByte_collecting env hs, if_neg]
  rw [hwhole]
  exact Nat.lt_irrefl _

theorem cmdByte_earlierByte {s : State φ} {id : BitVec 3}
    {bytes : List Byte} (hs : Collecting s id bytes) {v : Byte}
    (hpart : ¬ Whole (bytes ++ [v])) (firstByte : Bool) :
    cmdByte env v firstByte s = (true, { storeByte v s with irq := true }) := by
  rw [cmdByte_collecting env hs, if_pos]
  rcases frame_next hs.started hs.short v with hwhole | hshort
  · exact absurd hwhole hpart
  · exact hshort

theorem cmdByte_events {s : State φ} (h : HandshakeInv s) (v : Byte) (firstByte : Bool) :
    exists new, (cmdByte env v firstByte s).2.trace = new ++ s.trace ∧
      AddsOnlyWholeCommands s (.cmdByte v firstByte) new := by
  rcases cmdByte_cases env s h.collecting v firstByte with
    ⟨_, hkeep | hrel⟩ | ⟨_, _, _, hacc⟩ | ⟨id, bytes, hs, _, hmore⟩ |
    ⟨id, bytes, hs, hwhole, hexec⟩
  · rw [hkeep]
    exact ⟨[], rfl, addsOnlyWholeCommands_of_no_exec (by simp)⟩
  · rw [hrel]
    exact ⟨[], rfl, addsOnlyWholeCommands_of_no_exec (by simp)⟩
  · rw [hacc]
    exact ⟨[.accept (idOf v)], rfl, addsOnlyWholeCommands_of_no_exec (by simp)⟩
  · rw [hmore]
    exact ⟨[], rfl, addsOnlyWholeCommands_of_no_exec (by simp)⟩
  · rw [hexec]
    rcases (execCommand_complete env hs v).statusByte_finish with ⟨sense, lba, htrace⟩
    refine ⟨[.finish _ sense lba, .exec (bytes ++ [v])], htrace, ?_⟩
    intro bytes' hbytes'
    have heq : bytes' = bytes ++ [v] := by simpa using hbytes'
    subst heq
    exact ⟨hs.phase, hwhole, v, firstByte, rfl, by rw [hs.received]⟩

theorem statusRead_trace (s : State φ) :
    (statusRead s).2.trace = .statusRead (statusRead s).1 :: s.trace := by
  cases hvalid : s.statusValid with
  | false =>
      rcases statusRead_of_invalid hvalid with ⟨hbyte, _, _, _, htrace⟩
      rw [htrace, hbyte]
  | true => rw [statusRead_of_valid hvalid]

theorem step_events {s : State φ} (h : HandshakeInv s) (op : Op) :
    exists new, (step env s op).trace = new ++ s.trace ∧ AddsOnlyWholeCommands s op new := by
  cases op with
  | cmdByte v firstByte => exact cmdByte_events env h v firstByte
  | statusRead =>
      exact ⟨[.statusRead (statusRead s).1], statusRead_trace s,
        addsOnlyWholeCommands_of_no_exec (by simp)⟩
  | release => exact ⟨[], rfl, addsOnlyWholeCommands_of_no_exec (by simp)⟩
  | dmaFifoReset => exact ⟨[], rfl, addsOnlyWholeCommands_of_no_exec (by simp)⟩
  | guest m => exact ⟨[], rfl, addsOnlyWholeCommands_of_no_exec (by simp)⟩

/-- Whatever images are attached and whatever calls were made, the handshake
keeps its contract. -/
theorem run_handshakeContract (env : Host φ) (tgt : Targets φ) (m : Machine)
    (ops : List Op) : HandshakeContract env (run (step env) (boot tgt m) ops) := by
  have h := handshakeInv_run env tgt m ops
  constructor
  · intro hphase
    rcases h.collecting hphase with ⟨id, bytes, hs⟩
    have hpos := List.length_pos_iff.mpr hs.started
    refine ⟨hs.owns, ⟨id, hs.curId, hs.attached⟩, ?_, ?_, ?_⟩
    · rw [hs.cdbGot]
      exact hpos
    · rw [hs.cdbGot, hs.cdbLen]
      exact hs.short
    · rw [hs.cdbLen]
      exact frameLength_le bytes
  · intro v firstByte hphase hwhole
    rcases h.collecting hphase with ⟨id, bytes, hs⟩
    rw [hs.received] at hwhole ⊢
    have hdone := execCommand_complete env hs v
    rw [cmdByte_lastByte env hs hwhole]
    exact ⟨hdone.statusByte_finish, hdone.phase, hdone.irq, hdone.statusValid⟩
  · intro v firstByte hphase hpart
    rcases h.collecting hphase with ⟨id, bytes, hs⟩
    rw [hs.received] at hpart
    rw [cmdByte_earlierByte env hs hpart]
    exact ⟨rfl, hphase, received_storeByte v _⟩
  · exact step_events env h
  · exact h.history

/-!
## No stale good status
-/

/-- The status read of a CDB that was cut short: `$02` once, sense `$24` on the
target that was addressed, and nothing else of the targets touched. -/
def ReportsCutShort (s : State φ) (id : BitVec 3) : Prop :=
  (statusRead s).1 = 0x02 ∧
    (exists t, s.tgt id = some t ∧
      (statusRead s).2.tgt id = some { t with sense := senseInvalidCdb }) ∧
    (forall j, j ≠ id -> (statusRead s).2.tgt j = s.tgt j) ∧
    (statusRead s).2.dmaFifo = s.dmaFifo ∧ (statusRead s).2.machine = s.machine

theorem reportsCutShort_of_unanswered (h : HandshakeInv s) {id : BitVec 3}
    (hun : Unanswered id s.trace) : ReportsCutShort s id := by
  have hvalid := h.pending id hun
  rcases hun with ⟨older, htrace⟩
  rcases h.noStatus hvalid with ⟨_, hnil⟩ | ⟨id', hcur, hatt, older', htrace'⟩
  · rw [htrace] at hnil
    cases hnil
  · rw [htrace] at htrace'
    cases htrace'
    rcases Option.isSome_iff_exists.mp hatt with ⟨t, ht⟩
    unfold ReportsCutShort statusRead
    refine ⟨?_, ⟨t, ht, ?_⟩, ?_, ?_, ?_⟩
    · simp [hvalid]
    · simp [hvalid, hcur, ht]
    · intro j hj
      simp [hvalid, hcur, hj]
    · simp [hvalid]
    · simp [hvalid]

/-- After any calls, a status read of `$00` speaks of the last CDB a target
accepted, and a CDB that was cut short is reported as such. -/
theorem run_statusRead_not_stale (env : Host φ) (tgt : Targets φ) (m : Machine)
    (ops : List Op) :
    let s := run (step env) (boot tgt m) ops
    ((statusRead s).1 = 0x00 -> LastFinished 0x00 s.trace) ∧
      forall id, Unanswered id s.trace -> ReportsCutShort s id := by
  intro s
  have h : HandshakeInv s := handshakeInv_run env tgt m ops
  constructor
  · intro hgood
    cases hvalid : s.statusValid with
    | false =>
        rw [(statusRead_of_invalid hvalid).1] at hgood
        cases hgood
    | true =>
        rw [statusRead_of_valid hvalid] at hgood
        exact h.goodStatus hvalid hgood
  · intro id hun
    exact reportsCutShort_of_unanswered h hun

end Acsi
end PistormAtari
