import PistormAtari.Ide.Driver

/-!
# What an access does to a drive

Each access leaves a drive's transfer alone, stops it, starts one, or moves one
datum through the data port.  Whatever holds of a transfer over a whole run is
derived from these moves.
-/

namespace PistormAtari
namespace Ide

open Foundation

/-!
## Moves that start no transfer
-/

/-- The word orders of a drive: of its data port and of its image file. -/
def Drive.orders (d : Drive) : Bool × Bool :=
  (d.twisted, d.imgSwapped)

structure SameTransfer (d d' : Drive) : Prop where
  state : d'.state = d.state
  dptr : d'.dptr = d.dptr
  length : d'.length = d.length
  fd : d'.fd = d.fd
  data : d'.data = d.data
  eightbit : d'.eightbit = d.eightbit
  failed : d'.failed = d.failed
  orders : d'.orders = d.orders

structure Stopped (d d' : Drive) : Prop where
  state : d'.state = .idle
  size : d'.fd.size = d.fd.size
  byte : d'.fd.byte = d.fd.byte
  data : d.data.length = 512 -> d'.data.length = 512
  failed : d.failed = false -> d'.failed = false
  orders : d'.orders = d.orders

def Calm (d d' : Drive) : Prop :=
  SameTransfer d d' ∨ Stopped d d'

theorem SameTransfer.refl (d : Drive) : SameTransfer d d :=
  ⟨rfl, rfl, rfl, rfl, rfl, rfl, rfl, rfl⟩

theorem Calm.refl (d : Drive) : Calm d d :=
  Or.inl (SameTransfer.refl d)

theorem SameTransfer.trans {d d' d'' : Drive} (h : SameTransfer d d')
    (h' : SameTransfer d' d'') : SameTransfer d d'' :=
  ⟨h'.state.trans h.state, h'.dptr.trans h.dptr, h'.length.trans h.length,
    h'.fd.trans h.fd, h'.data.trans h.data, h'.eightbit.trans h.eightbit,
    h'.failed.trans h.failed, h'.orders.trans h.orders⟩

theorem Stopped.trans_same {d d' d'' : Drive} (h : Stopped d d')
    (h' : SameTransfer d' d'') : Stopped d d'' := by
  constructor
  · rw [h'.state, h.state]
  · rw [h'.fd, h.size]
  · rw [h'.fd, h.byte]
  · rw [h'.data]
    exact h.data
  · rw [h'.failed]
    exact h.failed
  · rw [h'.orders, h.orders]

theorem Calm.trans {d d' d'' : Drive} (h : Calm d d') (h' : Calm d' d'') : Calm d d'' := by
  rcases h' with hsame' | hstop'
  · rcases h with hsame | hstop
    · exact Or.inl (hsame.trans hsame')
    · exact Or.inr (hstop.trans_same hsame')
  · right
    rcases h with hsame | hstop
    · constructor
      · exact hstop'.state
      · rw [hstop'.size, hsame.fd]
      · rw [hstop'.byte, hsame.fd]
      · rw [← hsame.data]
        exact hstop'.data
      · rw [← hsame.failed]
        exact hstop'.failed
      · rw [hstop'.orders, hsame.orders]
    · exact ⟨hstop'.state, hstop'.size.trans hstop.size, hstop'.byte.trans hstop.byte,
        fun hlen => hstop'.data (hstop.data hlen),
        fun hfailed => hstop'.failed (hstop.failed hfailed),
        hstop'.orders.trans hstop.orders⟩

theorem stopped_of_idle {d d' : Drive} (hstate : d'.state = .idle) (hfd : d'.fd = d.fd)
    (hdata : d'.data = d.data) (hfailed : d.failed = false -> d'.failed = false)
    (horders : d'.orders = d.orders) : Stopped d d' := by
  constructor
  · exact hstate
  · rw [hfd]
  · rw [hfd]
  · rw [hdata]
    exact id
  · exact hfailed
  · exact horders

theorem stopped_ready (d : Drive) : Stopped d (ready d) :=
  stopped_of_idle rfl rfl rfl id rfl

def CalmAll (c c' : Controller) : Prop :=
  forall i, Calm (c.drive i) (c'.drive i)

variable (c : Controller)

theorem CalmAll.refl : CalmAll c c :=
  fun i => Calm.refl (c.drive i)

theorem CalmAll.trans {c c' c'' : Controller} (h : CalmAll c c') (h' : CalmAll c' c'') :
    CalmAll c c'' :=
  fun i => (h i).trans (h' i)

theorem calm_put {c : Controller} {i : Fin 2} {d : Drive} (h : Calm (c.drive i) d) :
    CalmAll c (c.put i d) := by
  intro j
  by_cases hj : j = i
  · rw [hj, put_drive_self]
    exact h
  · rw [put_drive_of_ne hj]
    exact Calm.refl _

theorem calm_registers {c : Controller} {i : Fin 2} {d : Drive}
    (h : SameTransfer (c.drive i) d) : CalmAll c (c.put i d) :=
  calm_put (Or.inl h)

theorem calm_eddSetup (i : Fin 2) : CalmAll c (eddSetup c i) := by
  have h : CalmAll c (c.put i (ready { c.drive i with
      taskfile := { (c.drive i).taskfile with error := 0x01, count := 0x01 } })) :=
    calm_put (Or.inr (stopped_of_idle rfl rfl rfl id rfl))
  intro j
  exact h j

theorem calm_eddIfPresent (i : Fin 2) : CalmAll c (eddIfPresent c i) := by
  unfold eddIfPresent
  split
  · exact calm_eddSetup c i
  · exact CalmAll.refl c

theorem calm_resetDrive (i : Fin 2) : CalmAll c (resetDrive c i) := by
  unfold resetDrive
  split
  · apply CalmAll.trans (calm_eddSetup c i)
    apply calm_put
    right
    apply stopped_of_idle
    · change (((c.put i _).drive i).state) = .idle
      rw [put_drive_self]
      rfl
    · rfl
    · rfl
    · exact id
    · rfl
  · exact CalmAll.refl c

theorem calm_ideReset : CalmAll c (ideReset c) := by
  have h := (calm_resetDrive c 0).trans (calm_resetDrive (resetDrive c 0) 1)
  intro i
  exact h i

theorem calm_busyIfPresent (i : Fin 2) : CalmAll c (busyIfPresent c i) := by
  unfold busyIfPresent
  split
  · apply calm_put
    left
    exact ⟨rfl, rfl, rfl, rfl, rfl, rfl, rfl, rfl⟩
  · exact CalmAll.refl c

theorem calm_busyBoth :
    CalmAll c (busyIfPresent (busyIfPresent c 0) 1) :=
  (calm_busyIfPresent c 0).trans (calm_busyIfPresent _ 1)

theorem calm_ideResetBegin : CalmAll c (ideResetBegin c) :=
  (calm_busyBoth c).trans (calm_ideReset _)

theorem calm_ideSrstBegin : CalmAll c (ideSrstBegin c) :=
  (calm_ideReset c).trans (calm_busyBoth _)

theorem calm_ideSrstEnd : CalmAll c (ideSrstEnd c) := by
  have h0 : CalmAll c (c.put 0 (ready (c.drive 0))) :=
    calm_put (Or.inr (stopped_ready _))
  apply h0.trans
  exact calm_put (Or.inr (stopped_ready _))

theorem calm_writeDevctrl (v : Byte) : CalmAll c (writeDevctrl c v) := by
  have hset : forall c' : Controller, CalmAll c' { c' with drive := fun i =>
      { c'.drive i with taskfile := { (c'.drive i).taskfile with devctrl := v } } } :=
    fun c' i => Or.inl ⟨rfl, rfl, rfl, rfl, rfl, rfl, rfl, rfl⟩
  unfold writeDevctrl
  dsimp only
  split
  · split
    · exact (calm_ideSrstBegin c).trans (hset _)
    · exact (calm_ideSrstEnd c).trans (hset _)
  · exact hset c

theorem calm_ideSetError {c : Controller} {i : Fin 2} {d : Drive}
    (hsize : d.fd.size = (c.drive i).fd.size) (hbyte : d.fd.byte = (c.drive i).fd.byte)
    (hdata : (c.drive i).data.length = 512 -> d.data.length = 512)
    (hfailed : d.failed = (c.drive i).failed) (horders : d.orders = (c.drive i).orders) :
    CalmAll c (ideSetError (c.put i d) i) := by
  have hstop : Calm (c.drive i) (completed ({ d with
      taskfile := { d.taskfile with count := BitVec.ofNat 8 d.length } }.setStatus 0 ST_ERR)) :=
    Or.inr ⟨rfl, hsize, hbyte, hdata, fun h => hfailed.trans h, horders⟩
  intro j
  by_cases hj : j = i
  · subst hj
    unfold ideSetError
    simp only [put_drive_self]
    exact hstop
  · have hother : (ideSetError (c.put i d) i).drive j = c.drive j := by
      change ((c.put i d).put i _).drive j = c.drive j
      rw [put_drive_of_ne hj, put_drive_of_ne hj]
    rw [hother]
    exact Calm.refl _

/-!
## Requests
-/

/-- The bytes from `start` on and the sectors a command asks for. -/
structure Request where
  start : Nat
  count : Nat
deriving DecidableEq, Repr

/-- The command byte an access writes, unless the drive ignores it. -/
def issued (c : Controller) (a : Access) : Option Byte :=
  let d := c.drive c.selected
  if d.busy = true ∨ d.present = false then none
  else
    match a with
    | .write8 .statusCommand v _ => some v
    | .write16 .statusCommand v _ => some (v.setWidth 8)
    | _ => none

def commandRequest (c : Controller) : Command -> Option Request
  | .read => some ⟨xlateBlock c (c.drive c.selected), requestCount (c.drive c.selected)⟩
  | .write => some ⟨xlateBlock c (c.drive c.selected), requestCount (c.drive c.selected)⟩
  | .verify => some ⟨xlateBlock c (c.drive c.selected), requestCount (c.drive c.selected)⟩
  | .seek => some ⟨xlateBlock c (c.drive c.selected), 1⟩
  | _ => none

def requestOf (c : Controller) (a : Access) : Option Request :=
  (issued c a).bind fun v => commandRequest c (decodeCommand v)

/-!
## The moves of a drive
-/

inductive DriveMove (falconTos : Bool) (rq : Option Request) (d : Drive) : Drive -> Prop where
  | same {d' : Drive} (hrq : rq = none) (hsame : SameTransfer d d') : DriveMove falconTos rq d d'
  | stopped {d' : Drive} (hstop : Stopped d d') : DriveMove falconTos rq d d'
  | identify {d' : Drive} (hstate : d'.state = .dataIn) (hdptr : d'.dptr = 0)
      (hlength : d'.length = 1) (hfd : d'.fd = d.fd) (hdata : d'.data.length = 512)
      (hfailed : d'.failed = d.failed) (horders : d'.orders = d.orders) :
      DriveMove falconTos rq d d'
  | reading {d' : Drive} {r : Request} (hrq : rq = some r) (hstate : d'.state = .dataIn)
      (hdptr : d'.dptr = 512) (hlength : d'.length = r.count)
      (hfd : d'.fd = d.fd.seek r.start) (hdata : d'.data = d.data)
      (hfailed : d'.failed = d.failed) (horders : d'.orders = d.orders) :
      DriveMove falconTos rq d d'
  | writing {d' : Drive} {r : Request} (hrq : rq = some r) (hstate : d'.state = .dataOut)
      (hdptr : d'.dptr = 0) (hlength : d'.length = r.count)
      (hfd : d'.fd = d.fd.seek r.start) (hdata : d'.data = d.data)
      (hfailed : d'.failed = d.failed) (horders : d'.orders = d.orders) :
      DriveMove falconTos rq d d'
  | took {d' : Drive} (hrq : rq = none) (len : Nat) (io : HostIo) (hstate : d.state = .dataIn)
      (htook : d.dataIn falconTos len io = (d', true)) : DriveMove falconTos rq d d'
  | gave {d' : Drive} (hrq : rq = none) (v : Word) (io : HostIo) (hstate : d.state = .dataOut)
      (hgave : d.dataOut falconTos v io = (d', true)) : DriveMove falconTos rq d d'

theorem DriveMove.of_calm {falconTos : Bool} {d d' : Drive} (h : Calm d d') :
    DriveMove falconTos none d d' := by
  rcases h with hsame | hstop
  · exact DriveMove.same rfl hsame
  · exact DriveMove.stopped hstop

@[simp] theorem length_diskSwap512 (buf : List Byte) :
    (diskSwap512 buf).length = buf.length := by
  induction buf using diskSwap512.induct with
  | case1 a b rest ih =>
      unfold diskSwap512
      rw [List.length_cons, List.length_cons, List.length_cons, List.length_cons, ih]
  | case2 rest hrest =>
      rw [diskSwap512]
      exact hrest

theorem length_identifyBytes (words : List Word) :
    (identifyBytes words).length = 2 * words.length := by
  induction words with
  | nil => rfl
  | cons w words ih =>
      change (identifyBytes words).length + 1 + 1 = 2 * (words.length + 1)
      rw [ih]
      lia

theorem stopped_of_begun {d d' : Drive} {v : Byte} (hcalm : Calm (d.begun v) d')
    (hidle : d'.state = .idle) : Stopped d d' := by
  rcases hcalm with hsame | hstop
  · have hcmd : d'.state = .cmd := hsame.state
    rw [hidle] at hcmd
    cases hcmd
  · exact ⟨hidle, hstop.size, hstop.byte, hstop.data, hstop.failed, hstop.orders⟩

theorem eddBoth_idle {c : Controller} {i : Fin 2} (hpresent : (c.drive i).present = true) :
    ((cmdEddComplete c).drive i).state = .idle := by
  have hsetup : forall (c' : Controller) (j : Fin 2), (c'.drive j).present = true ->
      ((eddIfPresent c' j).drive j).state = .idle := by
    intro c' j hj
    unfold eddIfPresent
    rw [if_pos hj]
    change ((c'.put j _).drive j).state = .idle
    rw [put_drive_self]
    rfl
  have hother : forall (c' : Controller) (j k : Fin 2), k ≠ j ->
      (eddIfPresent c' j).drive k = c'.drive k := by
    intro c' j k hk
    unfold eddIfPresent
    split
    · exact put_drive_of_ne hk _
    · rfl
  change ((eddIfPresent (eddIfPresent c 0) 1).drive i).state = .idle
  by_cases hi : i = 1
  · rw [hi]
    apply hsetup
    rw [hother c 0 1 (by decide), ← hi]
    exact hpresent
  · have hzero : i = 0 := by lia
    rw [hother _ 1 i hi, hzero]
    apply hsetup
    rw [← hzero]
    exact hpresent

theorem calm_cmdEddComplete : CalmAll c (cmdEddComplete c) := by
  have h := (calm_eddIfPresent c 0).trans (calm_eddIfPresent (eddIfPresent c 0) 1)
  intro i
  exact h i

variable (falconTos : Bool)

theorem command_other (c : Controller) (v : Byte) {i : Fin 2}
    (hi : i ≠ c.selected) : Calm (c.drive i) ((ideIssueCommand falconTos c v).drive i) := by
  have hput : forall d : Drive, (c.put c.selected d).drive i = c.drive i :=
    fun d => put_drive_of_ne hi d
  unfold ideIssueCommand
  dsimp only
  split
  · have hedd := calm_cmdEddComplete (c.put c.selected ((c.drive c.selected).begun v)) i
    rw [hput] at hedd
    exact hedd
  all_goals
    rw [hput]
    exact Calm.refl _

theorem cmdSetfeatures_transfer (d : Drive) :
    (cmdSetfeaturesComplete d).fd = d.fd ∧ (cmdSetfeaturesComplete d).data = d.data ∧
      (cmdSetfeaturesComplete d).failed = d.failed ∧
        (cmdSetfeaturesComplete d).orders = d.orders := by
  unfold cmdSetfeaturesComplete
  dsimp only
  split
  · exact ⟨rfl, rfl, rfl, rfl⟩
  · split
    · exact ⟨rfl, rfl, rfl, rfl⟩
    · exact ⟨rfl, rfl, rfl, rfl⟩
  · exact ⟨rfl, rfl, rfl, rfl⟩
  · exact ⟨rfl, rfl, rfl, rfl⟩

theorem cmdRecalibrate_transfer (d : Drive) :
    (cmdRecalibrateComplete c d).fd = d.fd ∧ (cmdRecalibrateComplete c d).data = d.data ∧
      (cmdRecalibrateComplete c d).failed = d.failed ∧
        (cmdRecalibrateComplete c d).orders = d.orders := by
  unfold cmdRecalibrateComplete
  dsimp only
  split
  · split
    · exact ⟨rfl, rfl, rfl, rfl⟩
    · exact ⟨rfl, rfl, rfl, rfl⟩
  · split
    · exact ⟨rfl, rfl, rfl, rfl⟩
    · exact ⟨rfl, rfl, rfl, rfl⟩

theorem cmdSeek_stopped (d : Drive) : Stopped d (cmdSeekComplete c d) := by
  unfold cmdSeekComplete
  dsimp only
  split
  · exact ⟨rfl, rfl, rfl, id, id, rfl⟩
  · exact ⟨rfl, rfl, rfl, id, id, rfl⟩

theorem cmdVerify_stopped (d : Drive) :
    Stopped d (cmdVerifysectorsComplete c d) := by
  unfold cmdVerifysectorsComplete
  split
  · exact ⟨rfl, rfl, rfl, id, id, rfl⟩
  · exact ⟨rfl, rfl, rfl, id, id, rfl⟩

theorem Stopped.of_begun {d d' : Drive} {v : Byte} (h : Stopped (d.begun v) d') :
    Stopped d d' :=
  ⟨h.state, h.size, h.byte, h.data, h.failed, h.orders⟩

theorem command_selected (c : Controller) (a : Access) (v : Byte)
    (hissued : issued c a = some v) (hpresent : (c.drive c.selected).present = true) :
    DriveMove falconTos (requestOf c a) (c.drive c.selected)
      ((ideIssueCommand falconTos c v).drive c.selected) := by
  have hrq : requestOf c a = commandRequest c (decodeCommand v) := by
    unfold requestOf
    rw [hissued]
    rfl
  have hstop : forall {d' : Drive}, Stopped ((c.drive c.selected).begun v) d' ->
      DriveMove falconTos (requestOf c a) (c.drive c.selected) d' :=
    fun h => DriveMove.stopped (Stopped.of_begun h)
  unfold ideIssueCommand
  dsimp only
  cases hcmd : decodeCommand v with
  | edd =>
      have hedd := calm_cmdEddComplete (c.put c.selected ((c.drive c.selected).begun v))
        c.selected
      rw [put_drive_self] at hedd
      have hidle := @eddBoth_idle (c.put c.selected ((c.drive c.selected).begun v))
        c.selected (by rw [put_drive_self]; exact hpresent)
      exact DriveMove.stopped (stopped_of_begun hedd hidle)
  | identify =>
      rw [put_drive_self]
      refine DriveMove.identify rfl rfl rfl rfl ?_ rfl rfl
      change (if _ then diskSwap512 _ else _ : List Byte).length = 512
      have hlen := length_identifyBytes ((c.drive c.selected).begun v).identify.toList
      rw [Vector.length_toList] at hlen
      split
      · rw [length_diskSwap512, hlen]
      · exact hlen
  | initparam =>
      rw [put_drive_self]
      exact hstop (stopped_of_idle rfl rfl rfl (fun _ => rfl) rfl)
  | read =>
      rw [put_drive_self]
      unfold cmdReadsectorsComplete
      split
      · exact hstop (stopped_of_idle rfl rfl rfl id rfl)
      · rw [hcmd] at hrq
        exact DriveMove.reading hrq rfl rfl rfl rfl rfl rfl rfl
  | setfeatures =>
      rw [put_drive_self]
      have htransfer := cmdSetfeatures_transfer ((c.drive c.selected).begun v)
      exact hstop (stopped_of_idle rfl htransfer.1 htransfer.2.1
        (fun h => htransfer.2.2.1.trans h) htransfer.2.2.2)
  | verify =>
      rw [put_drive_self]
      exact hstop (cmdVerify_stopped c _)
  | write =>
      rw [put_drive_self]
      unfold cmdWritesectorsComplete
      split
      · exact hstop (stopped_of_idle rfl rfl rfl id rfl)
      · rw [hcmd] at hrq
        exact DriveMove.writing hrq rfl rfl rfl rfl rfl rfl rfl
  | recalibrate =>
      rw [put_drive_self]
      have htransfer := cmdRecalibrate_transfer c ((c.drive c.selected).begun v)
      exact hstop (stopped_of_idle rfl htransfer.1 htransfer.2.1
        (fun h => htransfer.2.2.1.trans h) htransfer.2.2.2)
  | seek =>
      rw [put_drive_self]
      exact hstop (cmdSeek_stopped c _)
  | unknown =>
      rw [put_drive_self]
      exact hstop (stopped_of_idle rfl rfl rfl id rfl)

/-!
## Data accesses
-/

theorem Drive.length_inFileOrder (d : Drive) (buf : List Byte) :
    (d.inFileOrder buf).length = buf.length := by
  unfold Drive.inFileOrder
  split
  · exact length_diskSwap512 buf
  · rfl

theorem ideReadSector_file (d : Drive) (io : HostIo) :
    (ideReadSector d io).1.fd.size = d.fd.size ∧
      (ideReadSector d io).1.fd.byte = d.fd.byte ∧
        (d.data.length = 512 -> (ideReadSector d io).1.data.length = 512) ∧
          (ideReadSector d io).1.failed = d.failed ∧
            (ideReadSector d io).1.orders = d.orders := by
  have hgot : (d.fd.readable 512).length ≤ 512 := by
    rw [OpenFile.length_readable]
    exact Nat.min_le_left _ _
  have hlen : d.data.length = 512 -> (d.fd.readable 512 ++
      d.data.drop (d.fd.readable 512).length).length = 512 := by
    intro h
    rw [List.length_append, List.length_drop, h]
    lia
  unfold ideReadSector
  split
  · exact ⟨rfl, rfl, id, rfl, rfl⟩
  · dsimp only
    split
    · exact ⟨rfl, rfl, hlen, rfl, rfl⟩
    · exact ⟨rfl, rfl, fun h => (Drive.length_inFileOrder _ _).trans (hlen h), rfl, rfl⟩

theorem dataIn_failed {falconTos : Bool} {d d' : Drive} {len : Nat} {io : HostIo}
    (h : d.dataIn falconTos len io = (d', false)) :
    d' = (ideReadSector d io).1 := by
  unfold Drive.dataIn at h
  by_cases hend : d.dptr = 512
  · rw [if_pos hend] at h
    cases hok : (ideReadSector d io).2 with
    | true =>
        rw [← Prod.mk.eta (p := ideReadSector d io), hok] at h
        cases h
    | false =>
        rw [← Prod.mk.eta (p := ideReadSector d io), hok] at h
        injection h with hd
        exact hd.symm
  · rw [if_neg hend] at h
    cases h

theorem ideDataIn_moves (c : Controller) (len : Nat) (io : HostIo) (i : Fin 2) :
    DriveMove falconTos none (c.drive i) ((ideDataIn falconTos c len io).1.drive i) := by
  unfold ideDataIn
  dsimp only
  split
  · rename_i hstate
    cases hmove : (c.drive c.selected).dataIn falconTos len io with
    | mk d ok =>
        cases ok with
        | true =>
            change DriveMove falconTos none (c.drive i) ((c.put c.selected d).drive i)
            by_cases hi : i = c.selected
            · rw [hi, put_drive_self]
              exact DriveMove.took rfl len io hstate hmove
            · rw [put_drive_of_ne hi]
              exact DriveMove.of_calm (Calm.refl _)
        | false =>
            have hfile := ideReadSector_file (c.drive c.selected) io
            rw [← dataIn_failed hmove] at hfile
            exact DriveMove.of_calm (calm_ideSetError hfile.1 hfile.2.1 hfile.2.2.1
              hfile.2.2.2.1 hfile.2.2.2.2 i)
  · exact DriveMove.of_calm (Calm.refl _)

structure BufferOnly (d d' : Drive) : Prop where
  state : d'.state = d.state
  length : d'.length = d.length
  fd : d'.fd = d.fd
  eightbit : d'.eightbit = d.eightbit
  orders : d'.orders = d.orders
  data : d'.data.length = d.data.length
  failed : d'.failed = d.failed

theorem putDatum_bufferOnly (d : Drive) (v : Word) :
    BufferOnly d (d.putDatum falconTos v) := by
  unfold Drive.putDatum
  dsimp only
  split
  · exact ⟨rfl, rfl, rfl, rfl, rfl, List.length_set, rfl⟩
  · split
    · exact ⟨rfl, rfl, rfl, rfl, rfl, List.length_set.trans List.length_set, rfl⟩
    · exact ⟨rfl, rfl, rfl, rfl, rfl, List.length_set.trans List.length_set, rfl⟩

theorem dataOut_failed {falconTos : Bool} {d d' : Drive} {v : Word} {io : HostIo}
    (h : d.dataOut falconTos v io = (d', false)) :
    d'.fd = d.fd ∧ (d.data.length = 512 -> d'.data.length = 512) ∧ d'.failed = d.failed ∧
      d'.orders = d.orders := by
  have hput := putDatum_bufferOnly falconTos d v
  unfold Drive.dataOut at h
  dsimp only at h
  split at h
  · cases io with
    | works => cases h
    | fails eio =>
        injection h with hd
        rw [← hd]
        exact ⟨hput.fd, fun hlen => hput.data.trans hlen, hput.failed, hput.orders⟩
  · cases h

theorem ideDataOut_moves (c : Controller) (v : Word) (io : HostIo) (i : Fin 2) :
    DriveMove falconTos none (c.drive i) ((ideDataOut falconTos c v io).drive i) := by
  unfold ideDataOut
  dsimp only
  split
  · refine DriveMove.of_calm (calm_registers ?_ i)
    exact ⟨rfl, rfl, rfl, rfl, rfl, rfl, rfl, rfl⟩
  · rename_i hstate
    have hstate' : (c.drive c.selected).state = .dataOut := not_not.mp hstate
    cases hmove : (c.drive c.selected).dataOut falconTos v io with
    | mk d ok =>
        cases ok with
        | true =>
            change DriveMove falconTos none (c.drive i) ((c.put c.selected d).drive i)
            by_cases hi : i = c.selected
            · rw [hi, put_drive_self]
              exact DriveMove.gave rfl v io hstate' hmove
            · rw [put_drive_of_ne hi]
              exact DriveMove.of_calm (Calm.refl _)
        | false =>
            have hfile := dataOut_failed hmove
            have hsize : d.fd.size = (c.drive c.selected).fd.size := by rw [hfile.1]
            have hbyte : d.fd.byte = (c.drive c.selected).fd.byte := by rw [hfile.1]
            exact DriveMove.of_calm (calm_ideSetError hsize hbyte hfile.2.1
              hfile.2.2.1 hfile.2.2.2 i)

/-!
## Every access
-/

theorem ideRead8_moves (c : Controller) (r : Reg) (io : HostIo) (i : Fin 2) :
    DriveMove falconTos none (c.drive i) ((ideRead8 falconTos c r io).1.drive i) := by
  cases r with
  | data => exact ideDataIn_moves falconTos c 1 io i
  | statusCommand =>
      refine DriveMove.of_calm (calm_registers ?_ i)
      exact ⟨rfl, rfl, rfl, rfl, rfl, rfl, rfl, rfl⟩
  | _ => exact DriveMove.of_calm (Calm.refl _)

def Drive.listens (d : Drive) (r : Reg) : Bool :=
  r == .statusCommand && !d.busy && d.present

theorem ideWrite8_quiet (c : Controller) (r : Reg) (v : Byte)
    (io : HostIo) (hquiet : (c.drive c.selected).listens r = false) (i : Fin 2) :
    DriveMove falconTos none (c.drive i) ((ideWrite8 falconTos c r v io).drive i) := by
  unfold ideWrite8
  dsimp only
  split
  · exact DriveMove.of_calm (Calm.refl _)
  · rename_i hheard
    cases r with
    | data => exact ideDataOut_moves falconTos c _ io i
    | errorFeature =>
        refine DriveMove.of_calm (calm_registers ?_ i)
        exact ⟨rfl, rfl, rfl, rfl, rfl, rfl, rfl, rfl⟩
    | secCount =>
        refine DriveMove.of_calm (calm_registers ?_ i)
        exact ⟨rfl, rfl, rfl, rfl, rfl, rfl, rfl, rfl⟩
    | statusCommand =>
        exfalso
        apply hheard
        unfold Drive.listens at hquiet
        constructor
        · decide
        · cases hbusy : (c.drive c.selected).busy with
          | true => exact Or.inl rfl
          | false =>
              rw [hbusy] at hquiet
              exact Or.inr ⟨by simpa using hquiet, by decide⟩
    | altstDevctrl => exact DriveMove.of_calm (calm_writeDevctrl c v i)
    | _ => exact DriveMove.of_calm (Calm.refl _)

theorem ideWrite8_command (c : Controller) (v : Byte) (io : HostIo)
    (hlistens : (c.drive c.selected).listens .statusCommand = true) :
    ideWrite8 falconTos c .statusCommand v io = ideIssueCommand falconTos c v := by
  unfold Drive.listens at hlistens
  simp only [beq_self_eq_true, Bool.true_and, Bool.and_eq_true, Bool.not_eq_true'] at hlistens
  unfold ideWrite8
  dsimp only
  rw [if_neg]
  intro hignored
  rcases hignored.2 with hbusy | habsent
  · rw [hlistens.1] at hbusy
    cases hbusy
  · rw [hlistens.2] at habsent
    cases habsent.1

theorem ideWrite8_moves (c : Controller) (r : Reg) (v : Byte) (io : HostIo) (a : Access)
    (hissued : issued c a = if (c.drive c.selected).listens r then some v else none)
    (i : Fin 2) :
    DriveMove falconTos (if i = c.selected then requestOf c a else none) (c.drive i)
      ((ideWrite8 falconTos c r v io).drive i) := by
  cases hlistens : (c.drive c.selected).listens r with
  | false =>
      rw [hlistens] at hissued
      have hrq : requestOf c a = none := by
        unfold requestOf
        rw [hissued]
        rfl
      rw [hrq, ite_self]
      exact ideWrite8_quiet falconTos c r v io hlistens i
  | true =>
      rw [hlistens] at hissued
      have hr : r = .statusCommand := by
        unfold Drive.listens at hlistens
        simp only [Bool.and_eq_true, beq_iff_eq] at hlistens
        exact hlistens.1.1
      have hpresent : (c.drive c.selected).present = true := by
        unfold Drive.listens at hlistens
        simp only [Bool.and_eq_true] at hlistens
        exact hlistens.2
      rw [hr] at hlistens
      rw [hr, ideWrite8_command falconTos c v io hlistens]
      by_cases hi : i = c.selected
      · rw [if_pos hi, hi]
        exact command_selected falconTos c a v hissued hpresent
      · rw [if_neg hi]
        exact DriveMove.of_calm (command_other falconTos c v hi)

theorem requestOf_of_issued_none {c : Controller} {a : Access} (h : issued c a = none) :
    requestOf c a = none := by
  unfold requestOf
  rw [h]
  rfl

theorem issued_write (r : Reg) (v : Byte) (w : Word) (io : HostIo) (hw : w.setWidth 8 = v) :
    issued c (.write8 r v io) = (if (c.drive c.selected).listens r then some v else none) ∧
      issued c (.write16 r w io) =
        if (c.drive c.selected).listens r then some v else none := by
  unfold issued Drive.listens
  cases hbusy : (c.drive c.selected).busy <;> cases hpresent : (c.drive c.selected).present <;>
    cases r <;> simp [hw, hbusy, hpresent]

theorem ideStep_issued {c : Controller} {a : Access} {v : Byte}
    (h : issued c a = some v) : ideStep falconTos c a = ideIssueCommand falconTos c v := by
  have hlistens : forall {r : Reg} {w : Byte},
      (if (c.drive c.selected).listens r then some w else none) = some v ->
      w = v ∧ r = .statusCommand ∧ (c.drive c.selected).listens .statusCommand = true := by
    intro r w hif
    split at hif
    · rename_i hl
      have hr : r = .statusCommand := by
        unfold Drive.listens at hl
        simp only [Bool.and_eq_true, beq_iff_eq] at hl
        exact hl.1.1
      injection hif with hif
      rw [hr] at hl
      exact ⟨hif, hr, hl⟩
    · cases hif
  cases a with
  | read8 r io =>
      unfold issued at h
      simp at h
  | write8 r w io =>
      rw [(issued_write c r w (w.setWidth 16) io (by simp)).1] at h
      rcases hlistens h with ⟨rfl, rfl, hl⟩
      exact ideWrite8_command falconTos c w io hl
  | read16 r io =>
      unfold issued at h
      simp at h
  | write16 r w io =>
      rw [(issued_write c r (w.setWidth 8) w io rfl).2] at h
      rcases hlistens h with ⟨hw, rfl, hl⟩
      have hbusy : (c.drive c.selected).busy = false := by
        unfold Drive.listens at hl
        simp only [Bool.and_eq_true, Bool.not_eq_true'] at hl
        exact hl.1.2
      change ideWrite16 falconTos c .statusCommand w io = _
      unfold ideWrite16
      rw [if_neg (by rw [hbusy]; simp), if_neg (by decide), hw]
      exact ideWrite8_command falconTos c v io hl
  | reset =>
      unfold issued at h
      simp at h

theorem access_moves (c : Controller) (a : Access) (i : Fin 2) :
    DriveMove falconTos (if i = c.selected then requestOf c a else none) (c.drive i)
      ((ideStep falconTos c a).drive i) := by
  have hread : forall a', issued c a' = none ->
      (if i = c.selected then requestOf c a' else none) = none := by
    intro a' hnone
    rw [requestOf_of_issued_none hnone, ite_self]
  cases a with
  | read8 r io =>
      rw [hread _ (by unfold issued; simp)]
      exact ideRead8_moves falconTos c r io i
  | write8 r v io =>
      exact ideWrite8_moves falconTos c r v io _
        (issued_write c r v (v.setWidth 16) io (by simp)).1 i
  | read16 r io =>
      rw [hread _ (by unfold issued; simp)]
      change DriveMove falconTos none (c.drive i) ((ideRead16 falconTos c r io).1.drive i)
      unfold ideRead16
      split
      · exact ideDataIn_moves falconTos c 2 io i
      · exact ideRead8_moves falconTos c r io i
  | write16 r v io =>
      have hissued := (issued_write c r (v.setWidth 8) v io rfl).2
      change DriveMove falconTos _ (c.drive i) ((ideWrite16 falconTos c r v io).drive i)
      unfold ideWrite16
      by_cases hbusy : r ≠ .altstDevctrl ∧ (c.drive c.selected).busy = true
      · rw [if_pos hbusy]
        have hquiet : (c.drive c.selected).listens r = false := by
          unfold Drive.listens
          rw [hbusy.2]
          simp
        rw [hquiet] at hissued
        rw [hread _ hissued]
        exact DriveMove.of_calm (Calm.refl _)
      · rw [if_neg hbusy]
        by_cases hdata : r = .data
        · rw [if_pos hdata]
          rw [hdata] at hissued
          rw [hread _ (by rw [hdata]; exact hissued)]
          exact ideDataOut_moves falconTos c v io i
        · rw [if_neg hdata]
          exact ideWrite8_moves falconTos c r _ io _ hissued i
  | reset =>
      rw [hread _ (by unfold issued; simp)]
      exact DriveMove.of_calm (calm_ideResetBegin c i)

end Ide
end PistormAtari
