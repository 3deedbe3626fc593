import PistormAtari.Ide.Moves

/-!
# Data transfers

A data access takes one datum from the sector buffer or puts one there; at the
end of the buffer a sector is read or written.  In every run the buffer index
stays inside the buffer, on a word boundary while the port is 16 bits wide.
-/

namespace PistormAtari
namespace Ide

open Foundation

/-!
## One datum
-/

def Drive.width (d : Drive) : Nat :=
  if d.eightbit then 1 else 2

variable (falconTos : Bool)

theorem takeDatum_dptr (d : Drive) (len : Nat) :
    (d.takeDatum falconTos len).dptr = d.dptr + d.width := by
  unfold Drive.takeDatum Drive.width
  dsimp only
  split <;> rfl

theorem putDatum_dptr (d : Drive) (v : Word) :
    (d.putDatum falconTos v).dptr = d.dptr + d.width := by
  unfold Drive.putDatum Drive.width
  dsimp only
  split
  · rfl
  · split <;> rfl

/-- A sector buffer that is read on: the next datum, or the sector's end. -/
inductive TakenOn (d d' : Drive) : Prop where
  | next (hdptr : d.dptr + d.width ≠ 512) (hstate : d'.state = d.state)
      (hdptr' : d'.dptr = d.dptr + d.width) (hlength : d'.length = d.length)
      (hfd : d'.fd = d.fd) (hdata : d'.data = d.data) (height : d'.eightbit = d.eightbit)
      (hfailed : d'.failed = d.failed) (horders : d'.orders = d.orders)
  | last (hdptr : d.dptr + d.width = 512) (hlength : d.length ≤ 1) (hstop : Stopped d d')
  | more (hdptr : d.dptr + d.width = 512) (hstate : d'.state = d.state) (hdptr' : d'.dptr = 512)
      (hlength : d'.length = d.length - 1) (hmore : 1 < d.length) (hfd : d'.fd = d.fd)
      (hdata : d'.data = d.data) (height : d'.eightbit = d.eightbit)
      (hfailed : d'.failed = d.failed) (horders : d'.orders = d.orders)

theorem TakenOn.byte {d d' : Drive} (h : TakenOn d d') : d'.fd.byte = d.fd.byte := by
  cases h with
  | next hdptr hstate hdptr' hlength hfd hdata height hfailed horders => rw [hfd]
  | last hdptr hlength hstop => exact hstop.byte
  | more hdptr hstate hdptr' hlength hmore hfd hdata height hfailed horders => rw [hfd]

theorem TakenOn.orders {d d' : Drive} (h : TakenOn d d') : d'.orders = d.orders := by
  cases h with
  | next hdptr hstate hdptr' hlength hfd hdata height hfailed horders => exact horders
  | last hdptr hlength hstop => exact hstop.orders
  | more hdptr hstate hdptr' hlength hmore hfd hdata height hfailed horders => exact horders

theorem TakenOn.size {d d' : Drive} (h : TakenOn d d') : d'.fd.size = d.fd.size := by
  cases h with
  | next hdptr hstate hdptr' hlength hfd hdata height hfailed horders => rw [hfd]
  | last hdptr hlength hstop => exact hstop.size
  | more hdptr hstate hdptr' hlength hmore hfd hdata height hfailed horders => rw [hfd]

theorem sectorTaken_stopped {d : Drive} (h : d.length ≤ 1) : Stopped d d.sectorTaken := by
  have hzero : d.length - 1 = 0 := by lia
  unfold Drive.sectorTaken
  dsimp only
  rw [if_pos hzero]
  exact stopped_of_idle rfl rfl rfl id rfl

theorem sectorTaken_more {d : Drive} (h : 1 < d.length) :
    d.sectorTaken = { d with length := d.length - 1, intrq := true } := by
  have hpos : ¬ d.length - 1 = 0 := by lia
  unfold Drive.sectorTaken
  dsimp only
  rw [if_neg hpos]

theorem takenOn_takeDatum (d : Drive) (len : Nat) :
    TakenOn d (if (d.takeDatum falconTos len).dptr = 512
      then (d.takeDatum falconTos len).sectorTaken else d.takeDatum falconTos len) := by
  have hdptr := takeDatum_dptr falconTos d len
  by_cases hend : d.dptr + d.width = 512
  · rw [if_pos (hdptr.trans hend)]
    rcases Nat.lt_or_ge 1 d.length with hmore | hlast
    · rw [@sectorTaken_more (d.takeDatum falconTos len) hmore]
      exact TakenOn.more hend rfl (hdptr.trans hend) rfl hmore rfl rfl rfl rfl rfl
    · have hstop := @sectorTaken_stopped (d.takeDatum falconTos len) hlast
      exact TakenOn.last hend hlast
        ⟨hstop.state, hstop.size, hstop.byte, hstop.data, hstop.failed, hstop.orders⟩
  · rw [if_neg fun h => hend (hdptr.symm.trans h)]
    exact TakenOn.next hend rfl hdptr rfl rfl rfl rfl rfl rfl

def Drive.sectorRead (d : Drive) : Drive :=
  { d with
    dptr := 0, fd := d.fd.advance 512, offset := d.offset + 512
    data := d.inFileOrder (readBlock d.fd.byte d.fd.pos 512) }

theorem ideReadSector_of_inside {d : Drive} (h : d.fd.pos + 512 ≤ d.fd.size)
    (hdata : d.data.length = 512) : ideReadSector d .works = (d.sectorRead, true) := by
  have hgot := OpenFile.readable_of_inside h
  have hlen : (d.fd.readable 512).length = 512 := by rw [hgot, length_readBlock]
  unfold ideReadSector Drive.sectorRead
  rw [← hgot]
  generalize d.fd.readable 512 = got at hlen
  have hdrop : d.data.drop got.length = [] :=
    List.drop_eq_nil_of_le (by rw [hlen, hdata])
  dsimp only
  rw [hdrop, List.append_nil, if_neg (not_not.mpr hlen)]
  rfl

theorem ideReadSector_ok {d : Drive} {io : HostIo} (h : (ideReadSector d io).2 = true) :
    io = .works ∧ d.fd.pos + 512 ≤ d.fd.size := by
  unfold ideReadSector at h
  cases io with
  | fails eio => cases h
  | works =>
      dsimp only at h
      by_cases hshort : (d.fd.readable 512).length ≠ 512
      · rw [if_pos hshort] at h
        cases h
      · have hfull : (d.fd.readable 512).length = 512 := not_not.mp hshort
        rw [OpenFile.length_readable] at hfull
        constructor
        · rfl
        · lia

theorem dataIn_took {falconTos : Bool} {d d' : Drive} {len : Nat} {io : HostIo}
    (hdata : d.data.length = 512) (h : d.dataIn falconTos len io = (d', true)) :
    (d.dptr ≠ 512 ∧ TakenOn d d') ∨
      (d.dptr = 512 ∧ d.fd.pos + 512 ≤ d.fd.size ∧ TakenOn d.sectorRead d') := by
  unfold Drive.dataIn at h
  by_cases hend : d.dptr = 512
  · right
    rw [if_pos hend] at h
    cases hread : ideReadSector d io with
    | mk d1 ok =>
        rw [hread] at h
        cases ok with
        | false => cases h
        | true =>
            have hok := @ideReadSector_ok d io (by rw [hread])
            rw [hok.1, ideReadSector_of_inside hok.2 hdata] at hread
            injection hread with hd1
            injection h with hd'
            rw [← hd', ← hd1]
            exact ⟨hend, hok.2, takenOn_takeDatum falconTos d.sectorRead len⟩
  · left
    rw [if_neg hend] at h
    injection h with hd'
    rw [← hd']
    exact ⟨hend, takenOn_takeDatum falconTos d len⟩

/-!
## One datum written
-/

theorem sectorWritten_stopped {d : Drive} (h : d.length ≤ 1) :
    Stopped d d.sectorWritten := by
  have hzero : d.length - 1 = 0 := by lia
  unfold Drive.sectorWritten
  dsimp only
  rw [if_pos hzero]
  exact stopped_of_idle rfl rfl rfl id rfl

theorem sectorWritten_more {d : Drive} (h : 1 < d.length) :
    d.sectorWritten.length = d.length - 1 ∧
      SameTransfer { d with length := d.length - 1 } d.sectorWritten := by
  have hpos : ¬ d.length - 1 = 0 := by lia
  unfold Drive.sectorWritten
  dsimp only
  rw [if_neg hpos]
  exact ⟨rfl, ⟨rfl, rfl, rfl, rfl, rfl, rfl, rfl, rfl⟩⟩

theorem sectorWritten_orders (d : Drive) : d.sectorWritten.orders = d.orders := by
  unfold Drive.sectorWritten
  dsimp only
  split <;> rfl

theorem sectorWritten_fd (d : Drive) : d.sectorWritten.fd = d.fd := by
  unfold Drive.sectorWritten
  dsimp only
  split <;> rfl

def Drive.sectorStored (d : Drive) : Drive :=
  { d with dptr := 0, fd := d.fd.write (d.inFileOrder d.data), offset := d.offset + 512 }

theorem dataOut_gave {falconTos : Bool} {d d' : Drive} {v : Word} {io : HostIo}
    (h : d.dataOut falconTos v io = (d', true)) :
    (d.dptr + d.width ≠ 512 ∧ d' = d.putDatum falconTos v) ∨
      (d.dptr + d.width = 512 ∧
        d' = (d.putDatum falconTos v).sectorStored.sectorWritten) := by
  have hdptr := putDatum_dptr falconTos d v
  unfold Drive.dataOut at h
  dsimp only at h
  by_cases hend : d.dptr + d.width = 512
  · right
    rw [if_pos (hdptr.trans hend)] at h
    cases io with
    | fails eio => cases h
    | works =>
        injection h with hd'
        rw [← hd']
        exact ⟨hend, rfl⟩
  · left
    rw [if_neg fun heq => hend (hdptr.symm.trans heq)] at h
    injection h with hd'
    rw [← hd']
    exact ⟨hend, rfl⟩

/-!
## The sector buffer in every run
-/

theorem Drive.width_le (d : Drive) : 1 ≤ d.width ∧ d.width ≤ 2 := by
  unfold Drive.width
  split <;> decide

theorem dptr_next {d : Drive} (hlt : d.dptr < 512)
    (heven : d.eightbit = false -> d.dptr % 2 = 0) :
    d.dptr + d.width ≤ 512 ∧ (d.eightbit = false -> (d.dptr + d.width) % 2 = 0) := by
  unfold Drive.width
  cases height : d.eightbit with
  | true =>
      rw [if_pos rfl]
      constructor
      · lia
      · intro h
        cases h
  | false =>
      have hmod := heven height
      rw [if_neg Bool.false_ne_true]
      constructor
      · lia
      · intro _
        lia

structure Paced (d : Drive) : Prop where
  buffer : d.data.length = 512
  unfailed : d.failed = false
  active : d.state = .dataIn ∨ d.state = .dataOut ->
    d.dptr ≤ 512 ∧ (d.eightbit = false -> d.dptr % 2 = 0)
  filling : d.state = .dataOut -> d.dptr < 512

namespace Paced

variable {d d' : Drive}

theorem of_idle (hstate : d.state = .idle) (hbuffer : d.data.length = 512)
    (hunfailed : d.failed = false) : Paced d := by
  have hnone : forall {p : Prop}, d.state = .dataIn ∨ d.state = .dataOut -> p := by
    intro p hactive
    rw [hstate] at hactive
    rcases hactive with hactive | hactive <;> cases hactive
  constructor
  · exact hbuffer
  · exact hunfailed
  · intro hactive
    exact hnone hactive
  · intro hactive
    exact hnone (Or.inr hactive)

theorem of_stopped (h : Paced d) (hstop : Stopped d d') : Paced d' :=
  of_idle hstop.state (hstop.data h.buffer) (hstop.failed h.unfailed)

theorem of_same (h : Paced d) (hsame : SameTransfer d d') : Paced d' := by
  constructor
  · rw [hsame.data, h.buffer]
  · rw [hsame.failed, h.unfailed]
  · rw [hsame.state, hsame.dptr, hsame.eightbit]
    exact h.active
  · rw [hsame.state, hsame.dptr]
    exact h.filling

theorem of_begun (hbuffer : d.data.length = 512) (hunfailed : d.failed = false)
    (hdptr : d.dptr = 0 ∨ d.state = .dataIn ∧ d.dptr = 512) : Paced d := by
  constructor
  · exact hbuffer
  · exact hunfailed
  · intro _
    rcases hdptr with hdptr | ⟨_, hdptr⟩
    · rw [hdptr]
      exact ⟨Nat.zero_le _, fun _ => rfl⟩
    · rw [hdptr]
      exact ⟨le_refl _, fun _ => rfl⟩
  · intro hout
    rcases hdptr with hdptr | ⟨hin, _⟩
    · rw [hdptr]
      decide
    · rw [hin] at hout
      cases hout

theorem of_takenOn (h : Paced d) (hstate : d.state = .dataIn) (hlt : d.dptr < 512)
    (htaken : TakenOn d d') : Paced d' := by
  have hnext := dptr_next hlt (h.active (Or.inl hstate)).2
  cases htaken with
  | next hdptr hstate' hdptr' hlength hfd hdata height hfailed horders =>
      constructor
      · rw [hdata, h.buffer]
      · rw [hfailed, h.unfailed]
      · intro _
        rw [hdptr', height]
        exact hnext
      · intro hout
        rw [hstate', hstate] at hout
        cases hout
  | last hdptr hlength hstop => exact h.of_stopped hstop
  | more hdptr hstate' hdptr' hlength hmore hfd hdata height hfailed horders =>
      exact of_begun (hdata ▸ h.buffer) (hfailed.trans h.unfailed)
        (Or.inr ⟨hstate'.trans hstate, hdptr'⟩)

theorem of_sectorRead (h : Paced d) : Paced d.sectorRead :=
  of_begun ((Drive.length_inFileOrder _ _).trans (length_readBlock _ _ _)) h.unfailed
    (Or.inl rfl)

theorem of_took (h : Paced d) {falconTos : Bool} {len : Nat} {io : HostIo}
    (hstate : d.state = .dataIn) (htook : d.dataIn falconTos len io = (d', true)) :
    Paced d' := by
  rcases dataIn_took h.buffer htook with ⟨hend, htaken⟩ | ⟨_, _, htaken⟩
  · have hle := (h.active (Or.inl hstate)).1
    exact h.of_takenOn hstate (Nat.lt_of_le_of_ne hle hend) htaken
  · exact h.of_sectorRead.of_takenOn hstate (Nat.zero_lt_succ _) htaken

theorem of_gave (h : Paced d) {falconTos : Bool} {v : Word} {io : HostIo}
    (hstate : d.state = .dataOut) (hgave : d.dataOut falconTos v io = (d', true)) :
    Paced d' := by
  have hbuf := putDatum_bufferOnly falconTos d v
  have hbuffer : (d.putDatum falconTos v).data.length = 512 := hbuf.data.trans h.buffer
  have hunfailed : (d.putDatum falconTos v).failed = false := hbuf.failed.trans h.unfailed
  have hnext := dptr_next (h.filling hstate) (h.active (Or.inr hstate)).2
  rcases dataOut_gave hgave with ⟨hmore, hd'⟩ | ⟨_, hd'⟩
  · rw [hd']
    constructor
    · exact hbuffer
    · exact hunfailed
    · intro _
      rw [putDatum_dptr, hbuf.eightbit]
      exact hnext
    · intro _
      rw [putDatum_dptr]
      exact Nat.lt_of_le_of_ne hnext.1 hmore
  · rw [hd']
    have hstored : Paced (d.putDatum falconTos v).sectorStored :=
      of_begun hbuffer hunfailed (Or.inl rfl)
    rcases Nat.lt_or_ge 1 (d.putDatum falconTos v).sectorStored.length with hlt | hle
    · have hwritten := (sectorWritten_more hlt).2
      exact (of_begun (d := { (d.putDatum falconTos v).sectorStored with
        length := (d.putDatum falconTos v).sectorStored.length - 1 })
        hbuffer hunfailed (Or.inl rfl)).of_same hwritten
    · exact hstored.of_stopped (sectorWritten_stopped hle)

theorem of_move (h : Paced d) {falconTos : Bool} {rq : Option Request}
    (hmove : DriveMove falconTos rq d d') : Paced d' := by
  cases hmove with
  | same hrq hsame => exact h.of_same hsame
  | stopped hstop => exact h.of_stopped hstop
  | identify hstate hdptr hlength hfd hdata hfailed horders =>
      exact of_begun hdata (hfailed.trans h.unfailed) (Or.inl hdptr)
  | reading hrq hstate hdptr hlength hfd hdata hfailed horders =>
      exact of_begun (hdata ▸ h.buffer) (hfailed.trans h.unfailed) (Or.inr ⟨hstate, hdptr⟩)
  | writing hrq hstate hdptr hlength hfd hdata hfailed horders =>
      exact of_begun (hdata ▸ h.buffer) (hfailed.trans h.unfailed) (Or.inl hdptr)
  | took hrq len io hstate htook => exact h.of_took hstate htook
  | gave hrq v io hstate hgave => exact h.of_gave hstate hgave

end Paced

/-!
## The controller after `InitIDE`
-/

structure Fresh (d : Drive) : Prop where
  state : d.state = .idle
  buffer : d.data.length = 512
  unfailed : d.failed = false

theorem Fresh.of_calm {d d' : Drive} (h : Fresh d) (hcalm : Calm d d') : Fresh d' := by
  rcases hcalm with hsame | hstop
  · constructor
    · rw [hsame.state, h.state]
    · rw [hsame.data, h.buffer]
    · rw [hsame.failed, h.unfailed]
  · exact ⟨hstop.state, hstop.data h.buffer, hstop.failed h.unfailed⟩

variable {c : Controller}

theorem attachImage_fresh (h : forall i, Fresh (c.drive i)) (j : Fin 2)
    (image : Option Image) (i : Fin 2) : Fresh ((attachImage c j image).drive i) := by
  have hput : forall {c' : Controller} {d : Drive}, (forall i, Fresh (c'.drive i)) ->
      Fresh d -> forall i, Fresh ((c'.put j d).drive i) := by
    intro c' d hc' hd k
    by_cases hk : k = j
    · rw [hk, put_drive_self]
      exact hd
    · rw [put_drive_of_ne hk]
      exact hc' k
  have hj := h j
  cases image with
  | none => exact h i
  | some image =>
      unfold attachImage
      dsimp only
      cases image.kind with
      | st =>
          dsimp only
          unfold ideAttachSt
          dsimp only
          split
          · exact h i
          · refine hput h ?_ i
            split
            · exact ⟨hj.state, hj.buffer, hj.unfailed⟩
            · exact ⟨hj.state, hj.buffer, hj.unfailed⟩
      | hdf =>
          have hattach : forall k, Fresh ((ideAttachHdf c j image.file).drive k) := by
            unfold ideAttachHdf
            dsimp only
            split
            · exact h
            · exact hput h ⟨hj.state, hj.buffer, hj.unfailed⟩
          have hattachj := hattach j
          dsimp only
          split
          · refine hput hattach ?_ i
            exact ⟨hattachj.state, hattachj.buffer, hattachj.unfailed⟩
          · exact hattach i

variable (images : Fin 2 -> Option Image)

theorem initIde_fresh (i : Fin 2) :
    Fresh ((initIde images).drive i) := by
  have hempty : forall i, Fresh (ideAllocate.drive i) :=
    fun i => ⟨rfl, List.length_replicate, rfl⟩
  have hattached := attachImage_fresh (attachImage_fresh hempty 0 (images 0)) 1 (images 1)
  have hshared : forall i, Fresh ((shareOrder
      (attachImage (attachImage ideAllocate 0 (images 0)) 1 (images 1))).drive i) := by
    intro k
    unfold shareOrder
    split
    · exact ⟨(hattached k).state, (hattached k).buffer, (hattached k).unfailed⟩
    · exact hattached k
  exact (hshared i).of_calm (calm_ideResetBegin _ i)

theorem Fresh.paced {d : Drive} (h : Fresh d) : Paced d :=
  Paced.of_idle h.state h.buffer h.unfailed

theorem one_le_requestCount (d : Drive) : 1 ≤ requestCount d := by
  unfold requestCount
  split
  · decide
  · rename_i hcount
    apply Nat.pos_of_ne_zero
    intro hzero
    exact hcount (BitVec.eq_of_toNat_eq hzero)

/-!
## What no move changes
-/

theorem DriveMove.orders {falconTos : Bool} {rq : Option Request} {d d' : Drive}
    (h : DriveMove falconTos rq d d') (hpaced : Paced d) : d'.orders = d.orders := by
  cases h with
  | same hrq hsame => exact hsame.orders
  | stopped hstop => exact hstop.orders
  | identify hstate hdptr hlength hfd hdata hfailed horders => exact horders
  | reading hrq hstate hdptr hlength hfd hdata hfailed horders => exact horders
  | writing hrq hstate hdptr hlength hfd hdata hfailed horders => exact horders
  | took hrq len io hstate htook =>
      rcases dataIn_took hpaced.buffer htook with ⟨_, htaken⟩ | ⟨_, _, htaken⟩
      · exact htaken.orders
      · exact htaken.orders
  | gave hrq v io hstate hgave =>
      have hbuf := putDatum_bufferOnly falconTos d v
      rcases dataOut_gave hgave with ⟨_, hd'⟩ | ⟨_, hd'⟩
      · rw [hd', hbuf.orders]
      · rw [hd', sectorWritten_orders]
        exact hbuf.orders

theorem DriveMove.size_le {falconTos : Bool} {rq : Option Request} {d d' : Drive}
    (h : DriveMove falconTos rq d d') (hpaced : Paced d) : d.fd.size ≤ d'.fd.size := by
  cases h with
  | same hrq hsame => rw [hsame.fd]
  | stopped hstop => rw [hstop.size]
  | identify hstate hdptr hlength hfd hdata hfailed horders => rw [hfd]
  | reading hrq hstate hdptr hlength hfd hdata hfailed horders =>
      rw [hfd, OpenFile.seek_size]
  | writing hrq hstate hdptr hlength hfd hdata hfailed horders =>
      rw [hfd, OpenFile.seek_size]
  | took hrq len io hstate htook =>
      rcases dataIn_took hpaced.buffer htook with ⟨_, htaken⟩ | ⟨_, _, htaken⟩
      · rw [htaken.size]
      · rw [htaken.size]
        exact le_refl _
  | gave hrq v io hstate hgave =>
      have hbuf := putDatum_bufferOnly falconTos d v
      rcases dataOut_gave hgave with ⟨_, hd'⟩ | ⟨_, hd'⟩
      · rw [hd', hbuf.fd]
      · rw [hd', sectorWritten_fd, ← hbuf.fd]
        exact OpenFile.size_le_write _ _

theorem paced_run (h : forall i, Paced (c.drive i))
    (ops : List Access) (i : Fin 2) : Paced ((run (ideStep falconTos) c ops).drive i) := by
  have hstep : forall c a, (forall j, Paced (c.drive j)) ->
      forall j, Paced ((ideStep falconTos c a).drive j) :=
    fun c a hc j => (hc j).of_move (access_moves falconTos c a j)
  exact run_invariant hstep h ops i

theorem run_paced (ops : List Access)
    (i : Fin 2) : Paced ((run (ideStep falconTos) (initIde images) ops).drive i) :=
  paced_run falconTos (fun j => (initIde_fresh images j).paced) ops i

theorem run_keeps (hpaced : forall i, Paced (c.drive i)) (ops : List Access) (i : Fin 2) :
    ((run (ideStep falconTos) c ops).drive i).orders = (c.drive i).orders ∧
      (c.drive i).fd.size ≤ ((run (ideStep falconTos) c ops).drive i).fd.size := by
  induction ops generalizing c with
  | nil => exact ⟨rfl, le_refl _⟩
  | cons a ops ih =>
      have hmove := access_moves falconTos c a
      have hrest := @ih (ideStep falconTos c a) fun j => (hpaced j).of_move (hmove j)
      rw [run_cons]
      constructor
      · rw [hrest.1, (hmove i).orders (hpaced i)]
      · exact Nat.le_trans ((hmove i).size_le (hpaced i)) hrest.2

/-!
## What only a write command changes
-/

theorem TakenOn.not_dataOut {d d' : Drive} (h : TakenOn d d') (hstate : d.state = .dataIn) :
    d'.state ≠ .dataOut := by
  cases h with
  | next hdptr hsame hdptr' hlength hfd hdata height hfailed horders =>
      rw [hsame, hstate]
      nofun
  | last hdptr hlength hstop =>
      rw [hstop.state]
      nofun
  | more hdptr hsame hdptr' hlength hmore hfd hdata height hfailed horders =>
      rw [hsame, hstate]
      nofun

theorem command_dataOut {falconTos : Bool} {c : Controller} {v : Byte}
    (hpresent : (c.drive c.selected).present = true)
    (hstate : ((ideIssueCommand falconTos c v).drive c.selected).state = .dataOut) :
    decodeCommand v = .write := by
  unfold ideIssueCommand at hstate
  dsimp only at hstate
  cases hcmd : decodeCommand v with
  | write => rfl
  | edd =>
      rw [hcmd] at hstate
      have hidle := @eddBoth_idle (c.put c.selected ((c.drive c.selected).begun v)) c.selected
        (by rw [put_drive_self]; exact hpresent)
      rw [hidle] at hstate
      cases hstate
  | read =>
      rw [hcmd] at hstate
      dsimp only at hstate
      rw [put_drive_self] at hstate
      unfold cmdReadsectorsComplete at hstate
      split at hstate
      · cases hstate
      · cases hstate
  | verify =>
      rw [hcmd] at hstate
      dsimp only at hstate
      rw [put_drive_self, (cmdVerify_stopped c _).state] at hstate
      cases hstate
  | seek =>
      rw [hcmd] at hstate
      dsimp only at hstate
      rw [put_drive_self, (cmdSeek_stopped c _).state] at hstate
      cases hstate
  | _ =>
      rw [hcmd] at hstate
      dsimp only at hstate
      rw [put_drive_self] at hstate
      cases hstate

def WritesTo (i : Fin 2) (c : Controller) (a : Access) : Prop :=
  i = c.selected ∧ (issued c a).map decodeCommand = some .write

theorem access_unwritten {a : Access} {i : Fin 2}
    (hpaced : Paced (c.drive i)) (hwrite : ¬ WritesTo i c a) (hout : (c.drive i).state ≠ .dataOut) :
    ((ideStep falconTos c a).drive i).state ≠ .dataOut ∧
      ((ideStep falconTos c a).drive i).fd.size = (c.drive i).fd.size ∧
      ((ideStep falconTos c a).drive i).fd.byte = (c.drive i).fd.byte := by
  cases access_moves falconTos c a i with
  | same hrq hsame => exact ⟨hsame.state ▸ hout, by rw [hsame.fd], by rw [hsame.fd]⟩
  | stopped hstop => exact ⟨by rw [hstop.state]; nofun, hstop.size, hstop.byte⟩
  | identify hstate hdptr hlength hfd hdata hfailed horders =>
      exact ⟨by rw [hstate]; nofun, by rw [hfd], by rw [hfd]⟩
  | reading hrq hstate hdptr hlength hfd hdata hfailed horders =>
      exact ⟨by rw [hstate]; nofun, by rw [hfd]; rfl, by rw [hfd]; rfl⟩
  | writing hrq hstate hdptr hlength hfd hdata hfailed horders =>
      split at hrq
      · rename_i hi
        unfold requestOf at hrq
        rcases Option.bind_eq_some_iff.mp hrq with ⟨v, hv, -⟩
        rw [ideStep_issued falconTos hv, hi] at hstate
        have hpresent : (c.drive c.selected).present = true := by
          by_contra habsent
          unfold issued at hv
          simp [Bool.eq_false_iff.mpr habsent] at hv
        have hcmd := command_dataOut hpresent hstate
        exact absurd ⟨hi, by rw [hv, Option.map_some, hcmd]⟩ hwrite
      · cases hrq
  | took hrq len io hstate htook =>
      rcases dataIn_took hpaced.buffer htook with ⟨_, htaken⟩ | ⟨_, _, htaken⟩
      · exact ⟨htaken.not_dataOut hstate, htaken.size, htaken.byte⟩
      · exact ⟨htaken.not_dataOut hstate, htaken.size, htaken.byte⟩
  | gave hrq v io hstate hgave => exact absurd hstate hout

/-- Whatever is done to the controller, the image of a drive that is given no command to write
sectors keeps its size and every byte. -/
theorem image_unwritten (ops : List Access) (i : Fin 2)
    (hops : Steps (ideStep falconTos) (fun c a => ¬ WritesTo i c a) (initIde images) ops) :
    ((run (ideStep falconTos) (initIde images) ops).drive i).fd.size =
        ((initIde images).drive i).fd.size ∧
      ((run (ideStep falconTos) (initIde images) ops).drive i).fd.byte =
        ((initIde images).drive i).fd.byte := by
  have hkept : forall (c : Controller) (a : Access),
      ((forall j, Paced (c.drive j)) ∧ (c.drive i).state ≠ .dataOut ∧
        (c.drive i).fd.size = ((initIde images).drive i).fd.size ∧
        (c.drive i).fd.byte = ((initIde images).drive i).fd.byte) -> ¬ WritesTo i c a ->
      (forall j, Paced ((ideStep falconTos c a).drive j)) ∧
        ((ideStep falconTos c a).drive i).state ≠ .dataOut ∧
        ((ideStep falconTos c a).drive i).fd.size = ((initIde images).drive i).fd.size ∧
        ((ideStep falconTos c a).drive i).fd.byte = ((initIde images).drive i).fd.byte := by
    rintro c a ⟨hpaced, hout, hsize, hbyte⟩ hwrite
    have hstep := access_unwritten falconTos (hpaced i) hwrite hout
    exact ⟨fun j => (hpaced j).of_move (access_moves falconTos c a j), hstep.1,
      hstep.2.1.trans hsize, hstep.2.2.trans hbyte⟩
  have hfresh := initIde_fresh images
  have hidle : ((initIde images).drive i).state ≠ .dataOut := by
    rw [(hfresh i).state]
    nofun
  exact (Steps.invariant hkept ⟨fun j => (hfresh j).paced, hidle, rfl, rfl⟩ hops).2.2

def twoDisks (_ : Fin 2) : Option Image :=
  some ⟨.hdf, OpenFile.zeros 4000000, .native⟩

theorem not_writesTo_data (i : Fin 2) (c : Controller) (v : Word) (io : HostIo) :
    ¬ WritesTo i c (.write16 .data v io) := by
  rintro ⟨_, hcmd⟩
  unfold issued at hcmd
  dsimp only at hcmd
  split at hcmd
  · cases hcmd
  · cases hcmd

/-- A sector is written to drive 1, and drive 0 keeps its image. -/
theorem image_unwritten_other_drive :
    ((run (ideStep false) (initIde twoDisks)
        ([.write8 .lbaTop 0x50 .works, .write8 .secCount 1 .works,
          .write8 .statusCommand 0x30 .works] ++
          List.replicate 256 (.write16 .data 0x1234 .works))).drive 0).fd.byte =
      ((initIde twoDisks).drive 0).fd.byte := by
  refine (image_unwritten false twoDisks _ 0 (Steps.append_iff.mpr ⟨?_, ?_⟩)).2
  · refine ⟨?_, ?_, ?_, trivial⟩
    · exact fun h => absurd h.2 (by decide +kernel)
    · exact fun h => absurd h.2 (by decide +kernel)
    · exact fun h => absurd h.1 (by decide +kernel)
  · generalize run (ideStep false) (initIde twoDisks) _ = c
    induction 256 generalizing c with
    | zero => trivial
    | succ n ih => exact ⟨not_writesTo_data 0 c _ _, ih _⟩

end Ide
end PistormAtari
