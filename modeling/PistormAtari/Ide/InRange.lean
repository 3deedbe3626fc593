import PistormAtari.Ide.Transfer

/-!
# Accesses inside the image

`idedriver.c` tests no address: a request past the end of the image is begun
like any other.  As long as every request lies inside the image, no sector
outside it is touched, no file grows, and a write changes no byte outside the
sectors it addressed.
-/

namespace PistormAtari
namespace Ide

open Foundation

/-!
## Transfers inside the image
-/

/-- Sectors that a transfer has still to move to or from the file. -/
def Drive.ahead (d : Drive) : Nat :=
  match d.state with
  | .dataIn => if d.dptr = 512 then d.length else d.length - 1
  | .dataOut => d.length
  | _ => 0

/-- A drive on an image of `size` bytes whose transfer, if any, is a part of the
request `rq`, which lies in the first `n` sectors. -/
structure Within (size n : Nat) (rq : Request) (d : Drive) : Prop where
  size_eq : d.fd.size = size
  backed : 512 * n ≤ size
  range : rq.start + 512 * rq.count ≤ 512 * n
  paced : Paced d
  started : d.state = .dataIn ∨ d.state = .dataOut -> 1 ≤ d.length
  position : 0 < d.ahead -> d.ahead ≤ rq.count ∧
    d.fd.pos + 512 * d.ahead = rq.start + 512 * rq.count

theorem Drive.ahead_dataOut {d : Drive} (h : d.state = .dataOut) : d.ahead = d.length := by
  unfold Drive.ahead
  rw [h]

theorem Drive.ahead_dataIn {d : Drive} (h : d.state = .dataIn) :
    d.ahead = if d.dptr = 512 then d.length else d.length - 1 := by
  unfold Drive.ahead
  rw [h]

theorem Drive.ahead_idle {d : Drive} (h : d.state = .idle) : d.ahead = 0 := by
  unfold Drive.ahead
  rw [h]

namespace Within

variable {size n : Nat} {rq : Request} {d d' : Drive}

theorem of_idle (hstate : d.state = .idle) (hpaced : Paced d) (hsize : d.fd.size = size)
    (hbacked : 512 * n ≤ size) (hrange : rq.start + 512 * rq.count ≤ 512 * n) :
    Within size n rq d := by
  constructor
  · exact hsize
  · exact hbacked
  · exact hrange
  · exact hpaced
  · intro hactive
    rw [hstate] at hactive
    rcases hactive with hactive | hactive <;> cases hactive
  · intro hahead
    rw [Drive.ahead_idle hstate] at hahead
    cases hahead

section

variable (h : Within size n rq d)

include h

theorem of_stopped (hstop : Stopped d d') {rq' : Request}
    (hrange : rq'.start + 512 * rq'.count ≤ 512 * n) : Within size n rq' d' :=
  of_idle hstop.state (h.paced.of_stopped hstop) (hstop.size.trans h.size_eq) h.backed hrange

theorem of_same (hsame : SameTransfer d d') :
    Within size n rq d' := by
  have hahead : d'.ahead = d.ahead := by
    unfold Drive.ahead
    rw [hsame.state, hsame.dptr, hsame.length]
  constructor
  · rw [hsame.fd, h.size_eq]
  · exact h.backed
  · exact h.range
  · exact h.paced.of_same hsame
  · rw [hsame.state, hsame.length]
    exact h.started
  · rw [hahead, hsame.fd]
    exact h.position

theorem of_takenOn (hstate : d.state = .dataIn)
    (hlt : d.dptr < 512) (htaken : TakenOn d d') : Within size n rq d' := by
  have hpaced := h.paced.of_takenOn hstate hlt htaken
  have hstarted := h.started (Or.inl hstate)
  have hposition := h.position
  rw [Drive.ahead_dataIn hstate, if_neg (Nat.ne_of_lt hlt)] at hposition
  cases htaken with
  | next hdptr hstate' hdptr' hlength hfd hdata height hfailed horders =>
      have hahead : d'.ahead = d.length - 1 := by
        rw [Drive.ahead_dataIn (hstate'.trans hstate), hdptr', if_neg hdptr, hlength]
      constructor
      · rw [hfd, h.size_eq]
      · exact h.backed
      · exact h.range
      · exact hpaced
      · intro _
        rw [hlength]
        exact hstarted
      · rw [hahead, hfd]
        exact hposition
  | last hdptr hlength hstop => exact h.of_stopped hstop h.range
  | more hdptr hstate' hdptr' hlength hmore hfd hdata height hfailed horders =>
      have hahead : d'.ahead = d.length - 1 := by
        rw [Drive.ahead_dataIn (hstate'.trans hstate), if_pos hdptr', hlength]
      constructor
      · rw [hfd, h.size_eq]
      · exact h.backed
      · exact h.range
      · exact hpaced
      · intro _
        rw [hlength]
        lia
      · rw [hahead, hfd]
        exact hposition

theorem of_sectorRead (hstate : d.state = .dataIn)
    (hend : d.dptr = 512) (hinside : d.fd.pos + 512 ≤ d.fd.size) :
    Within size n rq d.sectorRead := by
  have hstarted := h.started (Or.inl hstate)
  have hposition := h.position
  rw [Drive.ahead_dataIn hstate, if_pos hend] at hposition
  have hpos := hposition hstarted
  have hahead : d.sectorRead.ahead = d.length - 1 := by
    rw [@Drive.ahead_dataIn d.sectorRead hstate]
    rfl
  have hadvance : d.sectorRead.fd.pos = d.fd.pos + 512 :=
    OpenFile.advance_pos_of_inside hinside
  constructor
  · exact h.size_eq
  · exact h.backed
  · exact h.range
  · exact h.paced.of_sectorRead
  · intro _
    exact hstarted
  · rw [hahead, hadvance]
    lia

theorem next_sector (hahead : 0 < d.ahead) :
    rq.start ≤ d.fd.pos ∧ d.fd.pos + 512 ≤ rq.start + 512 * rq.count ∧
      d.fd.pos + 512 ≤ 512 * n ∧ d.fd.pos + 512 ≤ d.fd.size := by
  have hpos := h.position hahead
  have hrange := h.range
  have hbacked := h.backed
  rw [h.size_eq]
  lia

variable {falconTos : Bool}

theorem of_took {len : Nat} {io : HostIo}
    (hstate : d.state = .dataIn) (htook : d.dataIn falconTos len io = (d', true)) :
    Within size n rq d' := by
  have hle := (h.paced.active (Or.inl hstate)).1
  rcases dataIn_took h.paced.buffer htook with ⟨hend, htaken⟩ | ⟨hend, hinside, htaken⟩
  · exact h.of_takenOn hstate (Nat.lt_of_le_of_ne hle hend) htaken
  · have hread := h.of_sectorRead hstate hend hinside
    exact hread.of_takenOn hstate (Nat.zero_lt_succ _) htaken

theorem of_putDatum {v : Word}
    (hstate : d.state = .dataOut) (hpaced : Paced (d.putDatum falconTos v)) :
    Within size n rq (d.putDatum falconTos v) := by
  have hbuf := putDatum_bufferOnly falconTos d v
  have hahead : (d.putDatum falconTos v).ahead = d.ahead := by
    rw [Drive.ahead_dataOut (hbuf.state.trans hstate), Drive.ahead_dataOut hstate, hbuf.length]
  constructor
  · rw [hbuf.fd, h.size_eq]
  · exact h.backed
  · exact h.range
  · exact hpaced
  · intro _
    rw [hbuf.length]
    exact h.started (Or.inr hstate)
  · rw [hahead, hbuf.fd]
    exact h.position

theorem of_sectorStored {v : Word} (hstate : d.state = .dataOut)
    (hpaced : Paced (d.putDatum falconTos v).sectorStored.sectorWritten) :
    Within size n rq (d.putDatum falconTos v).sectorStored.sectorWritten := by
  have hstarted := h.started (Or.inr hstate)
  have hbuf := putDatum_bufferOnly falconTos d v
  have hlen : ((d.putDatum falconTos v).inFileOrder (d.putDatum falconTos v).data).length =
      512 := by
    rw [Drive.length_inFileOrder, hbuf.data, h.paced.buffer]
  have hahead := Drive.ahead_dataOut hstate
  have hposition := h.position
  rw [hahead] at hposition
  have hpos := hposition hstarted
  have hnext := h.next_sector (hahead ▸ hstarted)
  have hsize : (d.putDatum falconTos v).sectorStored.fd.size = size := by
    rw [← h.size_eq, ← hbuf.fd]
    apply OpenFile.write_size_of_inside
    rw [hlen, hbuf.fd]
    exact hnext.2.2.2
  have hfdpos : (d.putDatum falconTos v).sectorStored.fd.pos = d.fd.pos + 512 := by
    change (d.putDatum falconTos v).fd.pos + _ = _
    rw [hlen, hbuf.fd]
  have hlength : (d.putDatum falconTos v).sectorStored.length = d.length := hbuf.length
  rcases Nat.lt_or_ge 1 d.length with hmore | hlast
  · have hwritten := sectorWritten_more (hlength ▸ hmore)
    have hrest := hwritten.2
    rw [hlength] at hwritten
    have hstate' : (d.putDatum falconTos v).sectorStored.sectorWritten.state = .dataOut :=
      hrest.state.trans (hbuf.state.trans hstate)
    constructor
    · rw [hrest.fd]
      exact hsize
    · exact h.backed
    · exact h.range
    · exact hpaced
    · intro _
      rw [hwritten.1]
      lia
    · intro _
      rw [Drive.ahead_dataOut hstate', hwritten.1, hrest.fd]
      change _ ∧ (d.putDatum falconTos v).sectorStored.fd.pos + _ = _
      rw [hfdpos]
      lia
  · have hstop := sectorWritten_stopped (hlength ▸ hlast)
    exact of_idle hstop.state hpaced (hstop.size.trans hsize) h.backed h.range

theorem of_gave {v : Word} {io : HostIo}
    (hstate : d.state = .dataOut) (hgave : d.dataOut falconTos v io = (d', true)) :
    Within size n rq d' := by
  have hpaced := h.paced.of_gave hstate hgave
  rcases dataOut_gave hgave with ⟨_, hd'⟩ | ⟨_, hd'⟩
  · rw [hd'] at hpaced ⊢
    exact h.of_putDatum hstate hpaced
  · rw [hd'] at hpaced ⊢
    exact h.of_sectorStored hstate hpaced

theorem of_begun (hpaced : Paced d') {r : Request}
    (hrange : r.start + 512 * r.count ≤ 512 * n) (hcount : 1 ≤ r.count)
    (hstate : d'.state = .dataIn ∧ d'.dptr = 512 ∨ d'.state = .dataOut)
    (hlength : d'.length = r.count) (hfd : d'.fd = d.fd.seek r.start) : Within size n r d' := by
  have hahead : d'.ahead = r.count := by
    rcases hstate with ⟨hstate, hdptr⟩ | hstate
    · rw [Drive.ahead_dataIn hstate, if_pos hdptr, hlength]
    · rw [Drive.ahead_dataOut hstate, hlength]
  constructor
  · rw [hfd, OpenFile.seek_size, h.size_eq]
  · exact h.backed
  · exact hrange
  · exact hpaced
  · intro _
    rw [hlength]
    exact hcount
  · intro _
    rw [hahead, hfd, OpenFile.seek_pos]
    exact ⟨le_refl _, rfl⟩

theorem of_identify (hpaced : Paced d') (hstate : d'.state = .dataIn)
    (hdptr : d'.dptr = 0) (hlength : d'.length = 1) (hfd : d'.fd = d.fd) {rq' : Request}
    (hrange : rq'.start + 512 * rq'.count ≤ 512 * n) : Within size n rq' d' := by
  constructor
  · rw [hfd, h.size_eq]
  · exact h.backed
  · exact hrange
  · exact hpaced
  · intro _
    rw [hlength]
  · intro hahead
    rw [Drive.ahead_dataIn hstate, hdptr, hlength] at hahead
    cases hahead

theorem of_move {asked : Option Request} (hasked : forall r, asked = some r ->
      r.start + 512 * r.count ≤ 512 * n ∧ 1 ≤ r.count)
    (hmove : DriveMove falconTos asked d d') : Within size n (asked.getD rq) d' := by
  have hpaced := h.paced.of_move hmove
  have hrange : (asked.getD rq).start + 512 * (asked.getD rq).count ≤ 512 * n := by
    cases hcase : asked with
    | none => exact h.range
    | some r => exact (hasked r hcase).1
  cases hmove with
  | same hrq hsame =>
      rw [hrq]
      exact h.of_same hsame
  | stopped hstop => exact h.of_stopped hstop hrange
  | identify hstate hdptr hlength hfd hdata hfailed horders =>
      exact h.of_identify hpaced hstate hdptr hlength hfd hrange
  | reading hrq hstate hdptr hlength hfd hdata hfailed horders =>
      have hr := hasked _ hrq
      rw [hrq]
      exact h.of_begun hpaced hr.1 hr.2 (Or.inl ⟨hstate, hdptr⟩) hlength hfd
  | writing hrq hstate hdptr hlength hfd hdata hfailed horders =>
      have hr := hasked _ hrq
      rw [hrq]
      exact h.of_begun hpaced hr.1 hr.2 (Or.inr hstate) hlength hfd
  | took hrq len io hstate htook =>
      rw [hrq]
      exact h.of_took hstate htook
  | gave hrq v io hstate hgave =>
      rw [hrq]
      exact h.of_gave hstate hgave

theorem move_frame {asked : Option Request}
    (hmove : DriveMove falconTos asked d d') {b : Nat} (hb : d'.fd.byte b ≠ d.fd.byte b) :
    rq.start ≤ b ∧ b < rq.start + 512 * rq.count := by
  cases hmove with
  | same hrq hsame =>
      rw [hsame.fd] at hb
      exact absurd rfl hb
  | stopped hstop =>
      rw [hstop.byte] at hb
      exact absurd rfl hb
  | identify hstate hdptr hlength hfd hdata hfailed horders =>
      rw [hfd] at hb
      exact absurd rfl hb
  | reading hrq hstate hdptr hlength hfd hdata hfailed horders =>
      rw [hfd] at hb
      exact absurd rfl hb
  | writing hrq hstate hdptr hlength hfd hdata hfailed horders =>
      rw [hfd] at hb
      exact absurd rfl hb
  | took hrq len io hstate htook =>
      have hbyte : d'.fd.byte = d.fd.byte := by
        rcases dataIn_took h.paced.buffer htook with ⟨_, htaken⟩ | ⟨_, _, htaken⟩
        · exact htaken.byte
        · exact htaken.byte
      rw [hbyte] at hb
      exact absurd rfl hb
  | gave hrq v io hstate hgave =>
      have hstarted := h.started (Or.inr hstate)
      have hbuf := putDatum_bufferOnly falconTos d v
      have hnext := h.next_sector (Drive.ahead_dataOut hstate ▸ hstarted)
      rcases dataOut_gave hgave with ⟨_, hd'⟩ | ⟨_, hd'⟩
      · rw [hd', hbuf.fd] at hb
        exact absurd rfl hb
      · have hfd := sectorWritten_fd (d.putDatum falconTos v).sectorStored
        have hlen := Drive.length_inFileOrder (d.putDatum falconTos v)
          (d.putDatum falconTos v).data
        rw [hbuf.data, h.paced.buffer] at hlen
        rw [hd', hfd] at hb
        by_contra hout
        apply hb
        change writeBlock (d.putDatum falconTos v).fd.byte _ _ b = d.fd.byte b
        rw [hbuf.fd]
        apply writeBlock_of_outside
        rw [hlen]
        lia

end

end Within

/-!
## Runs

A run is watched: beside the controller stands the last request made of each
drive.
-/

structure Watched where
  ctl : Controller
  request : Fin 2 -> Request

def watched (c : Controller) : Watched where
  ctl := c
  request := fun _ => ⟨0, 0⟩

def asked (c : Controller) (a : Access) (i : Fin 2) : Option Request :=
  if i = c.selected then requestOf c a else none

def watchStep (falconTos : Bool) (w : Watched) (a : Access) : Watched where
  ctl := ideStep falconTos w.ctl a
  request := fun i => (asked w.ctl a i).getD (w.request i)

def InRange (n : Nat) (r : Request) : Prop :=
  r.start + 512 * r.count ≤ 512 * n

instance (n : Nat) (r : Request) : Decidable (InRange n r) :=
  inferInstanceAs (Decidable (_ ≤ _))

/-- The offset of the sector an access reads or writes in the image file. -/
def sectorIo (c : Controller) (a : Access) : Option Nat :=
  let d := c.drive c.selected
  match a with
  | .read8 .data _ => if d.state = .dataIn ∧ d.dptr = 512 then some d.fd.pos else none
  | .read16 .data _ => if d.state = .dataIn ∧ d.dptr = 512 then some d.fd.pos else none
  | .write8 .data _ _ =>
      if d.state = .dataOut ∧ d.dptr + d.width = 512 then some d.fd.pos else none
  | .write16 .data _ _ =>
      if d.state = .dataOut ∧ d.dptr + d.width = 512 then some d.fd.pos else none
  | _ => none

def attachedSectors (images : Fin 2 -> Option Image) (i : Fin 2) : Nat :=
  imageSectors ((initIde images).drive i).fd

/-- An access stays inside the image: the sector it moves is one of the image's,
a request past the end is refused, no file changes its size, and a byte changes
only inside the sectors the drive was last asked for. -/
structure StaysInside (falconTos : Bool) (images : Fin 2 -> Option Image) (w : Watched)
    (a : Access) : Prop where
  touched : forall p, sectorIo w.ctl a = some p ->
    p + 512 ≤ 512 * attachedSectors images w.ctl.selected
  refused : forall r, requestOf w.ctl a = some r ->
    ¬ InRange (attachedSectors images w.ctl.selected) r ->
      ((ideStep falconTos w.ctl a).drive w.ctl.selected).taskfile.status &&& ST_ERR ≠ 0 ∧
        ((ideStep falconTos w.ctl a).drive w.ctl.selected).taskfile.error &&&
          (ERR_IDNF ||| ERR_ABRT) ≠ 0
  size_eq : forall i, ((ideStep falconTos w.ctl a).drive i).fd.size =
    ((initIde images).drive i).fd.size
  frame : forall i b, ((ideStep falconTos w.ctl a).drive i).fd.byte b ≠
      (w.ctl.drive i).fd.byte b ->
    (w.request i).start ≤ b ∧ b < (w.request i).start + 512 * (w.request i).count

def AsksInRange (images : Fin 2 -> Option Image) (w : Watched) (a : Access) : Prop :=
  forall r, requestOf w.ctl a = some r -> InRange (attachedSectors images w.ctl.selected) r

def AllWithin (images : Fin 2 -> Option Image) (w : Watched) : Prop :=
  forall i, Within ((initIde images).drive i).fd.size (attachedSectors images i)
    (w.request i) (w.ctl.drive i)

theorem one_le_count {c : Controller} {a : Access} {r : Request}
    (h : requestOf c a = some r) : 1 ≤ r.count := by
  unfold requestOf at h
  cases hissued : issued c a with
  | none =>
      rw [hissued] at h
      cases h
  | some v =>
      rw [hissued] at h
      change commandRequest c (decodeCommand v) = some r at h
      unfold commandRequest at h
      split at h
      · injection h with h
        rw [← h]
        exact one_le_requestCount _
      · injection h with h
        rw [← h]
        exact one_le_requestCount _
      · injection h with h
        rw [← h]
        exact one_le_requestCount _
      · injection h with h
        rw [← h]
      · cases h

theorem watchStep_allWithin (falconTos : Bool) (images : Fin 2 -> Option Image) (w : Watched)
    (a : Access) (h : AllWithin images w) (hask : AsksInRange images w a) :
    AllWithin images (watchStep falconTos w a) := by
  intro i
  apply (h i).of_move _ (access_moves falconTos w.ctl a i)
  intro r hr
  by_cases hi : i = w.ctl.selected
  · rw [if_pos hi] at hr
    rw [hi]
    exact ⟨hask r hr, one_le_count hr⟩
  · rw [if_neg hi] at hr
    cases hr

theorem sectorIo_inside {size n : Nat} {rq : Request} {c : Controller} {a : Access}
    (h : Within size n rq (c.drive c.selected)) {p : Nat} (hp : sectorIo c a = some p) :
    p + 512 ≤ 512 * n := by
  have hin : (c.drive c.selected).state = .dataIn ∧ (c.drive c.selected).dptr = 512 ->
      (c.drive c.selected).fd.pos + 512 ≤ 512 * n := by
    intro hread
    have hstarted := h.started (Or.inl hread.1)
    have hahead := Drive.ahead_dataIn hread.1
    rw [if_pos hread.2] at hahead
    exact (h.next_sector (hahead ▸ hstarted)).2.2.1
  have hout : (c.drive c.selected).state = .dataOut ∧
      (c.drive c.selected).dptr + (c.drive c.selected).width = 512 ->
      (c.drive c.selected).fd.pos + 512 ≤ 512 * n := by
    intro hwrite
    have hstarted := h.started (Or.inr hwrite.1)
    exact (h.next_sector (Drive.ahead_dataOut hwrite.1 ▸ hstarted)).2.2.1
  have hin' : (if (c.drive c.selected).state = .dataIn ∧ (c.drive c.selected).dptr = 512
      then some (c.drive c.selected).fd.pos else none) = some p -> p + 512 ≤ 512 * n := by
    intro hif
    split at hif
    · injection hif with hif
      rw [← hif]
      exact hin ‹_›
    · cases hif
  have hout' : (if (c.drive c.selected).state = .dataOut ∧
      (c.drive c.selected).dptr + (c.drive c.selected).width = 512
      then some (c.drive c.selected).fd.pos else none) = some p -> p + 512 ≤ 512 * n := by
    intro hif
    split at hif
    · injection hif with hif
      rw [← hif]
      exact hout ‹_›
    · cases hif
  unfold sectorIo at hp
  dsimp only at hp
  split at hp
  · exact hin' hp
  · exact hin' hp
  · exact hout' hp
  · exact hout' hp
  · cases hp

theorem staysInside_of_allWithin (falconTos : Bool) (images : Fin 2 -> Option Image)
    (w : Watched) (a : Access) (h : AllWithin images w) (hask : AsksInRange images w a) :
    StaysInside falconTos images w a := by
  have hnext := watchStep_allWithin falconTos images w a h hask
  constructor
  · intro p hp
    exact sectorIo_inside (h w.ctl.selected) hp
  · intro r hr hout
    exact absurd (hask r hr) hout
  · intro i
    exact (hnext i).size_eq
  · intro i b hb
    exact (h i).move_frame (access_moves falconTos w.ctl a i) hb

/-!
## Images as they are attached
-/

theorem initIde_allWithin (images : Fin 2 -> Option Image) :
    AllWithin images (watched (initIde images)) := by
  intro i
  have hfresh := initIde_fresh images i
  refine Within.of_idle hfresh.state hfresh.paced rfl ?_ (Nat.zero_le _)
  unfold attachedSectors imageSectors
  have hdiv := Nat.div_mul_le_self ((initIde images).drive i).fd.size 512
  have hmin := Nat.min_le_left (((initIde images).drive i).fd.size / 512) 0x0FFFFFFF
  lia

/-!
## A request past the end is not refused
-/

theorem command_no_error (falconTos : Bool) (c : Controller) (v : Byte) {r : Request}
    (hunfailed : (c.drive c.selected).failed = false)
    (hr : commandRequest c (decodeCommand v) = some r) :
    ((ideIssueCommand falconTos c v).drive c.selected).taskfile.status &&& ST_ERR = 0 := by
  have hclear : forall s : Byte,
      (((((s &&& ~~~(ST_ERR ||| ST_DRDY)) ||| ST_BSY) &&& ~~~ST_BSY |||
        (ST_DRQ ||| ST_DSC ||| ST_DRDY)) &&& ~~~ST_BSY ||| ST_DRQ) &&& ST_ERR = 0) ∧
      (((((s &&& ~~~(ST_ERR ||| ST_DRDY)) ||| ST_BSY) &&& ~~~0 ||| ST_DSC) &&&
        ~~~(ST_BSY ||| ST_DRQ) ||| (ST_DRDY ||| ST_DSC)) &&& ST_ERR = 0) ∧
      (((((s &&& ~~~(ST_ERR ||| ST_DRDY)) ||| ST_BSY) &&& ~~~0 ||| ST_DRQ) &&&
        ~~~(ST_BSY ||| ST_DRDY) ||| ST_DRQ) &&& ST_ERR = 0) := by
    decide +kernel
  have hbegun : ((c.drive c.selected).begun v).failed = false := hunfailed
  unfold ideIssueCommand
  dsimp only
  cases hcmd : decodeCommand v with
  | read =>
      rw [put_drive_self]
      unfold cmdReadsectorsComplete
      rw [hbegun]
      exact (hclear _).1
  | verify =>
      rw [put_drive_self]
      unfold cmdVerifysectorsComplete
      rw [hbegun]
      exact (hclear _).2.1
  | write =>
      rw [put_drive_self]
      unfold cmdWritesectorsComplete
      rw [hbegun]
      exact (hclear _).2.2
  | seek =>
      rw [put_drive_self]
      unfold cmdSeekComplete
      rw [hbegun]
      exact (hclear _).2.1
  | _ =>
      rw [hcmd] at hr
      cases hr

theorem asksInRange_of_staysInside {falconTos : Bool} {images : Fin 2 -> Option Image}
    {w : Watched} {a : Access} (h : AllWithin images w)
    (hstays : StaysInside falconTos images w a) : AsksInRange images w a := by
  intro r hr
  by_contra hout
  have hrefused := (hstays.refused r hr hout).1
  apply hrefused
  have hunfailed := (h w.ctl.selected).paced.unfailed
  have hr' := hr
  unfold requestOf at hr'
  cases hissued : issued w.ctl a with
  | none =>
      rw [hissued] at hr'
      cases hr'
  | some v =>
      rw [hissued] at hr'
      rw [ideStep_issued falconTos hissued]
      exact command_no_error falconTos w.ctl v hunfailed hr'

/-- A run stays inside the images exactly when every request it makes does. -/
theorem run_staysInside_iff (falconTos : Bool) (images : Fin 2 -> Option Image)
    (ops : List Access) :
    Steps (watchStep falconTos) (StaysInside falconTos images) (watched (initIde images)) ops <->
      Steps (watchStep falconTos) (AsksInRange images) (watched (initIde images)) ops := by
  apply Steps.iff_of_invariant _ _ (initIde_allWithin images)
  · intro w a hw hask
    exact watchStep_allWithin falconTos images w a hw hask
  · intro w a hw
    constructor
    · exact asksInRange_of_staysInside hw
    · exact staysInside_of_allWithin falconTos images w a hw

/-- A hard disk of 7813 sectors, with 200 bytes to spare, on the first slot. -/
def smallDisk (i : Fin 2) : Option Image :=
  if i.val = 0 then
    some ⟨.hdf, OpenFile.zeros (7813 * 512 + 200), .native⟩
  else none

/-- `WRITE SECTORS` of the one sector at LBA 7813, and its words but the last. -/
def writePastEnd : List Access :=
  [.write8 .secCount 1 .works, .write8 .lbaLow 0x85 .works, .write8 .lbaMid 0x1E .works,
    .write8 .lbaHi 0 .works, .write8 .lbaTop DEVH_LBA .works,
    .write8 .statusCommand 0x30 .works] ++
  List.replicate 255 (.write16 .data 0x1234 .works)

theorem write_past_end_grows :
    ¬ Steps (watchStep false) (StaysInside false smallDisk) (watched (initIde smallDisk))
      (writePastEnd ++ [.write16 .data 0x1234 .works]) := by
  intro h
  have hsize := (Steps.at h).size_eq 0
  have hbefore : ((initIde smallDisk).drive 0).fd.size = 7813 * 512 + 200 := by
    decide +kernel
  have hafter : ((ideStep false
      (run (watchStep false) (watched (initIde smallDisk)) writePastEnd).ctl
      (.write16 .data 0x1234 .works)).drive 0).fd.size = 7814 * 512 := by
    decide +kernel
  rw [hbefore, hafter] at hsize
  cases hsize

end Ide
end PistormAtari
