import PistormAtari.Ide.ByteOrder
import PistormAtari.Ide.InRange

/-!
# Byte-swapped images

Two controllers whose image files hold the same sectors, one plain and one with
the bytes of each word exchanged, cannot be told apart from the bus.  With what
`ByteOrder` says of the words that go through the port, this makes the byte order
of an image invisible to the guest.
-/

namespace PistormAtari
namespace Ide

open Foundation

/-!
## Twins

A twin of a drive differs from it in what lies behind the data port: the sector
buffer, the image file and the order of the file.
-/

structure Store where
  data : List Byte
  fd : OpenFile Byte
  imgSwapped : Bool

def Drive.over (d : Drive) (s : Store) : Drive :=
  { d with data := s.data, fd := s.fd, imgSwapped := s.imgSwapped }

/-- A store shows the same sectors as the drive, and the same bytes in the part
of the buffer that a transfer looks at. -/
structure Agree (d : Drive) (s : Store) : Prop where
  paced : Paced d
  buffer : s.data.length = 512
  size : s.fd.size = d.fd.size
  pos : s.fd.pos = d.fd.pos
  sectors : forall k, (d.over s).inFileOrder (readBlock s.fd.byte (512 * k) 512) =
    d.inFileOrder (readBlock d.fd.byte (512 * k) 512)
  shown : d.state = .dataIn -> s.data.drop d.dptr = d.data.drop d.dptr
  filled : d.state = .dataOut -> s.data.take d.dptr = d.data.take d.dptr
  aligned : d.state = .dataOut ∨ d.state = .dataIn ∧ (d.dptr = 512 ∨ 1 < d.length) ->
    d.fd.pos % 512 = 0

def Twin (d d' : Drive) : Prop :=
  exists s, d' = d.over s ∧ Agree d s

structure Twins (c c' : Controller) : Prop where
  selected : c'.selected = c.selected
  lba1 : c'.lba1 = c.lba1
  lba2 : c'.lba2 = c.lba2
  lba3 : c'.lba3 = c.lba3
  lba4 : c'.lba4 = c.lba4
  drive : forall i, Twin (c.drive i) (c'.drive i)

theorem Agree.same {d d1 : Drive} {s : Store} (h : Agree d s) (hsame : SameTransfer d d1) :
    Agree d1 s := by
  have himg := (orders_eq hsame.orders).2
  have horder : (d1.over s).inFileOrder = (d.over s).inFileOrder := rfl
  constructor
  · exact h.paced.of_same hsame
  · exact h.buffer
  · rw [hsame.fd, h.size]
  · rw [hsame.fd, h.pos]
  · intro k
    rw [horder, h.sectors, hsame.fd, inFileOrder_congr hsame.orders]
  · rw [hsame.state, hsame.dptr, hsame.data]
    exact h.shown
  · rw [hsame.state, hsame.dptr, hsame.data]
    exact h.filled
  · rw [hsame.state, hsame.dptr, hsame.length, hsame.fd]
    exact h.aligned

theorem Agree.idle {d d1 : Drive} {s s1 : Store} (h : Agree d s) (hstop : Stopped d d1)
    (hbuffer : s1.data.length = 512) (hsize : s1.fd.size = s.fd.size)
    (hbyte : s1.fd.byte = s.fd.byte) (himg : s1.imgSwapped = s.imgSwapped)
    (hpos : s1.fd.pos = d1.fd.pos) : Agree d1 s1 := by
  have horder : (d1.over s1).inFileOrder = (d.over s).inFileOrder := by
    unfold Drive.inFileOrder Drive.over
    dsimp only
    rw [himg]
  have hno : forall {p : Prop}, d1.state = .dataIn ∨ d1.state = .dataOut -> p := by
    intro p hactive
    rw [hstop.state] at hactive
    rcases hactive with hactive | hactive <;> cases hactive
  constructor
  · exact h.paced.of_stopped hstop
  · exact hbuffer
  · rw [hsize, h.size, hstop.size]
  · exact hpos
  · intro k
    rw [horder, hbyte, h.sectors, hstop.byte, inFileOrder_congr hstop.orders]
  · exact fun hin => hno (Or.inl hin)
  · exact fun hout => hno (Or.inr hout)
  · rintro (hout | ⟨hin, _⟩)
    · exact hno (Or.inr hout)
    · exact hno (Or.inl hin)

theorem Agree.rest {d d1 : Drive} {s : Store} (h : Agree d s) (hstop : Stopped d d1)
    (hfd : d1.fd = d.fd) : Agree d1 s :=
  h.idle hstop h.buffer rfl rfl rfl (by rw [hfd, h.pos])

theorem Agree.begin {d d1 : Drive} {s : Store} (h : Agree d s) {off : Nat}
    (hoff : off % 512 = 0) (hfd : d1.fd = d.fd.seek off) (hdata : d1.data = d.data)
    (hfailed : d1.failed = d.failed) (horders : d1.orders = d.orders)
    (hstate : d1.state = .dataIn ∧ d1.dptr = 512 ∨ d1.state = .dataOut ∧ d1.dptr = 0) :
    Agree d1 { s with fd := s.fd.seek off } := by
  have hbuffer : d1.data.length = 512 := by rw [hdata, h.paced.buffer]
  have horder : (d1.over { s with fd := s.fd.seek off }).inFileOrder =
      (d.over s).inFileOrder := rfl
  constructor
  · apply Paced.of_begun hbuffer (hfailed.trans h.paced.unfailed)
    rcases hstate with hin | ⟨_, hdptr⟩
    · exact Or.inr hin
    · exact Or.inl hdptr
  · exact h.buffer
  · rw [hfd]
    exact h.size
  · rw [hfd]
    rfl
  · intro k
    rw [horder, hfd, inFileOrder_congr horders]
    exact h.sectors k
  · intro hin
    rcases hstate with ⟨_, hdptr⟩ | ⟨hout, _⟩
    · rw [hdptr, List.drop_eq_nil_of_le (Nat.le_of_eq h.buffer),
        List.drop_eq_nil_of_le (Nat.le_of_eq hbuffer)]
    · rw [hin] at hout
      cases hout
  · intro hout
    rcases hstate with ⟨hin, _⟩ | ⟨_, hdptr⟩
    · rw [hin] at hout
      cases hout
    · rw [hdptr]
      rfl
  · intro _
    rw [hfd]
    exact hoff

/-!
## Register changes
-/

variable {c c' : Controller}

theorem Twins.put (h : Twins c c') (i : Fin 2) {d d' : Drive}
    (hd : Twin d d') : Twins (c.put i d) (c'.put i d') := by
  constructor
  · exact h.selected
  · exact h.lba1
  · exact h.lba2
  · exact h.lba3
  · exact h.lba4
  · intro j
    by_cases hj : j = i
    · rw [hj, put_drive_self, put_drive_self]
      exact hd
    · rw [put_drive_of_ne hj, put_drive_of_ne hj]
      exact h.drive j

theorem Twins.setLba (h : Twins c c') (l1 l2 l3 l4 : Byte) :
    Twins { c with lba1 := l1, lba2 := l2, lba3 := l3, lba4 := l4 }
      { c' with lba1 := l1, lba2 := l2, lba3 := l3, lba4 := l4 } :=
  ⟨h.selected, rfl, rfl, rfl, rfl, h.drive⟩

theorem Twins.select (h : Twins c c') (i : Fin 2) :
    Twins { c with selected := i } { c' with selected := i } :=
  ⟨rfl, h.lba1, h.lba2, h.lba3, h.lba4, h.drive⟩

theorem Twin.present {d d' : Drive} (h : Twin d d') : d'.present = d.present := by
  rcases h with ⟨s, rfl, _⟩
  rfl

theorem Twin.busy {d d' : Drive} (h : Twin d d') : d'.busy = d.busy := by
  rcases h with ⟨s, rfl, _⟩
  rfl

theorem Twin.taskfile {d d' : Drive} (h : Twin d d') : d'.taskfile = d.taskfile := by
  rcases h with ⟨s, rfl, _⟩
  rfl

theorem Twin.rest {f : Drive -> Drive} (hover : forall d s, f (d.over s) = (f d).over s)
    (hstop : forall d, Stopped d (f d)) (hfd : forall d, (f d).fd = d.fd) {d d' : Drive}
    (h : Twin d d') : Twin (f d) (f d') := by
  rcases h with ⟨s, rfl, hagree⟩
  exact ⟨s, hover d s, hagree.rest (hstop d) (hfd d)⟩

theorem Twin.ready {d d' : Drive} (h : Twin d d') : Twin (Ide.ready d) (Ide.ready d') :=
  h.rest (fun _ _ => rfl) stopped_ready (fun _ => rfl)

section

variable (h : Twins c c')

include h

theorem Twins.eddSetup (i : Fin 2) :
    Twins (Ide.eddSetup c i) (Ide.eddSetup c' i) := by
  have hd : Twin
      (Ide.ready { c.drive i with
        taskfile := { (c.drive i).taskfile with error := 0x01, count := 0x01 } })
      (Ide.ready { c'.drive i with
        taskfile := { (c'.drive i).taskfile with error := 0x01, count := 0x01 } }) := by
    rcases h.drive i with ⟨s, hs, hagree⟩
    rw [hs]
    exact ⟨s, rfl, hagree.rest (stopped_of_idle rfl rfl rfl id rfl) rfl⟩
  exact (h.put i hd).setLba 0x01 0x00 0x00 0x00

theorem Twins.eddIfPresent (i : Fin 2) :
    Twins (Ide.eddIfPresent c i) (Ide.eddIfPresent c' i) := by
  unfold Ide.eddIfPresent
  rw [(h.drive i).present]
  split
  · exact h.eddSetup i
  · exact h

theorem Twins.resetDrive (i : Fin 2) :
    Twins (Ide.resetDrive c i) (Ide.resetDrive c' i) := by
  unfold Ide.resetDrive
  rw [(h.drive i).present]
  split
  · have hedd := h.eddSetup i
    apply hedd.put i
    have hstate : ((Ide.eddSetup c i).drive i).state = .idle := by
      change (((c.put i _).drive i).state) = .idle
      rw [put_drive_self]
      rfl
    rcases hedd.drive i with ⟨s, hs, hagree⟩
    rw [hs]
    refine ⟨s, rfl, hagree.rest ?_ rfl⟩
    exact stopped_of_idle hstate rfl rfl id rfl
  · exact h

theorem Twins.ideReset :
    Twins (Ide.ideReset c) (Ide.ideReset c') :=
  ((h.resetDrive 0).resetDrive 1).select 0

theorem Twins.busyIfPresent (i : Fin 2) :
    Twins (Ide.busyIfPresent c i) (Ide.busyIfPresent c' i) := by
  unfold Ide.busyIfPresent
  rw [(h.drive i).present]
  split
  · apply h.put i
    rcases h.drive i with ⟨s, hs, hagree⟩
    rw [hs]
    exact ⟨s, rfl, hagree.same ⟨rfl, rfl, rfl, rfl, rfl, rfl, rfl, rfl⟩⟩
  · exact h

theorem Twins.ideResetBegin :
    Twins (Ide.ideResetBegin c) (Ide.ideResetBegin c') :=
  ((h.busyIfPresent 0).busyIfPresent 1).ideReset

theorem Twins.writeDevctrl (v : Byte) :
    Twins (Ide.writeDevctrl c v) (Ide.writeDevctrl c' v) := by
  have hset : forall {c1 c1' : Controller}, Twins c1 c1' ->
      Twins
        { c1 with drive := fun i =>
            { c1.drive i with taskfile := { (c1.drive i).taskfile with devctrl := v } } }
        { c1' with drive := fun i =>
            { c1'.drive i with taskfile := { (c1'.drive i).taskfile with devctrl := v } } } := by
    intro c1 c1' h1
    refine ⟨h1.selected, h1.lba1, h1.lba2, h1.lba3, h1.lba4, ?_⟩
    intro i
    rcases h1.drive i with ⟨s, hs, hagree⟩
    dsimp only
    rw [hs]
    exact ⟨s, rfl, hagree.same ⟨rfl, rfl, rfl, rfl, rfl, rfl, rfl, rfl⟩⟩
  unfold Ide.writeDevctrl
  dsimp only
  rw [h.selected, (h.drive c.selected).taskfile]
  split
  · split
    · exact hset ((h.ideReset.busyIfPresent 0).busyIfPresent 1)
    · have hfirst := h.put 0 (h.drive 0).ready
      exact hset (hfirst.put 1 (hfirst.drive 1).ready)
  · exact hset h

/-!
## Commands
-/

theorem Twins.xlateBlock (d : Drive) (s : Store) :
    Ide.xlateBlock c' (d.over s) = Ide.xlateBlock c d := by
  unfold Ide.xlateBlock
  rw [h.lba1, h.lba2, h.lba3, h.lba4]
  rfl

end

theorem xlateBlock_aligned (c : Controller) (d : Drive) : xlateBlock c d % 512 = 0 := by
  unfold xlateBlock
  exact Nat.mul_mod_left _ 512

variable {d : Drive} {s : Store}

theorem Agree.begun (h : Agree d s) (v : Byte) :
    Agree (d.begun v) s := by
  have hpaced : Paced (d.begun v) := by
    constructor
    · exact h.paced.buffer
    · exact h.paced.unfailed
    · rintro (hin | hout)
      · cases hin
      · cases hout
    · intro hout
      cases hout
  constructor
  · exact hpaced
  · exact h.buffer
  · exact h.size
  · exact h.pos
  · exact h.sectors
  · intro hin
    cases hin
  · intro hout
    cases hout
  · rintro (hout | ⟨hin, _⟩)
    · cases hout
    · cases hin

theorem Agree.identify (h : Agree d s) (falconTos : Bool) :
    Agree (cmdIdentifyComplete falconTos d)
      { s with data := (cmdIdentifyComplete falconTos d).data } := by
  have hbuffer : (cmdIdentifyComplete falconTos d).data.length = 512 := by
    have hlen := length_identifyBytes d.identify.toList
    rw [Vector.length_toList] at hlen
    change (if _ then diskSwap512 _ else _ : List Byte).length = 512
    split
    · rw [length_diskSwap512, hlen]
    · exact hlen
  constructor
  · exact Paced.of_begun hbuffer h.paced.unfailed (Or.inl rfl)
  · exact hbuffer
  · exact h.size
  · exact h.pos
  · exact h.sectors
  · intro _
    rfl
  · intro hout
    cases hout
  · rintro (hout | ⟨_, hend | hmore⟩)
    · cases hout
    · cases hend
    · exact absurd hmore (Nat.lt_irrefl 1)

theorem cmdSetfeatures_over (d : Drive) (s : Store) :
    cmdSetfeaturesComplete (d.over s) = (cmdSetfeaturesComplete d).over s := by
  unfold cmdSetfeaturesComplete Drive.over
  dsimp only
  split
  · rfl
  · split <;> rfl
  · rfl
  · rfl

theorem Twins.cmdRecalibrate_over (h : Twins c c') {d : Drive}
    (hunfailed : d.failed = false) (s : Store) :
    cmdRecalibrateComplete c' (d.over s) = (cmdRecalibrateComplete c d).over s := by
  have hunfailed' : (d.over s).failed = false := hunfailed
  unfold cmdRecalibrateComplete
  rw [hunfailed, hunfailed']
  simp only [Bool.false_eq_true, if_false]
  rw [h.xlateBlock]
  split <;> rfl

theorem Twins.cmdSeek_over (h : Twins c c') {d : Drive}
    (hunfailed : d.failed = false) (s : Store) :
    cmdSeekComplete c' (d.over s) =
      (cmdSeekComplete c d).over { s with fd := s.fd.seek (Ide.xlateBlock c d) } := by
  have hunfailed' : (d.over s).failed = false := hunfailed
  unfold cmdSeekComplete
  rw [hunfailed, hunfailed']
  simp only [Bool.false_eq_true, if_false]
  rw [h.xlateBlock]
  rfl

theorem Twins.command (h : Twins c c') (falconTos : Bool) (v : Byte) :
    Twins (ideIssueCommand falconTos c v) (ideIssueCommand falconTos c' v) := by
  rcases h.drive c.selected with ⟨s, hs, hagree⟩
  have hbegun := hagree.begun v
  have hsel : (c'.drive c'.selected).begun v = ((c.drive c.selected).begun v).over s := by
    rw [h.selected, hs]
    rfl
  have hunfailed := hbegun.paced.unfailed
  unfold ideIssueCommand
  dsimp only
  rw [hsel, h.selected]
  generalize (c.drive c.selected).begun v = d at hbegun hunfailed
  have hrest : forall {d1 : Drive}, Stopped d d1 -> d1.fd = d.fd ->
      Twins (c.put c.selected d1) (c'.put c.selected (d1.over s)) :=
    fun hstop hfd => h.put c.selected ⟨s, rfl, hbegun.rest hstop hfd⟩
  cases decodeCommand v with
  | edd =>
      have hput := h.put c.selected ⟨s, rfl, hbegun⟩
      exact ((hput.eddIfPresent 0).eddIfPresent 1).select 0
  | identify =>
      exact h.put c.selected ⟨_, rfl, hbegun.identify falconTos⟩
  | initparam => exact hrest (stopped_of_idle rfl rfl rfl (fun _ => rfl) rfl) rfl
  | read =>
      apply h.put c.selected
      refine ⟨{ s with fd := s.fd.seek (Ide.xlateBlock c d) }, ?_, ?_⟩
      · unfold cmdReadsectorsComplete
        rw [h.xlateBlock, hunfailed]
        change (if d.failed = true then _ else _) = _
        rw [hunfailed]
        rfl
      · unfold cmdReadsectorsComplete
        rw [hunfailed]
        exact hbegun.begin (xlateBlock_aligned c d) rfl rfl rfl rfl (Or.inl ⟨rfl, rfl⟩)
  | setfeatures =>
      have htransfer := cmdSetfeatures_transfer d
      rw [cmdSetfeatures_over]
      exact hrest (stopped_of_idle rfl htransfer.1 htransfer.2.1
        (fun hf => htransfer.2.2.1.trans hf) htransfer.2.2.2) htransfer.1
  | verify =>
      apply h.put c.selected
      have hstop := cmdVerify_stopped c d
      refine ⟨{ s with fd := s.fd.seek (Ide.xlateBlock c d + (requestCount d - 1) * 512) }, ?_, ?_⟩
      · unfold cmdVerifysectorsComplete
        rw [h.xlateBlock, hunfailed]
        change (if d.failed = true then _ else _) = _
        rw [hunfailed]
        rfl
      · refine hbegun.idle hstop hbegun.buffer ?_ ?_ ?_ ?_
        · rfl
        · rfl
        · rfl
        · unfold cmdVerifysectorsComplete
          rw [hunfailed]
          rfl
  | write =>
      apply h.put c.selected
      refine ⟨{ s with fd := s.fd.seek (Ide.xlateBlock c d) }, ?_, ?_⟩
      · unfold cmdWritesectorsComplete
        rw [h.xlateBlock, hunfailed]
        change (if d.failed = true then _ else _) = _
        rw [hunfailed]
        rfl
      · unfold cmdWritesectorsComplete
        rw [hunfailed]
        exact hbegun.begin (xlateBlock_aligned c d) rfl rfl rfl rfl (Or.inr ⟨rfl, rfl⟩)
  | recalibrate =>
      have htransfer := cmdRecalibrate_transfer c d
      rw [h.cmdRecalibrate_over hunfailed]
      exact hrest (stopped_of_idle rfl htransfer.1 htransfer.2.1
        (fun hf => htransfer.2.2.1.trans hf) htransfer.2.2.2) htransfer.1
  | seek =>
      apply h.put c.selected
      have hstop := cmdSeek_stopped c d
      refine ⟨{ s with fd := s.fd.seek (Ide.xlateBlock c d) }, ?_, ?_⟩
      · exact h.cmdSeek_over hunfailed s
      · refine hbegun.idle hstop hbegun.buffer ?_ ?_ ?_ ?_
        · rfl
        · rfl
        · rfl
        · unfold cmdSeekComplete
          rw [hunfailed]
          rfl
  | unknown => exact hrest (stopped_of_idle rfl rfl rfl id rfl) rfl

/-!
## Data reads
-/

theorem getD_of_drop {xs ys : List Byte} {p : Nat} (h : xs.drop p = ys.drop p) (k : Nat) :
    xs.getD (p + k) 0 = ys.getD (p + k) 0 := by
  have hk := congrArg (fun l => l[k]?) h
  simp only [List.getElem?_drop] at hk
  rw [List.getD_eq_getElem?_getD, List.getD_eq_getElem?_getD, hk]

theorem drop_of_drop {xs ys : List Byte} {p q : Nat} (h : xs.drop p = ys.drop p) (hle : p ≤ q) :
    xs.drop q = ys.drop q := by
  have hsplit : q = p + (q - p) := by lia
  rw [hsplit, ← List.drop_drop, h, List.drop_drop]

theorem Agree.takeDatum_over (h : Agree d s)
    (hstate : d.state = .dataIn) (falconTos : Bool) (len : Nat) :
    (d.over s).takeDatum falconTos len = (d.takeDatum falconTos len).over s := by
  have hfirst := getD_of_drop (h.shown hstate) 0
  have hsecond := getD_of_drop (h.shown hstate) 1
  rw [Nat.add_zero] at hfirst
  have hfirst' : (d.over s).data.getD (d.over s).dptr 0 = d.data.getD d.dptr 0 := hfirst
  have hsecond' : (d.over s).data.getD ((d.over s).dptr + 1) 0 = d.data.getD (d.dptr + 1) 0 :=
    hsecond
  unfold Drive.takeDatum
  dsimp only
  rw [hfirst', hsecond']
  rfl

theorem Agree.readOn (h : Agree d s) (hstate : d.state = .dataIn)
    (hlt : d.dptr < 512) (falconTos : Bool) (len : Nat) :
    Twin
      (if (d.takeDatum falconTos len).dptr = 512 then (d.takeDatum falconTos len).sectorTaken
        else d.takeDatum falconTos len)
      (if ((d.over s).takeDatum falconTos len).dptr = 512
        then ((d.over s).takeDatum falconTos len).sectorTaken
        else (d.over s).takeDatum falconTos len) := by
  have hover := h.takeDatum_over hstate falconTos len
  have hdptr := takeDatum_dptr falconTos d len
  have htaken := takenOn_takeDatum falconTos d len
  have hpaced := h.paced.of_takenOn hstate hlt htaken
  have hle : d.dptr ≤ d.dptr + d.width := Nat.le_add_right _ _
  have hshown := drop_of_drop (h.shown hstate) hle
  have hdptr' : ((d.takeDatum falconTos len).over s).dptr = (d.takeDatum falconTos len).dptr :=
    rfl
  rw [hover, hdptr']
  by_cases hend : (d.takeDatum falconTos len).dptr = 512
  · rw [if_pos hend, if_pos hend]
    rw [if_pos hend] at hpaced
    rcases Nat.lt_or_ge 1 d.length with hmore | hlast
    · rw [@sectorTaken_more (d.takeDatum falconTos len) hmore] at hpaced ⊢
      rw [@sectorTaken_more ((d.takeDatum falconTos len).over s) hmore]
      refine ⟨s, rfl, ?_⟩
      constructor
      · exact hpaced
      · exact h.buffer
      · exact h.size
      · exact h.pos
      · exact h.sectors
      · intro _
        change s.data.drop (d.takeDatum falconTos len).dptr = d.data.drop _
        rw [hdptr]
        exact hshown
      · intro hout
        have hout' : d.state = .dataOut := hout
        rw [hstate] at hout'
        cases hout'
      · intro _
        exact h.aligned (Or.inr ⟨hstate, Or.inr hmore⟩)
    · have hstop := @sectorTaken_stopped (d.takeDatum falconTos len) hlast
      have hzero : d.length - 1 = 0 := by lia
      have hfd : (d.takeDatum falconTos len).sectorTaken.fd = d.fd := by
        unfold Drive.sectorTaken
        dsimp only
        split <;> rfl
      have hstop' : Stopped d (d.takeDatum falconTos len).sectorTaken :=
        ⟨hstop.state, hstop.size, hstop.byte, hstop.data, hstop.failed, hstop.orders⟩
      refine ⟨s, ?_, h.rest hstop' hfd⟩
      have hlength : ((d.takeDatum falconTos len).over s).length - 1 = 0 := hzero
      have hlength' : (d.takeDatum falconTos len).length - 1 = 0 := hzero
      unfold Drive.sectorTaken
      dsimp only
      rw [if_pos hlength, if_pos hlength']
      rfl
  · rw [if_neg hend, if_neg hend]
    rw [if_neg hend] at hpaced
    refine ⟨s, rfl, ?_⟩
    constructor
    · exact hpaced
    · exact h.buffer
    · exact h.size
    · exact h.pos
    · exact h.sectors
    · intro _
      change s.data.drop (d.takeDatum falconTos len).dptr = d.data.drop _
      rw [hdptr]
      exact hshown
    · intro hout
      have hout' : d.state = .dataOut := hout
      rw [hstate] at hout'
      cases hout'
    · rintro (hout | ⟨_, hfull | hmore⟩)
      · have hout' : d.state = .dataOut := hout
        rw [hstate] at hout'
        cases hout'
      · exact absurd hfull hend
      · exact h.aligned (Or.inr ⟨hstate, Or.inr hmore⟩)

theorem Agree.sectorRead (h : Agree d s) (hstate : d.state = .dataIn)
    (hend : d.dptr = 512) (hinside : d.fd.pos + 512 ≤ d.fd.size) :
    exists s1, (d.over s).sectorRead = d.sectorRead.over s1 ∧ Agree d.sectorRead s1 := by
  have haligned := h.aligned (Or.inr ⟨hstate, Or.inl hend⟩)
  have hpos : 512 * (d.fd.pos / 512) = d.fd.pos := by lia
  have hsector := h.sectors (d.fd.pos / 512)
  rw [hpos] at hsector
  have hinside' : s.fd.pos + 512 ≤ s.fd.size := by
    rw [h.pos, h.size]
    exact hinside
  refine ⟨⟨d.sectorRead.data, s.fd.advance 512, s.imgSwapped⟩, ?_, ?_⟩
  · have hdata : (d.over s).sectorRead.data = d.sectorRead.data := by
      change (d.over s).inFileOrder (readBlock s.fd.byte s.fd.pos 512) = _
      rw [h.pos, hsector]
      rfl
    unfold Drive.over
    rw [← hdata]
    rfl
  · have hbuffer : d.sectorRead.data.length = 512 :=
      (Drive.length_inFileOrder _ _).trans (length_readBlock _ _ _)
    constructor
    · exact h.paced.of_sectorRead
    · exact hbuffer
    · exact h.size
    · change (s.fd.advance 512).pos = (d.fd.advance 512).pos
      rw [OpenFile.advance_pos_of_inside hinside, OpenFile.advance_pos_of_inside hinside', h.pos]
    · exact h.sectors
    · intro _
      rfl
    · intro _
      rfl
    · intro _
      change (d.fd.advance 512).pos % 512 = 0
      rw [OpenFile.advance_pos_of_inside hinside]
      lia

structure SameFile (s : Store) (d1 : Drive) (s1 : Store) : Prop where
  buffer : s1.data.length = 512
  size : s1.fd.size = s.fd.size
  byte : s1.fd.byte = s.fd.byte
  imgSwapped : s1.imgSwapped = s.imgSwapped
  pos : s1.fd.pos = d1.fd.pos

theorem ideReadSector_short (h : ¬ d.fd.pos + 512 ≤ d.fd.size) :
    ideReadSector d .works = (ideXlateErrno (({ d with
        dptr := 0, fd := d.fd.advance 512
        data := d.fd.readable 512 ++ d.data.drop (d.fd.readable 512).length } : Drive).setStatus
          ST_DSC ST_ERR) none, false) := by
  have hshort : (d.fd.readable 512).length ≠ 512 := by
    rw [OpenFile.length_readable]
    lia
  unfold ideReadSector
  dsimp only
  rw [if_pos hshort]

/-- A sector that one drive cannot read, its twin cannot read. -/
theorem Agree.readFailed (h : Agree d s) {io : HostIo}
    (hfailed : (ideReadSector d io).2 = false) :
    exists s1, ideReadSector (d.over s) io = ((ideReadSector d io).1.over s1, false) ∧
      SameFile s (ideReadSector d io).1 s1 := by
  cases io with
  | fails eio => exact ⟨s, rfl, ⟨h.buffer, rfl, rfl, rfl, h.pos⟩⟩
  | works =>
      have hout : ¬ d.fd.pos + 512 ≤ d.fd.size := by
        intro hinside
        rw [ideReadSector_of_inside hinside h.paced.buffer] at hfailed
        cases hfailed
      have hout' : ¬ (d.over s).fd.pos + 512 ≤ (d.over s).fd.size := by
        change ¬ s.fd.pos + 512 ≤ s.fd.size
        rw [h.pos, h.size]
        exact hout
      rw [ideReadSector_short hout, ideReadSector_short hout']
      refine ⟨⟨s.fd.readable 512 ++ s.data.drop (s.fd.readable 512).length, s.fd.advance 512,
        s.imgSwapped⟩, rfl, ?_⟩
      have hgot : (s.fd.readable 512).length ≤ 512 := by
        rw [OpenFile.length_readable]
        exact Nat.min_le_left _ _
      constructor
      · change (s.fd.readable 512 ++ s.data.drop (s.fd.readable 512).length).length = 512
        rw [List.length_append, List.length_drop, h.buffer]
        lia
      · rfl
      · rfl
      · rfl
      · change s.fd.pos + min 512 (s.fd.size - s.fd.pos) = d.fd.pos + min 512 (d.fd.size - d.fd.pos)
        rw [h.pos, h.size]

theorem Twins.setError (h : Twins c c') {i : Fin 2} {s s1 : Store}
    {d1 : Drive} (hagree : Agree (c.drive i) s) (hfile : SameFile s d1 s1)
    (hsize : d1.fd.size = (c.drive i).fd.size) (hbyte : d1.fd.byte = (c.drive i).fd.byte)
    (hbuffer : d1.data.length = 512) (hfailed : d1.failed = (c.drive i).failed)
    (horders : d1.orders = (c.drive i).orders) :
    Twins (ideSetError (c.put i d1) i) (ideSetError (c'.put i (d1.over s1)) i) := by
  have hdone : Twin
      (completed (({ d1 with
        taskfile := { d1.taskfile with count := BitVec.ofNat 8 d1.length } } : Drive).setStatus
          0 ST_ERR))
      (completed (({ d1.over s1 with
        taskfile := { d1.taskfile with count := BitVec.ofNat 8 d1.length } } : Drive).setStatus
          0 ST_ERR)) := by
    refine ⟨s1, rfl, hagree.idle ?_ hfile.buffer hfile.size hfile.byte hfile.imgSwapped hfile.pos⟩
    exact ⟨rfl, hsize, hbyte, fun _ => hbuffer, fun hf => hfailed.trans hf, horders⟩
  have hput := (h.put i hdone).setLba (BitVec.ofNat 8 (d1.offset / 512))
    (BitVec.ofNat 8 (d1.offset / 512 / 2 ^ 8)) (BitVec.ofNat 8 (d1.offset / 512 / 2 ^ 16))
    ((c.lba4 &&& DEVH_DEV) ||| DEVH_LBA |||
      (BitVec.ofNat 8 (d1.offset / 512 / 2 ^ 24) &&& DEVH_HEAD))
  unfold ideSetError
  dsimp only
  rw [put_drive_self, put_drive_self, put_put, put_put]
  have hlba4 : (c'.put i (d1.over s1)).lba4 = c.lba4 := h.lba4
  rw [hlba4]
  exact hput

theorem Drive.dataIn_eq (falconTos : Bool) (d : Drive) (len : Nat) (io : HostIo) :
    d.dataIn falconTos len io =
      (if d.dptr = 512 then
        (if (ideReadSector d io).2 then
          (if ((ideReadSector d io).1.takeDatum falconTos len).dptr = 512
            then ((ideReadSector d io).1.takeDatum falconTos len).sectorTaken
            else (ideReadSector d io).1.takeDatum falconTos len, true)
        else ((ideReadSector d io).1, false))
      else
        (if (d.takeDatum falconTos len).dptr = 512 then (d.takeDatum falconTos len).sectorTaken
          else d.takeDatum falconTos len, true)) := by
  unfold Drive.dataIn
  by_cases hend : d.dptr = 512
  · rw [if_pos hend, if_pos hend]
  · rw [if_neg hend, if_neg hend]
    rfl

theorem Agree.dataIn (h : Agree d s) (hstate : d.state = .dataIn)
    (falconTos : Bool) (len : Nat) (io : HostIo) :
    (exists d1 d1', d.dataIn falconTos len io = (d1, true) ∧
        (d.over s).dataIn falconTos len io = (d1', true) ∧ Twin d1 d1') ∨
      (exists s1, d.dataIn falconTos len io = ((ideReadSector d io).1, false) ∧
        (d.over s).dataIn falconTos len io = ((ideReadSector d io).1.over s1, false) ∧
          SameFile s (ideReadSector d io).1 s1) := by
  have hle := (h.paced.active (Or.inl hstate)).1
  have hdptr : (d.over s).dptr = d.dptr := rfl
  rw [Drive.dataIn_eq, Drive.dataIn_eq, hdptr]
  by_cases hend : d.dptr = 512
  · rw [if_pos hend, if_pos hend]
    cases hok : (ideReadSector d io).2 with
    | true =>
        left
        have hread := ideReadSector_ok hok
        rcases h.sectorRead hstate hend hread.2 with ⟨s1, hover, hagree⟩
        have hread' : (d.over s).fd.pos + 512 ≤ (d.over s).fd.size := by
          change s.fd.pos + 512 ≤ s.fd.size
          rw [h.pos, h.size]
          exact hread.2
        have hrun := ideReadSector_of_inside hread.2 h.paced.buffer
        have hrun' := ideReadSector_of_inside hread' h.buffer
        rw [hread.1, hrun, hrun', hover]
        exact ⟨_, _, rfl, rfl, hagree.readOn hstate (Nat.zero_lt_succ _) falconTos len⟩
    | false =>
        right
        rcases h.readFailed hok with ⟨s1, hover, hfile⟩
        rw [hover]
        exact ⟨s1, rfl, rfl, hfile⟩
  · rw [if_neg hend, if_neg hend]
    left
    exact ⟨_, _, rfl, rfl, h.readOn hstate (Nat.lt_of_le_of_ne hle hend) falconTos len⟩

theorem Twins.dataIn (h : Twins c c') (falconTos : Bool) (len : Nat) (io : HostIo) :
    Twins (ideDataIn falconTos c len io).1 (ideDataIn falconTos c' len io).1 ∧
      (ideDataIn falconTos c' len io).2 = (ideDataIn falconTos c len io).2 := by
  rcases h.drive c.selected with ⟨s, hs, hagree⟩
  have hstate' : ((c.drive c.selected).over s).state = (c.drive c.selected).state := rfl
  unfold ideDataIn
  dsimp only
  rw [h.selected, hs, hstate']
  by_cases hstate : (c.drive c.selected).state = .dataIn
  · rw [if_pos hstate, if_pos hstate]
    rcases hagree.dataIn hstate falconTos len io with
      ⟨d1, d1', hrun, hrun', htwin⟩ | ⟨s1, hrun, hrun', hfile⟩
    · rw [hrun, hrun', if_pos rfl, if_pos rfl, put_drive_self, put_drive_self, htwin.taskfile]
      exact ⟨h.put _ htwin, rfl⟩
    · have hread := ideReadSector_file (c.drive c.selected) io
      rw [hrun, hrun', if_neg Bool.false_ne_true, if_neg Bool.false_ne_true]
      exact ⟨h.setError hagree hfile hread.1 hread.2.1 (hread.2.2.1 hagree.paced.buffer)
        hread.2.2.2.1 hread.2.2.2.2, rfl⟩
  · rw [if_neg hstate, if_neg hstate]
    exact ⟨h, rfl⟩

/-!
## Data writes
-/

theorem putDatum_over (falconTos : Bool) (d : Drive) (s : Store) (v : Word) :
    (d.over s).putDatum falconTos v = (d.putDatum falconTos v).over
      { s with data := ((d.over s).putDatum falconTos v).data } := by
  unfold Drive.putDatum
  dsimp only
  by_cases h8 : d.eightbit = true
  · have h8' : (d.over s).eightbit = true := h8
    rw [if_pos h8, if_pos h8']
    rfl
  · have h8' : ¬ (d.over s).eightbit = true := h8
    have hnative : ideNativeOrder falconTos (d.over s) = ideNativeOrder falconTos d := rfl
    rw [if_neg h8, if_neg h8', hnative]
    split <;> rfl

theorem Agree.put_take (h : Agree d s) (hstate : d.state = .dataOut)
    (falconTos : Bool) (v : Word) :
    ((d.over s).putDatum falconTos v).data.take (d.dptr + d.width) =
      (d.putDatum falconTos v).data.take (d.dptr + d.width) := by
  have hnext := (dptr_next (h.paced.filling hstate) (h.paced.active (Or.inr hstate)).2).1
  have hput := putDatum_buffer falconTos d v (by rw [h.paced.buffer]; exact hnext)
  have hput' := putDatum_buffer falconTos (d.over s) v
    (by change d.dptr + d.width ≤ s.data.length; rw [h.buffer]; exact hnext)
  change ((d.over s).putDatum falconTos v).data.take (d.dptr + d.width) =
    s.data.take d.dptr ++ datumBytes falconTos d v at hput'
  rw [hput', hput, h.filled hstate]

theorem Agree.put (h : Agree d s) (hstate : d.state = .dataOut)
    (falconTos : Bool) (v : Word) (hmore : d.dptr + d.width ≠ 512) :
    Agree (d.putDatum falconTos v) { s with data := ((d.over s).putDatum falconTos v).data } := by
  have hbuf := putDatum_bufferOnly falconTos d v
  have hbuf' := putDatum_bufferOnly falconTos (d.over s) v
  have hgave : d.dataOut falconTos v .works = (d.putDatum falconTos v, true) := by
    unfold Drive.dataOut
    dsimp only
    rw [if_neg (by rw [putDatum_dptr]; exact hmore)]
  have hpaced := h.paced.of_gave hstate hgave
  constructor
  · exact hpaced
  · exact hbuf'.data.trans h.buffer
  · rw [hbuf.fd]
    exact h.size
  · rw [hbuf.fd]
    exact h.pos
  · intro k
    rw [hbuf.fd, inFileOrder_congr hbuf.orders]
    exact h.sectors k
  · intro hin
    rw [hbuf.state, hstate] at hin
    cases hin
  · intro _
    rw [putDatum_dptr]
    exact h.put_take hstate falconTos v
  · intro _
    rw [hbuf.fd]
    exact h.aligned (Or.inl hstate)

theorem readBlock_write_sector {f : OpenFile Byte} {cells : List Byte} (hlen : cells.length = 512)
    (haligned : f.pos % 512 = 0) (k : Nat) :
    readBlock (f.write cells).byte (512 * k) 512 =
      if 512 * k = f.pos then cells else readBlock f.byte (512 * k) 512 := by
  change readBlock (writeBlock f.byte f.pos cells) (512 * k) 512 = _
  by_cases hk : 512 * k = f.pos
  · rw [if_pos hk, hk]
    have hself := readBlock_writeBlock_self f.byte f.pos cells
    rw [hlen] at hself
    exact hself
  · rw [if_neg hk]
    apply readBlock_writeBlock_of_disjoint
    rw [hlen]
    lia

theorem write_size_congr {f g : OpenFile Byte} {xs ys : List Byte} (hsize : g.size = f.size)
    (hpos : g.pos = f.pos) (hlen : ys.length = xs.length) :
    (g.write ys).size = (f.write xs).size := by
  have hnil : ys = [] <-> xs = [] := by
    rw [← List.length_eq_zero_iff, ← List.length_eq_zero_iff, hlen]
  unfold OpenFile.write
  dsimp only
  rw [hsize, hpos, hlen]
  by_cases hxs : xs = []
  · rw [if_pos hxs, if_pos (hnil.mpr hxs)]
  · rw [if_neg hxs, if_neg (fun hys => hxs (hnil.mp hys))]

theorem Agree.written (h : Agree d s) (hstate : d.state = .dataOut) :
    Twin d.sectorWritten (d.over s).sectorWritten := by
  refine ⟨s, ?_, ?_⟩
  · have hlength : (d.over s).length = d.length := rfl
    unfold Drive.sectorWritten
    dsimp only
    rw [hlength]
    split <;> rfl
  · rcases Nat.lt_or_ge 1 d.length with hmore | hlast
    · have hwritten := (sectorWritten_more hmore).2
      have hless : Agree { d with length := d.length - 1 } s := by
        constructor
        · exact ⟨h.paced.buffer, h.paced.unfailed, h.paced.active, h.paced.filling⟩
        · exact h.buffer
        · exact h.size
        · exact h.pos
        · exact h.sectors
        · exact h.shown
        · exact h.filled
        · intro _
          exact h.aligned (Or.inl hstate)
      exact hless.same hwritten
    · exact h.rest (sectorWritten_stopped hlast) (sectorWritten_fd d)

theorem Agree.stored (h : Agree d s) (hstate : d.state = .dataOut)
    (falconTos : Bool) (v : Word) (hfull : d.dptr + d.width = 512) :
    Twin (d.putDatum falconTos v).sectorStored.sectorWritten
      ((d.over s).putDatum falconTos v).sectorStored.sectorWritten := by
  have hbuf := putDatum_bufferOnly falconTos d v
  have hbuf' := putDatum_bufferOnly falconTos (d.over s) v
  have hlen : (d.putDatum falconTos v).data.length = 512 := hbuf.data.trans h.paced.buffer
  have hlen' : ((d.over s).putDatum falconTos v).data.length = 512 := hbuf'.data.trans h.buffer
  have hdata : ((d.over s).putDatum falconTos v).data = (d.putDatum falconTos v).data := by
    have htake := h.put_take hstate falconTos v
    rw [hfull, List.take_of_length_le (Nat.le_of_eq hlen'),
      List.take_of_length_le (Nat.le_of_eq hlen)] at htake
    exact htake
  have hover := putDatum_over falconTos d s v
  rw [hdata] at hover
  rw [hover]
  have haligned := h.aligned (Or.inl hstate)
  generalize hd1 : d.putDatum falconTos v = d1 at *
  have hfd' : (d1.over { s with data := d1.data }).sectorStored.fd =
      s.fd.write ((d1.over { s with data := d1.data }).inFileOrder d1.data) := rfl
  have hcells : (d1.inFileOrder d1.data).length = 512 :=
    (Drive.length_inFileOrder _ _).trans hlen
  have hcells' : ((d1.over { s with data := d1.data }).inFileOrder d1.data).length = 512 :=
    (Drive.length_inFileOrder _ _).trans hlen
  have hstored : Agree d1.sectorStored
      { s with
        data := d1.data
        fd := s.fd.write ((d1.over { s with data := d1.data }).inFileOrder d1.data) } := by
    constructor
    · exact Paced.of_begun hlen (hbuf.failed.trans h.paced.unfailed) (Or.inl rfl)
    · exact hlen
    · exact write_size_congr (hbuf.fd ▸ h.size) (hbuf.fd ▸ h.pos) (hcells'.trans hcells.symm)
    · change s.fd.pos + _ = d1.fd.pos + _
      rw [hcells, hcells', h.pos, hbuf.fd]
    · intro k
      have hd1fd : d1.fd.pos % 512 = 0 := by
        rw [hbuf.fd]
        exact haligned
      have hsfd : s.fd.pos % 512 = 0 := by
        rw [h.pos]
        exact haligned
      change (d1.over { s with data := d1.data }).inFileOrder (readBlock
          (s.fd.write ((d1.over { s with data := d1.data }).inFileOrder d1.data)).byte
          (512 * k) 512) =
        d1.inFileOrder (readBlock (d1.fd.write (d1.inFileOrder d1.data)).byte (512 * k) 512)
      rw [readBlock_write_sector hcells hd1fd, readBlock_write_sector hcells' hsfd]
      by_cases hk : 512 * k = d.fd.pos
      · rw [if_pos (hk.trans h.pos.symm), if_pos (by rw [hbuf.fd]; exact hk),
          Drive.inFileOrder_inFileOrder, Drive.inFileOrder_inFileOrder]
      · rw [if_neg (fun heq => hk (heq.trans h.pos)), if_neg (by rw [hbuf.fd]; exact hk),
          hbuf.fd, inFileOrder_congr hbuf.orders]
        exact h.sectors k
    · intro _
      rfl
    · intro _
      rfl
    · intro _
      change (d1.fd.pos + (d1.inFileOrder d1.data).length) % 512 = 0
      rw [hcells, hbuf.fd]
      lia
  exact hstored.written (hbuf.state.trans hstate)

theorem Twins.dataOut (h : Twins c c') (falconTos : Bool) (v : Word)
    (io : HostIo) : Twins (ideDataOut falconTos c v io) (ideDataOut falconTos c' v io) := by
  rcases h.drive c.selected with ⟨s, hs, hagree⟩
  have hstate' : ((c.drive c.selected).over s).state = (c.drive c.selected).state := rfl
  unfold ideDataOut
  dsimp only
  rw [h.selected, hs, hstate']
  by_cases hstate : (c.drive c.selected).state = .dataOut
  · rw [if_neg (not_not.mpr hstate), if_neg (not_not.mpr hstate)]
    have hbuf := putDatum_bufferOnly falconTos (c.drive c.selected) v
    have hdptr := putDatum_dptr falconTos (c.drive c.selected) v
    have hdptr' : (((c.drive c.selected).over s).putDatum falconTos v).dptr =
        (c.drive c.selected).dptr + (c.drive c.selected).width :=
      putDatum_dptr falconTos ((c.drive c.selected).over s) v
    unfold Drive.dataOut
    dsimp only
    by_cases hfull : (c.drive c.selected).dptr + (c.drive c.selected).width = 512
    · rw [if_pos (hdptr.trans hfull), if_pos (hdptr'.trans hfull)]
      cases io with
      | works => exact h.put _ (hagree.stored hstate falconTos v hfull)
      | fails eio =>
          have hover := putDatum_over falconTos (c.drive c.selected) s v
          have hbuf' := putDatum_bufferOnly falconTos ((c.drive c.selected).over s) v
          have herror : Twins
              (ideSetError (c.put c.selected (ideXlateErrno
                ({ (c.drive c.selected).putDatum falconTos v with dptr := 0 }.setStatus
                  ST_DSC ST_ERR) (some eio))) c.selected)
              (ideSetError (c'.put c.selected ((ideXlateErrno
                ({ (c.drive c.selected).putDatum falconTos v with dptr := 0 }.setStatus
                  ST_DSC ST_ERR) (some eio)).over { s with
                    data := (((c.drive c.selected).over s).putDatum falconTos v).data }))
                c.selected) := by
            have hpos : s.fd.pos = ((c.drive c.selected).putDatum falconTos v).fd.pos := by
              rw [hbuf.fd, hagree.pos]
            refine h.setError hagree ?_ ?_ ?_ ?_ ?_ ?_
            · exact ⟨hbuf'.data.trans hagree.buffer, rfl, rfl, rfl, hpos⟩
            · exact congrArg OpenFile.size hbuf.fd
            · exact congrArg OpenFile.byte hbuf.fd
            · exact hbuf.data.trans hagree.paced.buffer
            · exact hbuf.failed
            · exact hbuf.orders
          rw [hover]
          exact herror
    · rw [if_neg (fun heq => hfull (hdptr.symm.trans heq)),
        if_neg (fun heq => hfull (hdptr'.symm.trans heq))]
      exact h.put _ ⟨_, putDatum_over falconTos _ s v, hagree.put hstate falconTos v hfull⟩
  · rw [if_pos hstate, if_pos hstate]
    refine h.put _ ⟨s, rfl, ?_⟩
    exact hagree.same ⟨rfl, rfl, rfl, rfl, rfl, rfl, rfl, rfl⟩

/-!
## Every access
-/

theorem Twins.read8 (h : Twins c c') (falconTos : Bool) (r : Reg) (io : HostIo) :
    Twins (ideRead8 falconTos c r io).1 (ideRead8 falconTos c' r io).1 ∧
      (ideRead8 falconTos c' r io).2 = (ideRead8 falconTos c r io).2 := by
  have htask := (h.drive c.selected).taskfile
  unfold ideRead8
  dsimp only
  rw [h.selected, htask]
  cases r with
  | data =>
      have hin := h.dataIn falconTos 1 io
      exact ⟨hin.1, congrArg (· &&& 0xFF#16) hin.2⟩
  | lbaLow => exact ⟨h, by rw [h.lba1]⟩
  | lbaMid => exact ⟨h, by rw [h.lba2]⟩
  | lbaHi => exact ⟨h, by rw [h.lba3]⟩
  | lbaTop => exact ⟨h, by rw [h.lba4]⟩
  | statusCommand =>
      constructor
      · rcases h.drive c.selected with ⟨s, hs, hagree⟩
        rw [hs]
        refine h.put _ ⟨s, rfl, ?_⟩
        exact hagree.same ⟨rfl, rfl, rfl, rfl, rfl, rfl, rfl, rfl⟩
      · rfl
  | _ => exact ⟨h, rfl⟩

theorem Twins.write8 (h : Twins c c') (falconTos : Bool) (r : Reg)
    (v : Byte) (io : HostIo) : Twins (ideWrite8 falconTos c r v io) (ideWrite8 falconTos c' r v io) := by
  have htwin := h.drive c.selected
  unfold ideWrite8
  dsimp only
  rw [h.selected, htwin.busy, htwin.present]
  split
  · exact h
  · cases r with
    | data => exact h.dataOut falconTos _ io
    | errorFeature =>
        rcases htwin with ⟨s, hs, hagree⟩
        dsimp only
        rw [hs]
        refine h.put _ ⟨s, rfl, ?_⟩
        exact hagree.same ⟨rfl, rfl, rfl, rfl, rfl, rfl, rfl, rfl⟩
    | secCount =>
        rcases htwin with ⟨s, hs, hagree⟩
        dsimp only
        rw [hs]
        refine h.put _ ⟨s, rfl, ?_⟩
        exact hagree.same ⟨rfl, rfl, rfl, rfl, rfl, rfl, rfl, rfl⟩
    | lbaLow => exact ⟨rfl, rfl, h.lba2, h.lba3, h.lba4, h.drive⟩
    | lbaMid => exact ⟨rfl, h.lba1, rfl, h.lba3, h.lba4, h.drive⟩
    | lbaHi => exact ⟨rfl, h.lba1, h.lba2, rfl, h.lba4, h.drive⟩
    | lbaTop => exact ⟨rfl, h.lba1, h.lba2, h.lba3, rfl, h.drive⟩
    | statusCommand => exact h.command falconTos v
    | altstDevctrl => exact h.writeDevctrl v
    | other => exact h

theorem Twins.access (h : Twins c c') (falconTos : Bool) (a : Access) :
    Twins (ideStep falconTos c a) (ideStep falconTos c' a) ∧
      (Ide.access falconTos c' a).2 = (Ide.access falconTos c a).2 := by
  cases a with
  | read8 r io => exact h.read8 falconTos r io
  | write8 r v io => exact ⟨h.write8 falconTos r v io, rfl⟩
  | read16 r io =>
      change Twins (ideRead16 falconTos c r io).1 (ideRead16 falconTos c' r io).1 ∧
        (ideRead16 falconTos c' r io).2 = (ideRead16 falconTos c r io).2
      unfold ideRead16
      split
      · exact h.dataIn falconTos 2 io
      · exact h.read8 falconTos r io
  | write16 r v io =>
      refine ⟨?_, rfl⟩
      change Twins (ideWrite16 falconTos c r v io) (ideWrite16 falconTos c' r v io)
      unfold ideWrite16
      rw [h.selected, (h.drive c.selected).busy]
      split
      · exact h
      · split
        · exact h.dataOut falconTos v io
        · exact h.write8 falconTos r _ io
  | reset => exact ⟨h.ideResetBegin, rfl⟩

/-- Twins cannot be told apart by any run. -/
theorem Twins.run (h : Twins c c') (falconTos : Bool) (ops : List Access) :
    Twins (Foundation.run (ideStep falconTos) c ops) (Foundation.run (ideStep falconTos) c' ops) ∧
      replies falconTos c' ops = replies falconTos c ops := by
  induction ops generalizing c c' with
  | nil => exact ⟨h, rfl⟩
  | cons a ops ih =>
      have hstep := h.access falconTos a
      have hrest := ih hstep.1
      rw [run_cons, run_cons, replies, replies, hstep.2, hrest.2]
      exact ⟨hrest.1, rfl⟩

/-!
## Attached images
-/

/-- A plain hard disk image and the same image with the bytes of every word
exchanged. -/
structure Swapped (image image' : Image) : Prop where
  kind : image.kind = .hdf
  kind' : image'.kind = .hdf
  order : image.order = .native
  order' : image'.order = .swapped
  size : image'.file.size = image.file.size
  sectors : forall k, readBlock image'.file.byte (512 * k) 512 =
    diskSwap512 (readBlock image.file.byte (512 * k) 512)

/-- Two slots with the same image, or with a plain image and its swapped copy. -/
inductive SlotAlike : Option Image -> Option Image -> Prop where
  | same (image : Option Image) : SlotAlike image image
  | swapped {image image' : Image} (h : Swapped image image') :
      SlotAlike (some image) (some image')

theorem Fresh.agree (h : Fresh d) {s : Store} (hbuffer : s.data.length = 512)
    (hsize : s.fd.size = d.fd.size) (hpos : s.fd.pos = d.fd.pos)
    (hsectors : forall k, (d.over s).inFileOrder (readBlock s.fd.byte (512 * k) 512) =
      d.inFileOrder (readBlock d.fd.byte (512 * k) 512)) : Agree d s := by
  have hno : forall {p : Prop}, d.state = .dataIn ∨ d.state = .dataOut -> p := by
    intro p hactive
    rw [h.state] at hactive
    rcases hactive with hactive | hactive <;> cases hactive
  constructor
  · exact h.paced
  · exact hbuffer
  · exact hsize
  · exact hpos
  · exact hsectors
  · exact fun hin => hno (Or.inl hin)
  · exact fun hout => hno (Or.inr hout)
  · rintro (hout | ⟨hin, _⟩)
    · exact hno (Or.inr hout)
    · exact hno (Or.inl hin)

def attachedDrive (d : Drive) (i : Fin 2) (image : Image) : Drive :=
  match image.kind with
  | .st =>
      let d := { d with
        fd := image.file.seek 0, present := true, lba := true, headerPresent := false
        heads := 2, sectors := 9, cylinders := 80 }
      if 720 * 1024 < image.file.size then d
      else { d with identify := ideMakeIdent i 80 2 9 "PISTORM IDE FD" }
  | .hdf =>
      let cyl := BitVec.ofNat 16 (image.file.size / 512 / (63 * 16))
      let total := imageSectors image.file
      { d with
        fd := image.file.seek 0, present := true, lba := true, headerPresent := false
        heads := 16, sectors := 63, cylinders := cyl
        identify := putWords (ideMakeIdent i cyl 16 63 "PISTORM IDE DK") 60
          [BitVec.ofNat 16 total, BitVec.ofNat 16 (total / 2 ^ 16)]
        imgSwapped := image.order == .swapped
        twisted := image.order == .bootswap }

theorem attachImage_absent {c : Controller} {i : Fin 2} (h : (c.drive i).present = false)
    (image : Image) :
    attachImage c i (some image) =
      match image.kind with
      | .st => { c.put i (attachedDrive (c.drive i) i image) with lba4 := DEVH_LBA }
      | .hdf =>
          if image.file.size < 4 * 1000 * 1000 then c
          else c.put i (attachedDrive (c.drive i) i image) := by
  unfold attachImage attachedDrive
  dsimp only
  cases hkind : image.kind with
  | st =>
      dsimp only
      unfold ideAttachSt
      dsimp only
      rw [h, if_neg Bool.false_ne_true]
  | hdf =>
      dsimp only
      unfold ideAttachHdf
      dsimp only
      by_cases hsmall : image.file.size < 4 * 1000 * 1000
      · rw [if_pos (Or.inr hsmall), if_pos hsmall, h, if_neg Bool.false_ne_true]
      · have hroom : ¬ ((c.drive i).present = true ∨ image.file.size < 4 * 1000 * 1000) := by
          rintro (hpresent | hsize)
          · rw [h] at hpresent
            cases hpresent
          · exact hsmall hsize
        rw [if_neg hroom, if_neg hsmall, put_drive_self, if_pos rfl, put_put]

theorem attachImage_other {c : Controller} {i j : Fin 2} (hj : j ≠ i) (image : Option Image) :
    (attachImage c i image).drive j = c.drive j := by
  cases image with
  | none => rfl
  | some image =>
      unfold attachImage
      dsimp only
      cases image.kind with
      | st =>
          dsimp only
          unfold ideAttachSt
          dsimp only
          split
          · rfl
          · exact put_drive_of_ne hj _
      | hdf =>
          have hattach : (ideAttachHdf c i image.file).drive j = c.drive j := by
            unfold ideAttachHdf
            dsimp only
            split
            · rfl
            · exact put_drive_of_ne hj _
          dsimp only
          split
          · rw [put_drive_of_ne hj, hattach]
          · exact hattach

theorem Fresh.attached (h : Fresh d) (i : Fin 2) {image image' : Image}
    (halike : SlotAlike (some image) (some image')) :
    Twin (attachedDrive d i image) (attachedDrive d i image') := by
  have hfresh : forall img : Image, Fresh (attachedDrive d i img) := by
    intro img
    unfold attachedDrive
    cases img.kind with
    | st =>
        dsimp only
        split
        · exact ⟨h.state, h.buffer, h.unfailed⟩
        · exact ⟨h.state, h.buffer, h.unfailed⟩
    | hdf => exact ⟨h.state, h.buffer, h.unfailed⟩
  cases halike with
  | same =>
      refine ⟨⟨(attachedDrive d i image).data, (attachedDrive d i image).fd,
        (attachedDrive d i image).imgSwapped⟩, rfl, ?_⟩
      exact (hfresh image).agree (hfresh image).buffer rfl rfl (fun _ => rfl)
  | swapped hswapped =>
      refine ⟨⟨d.data, image'.file.seek 0, true⟩, ?_, ?_⟩
      · unfold attachedDrive imageSectors
        rw [hswapped.kind, hswapped.kind', hswapped.size, hswapped.order, hswapped.order']
        rfl
      · have hfd : (attachedDrive d i image).fd = image.file.seek 0 := by
          unfold attachedDrive
          rw [hswapped.kind]
        have hplain : (attachedDrive d i image).imgSwapped = false := by
          unfold attachedDrive
          rw [hswapped.kind, hswapped.order]
          rfl
        apply (hfresh image).agree h.buffer
        · rw [hfd]
          exact hswapped.size
        · rw [hfd]
          rfl
        · intro k
          unfold Drive.inFileOrder
          rw [hplain, hfd]
          change diskSwap512 (readBlock image'.file.byte (512 * k) 512) =
            readBlock image.file.byte (512 * k) 512
          rw [hswapped.sectors, diskSwap512_diskSwap512]

theorem Twins.attach (h : Twins c c') {i : Fin 2}
    (hsame : c'.drive i = c.drive i) (hfresh : Fresh (c.drive i))
    (habsent : (c.drive i).present = false) {image image' : Option Image}
    (halike : SlotAlike image image') : Twins (attachImage c i image) (attachImage c' i image') := by
  have hboth : forall {img img' : Image}, SlotAlike (some img) (some img') ->
      img'.kind = img.kind -> img'.file.size = img.file.size ->
      Twins (attachImage c i (some img)) (attachImage c' i (some img')) := by
    intro img img' hslot hkind hsize
    have hput := h.put i (hfresh.attached i hslot)
    rw [attachImage_absent habsent, attachImage_absent (hsame ▸ habsent), hsame, hkind, hsize]
    cases img.kind with
    | st => exact ⟨hput.selected, hput.lba1, hput.lba2, hput.lba3, rfl, hput.drive⟩
    | hdf =>
        dsimp only
        split
        · exact h
        · exact hput
  cases halike with
  | same =>
      cases image with
      | none => exact h
      | some image => exact hboth (SlotAlike.same _) rfl rfl
  | swapped hswapped =>
      exact hboth (SlotAlike.swapped hswapped) (hswapped.kind'.trans hswapped.kind.symm)
        hswapped.size

theorem Twins.shareOrder (h : Twins c c') :
    Twins (Ide.shareOrder c) (Ide.shareOrder c') := by
  have htwisted : forall i, (c'.drive i).twisted = (c.drive i).twisted := by
    intro i
    rcases h.drive i with ⟨s, hs, _⟩
    rw [hs]
    rfl
  unfold Ide.shareOrder
  rw [htwisted, htwisted]
  split
  · refine ⟨h.selected, h.lba1, h.lba2, h.lba3, h.lba4, ?_⟩
    intro i
    rcases h.drive i with ⟨s, hs, hagree⟩
    dsimp only
    rw [hs]
    refine ⟨s, rfl, ?_⟩
    constructor
    · exact ⟨hagree.paced.buffer, hagree.paced.unfailed, hagree.paced.active,
        hagree.paced.filling⟩
    · exact hagree.buffer
    · exact hagree.size
    · exact hagree.pos
    · exact hagree.sectors
    · exact hagree.shown
    · exact hagree.filled
    · exact hagree.aligned
  · exact h

theorem initIde_twins {images images' : Fin 2 -> Option Image}
    (h : forall i, SlotAlike (images i) (images' i)) : Twins (initIde images) (initIde images') := by
  have hempty : forall i, Fresh (ideAllocate.drive i) :=
    fun i => ⟨rfl, List.length_replicate, rfl⟩
  have hallocate : Twins ideAllocate ideAllocate := by
    refine ⟨rfl, rfl, rfl, rfl, rfl, ?_⟩
    intro i
    refine ⟨⟨emptyDrive.data, emptyDrive.fd, false⟩, rfl, ?_⟩
    exact (hempty i).agree (hempty i).buffer rfl rfl (fun _ => rfl)
  have hfirst := hallocate.attach rfl (hempty 0) rfl (h 0)
  have hother : forall image, (attachImage ideAllocate 0 image).drive 1 = ideAllocate.drive 1 :=
    fun image => attachImage_other (by decide) image
  have hsecond := hfirst.attach (i := 1) (by rw [hother, hother]) (by rw [hother]; exact hempty 1)
    (by rw [hother]; rfl) (h 1)
  exact hsecond.shareOrder.ideResetBegin

/-!
## Transparency
-/

/-- The words a guest writes are stored in the order of the drive, however they
are grouped into accesses, and read back as the port conveys them; a byte-swapped
image answers every run of accesses as the plain one does. -/
theorem byte_order_transparent (falconTos : Bool) :
    (forall (images : Fin 2 -> Option Image) (pre : List Access) (a : Access) (r : Request)
        (data : List PortDatum),
      let c := run (ideStep falconTos) (initIde images) pre
      let d := c.drive c.selected
      let ws := data.flatMap PortDatum.words
      let c2 := run (writeIde falconTos) (ideStep falconTos c a) data
      writeRequest c a = some r -> ws.length * d.width = 512 * r.count ->
      readBlock (c2.drive c.selected).fd.byte r.start (512 * r.count) =
          fileBytes falconTos d ws ∧
        forall (mid : List Access) (a' : Access) (r' : Request) (j : Nat)
          (sizes : List PortSize),
          let c3 := run (ideStep falconTos) c2 mid
          c3.selected = c.selected -> (c3.drive c.selected).eightbit = d.eightbit ->
          readBlock (c3.drive c.selected).fd.byte r.start (512 * r.count) =
            readBlock (c2.drive c.selected).fd.byte r.start (512 * r.count) ->
          readRequest c3 a' = some r' -> r'.start = r.start + 512 * j ->
          j + r'.count ≤ r.count ->
          (sizes.map PortSize.words).sum = r'.count * (512 / d.width) ->
          wordsRead falconTos (ideStep falconTos c3 a') sizes =
            ((ws.drop (j * (512 / d.width))).take (r'.count * (512 / d.width))).map
              (conveyed d)) ∧
    (forall images images' : Fin 2 -> Option Image,
      (forall i, SlotAlike (images i) (images' i)) -> forall ops : List Access,
        let c := run (ideStep falconTos) (initIde images) ops
        let c' := run (ideStep falconTos) (initIde images') ops
        replies falconTos (initIde images') ops = replies falconTos (initIde images) ops ∧
          forall i k, (c'.drive i).inFileOrder (readBlock (c'.drive i).fd.byte (512 * k) 512) =
            (c.drive i).inFileOrder (readBlock (c.drive i).fd.byte (512 * k) 512)) := by
  constructor
  · intro images pre a r data c d ws c2 ha hlength
    have hpaced := run_paced falconTos images pre
    rcases written_bytes falconTos (hpaced c.selected) ha hlength with ⟨hstored, hsize, horders⟩
    refine ⟨hstored, ?_⟩
    intro mid a' r' j sizes c3 hselected h8 hkept ha' hstart hinside hsizes
    have hpaced2 : forall i, Paced (c2.drive i) := by
      change forall i, Paced ((run (writeIde falconTos) (ideStep falconTos c a) data).drive i)
      rw [run_writeIde, ← run_cons]
      exact paced_run falconTos hpaced _
    exact written_reads_back falconTos hlength hpaced2 hstored hsize horders rfl hselected h8 hkept
      ha' hstart hinside hsizes
  · intro images images' halike ops c c'
    have htwins := (initIde_twins halike).run falconTos ops
    refine ⟨htwins.2, ?_⟩
    intro i k
    rcases htwins.1.drive i with ⟨s, hs, hagree⟩
    rw [hs]
    exact hagree.sectors k

def firstSector : List Access :=
  [.write8 .secCount 1 .works, .write8 .lbaLow 0 .works, .write8 .lbaMid 0 .works,
    .write8 .lbaHi 0 .works, .write8 .lbaTop DEVH_LBA .works]

def eightbitTransfers : List Access :=
  [.write8 .errorFeature 0x01 .works, .write8 .statusCommand 0xEF .works]

def writeCommand : Access := .write8 .statusCommand 0x30 .works
def readCommand : Access := .write8 .statusCommand 0x20 .works

def sectorOfLongs : List PortDatum := List.replicate 128 (.long 0x12345678)
def sectorOfWords : List PortDatum := List.replicate 512 (.word 0x1234)

theorem byte_order_transparent_first_sector :
    let c := run (ideStep false) (initIde smallDisk) firstSector
    readBlock ((run (writeIde false) (ideStep false c writeCommand) sectorOfLongs).drive
        c.selected).fd.byte 0 (512 * 1) =
      fileBytes false (c.drive c.selected) (sectorOfLongs.flatMap PortDatum.words) := by
  have hrequest : writeRequest (run (ideStep false) (initIde smallDisk) firstSector) writeCommand =
      some ⟨0, 1⟩ := by
    decide +kernel
  have hlength : (sectorOfLongs.flatMap PortDatum.words).length *
      ((run (ideStep false) (initIde smallDisk) firstSector).drive
        (run (ideStep false) (initIde smallDisk) firstSector).selected).width = 512 * 1 := by
    decide +kernel
  have hall := (byte_order_transparent false).1 smallDisk firstSector writeCommand ⟨0, 1⟩
    sectorOfLongs
  exact (hall hrequest hlength).1

set_option maxRecDepth 20000 in
/-- In 8-bit mode the high bytes of the words written do not come back. -/
theorem eightbit_words_lost :
    let c := run (ideStep false) (initIde smallDisk) (eightbitTransfers ++ firstSector)
    let c2 := run (writeIde false) (ideStep false c writeCommand) sectorOfWords
    sectorOfWords.head? = some (.word 0x1234) ∧
      (readIde false (ideStep false c2 readCommand) .word).2 = .word 0x0034 := by
  decide +kernel

end Ide
end PistormAtari
