import PistormAtari.Falcon.RecordPass

/-!
# The DMA sound: the passes of the playback

The notes of a run are read as passes: each begins with the addresses of the registers,
fetches from the start until the end is reached, and raises its events once.
-/

namespace PistormAtari
namespace Falcon

/-!
## Notes that are read as passes
-/

/-- Where the notes have come to.  A pass has its end and the address that is fetched next. -/
inductive PlayPhase where
  | idle
  | playing (fin next : BitVec 32)
  | reached
  | ending (again : Bool)
  | raising (again : Bool)
deriving DecidableEq

def PlayPhase.after : PlayPhase -> SndNote -> Option PlayPhase
  | p, .raised true _ => some p
  | .idle, .began start fin => some (.playing fin start)
  | .playing fin next, .fetched addr next' =>
      if addr = next then some (if fin ≤ next' then .reached else .playing fin next') else none
  | .playing _ _, .stopped => some .idle
  | .reached, .stopped => some .idle
  | .reached, .ended again => some (.ending again)
  | .ending again, .raised false _ => some (.raising again)
  | .raising true, .began start fin => some (.playing fin start)
  | .raising false, .finished => some .idle
  | _, _ => none

/-- The notes read on from a phase, the latest being the first of the list. -/
def readOn (p : PlayPhase) (notes : List SndNote) : Option PlayPhase :=
  notes.foldr (fun n p => p.bind fun p => p.after n) (some p)

def readNotes (notes : List SndNote) : Option PlayPhase := readOn .idle notes

def Told (s : Snd) : SndNote -> Prop
  | .began start fin => start = s.playStart ∧ fin = s.playEnd
  | .ended again => again = s.playRep
  | .raised isRec events => events = enabledEvents isRec (s.reg 0x00)
  | _ => True

def Matches (s : Snd) : PlayPhase -> Prop
  | .idle => s.playOn = false
  | .playing fin next =>
      s.playOn = true ∧ s.playHold = false ∧ s.playFend = fin ∧ s.playCnt = next
  | .reached => s.playOn = true ∧ s.playHold = true
  | _ => False

/-- Notes are added that lead from one phase to another and say what is so in a state. -/
def Leads (told s : Snd) (p : PlayPhase) (s' : Snd) (p' : PlayPhase) : Prop :=
  exists new, s'.notes = new ++ s.notes ∧ readOn p new = some p' ∧ forall n, n ∈ new -> Told told n

theorem readOn_append (p : PlayPhase) (new old : List SndNote) :
    readOn p (new ++ old) = (readOn p old).bind fun p => readOn p new := by
  unfold readOn
  rw [List.foldr_append]
  cases old.foldr (fun n p => p.bind fun p => p.after n) (some p) with
  | some p => rfl
  | none =>
      induction new with
      | nil => rfl
      | cons n new ih =>
          rw [List.foldr_cons, ih]
          rfl

theorem Leads.refl {told s s' : Snd} {p : PlayPhase} (h : s'.notes = s.notes) :
    Leads told s p s' p :=
  ⟨[], h, rfl, fun n hn => by cases hn⟩

theorem Leads.trans {told s s' s'' : Snd} {p p' p'' : PlayPhase} (h : Leads told s p s' p')
    (h' : Leads told s' p' s'' p'') : Leads told s p s'' p'' := by
  obtain ⟨new, hnotes, hread, htold⟩ := h
  obtain ⟨new', hnotes', hread', htold'⟩ := h'
  refine ⟨new' ++ new, ?_, ?_, ?_⟩
  · rw [hnotes', hnotes, List.append_assoc]
  · rw [readOn_append, hread]
    exact hread'
  · intro n hn
    rcases List.mem_append.mp hn with hn | hn
    · exact htold' n hn
    · exact htold n hn

theorem Leads.note {told s s' : Snd} {p p' : PlayPhase} {n : SndNote}
    (hnotes : s'.notes = n :: s.notes) (hafter : p.after n = some p') (htold : Told told n) :
    Leads told s p s' p' := by
  refine ⟨[n], hnotes, hafter, ?_⟩
  intro m hm
  rw [List.mem_singleton.mp hm]
  exact htold

/-!
## The end of a pass, and a frame
-/

def SameRegisters (told s : Snd) : Prop :=
  s.playStart = told.playStart ∧ s.playEnd = told.playEnd ∧ s.playRep = told.playRep ∧
    s.reg 0x00 = told.reg 0x00

theorem dmaPlayEnd_leads {told s : Snd} (now : BitVec 64) (hregs : SameRegisters told s)
    (hon : s.playOn = true) (hhold : s.playHold = false) :
    SameRegisters told (dmaPlayEnd now s) ∧
      exists p, Leads told s .reached (dmaPlayEnd now s) p ∧ Matches (dmaPlayEnd now s) p ∧
        (dmaPlayEnd now s).playHold = false := by
  obtain ⟨hstart, hend, hrep, hctrl⟩ := hregs
  let ended : Snd := { s with playEvNs := now }.note (.ended s.playRep)
  have hended : Leads told s .reached ended (.ending s.playRep) := Leads.note rfl rfl hrep
  have hraised : Leads told s .reached (dmaFrameEvent false ended) (.raising s.playRep) :=
    hended.trans (Leads.note rfl rfl (congrArg (enabledEvents false) hctrl))
  unfold dmaPlayEnd
  dsimp only
  split
  · rename_i hagain
    have hagain' : s.playRep = true := hagain
    rw [hagain'] at hraised
    refine ⟨⟨hstart, hend, hrep, hctrl⟩, .playing s.playEnd s.playStart, ?_, ?_, hhold⟩
    · exact hraised.trans (Leads.note rfl rfl ⟨hstart, hend⟩)
    · exact ⟨hon, hhold, rfl, rfl⟩
  · rename_i hagain
    have hagain' : s.playRep = false := Bool.eq_false_of_not_eq_true hagain
    rw [hagain'] at hraised
    refine ⟨⟨hstart, hend, hrep, hctrl⟩, .idle, ?_, rfl, hhold⟩
    exact hraised.trans (Leads.note rfl rfl trivial)

theorem playSample_leads {told s : Snd} (clock : SndClock) (now : BitVec 64) {fin next : BitVec 32}
    (hregs : SameRegisters told s) (hagrees : Matches s (.playing fin next)) :
    SameRegisters told (playSample clock now s).2.2 ∧
      exists p, Leads told s (.playing fin next) (playSample clock now s).2.2 p ∧
        Matches (playSample clock now s).2.2 p := by
  obtain ⟨hon, hhold, hfin, hnext⟩ := hagrees
  let fetched : Snd := { s with playCnt := (playFetch s).2 }.note (.fetched s.playCnt (playFetch s).2)
  have hafter : (PlayPhase.playing fin next).after (.fetched s.playCnt (playFetch s).2) =
      some (if fin ≤ (playFetch s).2 then .reached else .playing fin (playFetch s).2) :=
    if_pos hnext
  have hfetched : Leads told s (.playing fin next) fetched
      (if fin ≤ (playFetch s).2 then .reached else .playing fin (playFetch s).2) :=
    Leads.note rfl hafter trivial
  unfold playSample
  dsimp only
  by_cases hend : fin ≤ (playFetch s).2
  · have hend' : fetched.playFend ≤ (playFetch s).2 := by
      change s.playFend ≤ _
      rw [hfin]
      exact hend
    rw [if_pos hend] at hfetched
    rw [if_pos hend']
    split
    · exact ⟨hregs, .reached, hfetched.trans (Leads.refl rfl), hon, rfl⟩
    · have hended := @dmaPlayEnd_leads told fetched now hregs hon hhold
      obtain ⟨hregs', p, hleads, hagrees, _⟩ := hended
      exact ⟨hregs', p, hfetched.trans hleads, hagrees⟩
  · have hend' : ¬ fetched.playFend ≤ (playFetch s).2 := by
      change ¬ s.playFend ≤ _
      rw [hfin]
      exact hend
    rw [if_neg hend] at hfetched
    rw [if_neg hend']
    exact ⟨hregs, .playing fin (playFetch s).2, hfetched, hon, hhold, hfin, rfl⟩

variable {s : Snd}

theorem playing_of_on {p : PlayPhase} (hagrees : Matches s p) (hon : s.playOn ≠ false)
    (hhold : s.playHold = false) : exists fin next, p = .playing fin next := by
  cases p with
  | idle => exact absurd hagrees hon
  | playing fin next => exact ⟨fin, next, rfl⟩
  | reached =>
      have hheld := hagrees.2
      rw [hhold] at hheld
      cases hheld
  | ending again => exact hagrees.elim
  | raising again => exact hagrees.elim

theorem dmaPlayFrame_leads {told s : Snd} (clock : SndClock) (now later : BitVec 64)
    {p : PlayPhase} (hregs : SameRegisters told s) (hagrees : Matches s p) :
    SameRegisters told (dmaPlayFrame clock now later s).2.2 ∧
      exists p', Leads told s p (dmaPlayFrame clock now later s).2.2 p' ∧
        Matches (dmaPlayFrame clock now later s).2.2 p' := by
  unfold dmaPlayFrame
  split
  · exact ⟨hregs, p, Leads.refl rfl, hagrees⟩
  · rename_i hon
    split
    · rename_i hhold
      split
      · exact ⟨hregs, p, Leads.refl rfl, hagrees⟩
      · have hreached : p = .reached := by
          cases p with
          | idle => exact absurd hagrees hon
          | playing fin next =>
              rw [hagrees.2.1] at hhold
              cases hhold
          | reached => rfl
          | ending again => exact hagrees.elim
          | raising again => exact hagrees.elim
        subst hreached
        let freed : Snd := { s with playHold := false }
        have hfreed : Leads told s .reached freed .reached := Leads.refl rfl
        obtain ⟨hregs', p', hended, hagrees', hhold'⟩ :=
          @dmaPlayEnd_leads told freed now hregs hagrees.1 rfl
        dsimp only
        split
        · exact ⟨hregs', p', hfreed.trans hended, hagrees'⟩
        · rename_i hstill
          obtain ⟨fin, next, rfl⟩ := playing_of_on hagrees' hstill hhold'
          obtain ⟨hregs'', p'', hsample, hagrees''⟩ := playSample_leads clock later hregs' hagrees'
          exact ⟨hregs'', p'', (hfreed.trans hended).trans hsample, hagrees''⟩
    · rename_i hhold
      obtain ⟨fin, next, rfl⟩ := playing_of_on hagrees hon (Bool.eq_false_of_not_eq_true hhold)
      exact playSample_leads clock later hregs hagrees

/-!
## The recording, the registers and the calls
-/

def SamePlay (s s' : Snd) : Prop :=
  s'.playOn = s.playOn ∧ s'.playHold = s.playHold ∧ s'.playFend = s.playFend ∧
    s'.playCnt = s.playCnt

theorem Matches.same {s s' : Snd} {p : PlayPhase} (h : Matches s p) (hsame : SamePlay s s') :
    Matches s' p := by
  obtain ⟨hon, hhold, hfend, hcnt⟩ := hsame
  cases p with
  | idle => exact hon.trans h
  | playing fin next => exact ⟨hon.trans h.1, hhold.trans h.2.1, hfend.trans h.2.2.1,
      hcnt.trans h.2.2.2⟩
  | reached => exact ⟨hon.trans h.1, hhold.trans h.2⟩
  | ending again => exact h
  | raising again => exact h

theorem recordRaised {told s : Snd} (p : PlayPhase) (h : s.reg 0x00 = told.reg 0x00) :
    Leads told s p (dmaFrameEvent true s) p := by
  have hafter : p.after (.raised true (enabledEvents true (s.reg 0x00))) = some p := by
    cases p <;> rfl
  exact Leads.note rfl hafter (congrArg (enabledEvents true) h)

theorem dmaRecFrame_leads {told : Snd} (w : Nat -> BitVec 16) (valid : Bool) (s : Snd)
    (p : PlayPhase) (h : s.reg 0x00 = told.reg 0x00) :
    Leads told s p (dmaRecFrame w valid s) p ∧ SamePlay s (dmaRecFrame w valid s) := by
  have hfields := recPairs_guest w (recTracks s) 0 s s.recCnt
  unfold dmaRecFrame
  split
  · exact ⟨Leads.refl rfl, rfl, rfl, rfl, rfl⟩
  · cases hpairs : recPairs w (recTracks s) 0 (s, s.recCnt) with
    | mk s' c =>
        rw [hpairs] at hfields
        dsimp only at hfields ⊢
        rw [hfields]
        dsimp only
        split
        · split
          · exact ⟨@recordRaised told s p h, rfl, rfl, rfl, rfl⟩
          · exact ⟨@recordRaised told s p h, rfl, rfl, rfl, rfl⟩
        · exact ⟨Leads.refl rfl, rfl, rfl, rfl, rfl⟩

theorem playControl_leads (on : Bool) {told s : Snd} {p : PlayPhase} (hagrees : Matches s p)
    (hstart : s.playStart = told.playStart) (hend : s.playEnd = told.playEnd) :
    exists p', Leads told s p (playControl on s) p' ∧
      Matches { playControl on s with playOn := on } p' := by
  unfold playControl
  split
  · rename_i hbegins
    have hidle : p = .idle := by
      cases p with
      | idle => rfl
      | playing fin next => exact absurd (hbegins.2.symm.trans hagrees.1) (by decide)
      | reached => exact absurd (hbegins.2.symm.trans hagrees.1) (by decide)
      | ending again => exact hagrees.elim
      | raising again => exact hagrees.elim
    subst hidle
    exact ⟨.playing s.playEnd s.playStart, Leads.note rfl rfl ⟨hstart, hend⟩, hbegins.1, rfl, rfl,
      rfl⟩
  · rename_i hbegins
    split
    · rename_i hstops
      have hafter : p.after .stopped = some .idle := by
        cases p with
        | idle => exact absurd (hstops.2.symm.trans hagrees) (by decide)
        | playing fin next => rfl
        | reached => rfl
        | ending again => exact hagrees.elim
        | raising again => exact hagrees.elim
      exact ⟨.idle, Leads.note rfl hafter trivial, hstops.1⟩
    · rename_i hstops
      have hsame : on = s.playOn := by
        cases on with
        | true => exact (Bool.eq_true_of_not_eq_false fun h => hbegins ⟨rfl, h⟩).symm
        | false => exact (Bool.eq_false_of_not_eq_true fun h => hstops ⟨rfl, h⟩).symm
      refine ⟨p, Leads.refl rfl, hagrees.same ⟨hsame, rfl, rfl, rfl⟩⟩

theorem sndControl_leads (v : BitVec 8) {s : Snd} {p : PlayPhase} (hagrees : Matches s p) :
    exists p', Leads s s p (sndControl v s) p' ∧ Matches (sndControl v s) p' := by
  let named : Snd := { s with
    reg := Function.update s.reg 0x01 ((s.reg 0x01 &&& 0x7F) ||| (v &&& 0x80))
    playRep := v.getLsbD 1
    recRep := v.getLsbD 5 }
  have hnamed : Matches named p := hagrees.same ⟨rfl, rfl, rfl, rfl⟩
  obtain ⟨p', hleads, hplaying⟩ := @playControl_leads (v.getLsbD 0) s named p hnamed rfl rfl
  have hnotes : (sndControl v s).notes = (playControl (v.getLsbD 0) named).notes := by
    change (recControl (v.getLsbD 4) (playControl (v.getLsbD 0) named)).notes = _
    unfold recControl
    split <;> rfl
  have hbefore : Leads s s p named p := Leads.refl rfl
  refine ⟨p', (hbefore.trans hleads).trans (Leads.refl hnotes), ?_⟩
  · apply hplaying.same
    change SamePlay _ { recControl (v.getLsbD 4) (playControl (v.getLsbD 0) named) with
      playOn := v.getLsbD 0, recordOn := v.getLsbD 4 }
    unfold recControl
    split <;> exact ⟨rfl, rfl, rfl, rfl⟩

theorem stopPlay_leads {p : PlayPhase} (hagrees : Matches s p) :
    Leads s s p (stopPlay s) .idle ∧ (stopPlay s).playOn = false := by
  unfold stopPlay
  split
  · rename_i hon
    refine ⟨Leads.note rfl ?_ trivial, rfl⟩
    cases p with
    | idle => exact absurd (hagrees.symm.trans hon) (by decide)
    | playing fin next => rfl
    | reached => rfl
    | ending again => exact hagrees.elim
    | raising again => exact hagrees.elim
  · rename_i hoff
    have hoff' : s.playOn = false := Bool.eq_false_of_not_eq_true hoff
    refine ⟨?_, hoff'⟩
    cases p with
    | idle => exact Leads.refl rfl
    | playing fin next => exact absurd hagrees.1 hoff
    | reached => exact absurd hagrees.1 hoff
    | ending again => exact hagrees.elim
    | raising again => exact hagrees.elim

variable (clock : SndClock)

theorem sndStep_leads {p : PlayPhase} (op : SndOp) (hagrees : Matches s p) :
    exists p', Leads s s p (sndStep clock s op) p' ∧ Matches (sndStep clock s op) p' := by
  have hsame : forall s', s'.notes = s.notes -> SamePlay s s' ->
      exists p', Leads s s p s' p' ∧ Matches s' p' :=
    fun s' hnotes hplay => ⟨p, Leads.refl hnotes, hagrees.same hplay⟩
  have hstart : forall shift v, exists p', Leads s s p (setStart shift v s) p' ∧
      Matches (setStart shift v s) p' := by
    intro shift v
    unfold setStart
    split <;> exact hsame _ rfl ⟨rfl, rfl, rfl, rfl⟩
  have hend : forall shift v, exists p', Leads s s p (setEnd shift v s) p' ∧
      Matches (setEnd shift v s) p' := by
    intro shift v
    unfold setEnd
    split <;> exact hsame _ rfl ⟨rfl, rfl, rfl, rfl⟩
  have hself := hsame s rfl ⟨rfl, rfl, rfl, rfl⟩
  cases op with
  | write o v =>
      change exists p', Leads s s p (sndWrite8 o v s) p' ∧ Matches (sndWrite8 o v s) p'
      unfold sndWrite8
      split
      · exact sndControl_leads v hagrees
      · exact hstart 16 v
      · exact hstart 8 v
      · exact hstart 0 _
      · exact hend 16 v
      · exact hend 8 v
      · exact hend 0 _
      · exact hself
      · exact hself
      · exact hself
      · split
        · exact hsame _ rfl ⟨rfl, rfl, rfl, rfl⟩
        · exact hself
  | setbuffer isRec first last =>
      change exists p', Leads s s p (setbuffer isRec first last s) p' ∧
        Matches (setbuffer isRec first last s) p'
      unfold setbuffer
      split <;> exact hsame _ rfl ⟨rfl, rfl, rfl, rfl⟩
  | buffoper m =>
      change exists p', Leads s s p (buffoper m s) p' ∧ Matches (buffoper m s) p'
      unfold buffoper
      split
      · exact hself
      · exact sndControl_leads _ hagrees
  | defaults => exact ⟨.idle, (stopPlay_leads hagrees).1, rfl⟩
  | disarm => exact ⟨.idle, (stopPlay_leads hagrees).1, rfl⟩
  | frame now later dsp valid =>
      obtain ⟨hregs, p', hplay, hagrees'⟩ :=
        dmaPlayFrame_leads clock now later (p := p) ⟨rfl, rfl, rfl, rfl⟩ hagrees
      have hrec := dmaRecFrame_leads
        (recInput (dmaPlayFrame clock now later s) dsp valid).1
        (recInput (dmaPlayFrame clock now later s) dsp valid).2
        (dmaPlayFrame clock now later s).2.2 p' hregs.2.2.2
      exact ⟨p', hplay.trans hrec.1, hagrees'.same hrec.2⟩

def sndRun (clock : SndClock) (s : Snd) (ops : List SndOp) : Snd := ops.foldl (sndStep clock) s

theorem sndRun_reads {p : PlayPhase} (ops : List SndOp)
    (hread : readNotes s.notes = some p) (hagrees : Matches s p) :
    exists p', readNotes (sndRun clock s ops).notes = some p' ∧ Matches (sndRun clock s ops) p' := by
  induction ops generalizing s p with
  | nil => exact ⟨p, hread, hagrees⟩
  | cons op ops ih =>
      obtain ⟨p', ⟨new, hnotes, hon, _⟩, hagrees'⟩ := sndStep_leads clock op hagrees
      have hread' : readNotes (sndStep clock s op).notes = some p' := by
        unfold readNotes at hread ⊢
        rw [hnotes, readOn_append, hread]
        exact hon
      exact ih hread' hagrees'

/-!
## Frames that must do something
-/

def Adds (s s' : Snd) : Prop := exists rest, s'.notes = rest ++ s.notes

theorem dmaRecFrame_adds (w : Nat -> BitVec 16) (valid : Bool) (s : Snd) :
    Adds s (dmaRecFrame w valid s) := by
  obtain ⟨⟨new, hnotes, _⟩, _⟩ := @dmaRecFrame_leads s w valid s .idle rfl
  exact ⟨new, hnotes⟩

theorem dmaPlayEnd_notes (now : BitVec 64) (s : Snd) :
    exists rest, (dmaPlayEnd now s).notes = rest ++ .ended s.playRep :: s.notes := by
  unfold dmaPlayEnd
  dsimp only
  split
  · exact ⟨[.began s.playStart s.playEnd, .raised false (enabledEvents false (s.reg 0x00))], rfl⟩
  · exact ⟨[.finished, .raised false (enabledEvents false (s.reg 0x00))], rfl⟩

theorem playSample_notes (now : BitVec 64) (s : Snd) :
    exists rest, (playSample clock now s).2.2.notes =
      rest ++ .fetched s.playCnt (playFetch s).2 :: s.notes := by
  let fetched : Snd := { s with playCnt := (playFetch s).2 }.note (.fetched s.playCnt (playFetch s).2)
  unfold playSample
  dsimp only
  split
  · split
    · exact ⟨[], rfl⟩
    · obtain ⟨rest, hrest⟩ := dmaPlayEnd_notes now fetched
      refine ⟨rest ++ [.ended s.playRep], ?_⟩
      rw [List.append_assoc]
      exact hrest
  · exact ⟨[], rfl⟩

theorem frame_fetches (now later : BitVec 64)
    (dsp : Nat -> BitVec 16) (valid : Bool) (hon : s.playOn = true) (hhold : s.playHold = false) :
    ((dmaPlayFrame clock now later s).1 = true ∧
        (dmaPlayFrame clock now later s).2.1 = (playFetch s).1) ∧
      exists rest, (sndStep clock s (.frame now later dsp valid)).notes =
        rest ++ .fetched s.playCnt (playFetch s).2 :: s.notes := by
  have hframe : dmaPlayFrame clock now later s = playSample clock later s := by
    unfold dmaPlayFrame
    rw [hon, hhold]
    rfl
  have hsample : (playSample clock later s).1 = true ∧
      (playSample clock later s).2.1 = (playFetch s).1 := by
    unfold playSample
    dsimp only
    split
    · split <;> exact ⟨rfl, rfl⟩
    · exact ⟨rfl, rfl⟩
  obtain ⟨rest, hrest⟩ := playSample_notes clock later s
  obtain ⟨rest', hrest'⟩ := dmaRecFrame_adds
    (recInput (playSample clock later s) dsp valid).1
    (recInput (playSample clock later s) dsp valid).2 (playSample clock later s).2.2
  refine ⟨?_, rest' ++ rest, ?_⟩
  · rw [hframe]
    exact hsample
  · change (sndFrame clock now later dsp valid s).notes = _
    unfold sndFrame
    dsimp only
    rw [hframe, hrest', hrest, List.append_assoc]

theorem frame_ends {now : BitVec 64} (later : BitVec 64)
    (dsp : Nat -> BitVec 16) (valid : Bool) (hon : s.playOn = true) (hhold : s.playHold = true)
    (hdue : s.playHoldUntil ≤ now) :
    exists rest, (sndStep clock s (.frame now later dsp valid)).notes =
      rest ++ .ended s.playRep :: s.notes := by
  let freed : Snd := { s with playHold := false }
  obtain ⟨rest, hrest⟩ := dmaPlayEnd_notes now freed
  have hbusy : ¬ s.playOn = false := by
    rw [hon]
    decide
  have hframe : exists rest', (dmaPlayFrame clock now later s).2.2.notes =
      rest' ++ .ended s.playRep :: s.notes := by
    unfold dmaPlayFrame
    rw [if_neg hbusy, if_pos hhold, if_neg (BitVec.not_lt.mpr hdue)]
    dsimp only
    split
    · exact ⟨rest, hrest⟩
    · obtain ⟨rest', hrest'⟩ := playSample_notes clock later (dmaPlayEnd now freed)
      refine ⟨rest' ++ .fetched (dmaPlayEnd now freed).playCnt
        (playFetch (dmaPlayEnd now freed)).2 :: rest, ?_⟩
      rw [hrest', hrest, List.append_assoc]
      rfl
  obtain ⟨rest', hrest'⟩ := hframe
  obtain ⟨more, hmore⟩ := dmaRecFrame_adds
    (recInput (dmaPlayFrame clock now later s) dsp valid).1
    (recInput (dmaPlayFrame clock now later s) dsp valid).2 (dmaPlayFrame clock now later s).2.2
  refine ⟨more ++ rest', ?_⟩
  change (sndFrame clock now later dsp valid s).notes = _
  unfold sndFrame
  dsimp only
  rw [hmore, hrest', List.append_assoc]

/-!
## Runs
-/

/-- Over every run the notes are read as passes, what is noted is so, each frame of a pass
fetches, and an end that is held back comes at its time. -/
theorem play_passes (clock : SndClock) (s : Snd) (hoff : s.playOn = false) (hnotes : s.notes = [])
    (ops : List SndOp) :
    (exists p, readNotes (sndRun clock s ops).notes = some p ∧ Matches (sndRun clock s ops) p) ∧
      (forall op, exists new,
        (sndStep clock (sndRun clock s ops) op).notes = new ++ (sndRun clock s ops).notes ∧
          forall n, n ∈ new -> Told (sndRun clock s ops) n) ∧
      forall now later dsp valid, (sndRun clock s ops).playOn = true ->
        ((sndRun clock s ops).playHold = false ->
            ((dmaPlayFrame clock now later (sndRun clock s ops)).1 = true ∧
                (dmaPlayFrame clock now later (sndRun clock s ops)).2.1 =
                  (playFetch (sndRun clock s ops)).1) ∧
              exists rest, (sndStep clock (sndRun clock s ops) (.frame now later dsp valid)).notes =
                rest ++ .fetched (sndRun clock s ops).playCnt (playFetch (sndRun clock s ops)).2 ::
                  (sndRun clock s ops).notes) ∧
          ((sndRun clock s ops).playHold = true -> (sndRun clock s ops).playHoldUntil ≤ now ->
            exists rest, (sndStep clock (sndRun clock s ops) (.frame now later dsp valid)).notes =
              rest ++ .ended (sndRun clock s ops).playRep :: (sndRun clock s ops).notes) := by
  have hstart : readNotes s.notes = some .idle := by
    rw [hnotes]
    rfl
  obtain ⟨p, hread, hagrees⟩ := sndRun_reads clock ops hstart hoff
  refine ⟨⟨p, hread, hagrees⟩, ?_, ?_⟩
  · intro op
    obtain ⟨p', ⟨new, hnew, _, htold⟩, _⟩ := sndStep_leads clock op hagrees
    exact ⟨new, hnew, htold⟩
  · intro now later dsp valid hon
    exact ⟨frame_fetches clock now later dsp valid hon, frame_ends clock later dsp valid hon⟩

/-- Two bytes are played again and again, with an event at each end, up to the first end. -/
def firstPass : List SndOp :=
  [.setbuffer false 0 2, .write 0x00 0x04, .write 0x01 0x03, .frame 1 1 (fun _ => 0) false]

theorem play_passes_first :
    (exists p, readNotes (sndRun ⟨true, fun _ => 1000⟩ (quietSnd 16) firstPass).notes = some p ∧
      Matches (sndRun ⟨true, fun _ => 1000⟩ (quietSnd 16) firstPass) p) ∧
    (sndRun ⟨true, fun _ => 1000⟩ (quietSnd 16) firstPass).notes =
      [.began 0 2, .raised false [.timerA], .ended true, .fetched 0 2, .began 0 2] :=
  ⟨(play_passes ⟨true, fun _ => 1000⟩ (quietSnd 16) rfl rfl firstPass).1, by decide +kernel⟩

def NoEndDropped (notes : List SndNote) : Prop :=
  forall later earlier, notes = later ++ .stopped :: earlier -> readNotes earlier ≠ some .reached

/-- The second end comes too soon, is held back, and play is switched off. -/
def stopWhileHeld : List SndOp :=
  firstPass ++ [.frame 2 2 (fun _ => 0) false, .write 0x01 0x00]

/-- The events of an end that is held back are lost when play is switched off. -/
theorem not_no_end_dropped :
    ¬ NoEndDropped (sndRun ⟨true, fun _ => 1000⟩ (quietSnd 16) stopWhileHeld).notes := by
  intro hkept
  exact hkept [] (sndRun ⟨true, fun _ => 1000⟩ (quietSnd 16) stopWhileHeld).notes.tail
    (by decide +kernel) (by decide +kernel)

end Falcon
end PistormAtari
