import PistormAtari.Falcon.SoundDma

/-!
# The DMA sound: where a recording is stored

A pass of the recording has the start and the end that the registers had when it began.
-/

namespace PistormAtari
namespace Falcon

/-!
## Pairs of samples
-/

theorem p16_guest (a : BitVec 32) (v : BitVec 16) (s : Snd) :
    p16 a v s = { s with guest := (p16 a v s).guest } := by
  unfold p16
  split <;> rfl

theorem p16_frame {a : BitVec 32} {v : BitVec 16} {s : Snd} {k : Nat}
    (h : (p16 a v s).guest k ≠ s.guest k) :
    a.toNat + 2 ≤ s.guestSize ∧ a.toNat ≤ k ∧ k < a.toNat + 2 := by
  unfold p16 at h
  split at h
  · rename_i hok
    obtain ⟨hlt, hfits⟩ := hok
    refine ⟨by lia, ?_⟩
    by_cases hk : k = a.toNat + 1
    · lia
    · dsimp only at h
      rw [Function.update_of_ne hk] at h
      by_cases hk' : k = a.toNat
      · lia
      · rw [Function.update_of_ne hk'] at h
        exact absurd rfl h
  · exact absurd rfl h

theorem recPairs_guest (w : Nat -> BitVec 16) (n t : Nat) (s : Snd) (c : BitVec 32) :
    (recPairs w n t (s, c)).1 = { s with guest := (recPairs w n t (s, c)).1.guest } := by
  induction n generalizing t s c with
  | zero => rfl
  | succ n ih =>
      have hput : p16 (c + 2) (w (2 * t + 1)) (p16 c (w (2 * t)) s) =
          { s with guest := (p16 (c + 2) (w (2 * t + 1)) (p16 c (w (2 * t)) s)).guest } := by
        rw [p16_guest (c + 2), p16_guest c]
      unfold recPairs
      dsimp only
      split
      · exact hput
      · refine (ih (t + 1) _ (c + 4)).trans ?_
        rw [hput]

/-- The pairs of a frame stay between the counter and the end, which is reached exactly or not
at all, or lie where there is no guest memory. -/
def PairsFit (size n : Nat) (c fend : BitVec 32) : Prop :=
  (c.toNat < fend.toNat ∧ (c.toNat + 4 * n ≤ fend.toNat ∨ (fend.toNat - c.toNat) % 4 = 0)) ∨
    (size ≤ max c.toNat fend.toNat ∧ c.toNat + 4 * n < 2 ^ 32)

theorem recPairs_confined (w : Nat -> BitVec 16) (n t : Nat) (s : Snd) (c : BitVec 32)
    (hfit : PairsFit s.guestSize n c s.recFend) :
    c.toNat ≤ (recPairs w n t (s, c)).2.toNat ∧
      forall k, (recPairs w n t (s, c)).1.guest k ≠ s.guest k ->
        c.toNat ≤ k ∧ k < s.recFend.toNat := by
  induction n generalizing t s c with
  | zero => exact ⟨Nat.le_refl _, fun k h => absurd rfl h⟩
  | succ n ih =>
      have hfend : s.recFend.toNat < 2 ^ 32 := s.recFend.isLt
      unfold PairsFit at hfit
      have hroom : c.toNat + 4 < 2 ^ 32 := by lia
      have htwo : (c + 2).toNat = c.toNat + 2 := by
        rw [BitVec.toNat_add]
        exact Nat.mod_eq_of_lt (Nat.lt_of_le_of_lt (Nat.add_le_add_left (by decide) _) hroom)
      have hfour : (c + 4).toNat = c.toNat + 4 := by
        rw [BitVec.toNat_add]
        exact Nat.mod_eq_of_lt (Nat.lt_of_le_of_lt (Nat.add_le_add_left (by decide) _) hroom)
      have hguest : p16 (c + 2) (w (2 * t + 1)) (p16 c (w (2 * t)) s) =
          { s with guest := (p16 (c + 2) (w (2 * t + 1)) (p16 c (w (2 * t)) s)).guest } := by
        rw [p16_guest (c + 2), p16_guest c]
      have hpair : forall k,
          (p16 (c + 2) (w (2 * t + 1)) (p16 c (w (2 * t)) s)).guest k ≠ s.guest k ->
            c.toNat ≤ k ∧ k < s.recFend.toNat := by
        intro k hk
        by_cases hfirst : (p16 c (w (2 * t)) s).guest k = s.guest k
        · rw [← hfirst] at hk
          have hsize : (p16 c (w (2 * t)) s).guestSize = s.guestSize := by rw [p16_guest]
          have hplace := p16_frame hk
          rw [hsize, htwo] at hplace
          lia
        · have hplace := p16_frame hfirst
          lia
      unfold recPairs
      dsimp only
      split
      · exact ⟨by lia, hpair⟩
      · rename_i hmore
        rw [hguest] at hmore
        have hlt : c.toNat + 4 < s.recFend.toNat := by
          rw [← hfour]
          exact BitVec.lt_def.mp (BitVec.not_le.mp hmore)
        have hrest := ih (t + 1) (p16 (c + 2) (w (2 * t + 1)) (p16 c (w (2 * t)) s)) (c + 4) (by
          rw [hguest]
          unfold PairsFit
          rw [hfour]
          dsimp only
          lia)
        have hend : (p16 (c + 2) (w (2 * t + 1)) (p16 c (w (2 * t)) s)).recFend = s.recFend := by
          rw [hguest]
        rw [hfour, hend] at hrest
        refine ⟨by lia, fun k hk => ?_⟩
        by_cases hkept : (recPairs w n (t + 1)
            (p16 (c + 2) (w (2 * t + 1)) (p16 c (w (2 * t)) s), c + 4)).1.guest k =
              (p16 (c + 2) (w (2 * t + 1)) (p16 c (w (2 * t)) s)).guest k
        · rw [hkept] at hk
          exact hpair k hk
        · have hlater := hrest.2 k hkept
          exact ⟨by lia, hlater.2⟩

/-!
## The recording and the rest
-/

structure RecPart where
  guest : Nat -> BitVec 8
  guestSize : Nat
  start : BitVec 32
  fin : BitVec 32
  cnt : BitVec 32
  fend : BitVec 32
  on : Bool
  rep : Bool
  tracks : Nat

def Snd.recPart (s : Snd) : RecPart where
  guest := s.guest
  guestSize := s.guestSize
  start := s.recStart
  fin := s.recEnd
  cnt := s.recCnt
  fend := s.recFend
  on := s.recordOn
  rep := s.recRep
  tracks := recTracks s

theorem dmaPlayEnd_recPart (now : BitVec 64) (s : Snd) :
    (dmaPlayEnd now s).recPart = s.recPart := by
  unfold dmaPlayEnd
  dsimp only
  split <;> rfl

variable (clock : SndClock)

theorem playSample_recPart (now : BitVec 64) (s : Snd) :
    (playSample clock now s).2.2.recPart = s.recPart := by
  unfold playSample
  dsimp only
  split
  · split
    · rfl
    · exact dmaPlayEnd_recPart now _
  · rfl

theorem dmaPlayFrame_recPart (now later : BitVec 64) (s : Snd) :
    (dmaPlayFrame clock now later s).2.2.recPart = s.recPart := by
  have hend := dmaPlayEnd_recPart now { s with playHold := false }
  unfold dmaPlayFrame
  split
  · rfl
  · split
    · split
      · rfl
      · dsimp only
        split
        · exact hend
        · rw [playSample_recPart]
          exact hend
    · exact playSample_recPart clock later s

/-- What a call or a register leaves of the recording: memory as it was, and a pass that goes
on, or none, or one that begins with the addresses of the registers. -/
def RecKept (s s' : Snd) : Prop :=
  s'.guest = s.guest ∧
    (s'.recordOn = true ->
      (s.recordOn = true ∧ s'.recFend = s.recFend ∧ s'.recCnt = s.recCnt) ∨
        (s.recordOn = false ∧ s'.recFend = s.recEnd ∧ s'.recCnt = s.recStart))

theorem recKept_of_same {s s' : Snd} (hguest : s'.guest = s.guest) (hon : s'.recordOn = s.recordOn)
    (hfend : s'.recFend = s.recFend) (hcnt : s'.recCnt = s.recCnt) : RecKept s s' := by
  refine ⟨hguest, fun h => Or.inl ⟨?_, hfend, hcnt⟩⟩
  rw [← hon]
  exact h

theorem playControl_recPart (on : Bool) (s : Snd) : (playControl on s).recPart = s.recPart := by
  unfold playControl
  split
  · rfl
  · split <;> rfl

theorem sndControl_recKept (v : BitVec 8) (s : Snd) : RecKept s (sndControl v s) := by
  let named : Snd := { s with
    reg := Function.update s.reg 0x01 ((s.reg 0x01 &&& 0x7F) ||| (v &&& 0x80))
    playRep := v.getLsbD 1
    recRep := v.getLsbD 5 }
  have hpart := playControl_recPart (v.getLsbD 0) named
  have hguest : (playControl (v.getLsbD 0) named).guest = s.guest := congrArg RecPart.guest hpart
  have hrec : (playControl (v.getLsbD 0) named).recordOn = s.recordOn := congrArg RecPart.on hpart
  have hfend : (playControl (v.getLsbD 0) named).recFend = s.recFend := congrArg RecPart.fend hpart
  have hcnt : (playControl (v.getLsbD 0) named).recCnt = s.recCnt := congrArg RecPart.cnt hpart
  have hstart : (playControl (v.getLsbD 0) named).recStart = s.recStart :=
    congrArg RecPart.start hpart
  have hfin : (playControl (v.getLsbD 0) named).recEnd = s.recEnd := congrArg RecPart.fin hpart
  change RecKept s { recControl (v.getLsbD 4) (playControl (v.getLsbD 0) named) with
    playOn := v.getLsbD 0, recordOn := v.getLsbD 4 }
  unfold recControl RecKept
  dsimp only
  split
  · rename_i hbegins
    rw [hrec] at hbegins
    exact ⟨hguest, fun _ => Or.inr ⟨hbegins.2, hfin, hstart⟩⟩
  · rename_i hno
    refine ⟨hguest, fun hon => Or.inl ⟨?_, hfend, hcnt⟩⟩
    rw [hrec] at hno
    exact Bool.eq_true_of_not_eq_false fun h => hno ⟨hon, h⟩

theorem setStart_recKept (shift : Nat) (v : BitVec 8) (s : Snd) : RecKept s (setStart shift v s) := by
  unfold setStart
  split <;> exact recKept_of_same rfl rfl rfl rfl

theorem setEnd_recKept (shift : Nat) (v : BitVec 8) (s : Snd) : RecKept s (setEnd shift v s) := by
  unfold setEnd
  split <;> exact recKept_of_same rfl rfl rfl rfl

theorem sndWrite8_recKept (o : Nat) (v : BitVec 8) (s : Snd) : RecKept s (sndWrite8 o v s) := by
  have hself : RecKept s s := recKept_of_same rfl rfl rfl rfl
  unfold sndWrite8
  split
  · exact sndControl_recKept v s
  · exact setStart_recKept 16 v s
  · exact setStart_recKept 8 v s
  · exact setStart_recKept 0 _ s
  · exact setEnd_recKept 16 v s
  · exact setEnd_recKept 8 v s
  · exact setEnd_recKept 0 _ s
  · exact hself
  · exact hself
  · exact hself
  · split
    · exact recKept_of_same rfl rfl rfl rfl
    · exact hself

theorem stopPlay_guest (s : Snd) : (stopPlay s).guest = s.guest := by
  unfold stopPlay
  split <;> rfl

/-!
## Passes
-/

/-- The addresses that the registers had when the pass of the recording began. -/
structure RecPass where
  start : BitVec 32
  fin : BitVec 32

def recEnds (w : Nat -> BitVec 16) (valid : Bool) (s : Snd) : Bool :=
  s.recordOn && valid && decide (s.recFend ≤ (recPairs w (recTracks s) 0 (s, s.recCnt)).2)

/-- A pass begins when the recording is switched on, and when one ends that is repeated. -/
def passBegins (clock : SndClock) (s : Snd) : SndOp -> Bool
  | .frame now later dsp valid =>
      let played := dmaPlayFrame clock now later s
      let input := recInput played dsp valid
      recEnds input.1 input.2 played.2.2 && s.recRep
  | op => !s.recordOn && (sndStep clock s op).recordOn

abbrev Recording : Type := Snd × RecPass

def recStep (clock : SndClock) (x : Recording) (op : SndOp) : Recording :=
  (sndStep clock x.1 op,
    if passBegins clock x.1 op then ⟨x.1.recStart, x.1.recEnd⟩ else x.2)

def EachStep (clock : SndClock) (P : Recording -> SndOp -> Prop) :
    Recording -> List SndOp -> Prop
  | _, [] => True
  | x, op :: ops => P x op ∧ EachStep clock P (recStep clock x op) ops

/-- A step changes the guest's memory within the pass, and so not at all when the pass is empty
or ends below its start. -/
def StoresInPass (clock : SndClock) (x : Recording) (op : SndOp) : Prop :=
  forall k, (sndStep clock x.1 op).guest k ≠ x.1.guest k ->
    x.2.start.toNat ≤ k ∧ k < x.2.fin.toNat

def FrameFits (clock : SndClock) (x : Recording) : SndOp -> Prop
  | .frame now later dsp valid =>
      x.1.recordOn = true ->
        (recInput (dmaPlayFrame clock now later x.1) dsp valid).2 = true ->
          PairsFit x.1.guestSize (recTracks x.1) x.1.recCnt x.1.recFend
  | _ => True

/-- The latched end is the pass's, and the counter has not gone below its start. -/
def PassHeld (x : Recording) : Prop :=
  x.1.recordOn = true -> x.1.recFend = x.2.fin ∧ x.2.start.toNat ≤ x.1.recCnt.toNat

theorem dmaRecFrame_idle {w : Nat -> BitVec 16} {valid : Bool} {s : Snd}
    (h : s.recordOn = false ∨ valid = false) : dmaRecFrame w valid s = s := if_pos h

theorem dmaRecFrame_spec {w : Nat -> BitVec 16} {s : Snd} (hon : s.recordOn = true) :
    (dmaRecFrame w true s).guest = (recPairs w (recTracks s) 0 (s, s.recCnt)).1.guest ∧
      ((dmaRecFrame w true s).recordOn = true ->
        if (recEnds w true s && s.recRep) = true then
          (dmaRecFrame w true s).recFend = s.recEnd ∧ (dmaRecFrame w true s).recCnt = s.recStart
        else
          (dmaRecFrame w true s).recFend = s.recFend ∧
            (dmaRecFrame w true s).recCnt = (recPairs w (recTracks s) 0 (s, s.recCnt)).2) := by
  have hfields := recPairs_guest w (recTracks s) 0 s s.recCnt
  have hbusy : ¬ (s.recordOn = false ∨ true = false) := by
    rw [hon]
    simp
  unfold dmaRecFrame recEnds
  rw [if_neg hbusy, hon]
  cases hpairs : recPairs w (recTracks s) 0 (s, s.recCnt) with
  | mk s' c =>
      rw [hpairs] at hfields
      dsimp only at hfields ⊢
      have hfend : s'.recFend = s.recFend := by rw [hfields]
      have hrep : s'.recRep = s.recRep := by rw [hfields]
      have hstart : s'.recStart = s.recStart ∧ s'.recEnd = s.recEnd := by
        rw [hfields]
        exact ⟨rfl, rfl⟩
      by_cases hend : s.recFend ≤ c
      · rw [hfend, if_pos hend, decide_eq_true hend]
        cases hagain : s.recRep with
        | true =>
            have hrep' : (dmaFrameEvent true s').recRep = true := hrep.trans hagain
            rw [if_pos hrep']
            exact ⟨rfl, fun _ => ⟨hstart.2, hstart.1⟩⟩
        | false =>
            have hrep' : ¬ (dmaFrameEvent true s').recRep = true := by
              change ¬ s'.recRep = true
              rw [hrep, hagain]
              simp
            rw [if_neg hrep']
            exact ⟨rfl, fun h => by cases h⟩
      · rw [hfend, if_neg hend, decide_eq_false hend]
        exact ⟨rfl, fun _ => ⟨rfl, rfl⟩⟩

theorem recStep_kept {x : Recording} {op : SndOp} (hkept : RecKept x.1 (sndStep clock x.1 op))
    (hbegins : passBegins clock x.1 op = (!x.1.recordOn && (sndStep clock x.1 op).recordOn))
    (hheld : PassHeld x) : StoresInPass clock x op ∧ PassHeld (recStep clock x op) := by
  obtain ⟨hguest, hpass⟩ := hkept
  constructor
  · intro k hk
    exact absurd (congrFun hguest k) hk
  · intro hon
    change (sndStep clock x.1 op).recordOn = true at hon
    unfold recStep
    dsimp only
    rcases hpass hon with ⟨hwas, hfend, hcnt⟩ | ⟨hwas, hfend, hcnt⟩
    · rw [hbegins, hwas, if_neg (by simp), hfend, hcnt]
      exact hheld hwas
    · rw [hbegins, hwas, hon, if_pos (by rfl), hfend, hcnt]
      exact ⟨rfl, Nat.le_refl _⟩

theorem recFrame_held {w : Nat -> BitVec 16} {valid : Bool} {s : Snd} {p : RecPass}
    (hheld : s.recordOn = true -> s.recFend = p.fin ∧ p.start.toNat ≤ s.recCnt.toNat)
    (hfits : s.recordOn = true -> valid = true ->
      PairsFit s.guestSize (recTracks s) s.recCnt s.recFend) :
    (forall k, (dmaRecFrame w valid s).guest k ≠ s.guest k ->
        p.start.toNat ≤ k ∧ k < p.fin.toNat) ∧
      ((dmaRecFrame w valid s).recordOn = true ->
        (dmaRecFrame w valid s).recFend =
            (if (recEnds w valid s && s.recRep) = true then ⟨s.recStart, s.recEnd⟩ else p).fin ∧
          (if (recEnds w valid s && s.recRep) = true then ⟨s.recStart, s.recEnd⟩ else p).start.toNat ≤
            (dmaRecFrame w valid s).recCnt.toNat) := by
  by_cases hidle : s.recordOn = false ∨ valid = false
  · have hnone : recEnds w valid s = false := by
      unfold recEnds
      rcases hidle with h | h
      · rw [h]
        rfl
      · rw [h, Bool.and_false]
        rfl
    rw [dmaRecFrame_idle hidle, hnone, Bool.false_and, if_neg Bool.false_ne_true]
    exact ⟨fun k hk => absurd rfl hk, hheld⟩
  · obtain ⟨hrec, hvalid⟩ := not_or.mp hidle
    have hon : s.recordOn = true := Bool.eq_true_of_not_eq_false hrec
    have hvalid' : valid = true := Bool.eq_true_of_not_eq_false hvalid
    subst hvalid'
    obtain ⟨hfend, hcnt⟩ := hheld hon
    have hpairs := recPairs_confined w (recTracks s) 0 s s.recCnt (hfits hon rfl)
    obtain ⟨hmem, hnext⟩ := @dmaRecFrame_spec w s hon
    constructor
    · intro k hk
      rw [hmem] at hk
      have hplace := hpairs.2 k hk
      rw [← hfend]
      exact ⟨Nat.le_trans hcnt hplace.1, hplace.2⟩
    · intro hstill
      have hpass := hnext hstill
      split
      · rename_i hagain
        rw [if_pos hagain] at hpass
        exact ⟨hpass.1, Nat.le_of_eq (congrArg BitVec.toNat hpass.2.symm)⟩
      · rename_i hon'
        rw [if_neg hon'] at hpass
        refine ⟨hpass.1.trans hfend, ?_⟩
        rw [hpass.2]
        exact Nat.le_trans hcnt hpairs.1

theorem recStep_frame {x : Recording} (now later : BitVec 64)
    (dsp : Nat -> BitVec 16) (valid : Bool) (hheld : PassHeld x)
    (hfits : FrameFits clock x (.frame now later dsp valid)) :
    StoresInPass clock x (.frame now later dsp valid) ∧
      PassHeld (recStep clock x (.frame now later dsp valid)) := by
  have hpart := dmaPlayFrame_recPart clock now later x.1
  have hguest : (dmaPlayFrame clock now later x.1).2.2.guest = x.1.guest :=
    congrArg RecPart.guest hpart
  have hsize : (dmaPlayFrame clock now later x.1).2.2.guestSize = x.1.guestSize :=
    congrArg RecPart.guestSize hpart
  have hstart : (dmaPlayFrame clock now later x.1).2.2.recStart = x.1.recStart :=
    congrArg RecPart.start hpart
  have hfin : (dmaPlayFrame clock now later x.1).2.2.recEnd = x.1.recEnd :=
    congrArg RecPart.fin hpart
  have hcnt : (dmaPlayFrame clock now later x.1).2.2.recCnt = x.1.recCnt :=
    congrArg RecPart.cnt hpart
  have hfend : (dmaPlayFrame clock now later x.1).2.2.recFend = x.1.recFend :=
    congrArg RecPart.fend hpart
  have hrec : (dmaPlayFrame clock now later x.1).2.2.recordOn = x.1.recordOn :=
    congrArg RecPart.on hpart
  have hrep : (dmaPlayFrame clock now later x.1).2.2.recRep = x.1.recRep :=
    congrArg RecPart.rep hpart
  have htracks : recTracks (dmaPlayFrame clock now later x.1).2.2 = recTracks x.1 :=
    congrArg RecPart.tracks hpart
  unfold PassHeld at hheld
  unfold FrameFits at hfits
  dsimp only at hfits
  rw [← hrec, ← hfend, ← hcnt] at hheld hfits
  rw [← hsize, ← htracks] at hfits
  unfold StoresInPass PassHeld recStep passBegins
  dsimp only
  rw [← hguest, ← hstart, ← hfin, ← hrep]
  exact recFrame_held hheld hfits

theorem recStep_spec {x : Recording} {op : SndOp} (hheld : PassHeld x)
    (hfits : FrameFits clock x op) :
    StoresInPass clock x op ∧ PassHeld (recStep clock x op) := by
  cases op with
  | write o v => exact recStep_kept clock (sndWrite8_recKept o v x.1) rfl hheld
  | setbuffer isRec first last =>
      apply recStep_kept clock _ rfl hheld
      change RecKept x.1 (setbuffer isRec first last x.1)
      unfold setbuffer
      split <;> exact recKept_of_same rfl rfl rfl rfl
  | buffoper m =>
      apply recStep_kept clock _ rfl hheld
      change RecKept x.1 (buffoper m x.1)
      unfold buffoper
      split
      · exact recKept_of_same rfl rfl rfl rfl
      · exact sndControl_recKept _ x.1
  | defaults => exact recStep_kept clock ⟨stopPlay_guest x.1, fun h => by cases h⟩ rfl hheld
  | disarm => exact recStep_kept clock ⟨stopPlay_guest x.1, fun h => by cases h⟩ rfl hheld
  | frame now later dsp valid => exact recStep_frame clock now later dsp valid hheld hfits

/-- In a run whose frames fit into their passes, every step changes the guest's memory only
within the pass. -/
theorem recording_stays_in_pass (clock : SndClock) (x : Recording) (ops : List SndOp)
    (hoff : x.1.recordOn = false) (hfits : EachStep clock (FrameFits clock) x ops) :
    EachStep clock (StoresInPass clock) x ops := by
  have hheld : PassHeld x := fun hon => by
    rw [hoff] at hon
    cases hon
  clear hoff
  induction ops generalizing x with
  | nil => trivial
  | cons op ops ih =>
      obtain ⟨hfirst, hrest⟩ := hfits
      obtain ⟨hstores, hnext⟩ := recStep_spec clock hheld hfirst
      exact ⟨hstores, ih (recStep clock x op) hrest hnext⟩

/-- A buffer of `last` bytes at address 0, the silent input recorded once, and one frame. -/
def recordOneFrame (last : BitVec 32) : List SndOp :=
  [.setbuffer true 0 last, .write 0x33 4, .write 0x01 0x10, .frame 0 0 (fun _ => 0) false]

/-- A buffer of one pair of samples. -/
theorem recording_stays_in_pass_one_pair :
    EachStep ⟨false, fun _ => 0⟩ (FrameFits ⟨false, fun _ => 0⟩) (quietSnd 16, ⟨0, 0⟩)
        (recordOneFrame 4) ∧
      EachStep ⟨false, fun _ => 0⟩ (StoresInPass ⟨false, fun _ => 0⟩) (quietSnd 16, ⟨0, 0⟩)
        (recordOneFrame 4) := by
  have hfits : EachStep ⟨false, fun _ => 0⟩ (FrameFits ⟨false, fun _ => 0⟩) (quietSnd 16, ⟨0, 0⟩)
      (recordOneFrame 4) :=
    ⟨trivial, trivial, trivial, fun _ _ => Or.inl ⟨by decide, Or.inl (by decide)⟩, trivial⟩
  exact ⟨hfits, recording_stays_in_pass ⟨false, fun _ => 0⟩ (quietSnd 16, ⟨0, 0⟩)
    (recordOneFrame 4) rfl hfits⟩

/-- A frame recorded into an empty buffer is stored at its start. -/
theorem not_recording_stays_in_pass :
    ¬ EachStep ⟨false, fun _ => 0⟩ (StoresInPass ⟨false, fun _ => 0⟩) (quietSnd 16, ⟨0, 0⟩)
      (recordOneFrame 0) := by
  rintro ⟨-, -, -, hframe, -⟩
  have hplace := hframe 0 (by decide +kernel)
  exact absurd hplace.2 (by decide)

end Falcon
end PistormAtari
