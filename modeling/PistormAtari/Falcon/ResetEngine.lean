import PistormAtari.Falcon.HostReset

/-!
# The DSP and the engine at a reset

The old program, the bootstrap and the engine each keep the words of the two programs apart.
-/

namespace PistormAtari
namespace Falcon

open Foundation

section
variable {f : HostLink} {pint : BitVec 9 -> Word} {left : Nat} {waiting : Bool} {r : Reset}

/-!
## The DSP and the engine
-/

theorem Separate.hidden_of_run (h : Separate f pint left waiting r) (hnot : f.dspState ≠ .held)
    (hunseen : Unseen f) : f.dspResetting = true := by
  rcases h.hidden hunseen with hresetting | ⟨hheld, -⟩
  · exact hresetting
  · exact absurd hheld hnot

theorem pop_head_w (g : WrapRing Word) (t : BitVec 32) :
    ({ g.pop with tail := t } : WrapRing Word) = { g with tail := t } := by
  unfold WrapRing.pop
  split
  · rfl
  · rfl

theorem Separate.hrxTake (h : Separate f pint left waiting r) (hrun : f.dspState = .run) :
    Separate (hrxTake f) pint left waiting r := by
  unfold Falcon.hrxTake
  split
  · refine ⟨h.line, h.pressed, h.hidden, h.silent, ?_, ?_, h.waits, h.idle, h.unread, h.fresh,
      h.program⟩
    · intro hunseen hport
      dsimp only
      rw [pop_head_w]
      exact h.queued hunseen hport
    · exact fun hboot => absurd hrun (notRun_of_boot hboot)
  · exact h

theorem Separate.memory (h : Separate f pint left waiting r) (hrun : f.dspState = .run)
    (pint' : BitVec 9 -> Word) : Separate f pint' left waiting r :=
  ⟨h.line, h.pressed, h.hidden, h.silent, h.queued,
    fun hboot => absurd hrun (notRun_of_boot hboot), h.waits, h.idle, h.unread, h.fresh, h.program⟩

theorem Separate.answerSent (h : Separate f pint left waiting r) :
    Separate (answerSent f) pint left waiting r := by
  unfold Falcon.answerSent
  split
  · dsimp only
    split
    · exact ⟨h.line, h.pressed, h.hidden, h.silent, h.queued, h.boots, h.waits, h.idle, h.unread,
        h.fresh, h.program⟩
    · exact ⟨h.line, h.pressed, h.hidden, h.silent, h.queued, h.boots, h.waits, h.idle, h.unread,
        h.fresh, h.program⟩
  · exact h

theorem answerSent_dspState (f : HostLink) : (answerSent f).dspState = f.dspState := by
  unfold Falcon.answerSent
  split
  · dsimp only
    split
    · rfl
    · rfl
  · rfl

theorem unseen_answerSent (f : HostLink) : Unseen (answerSent f) <-> Unseen f := by
  unfold Falcon.answerSent
  split
  · dsimp only
    split
    · exact Iff.rfl
    · exact Iff.rfl
  · exact Iff.rfl

theorem Separate.htxSend (h : Separate f pint left waiting r) (hrun : f.dspState = .run)
    (v : Word) :
    Separate (htxSend f v) pint left waiting
      (if f.rx.push hfSize v ≠ none then r.hear (decide (Unseen f)) else r) := by
  have hsent := h.answerSent
  have hring : (Falcon.answerSent f).rx = f.rx := congrArg Prod.fst (rxSide_answerSent f)
  have hstate := (answerSent_dspState f).trans hrun
  unfold Falcon.htxSend
  rw [hring]
  cases hpush : f.rx.push hfSize v with
  | none =>
      rw [if_neg (not_not.mpr rfl)]
      exact hsent
  | some rx =>
      rw [if_pos (Option.some_ne_none rx)]
      refine ⟨hsent.line, hsent.pressed, ?_, ?_, hsent.queued, hsent.boots, hsent.waits, hsent.idle,
        ?_, ?_, hsent.program⟩
      · intro hunseen
        apply Or.inl
        apply hsent.hidden_of_run _ hunseen
        rw [hstate]
        exact nofun
      · exact fun hboot => absurd hstate (notRun_of_boot hboot)
      · rcases h.unread with ⟨q, hq, hlength⟩
        refine ⟨q ++ [v], hq.push hfSize_lt hfSize_dvd hpush, ?_⟩
        show (q ++ [v]).length = (r.old ++ [decide (Unseen f)]).length
        rw [List.length_append, List.length_append, hlength]
        rfl
      · intro hseen b hb
        have hnot : ¬ Unseen f := fun hunseen => hseen ((unseen_answerSent f).mpr hunseen)
        rcases List.mem_append.mp hb with hold | hnew
        · exact h.fresh hnot b hold
        · rw [List.mem_singleton.mp hnew]
          exact decide_eq_false hnot

theorem loaded_update {g : HostLink} (hcount : g.bootCount < 512) (v : Word) :
    loaded { g with bootCount := g.bootCount + 1 }
      (Function.update pint (BitVec.ofNat 9 g.bootCount) v) = loaded g pint ++ [v] := by
  unfold loaded
  dsimp only
  rw [List.range_succ, List.map_append, List.map_singleton, Function.update_self]
  congr 1
  apply List.map_congr_left
  intro i hi
  rw [List.mem_range] at hi
  apply Function.update_of_ne
  intro heq
  have hnat := congrArg BitVec.toNat heq
  rw [BitVec.toNat_ofNat, BitVec.toNat_ofNat, Nat.mod_eq_of_lt (by lia),
    Nat.mod_eq_of_lt (by lia)] at hnat
  lia

end

theorem Separate.bootWord {s : Core Host} {left : Nat} {waiting : Bool} {r : Reset}
    (h : Separate s.io.toHostLink s.dsp.pint left waiting r) :
    Separate (bootWord s).io.toHostLink (bootWord s).dsp.pint left waiting r := by
  unfold Falcon.bootWord
  split
  · next hcount =>
    split
    · next v hpeek =>
      refine ⟨h.line, h.pressed, h.hidden, h.silent, ?_, ?_, h.waits, h.idle, h.unread, h.fresh,
        h.program⟩
      · intro hunseen hport
        dsimp only
        rw [pop_head_w]
        exact h.queued hunseen hport
      · intro hboot hseen
        rcases h.boots hboot hseen with ⟨q, hq, hsince⟩
        have hfirst := hpeek
        rw [hq.peek hfSize_lt] at hfirst
        cases q with
        | nil => cases hfirst
        | cons w rest =>
            cases hfirst
            refine ⟨rest, hq.pop hfSize_lt hfSize_dvd, ?_⟩
            rw [hsince]
            have hload : loaded { s.io.toHostLink with bootCount := s.io.bootCount + 1 }
                (Function.update s.dsp.pint (BitVec.ofNat 9 s.io.bootCount) v) =
                loaded s.io.toHostLink s.dsp.pint ++ [v] := loaded_update hcount v
            show loaded s.io.toHostLink s.dsp.pint ++ v :: rest =
              loaded { s.io.toHostLink with bootCount := s.io.bootCount + 1 }
                (Function.update s.dsp.pint (BitVec.ofNat 9 s.io.bootCount) v) ++ rest
            rw [hload, List.append_assoc, List.singleton_append]
    · exact h
  · exact h

theorem Separate.bootStart {s : Core Host} {left : Nat} {waiting : Bool} {r : Reset}
    (h : Separate s.io.toHostLink s.dsp.pint left waiting r) (hboot : s.io.dspState = .boot) :
    Separate (bootStart s).io.toHostLink (bootStart s).dsp.pint left waiting r := by
  have hnot : s.io.dspState ≠ .held := by
    rw [hboot]
    exact nofun
  unfold Falcon.bootStart
  split
  · refine ⟨h.line, ?_, ?_, nofun, h.queued, nofun, ?_, h.idle, h.unread, h.fresh, h.program⟩
    · intro hpressed
      rcases h.pressed hpressed with hresetting | hheld
      · exact Or.inl hresetting
      · exact absurd hheld hnot
    · exact fun hunseen => Or.inl (h.hidden_of_run hnot hunseen)
    · intro hwaiting
      exact absurd (h.waits hwaiting).2.1 (notRun_of_boot hboot)
  · exact h

/-!
## The engine sees a release
-/

theorem dspExecLoad_run (x : DspExec) (s : Core Host) : (dspExecLoad x s).io.dspState = .run := by
  unfold dspExecLoad
  dsimp only
  split
  · rfl
  · rfl

structure SameReset (f g : HostLink) : Prop where
  epoch : g.resetEpoch = f.resetEpoch
  seen : g.resetSeen = f.resetSeen
  held : g.resetHeld = f.resetHeld
  porta : g.porta = f.porta

theorem sameReset_htxSend {f g : HostLink} (h : SameReset f g) (v : Word) :
    SameReset f (htxSend g v) := by
  have hsent : SameReset f (answerSent g) := by
    unfold answerSent
    split
    · dsimp only
      split
      · exact ⟨h.epoch, h.seen, h.held, h.porta⟩
      · exact ⟨h.epoch, h.seen, h.held, h.porta⟩
    · exact h
  unfold htxSend
  split
  · exact ⟨hsent.epoch, hsent.seen, hsent.held, hsent.porta⟩
  · exact hsent

theorem sameReset_dspExecLoad (x : DspExec) (s : Core Host) :
    SameReset s.io.toHostLink (dspExecLoad x s).io.toHostLink := by
  have hsend (f : HostLink) (v : Word) (h : SameReset s.io.toHostLink f) :
      SameReset s.io.toHostLink (htxSend f v) := sameReset_htxSend h v
  have hrun (f : HostLink) (n : Nat) (h : SameReset s.io.toHostLink f) :
      SameReset s.io.toHostLink { f with bootCount := n, dspState := .run } :=
    ⟨h.epoch, h.seen, h.held, h.porta⟩
  exact dspExecLoad_keeps hsend hrun x s ⟨rfl, rfl, rfl, rfl⟩

/-- The release is seen, and what runs or listens then is the new program. -/
structure Released (s t : Core Host) : Prop where
  same : SameReset (resetHost s.io).toHostLink t.io.toHostLink
  boots : t.io.dspState = .boot ->
    s.io.exec = none ∧ t.io.toHostLink = { (resetHost s.io).toHostLink with dspResetting := false } ∧
      t.dsp.pint = fun _ => 0
  program : s.io.exec = none -> t.io.dspState = .boot

theorem released_dspReleased (s : Core Host) : Released s (dspReleased s) := by
  unfold dspReleased
  dsimp only
  cases hexec : s.io.exec with
  | none => exact ⟨⟨rfl, rfl, rfl, rfl⟩, fun _ => ⟨hexec, rfl, rfl⟩, fun _ => rfl⟩
  | some x =>
      have hload := sameReset_dspExecLoad x
        { dsp := { dsp56kReset s.dsp with pint := fun _ => 0 }, io := resetHost s.io }
      constructor
      · exact ⟨hload.epoch, hload.seen, hload.held, hload.porta⟩
      · intro hboot
        exact absurd (dspExecLoad_run x _) (notRun_of_boot hboot)
      · intro hnone
        rw [hexec] at hnone
        cases hnone

theorem settlePower_held {f : Host} (hheld : f.resetHeld = true) :
    settlePower f = { f with dspState := .held } := by
  have hnot : ¬ (f.dspResetting = true ∧ f.resetHeld = false ∧ f.resetEpoch = f.resetSeen ∧
      DspState.held = .run) := fun hand => nomatch hand.2.2.2
  unfold settlePower
  rw [if_pos hheld]
  exact if_neg hnot

theorem settlePower_free {f : Host} (hfree : f.resetHeld = false) :
    settlePower f =
      if f.dspResetting = true ∧ f.resetHeld = false ∧ f.resetEpoch = f.resetSeen ∧
          f.dspState = .run then
        { f with dspResetting := false }
      else f := by
  have hnot : ¬ f.resetHeld = true := by
    rw [hfree]
    exact Bool.false_ne_true
  unfold settlePower
  rw [if_neg hnot]

theorem separate_settlePower {f : Host} {pint : BitVec 9 -> Word} {left : Nat} {waiting : Bool}
    {r : Reset} (hseen : ¬ Unseen f.toHostLink)
    (hline : f.resetHeld = decide (f.porta &&& 0x10 ≠ 0))
    (hsilent : f.dspState = .boot -> f.rx.peek hfSize = none)
    (hboots : Bootstraps f.toHostLink pint r.since)
    (hwaits : waiting = true -> f.dspState = .run ∧ f.resetHeld = false)
    (hidle : left = 0 -> waiting = false)
    (hunread : exists q, f.rx.Holds hfSize q ∧ q.length = r.old.length)
    (hfresh : forall b, b ∈ r.old -> b = false) :
    Separate (settlePower f).toHostLink pint left waiting r := by
  cases hheld : f.resetHeld with
  | true =>
      rw [settlePower_held hheld]
      refine ⟨hline, fun _ => Or.inr rfl, fun h => absurd h hseen, nofun, fun h => absurd h hseen,
        nofun, ?_, hidle, hunread, fun _ => hfresh, fun h => absurd h hseen⟩
      intro hwaiting
      have hfree := (hwaits hwaiting).2
      rw [hheld] at hfree
      cases hfree
  | false =>
      have hkept : Separate f.toHostLink pint left waiting r := by
        refine ⟨hline, ?_, fun h => absurd h hseen, fun hboot _ => hsilent hboot,
          fun h => absurd h hseen, hboots, fun hwaiting => ⟨hseen, hwaits hwaiting⟩, hidle, hunread,
          fun _ => hfresh, fun h => absurd h hseen⟩
        intro hpressed
        rw [hheld] at hpressed
        cases hpressed
      rw [settlePower_free hheld]
      split
      · refine ⟨hline, ?_, fun h => absurd h hseen, hkept.silent, hkept.queued, hkept.boots,
          hkept.waits, hidle, hunread, hkept.fresh, hkept.program⟩
        intro hpressed
        change f.resetHeld = true at hpressed
        rw [hheld] at hpressed
        cases hpressed
      · exact hkept

theorem settlePower_rx (f : Host) : (settlePower f).rx = f.rx := by
  cases hheld : f.resetHeld with
  | true => rw [settlePower_held hheld]
  | false =>
      rw [settlePower_free hheld]
      split
      · rfl
      · rfl

theorem separate_powerState {s : HostPort × Reset} (h : SeparateAt s) :
    SeparateAt (resetStep s .powerState) := by
  unfold SeparateAt at h ⊢
  unfold resetStep Reset.after hostStep dspPowerState
  dsimp only
  rcases Decidable.em (Unseen s.1.core.io.toHostLink) with hunseen | hseen
  · rw [if_pos hunseen]
    have hnew : s.1.core.io.resetEpoch ≠ s.1.core.io.resetSeen := hunseen
    rw [if_pos hnew, settlePower_rx]
    have hreleased := released_dspReleased s.1.core
    rcases (sameTx_dspReleased s.1.core).rx (rx_cleared s.1.core.io.toHostLink) with ⟨q, hq⟩
    apply separate_settlePower
    · exact not_not.mpr (hreleased.same.epoch.trans hreleased.same.seen.symm)
    · rw [hreleased.same.held, hreleased.same.porta]
      exact h.line
    · intro hboot
      have hrx := congrArg HostLink.rx (hreleased.boots hboot).2.1
      rw [hrx]
      unfold WrapRing.peek
      exact if_pos rfl
    · intro hboot _
      rcases hreleased.boots hboot with ⟨hexec, hlink, hpint⟩
      rw [hlink, hpint]
      exact ⟨s.2.since, h.queued hunseen ((h.program hunseen).mpr hexec), rfl⟩
    · exact fun hwaiting => absurd hunseen (h.waits hwaiting).1
    · exact h.idle
    · refine ⟨q, hq, ?_⟩
      show q.length = (List.replicate (dspReleased s.1.core).io.rx.count false).length
      rw [List.length_replicate, hq.count hfSize_lt]
    · exact fun b hb => List.eq_of_mem_replicate hb
  · have hsame : ¬ (s.1.core.io.resetEpoch ≠ s.1.core.io.resetSeen) := hseen
    rw [if_neg hseen, if_neg hsame]
    exact separate_settlePower hseen h.line (fun hboot => h.silent hboot hseen) h.boots
      (fun hwaiting => (h.waits hwaiting).2) h.idle h.unread (h.fresh hseen)

end Falcon
end PistormAtari
