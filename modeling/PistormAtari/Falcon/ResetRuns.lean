import PistormAtari.Falcon.ResetEngine

/-!
# Resets among the other steps

In every run whose steps meet the condition the 68k reads nothing of the old program, and
the new one is what the 68k sent after the release.
-/

namespace PistormAtari
namespace Falcon

open Foundation

/-!
## Steps
-/

theorem hostByte_last (found : Option Word) (f : Host) :
    (hostByte 7 found f).2 =
      match found with
      | some v => { f with rx := f.rx.pop, wroteSinceRx := false, rxLast := v }
      | none => f := by
  cases found with
  | none => rfl
  | some v => rfl

theorem separate_takeByte {s : HostPort} {r : Reset} (h : SeparateAt (s, r))
    (found : Option Word) {taken : Bool} (htaken : taken = found.isSome) :
    SeparateAt
      (takeByte s found, if taken = true ∧ s.access.next = 7 then r.read else r) := by
  have hfree : Separate s.core.io.toHostLink s.core.dsp.pint (s.access.left - 1) false r :=
    h.access nofun (fun _ => rfl)
  show Separate (hostByte s.access.next found s.core.io).2.toHostLink s.core.dsp.pint
    (s.access.left - 1) false _
  rw [htaken]
  rcases eq_or_ne s.access.next 7 with hlast | hnot
  · rw [hlast, hostByte_last]
    cases found with
    | none =>
        rw [if_neg (fun hand => Bool.false_ne_true hand.1)]
        exact hfree
    | some v =>
        rw [if_pos ⟨rfl, rfl⟩]
        exact hfree.read v
  · rw [hostByte_link hnot, if_neg (fun hand => hnot hand.2)]
    exact hfree

theorem SeparateAt.setWaited {s : HostPort} {r : Reset} (h : SeparateAt (s, r)) :
    SeparateAt (setWaited s s.waiting, r) :=
  h.access h.waits h.idle

variable {s : HostPort × Reset}

theorem separate_readByte (h : SeparateAt s) (flowing : Bool)
    (hkeeps : KeepsReset s (.readByte flowing)) :
    SeparateAt (resetStep s (.readByte flowing)) := by
  unfold resetStep Reset.after hostStep
  dsimp only
  cases hfree : s.1.cpuFree with
  | true =>
      have hnone : findsWord s.1 (.readByte flowing) = false := by
        unfold findsWord
        rw [hfree]
        rfl
      rw [if_pos (Or.inl rfl), hnone, if_neg (fun hand => Bool.false_ne_true hand.1)]
      exact h
  | false =>
      cases hwaiting : s.1.waiting with
      | true =>
          have hnone : findsWord s.1 (.readByte flowing) = false := by
            unfold findsWord
            rw [hwaiting, Bool.not_true, Bool.and_false, Bool.false_and]
          rw [if_pos (Or.inr rfl), hnone, if_neg (fun hand => Bool.false_ne_true hand.1)]
          exact h
      | false =>
          have hfind : findsWord s.1 (.readByte flowing) =
              (rxFind s.1.core.io.toHostLink).isSome := by
            unfold findsWord
            rw [hfree, hwaiting]
            rfl
          have hbusy : ¬ (false = true ∨ false = true) := by decide
          rw [if_neg hbusy, readByte_eq]
          split
          · next hmay =>
            have hempty := (mayWait_iff.mp hmay).2.1
            rw [hempty] at hfind
            have hno : ¬ ((none : Option Word).isSome = true ∧ s.1.access.next = 7) :=
              fun hand => Bool.false_ne_true hand.1
            rw [hfind, if_neg hno]
            split
            · next hwait =>
              have hnotseen := hkeeps ⟨hfree, hwaiting, hmay, hwait⟩
              unfold waitsForWord at hwait
              rw [Bool.and_eq_true, Bool.and_eq_true, decide_eq_true_eq, Bool.not_eq_true'] at hwait
              refine Separate.access h (fun _ => ⟨hnotseen, hwait.1.2, hwait.2⟩) ?_
              intro hleft
              have hidle : s.1.cpuFree = true := decide_eq_true hleft
              rw [hfree] at hidle
              cases hidle
            · have hset : SeparateAt (Falcon.setWaited s.1 s.1.waiting, s.2) :=
                SeparateAt.setWaited h
              have htake := separate_takeByte hset none rfl
              rw [if_neg (fun hand => Bool.false_ne_true hand.1)] at htake
              exact htake
          · exact separate_takeByte h _ hfind

theorem separate_rxPoll (h : SeparateAt s) :
    SeparateAt (resetStep s .rxPoll) := by
  unfold resetStep Reset.after hostStep
  dsimp only
  cases hwaiting : s.1.waiting with
  | false =>
      have hnone : findsWord s.1 .rxPoll = false := by
        unfold findsWord
        rw [hwaiting]
        rfl
      rw [if_neg Bool.false_ne_true, hnone, if_neg (fun hand => Bool.false_ne_true hand.1)]
      exact h
  | true =>
      have hfind : findsWord s.1 .rxPoll = (s.1.core.io.rx.peek hfSize).isSome := by
        unfold findsWord
        rw [hwaiting]
        rfl
      rw [if_pos rfl]
      cases hpeek : s.1.core.io.rx.peek hfSize with
      | none =>
          rw [hpeek] at hfind
          rw [hfind, if_neg (fun hand => Bool.false_ne_true hand.1)]
          exact h
      | some v =>
          rw [hpeek] at hfind
          exact separate_takeByte h (some v) hfind

theorem separate_hostWrite8 {f : Host} {pint : BitVec 9 -> Word} {left : Nat} {waiting : Bool}
    {r : Reset} (h : Separate f.toHostLink pint left waiting r) {o : Nat} (hword : o ≠ 7)
    (v : BitVec 8)
    (hempty : o = 0 ∧ v &&& 0x80 ≠ 0 ∧ v &&& 0x02 ≠ 0 -> Listens f.toHostLink r.byPort ->
      f.tx.head = f.tx.tail) :
    Separate (hostWrite8 o v f).toHostLink pint left waiting
      (if o = 0 ∧ v &&& 0x80 ≠ 0 ∧ v &&& 0x01 ≠ 0 then r.clear else r) := by
  unfold hostWrite8
  split
  · split
    · next hbit =>
      have hinit := h.hostInit v (fun htreq => hempty ⟨rfl, hbit, htreq⟩)
      have hcond : (0 = 0 ∧ v &&& 0x80 ≠ 0 ∧ v &&& 0x01 ≠ 0) <-> v &&& 0x01 ≠ 0 :=
        ⟨fun hand => hand.2.2, fun hrreq => ⟨rfl, hbit, hrreq⟩⟩
      rw [if_congr hcond rfl rfl]
      exact hinit
    · next hbit =>
      rw [if_neg (fun hand => hbit hand.2.1)]
      exact ⟨h.line, h.pressed, h.hidden, h.silent, h.queued, h.boots, h.waits, h.idle, h.unread,
        h.fresh, h.program⟩
  case h_6 => exact absurd rfl hword
  case h_7 =>
    next hnot _ _ _ _ _ =>
    rw [if_neg (fun hand => hnot hand.1)]
    exact h
  all_goals
    rw [if_neg (fun hand => nomatch hand.1)]
    exact ⟨h.line, h.pressed, h.hidden, h.silent, h.queued, h.boots, h.waits, h.idle, h.unread,
      h.fresh, h.program⟩

theorem separate_hostWrite (h : SeparateAt s) (o : Nat) (v : BitVec 8)
    (hkeeps : KeepsReset s (.hostWrite o v)) : SeparateAt (resetStep s (.hostWrite o v)) := by
  unfold resetStep Reset.after hostStep
  dsimp only
  cases hfree : s.1.cpuFree with
  | false => exact h
  | true =>
      rw [if_pos rfl, if_pos rfl]
      split
      · next hword =>
        subst hword
        exact Separate.send h v fun hlistens => (hkeeps ⟨hfree, hlistens⟩).1 rfl
      · next hword =>
        exact separate_hostWrite8 h hword v fun hinit hlistens =>
          (hkeeps ⟨hfree, hlistens⟩).2 hinit

theorem separate_porta (h : SeparateAt s) (v : BitVec 8)
    (hkeeps : KeepsReset s (.porta v)) : SeparateAt (resetStep s (.porta v)) := by
  unfold resetStep Reset.after hostStep
  dsimp only
  cases hfree : s.1.cpuFree with
  | false =>
      rw [if_neg Bool.false_ne_true, if_neg (fun hand => Bool.false_ne_true hand.1)]
      exact h
  | true =>
      have hidle := h.idle (of_decide_eq_true hfree)
      unfold SeparateAt at h ⊢
      rw [hidle] at h
      have hport := h.portaWrite v (fun hrel => hkeeps ⟨hfree, hrel⟩)
      rw [if_pos rfl]
      show Separate (portaWrite v s.1.core.io.toHostLink) s.1.core.dsp.pint s.1.access.left
        s.1.waiting _
      rw [hidle, if_congr (and_iff_right rfl) rfl rfl]
      exact hport

theorem separate_dspExec (h : SeparateAt s) (x : DspExec)
    (hkeeps : KeepsReset s (.dspExec x)) : SeparateAt (resetStep s (.dspExec x)) := by
  unfold resetStep Reset.after hostStep
  dsimp only
  cases hfree : s.1.cpuFree with
  | false => exact h
  | true =>
      have hidle := h.idle (of_decide_eq_true hfree)
      rw [if_pos rfl, if_pos rfl]
      show Separate (falconDspExec x s.1.core.io.toHostLink) s.1.core.dsp.pint s.1.access.left
        s.1.waiting (Reset.release false)
      rw [hidle]
      exact separate_falconDspExec x (hkeeps hfree)

theorem pint_memRd (space : Space) (a : BitVec 16) (s : Core Host) :
    (memRd hostPeriph space a s).2.dsp.pint = s.dsp.pint := by
  unfold memRd
  cases space with
  | p => rfl
  | x =>
      dsimp only
      split
      · rfl
      · rfl
  | y =>
      dsimp only
      split
      · rfl
      · rfl

theorem separate_dspRead (h : SeparateAt s) (space : Space)
    (a : BitVec 16) : SeparateAt (resetStep s (.dspRead space a)) := by
  unfold resetStep Reset.after hostStep
  dsimp only
  split
  · next hruns =>
    have hrun : s.1.core.io.dspState = .run := of_decide_eq_true hruns
    show Separate (memRd hostPeriph space a s.1.core).2.io.toHostLink
      (memRd hostPeriph space a s.1.core).2.dsp.pint s.1.access.left s.1.waiting s.2
    rw [memRd_link, pint_memRd]
    split
    · exact Separate.hrxTake h hrun
    · exact h
  · exact h

theorem htxSend_dspState (f : HostLink) (v : Word) : (htxSend f v).dspState = f.dspState := by
  unfold htxSend
  split
  · exact answerSent_dspState f
  · exact answerSent_dspState f

theorem separate_dspWrite (h : SeparateAt s) (space : Space)
    (a : BitVec 16) (v : Word) : SeparateAt (resetStep s (.dspWrite space a v)) := by
  unfold resetStep Reset.after hostStep
  dsimp only
  cases hruns : s.1.dspRuns with
  | false =>
      rw [if_neg Bool.false_ne_true, if_neg (fun hand => Bool.false_ne_true hand.1)]
      exact h
  | true =>
      have hrun : s.1.core.io.dspState = .run := of_decide_eq_true hruns
      rw [if_pos rfl]
      show Separate (memWr hostPeriph space a v s.1.core).2.io.toHostLink
        (memWr hostPeriph space a v s.1.core).2.dsp.pint s.1.access.left s.1.waiting _
      rw [memWr_link]
      cases isHostPort space a with
      | false =>
          rw [if_neg Bool.false_ne_true, if_neg (fun hand => Bool.false_ne_true hand.2.1)]
          exact Separate.memory h hrun _
      | true =>
          have hsend := Separate.htxSend h hrun v
          have hrun' := (htxSend_dspState s.1.core.io.toHostLink v).trans hrun
          have hcond : (true = true ∧ true = true ∧ s.1.core.io.rx.push hfSize v ≠ none) <->
              s.1.core.io.rx.push hfSize v ≠ none := by
            rw [and_iff_right rfl, and_iff_right rfl]
          rw [if_pos rfl, if_congr hcond rfl rfl]
          exact hsend.memory hrun' _

theorem separate_resetStep (s : HostPort × Reset) (op : HostStep) (h : SeparateAt s)
    (hkeeps : KeepsReset s op) : SeparateAt (resetStep s op) := by
  cases op with
  | hostWrite o v => exact separate_hostWrite h o v hkeeps
  | porta v => exact separate_porta h v hkeeps
  | dspExec x => exact separate_dspExec h x hkeeps
  | dspRead space a => exact separate_dspRead h space a
  | dspWrite space a v => exact separate_dspWrite h space a v
  | readByte flowing => exact separate_readByte h flowing hkeeps
  | rxPoll => exact separate_rxPoll h
  | powerState => exact separate_powerState h
  | hwRead o size inlineOk =>
      unfold resetStep Reset.after hostStep
      dsimp only
      split
      · next hfree =>
        have hidle := h.idle (of_decide_eq_true hfree)
        exact Separate.access h h.waits fun _ => hidle
      · exact h
  | rxGiveUp =>
      unfold resetStep Reset.after hostStep
      dsimp only
      split
      · have htake := separate_takeByte h none rfl
        rw [if_neg (fun hand => Bool.false_ne_true hand.1)] at htake
        exact htake
      · exact h
  | hostIrqs =>
      show Separate (hostIrqs (s.1.core.dsp.irq, s.1.core.io)).2.toHostLink _ _ _ _
      rw [hostIrqs_link]
      exact h
  | ssiSlot slot word =>
      show Separate (ssiSlot slot word (s.1.core.dsp.irq, s.1.core.io)).2.2.toHostLink _ _ _ _
      rw [ssiSlot_link]
      exact h
  | bootWord =>
      unfold resetStep Reset.after hostStep
      dsimp only
      split
      · exact Separate.bootWord h
      · exact h
  | bootStart =>
      unfold resetStep Reset.after hostStep
      dsimp only
      split
      · next hboot => exact Separate.bootStart h hboot
      · exact h
  | lock on =>
      exact ⟨h.line, h.pressed, h.hidden, h.silent, h.queued, h.boots, h.waits, h.idle, h.unread,
        h.fresh, h.program⟩
  | burst on =>
      cases on with
      | true =>
          exact ⟨h.line, h.pressed, h.hidden, h.silent, h.queued, h.boots, h.waits, h.idle,
            h.unread, h.fresh, h.program⟩
      | false =>
          exact ⟨h.line, h.pressed, h.hidden, h.silent, h.queued, h.boots, h.waits, h.idle,
            h.unread, h.fresh, h.program⟩

theorem SeparateAt.found (h : SeparateAt s) {op : HostStep} (hfinds : findsWord s.1 op = true) :
    ¬ Loading s.1.core.io.toHostLink ∧ s.2.old.head? = some false := by
  have hword : ¬ Loading s.1.core.io.toHostLink ∧ s.1.core.io.rx.peek hfSize ≠ none := by
    cases op with
    | readByte flowing =>
        unfold findsWord at hfinds
        rw [Bool.and_eq_true] at hfinds
        refine ⟨Separate.notLoading_of_rxFind h hfinds.2, ?_⟩
        intro hempty
        have hfind := hfinds.2
        unfold rxFind at hfind
        split at hfind
        · cases hfind
        · rw [hempty] at hfind
          cases hfind
    | rxPoll =>
        unfold findsWord at hfinds
        rw [Bool.and_eq_true] at hfinds
        unfold SeparateAt at h
        rw [hfinds.1] at h
        exact ⟨h.notLoading_of_waiting, Option.isSome_iff_ne_none.mp hfinds.2⟩
    | _ => cases hfinds
  exact ⟨hword.1, Separate.head_fresh h (fun hunseen => hword.1 (Or.inl hunseen)) hword.2⟩

theorem SeparateAt.notRun (h : SeparateAt s)
    (hunseen : Unseen s.1.core.io.toHostLink) (hport : s.2.byPort = true) :
    (resetStep s .powerState).1.core.io.dspState ≠ .run := by
  have hboot := (released_dspReleased s.1.core).program ((h.program hunseen).mp hport)
  have hnew : s.1.core.io.resetEpoch ≠ s.1.core.io.resetSeen := hunseen
  show (settlePower (if s.1.core.io.resetEpoch ≠ s.1.core.io.resetSeen then
    dspReleased s.1.core else s.1.core).io).dspState ≠ .run
  rw [if_pos hnew]
  cases hheld : (dspReleased s.1.core).io.resetHeld with
  | true =>
      rw [settlePower_held hheld]
      exact nofun
  | false =>
      have hnot : ¬ ((dspReleased s.1.core).io.dspResetting = true ∧
          (dspReleased s.1.core).io.resetHeld = false ∧
          (dspReleased s.1.core).io.resetEpoch = (dspReleased s.1.core).io.resetSeen ∧
          (dspReleased s.1.core).io.dspState = .run) :=
        fun hand => notRun_of_boot hboot hand.2.2.2
      rw [settlePower_free hheld, if_neg hnot, hboot]
      exact nofun

theorem SeparateAt.isolated (h : SeparateAt s) {op : HostStep}
    (hkeeps : KeepsReset s op) : Isolated s op := by
  constructor
  · exact fun hfinds => h.found hfinds
  · exact (separate_resetStep s op h hkeeps).boots
  · rintro rfl hunseen hport
    exact h.notRun hunseen hport

/-!
## Runs
-/

def resetInit (htxDepth : Nat) (txdeChip : Bool) (yrom : BitVec 8 -> Word) : HostPort × Reset :=
  (powerOn htxDepth txdeChip yrom, { since := [], byPort := false, old := [] })

theorem separateAt_resetInit (htxDepth : Nat) (txdeChip : Bool) (yrom : BitVec 8 -> Word) :
    SeparateAt (resetInit htxDepth txdeChip yrom) := by
  have hseen : ¬ Unseen (powerOn htxDepth txdeChip yrom).core.io.toHostLink := not_not.mpr rfl
  have hline : false = decide ((0 : BitVec 8) &&& 0x10 ≠ 0) := by decide
  refine ⟨hline, nofun, fun h => absurd h hseen, nofun, fun h => absurd h hseen, nofun, nofun,
    fun _ => rfl, ⟨[], WrapRing.holds_nil hfSize (fun _ => 0) 0, rfl⟩, ?_, fun h => absurd h hseen⟩
  intro _ b hb
  exact absurd hb List.not_mem_nil

/-- In every run whose steps meet the condition, no read finds a word of the old program, nor
any before the new program is loaded, and the bootstrap takes the words sent since the
release. -/
theorem isolated_of_keepsReset (htxDepth : Nat) (txdeChip : Bool) (yrom : BitVec 8 -> Word)
    {ops : List HostStep}
    (h : Steps resetStep KeepsReset (resetInit htxDepth txdeChip yrom) ops) :
    Steps resetStep Isolated (resetInit htxDepth txdeChip yrom) ops := by
  have hstep (s : HostPort × Reset) (op : HostStep) (hs : SeparateAt s) (hkeeps : KeepsReset s op) :
      Isolated s op ∧ SeparateAt (resetStep s op) :=
    ⟨hs.isolated hkeeps, separate_resetStep s op hs hkeeps⟩
  exact Steps.imp_of_invariant hstep (separateAt_resetInit htxDepth txdeChip yrom) h

/-- A pulse on port A, a word, and the engine at work in between. -/
theorem isolated_pulse :
    Steps resetStep Isolated (resetInit 4 true fun _ => 0)
      [.porta 0x10, .porta 0x00, .hostWrite 7 0x01, .powerState, .bootWord] := by
  apply isolated_of_keepsReset
  refine ⟨?_, ?_, ?_, trivial, trivial, trivial⟩
  · rintro ⟨-, hrel⟩
    revert hrel
    decide +kernel
  · exact fun _ => ⟨rfl, by decide +kernel⟩
  · exact fun _ => ⟨fun _ => ⟨by decide +kernel, fun _ => by decide +kernel⟩, nofun⟩

/-- The old program runs, and the 68k has a question out.  After a pulse on port A that the
engine has not seen, a read of the data register waits, and gets a word that the old program
sends. -/
theorem old_word_delivered :
    ¬ (forall ops : List HostStep,
        Steps resetStep Isolated (resetInit 4 true fun _ => 0) ops) := by
  intro h
  have hrun := h [.dspExec { boot := true, w := [] }, .powerState, .hostWrite 7 0x01, .porta 0x10,
    .porta 0x00, .hwRead 4 4 false, .readByte false, .readByte false,
    .dspWrite .x 0xFFEB 0x123456, .rxPoll]
  have hpoll := hrun.2.2.2.2.2.2.2.2.2.1.hidden (by decide +kernel)
  apply hpoll.1
  apply Or.inl
  decide +kernel

end Falcon
end PistormAtari
