import PistormAtari.Falcon.HostWords

/-!
# Reads of the data register among the other steps

Each step that leaves a read under way keeps its bytes from one word, unless a word arrives
half-way.
-/

namespace PistormAtari
namespace Falcon

open Foundation

section
variable {o size : Nat} {s : HostPort}

/-!
## Steps
-/

theorem finds_rxFind (f : HostLink) : Finds f (rxFind f) := by
  unfold rxFind
  split
  · exact Or.inl rfl
  · exact Or.inr rfl

theorem rxFind_isSome {f : HostLink} (h : f.rx.peek hfSize ≠ none) :
    (rxFind f).isSome = !f.dspResetting := by
  unfold rxFind
  cases f.dspResetting with
  | true => rfl
  | false => exact Option.isSome_iff_ne_none.mpr h

theorem rxFind_settled (f : HostLink) (o : Nat) :
    (rxFind f).isSome = !f.dspResetting ∨ Agrees f o := by
  cases hpeek : f.rx.peek hfSize with
  | none => exact Or.inr (agrees_of_empty hpeek o)
  | some w =>
      apply Or.inl
      apply rxFind_isSome
      rw [hpeek]
      exact Option.some_ne_none w

def setWaited (s : HostPort) (waiting : Bool) : HostPort :=
  { s with access := { s.access with waited := true }, waiting := waiting }

theorem mayWait_iff {a : Access} {f : HostLink} :
    mayWait a f = true <->
      a.coproc = false ∧ rxFind f = none ∧ (5 ≤ a.next ∧ a.next ≤ 7) ∧ a.waited = false := by
  unfold mayWait
  rw [Bool.and_eq_true, Bool.and_eq_true, Bool.and_eq_true, Bool.not_eq_true', Bool.not_eq_true',
    Option.isNone_iff_eq_none, decide_eq_true_eq, and_assoc, and_assoc]

theorem Reading.first_of_mayWait (h : Reading o size s)
    (hmay : mayWait s.access s.core.io.toHostLink = true) {p : Nat × Bool}
    (hp : p ∈ s.access.found) : p.1 < 5 := by
  rcases mayWait_iff.mp hmay with ⟨hcoproc, hfind, -, hwaited⟩
  apply Nat.lt_of_not_le
  intro hdata
  have hmiss : p.2 = false ∨ s.core.io.dspResetting = true := by
    cases hresetting : s.core.io.dspResetting with
    | true => exact Or.inr rfl
    | false =>
        unfold rxFind at hfind
        rw [hresetting] at hfind
        exact Or.inl (h.empty hfind p hp)
  rcases h.waited p hp hdata hmiss with hcpu | hdone
  · rw [hcoproc] at hcpu
    cases hcpu
  · rw [hwaited] at hdone
    cases hdone

theorem Reading.setWaited (h : Reading o size s)
    (hmay : mayWait s.access s.core.io.toHostLink = true) (waiting : Bool) :
    Reading o size (setWaited s waiting) := by
  constructor
  · exact h.left
  · exact h.next
  · exact h.offsets
  · exact h.value
  · exact h.rx
  · exact h.empty
  · intro _
    exact ⟨rfl, fun p hp => h.first_of_mayWait hmay hp⟩
  · intro p _ _ _
    exact Or.inr rfl

structure Continues (o size : Nat) (s : HostPort) (op : HostStep) : Prop where
  reading : Reading o size (hostStep s op)
  whole : Whole (hostStep s op) <-> Whole s ∧ KeepsWord s op

def rxSide (f : HostLink) : WrapRing Word × Word × Bool := (f.rx, f.rxLast, f.dspResetting)

theorem continues_of_rxSide (h : Reading o size s) {op : HostStep}
    (haccess : (hostStep s op).access = s.access) (hwaiting : (hostStep s op).waiting = s.waiting)
    (hside : rxSide (hostStep s op).core.io.toHostLink = rxSide s.core.io.toHostLink)
    (hkeeps : KeepsWord s op) : Continues o size s op := by
  have hrx : (hostStep s op).core.io.rx = s.core.io.rx := congrArg Prod.fst hside
  have hbeside : Beside s (hostStep s op) := by
    refine ⟨haccess, hwaiting, ?_, ?_, Or.inl hrx⟩
    · exact congrArg (fun side => side.2.1) hside
    · exact congrArg (fun side => side.2.2) hside
  constructor
  · exact h.beside hbeside
  · rw [whole_beside hbeside (by rw [hrx]), and_iff_left hkeeps]

theorem continues_of_link (h : Reading o size s) {op : HostStep}
    (haccess : (hostStep s op).access = s.access) (hwaiting : (hostStep s op).waiting = s.waiting)
    (hlink : (hostStep s op).core.io.toHostLink = s.core.io.toHostLink)
    (hkeeps : KeepsWord s op) : Continues o size s op :=
  continues_of_rxSide h haccess hwaiting (congrArg rxSide hlink) hkeeps

theorem rxSide_answerSent (f : HostLink) : rxSide (answerSent f) = rxSide f := by
  unfold answerSent
  split
  · dsimp only
    split
    · rfl
    · rfl
  · rfl

theorem continues_dspWrite (h : Reading o size s) (space : Space) (a : BitVec 16) (v : Word) :
    Continues o size s (.dspWrite space a v) := by
  cases hruns : s.dspRuns with
  | false =>
      have hstep : hostStep s (.dspWrite space a v) = s := by
        unfold hostStep
        dsimp only
        rw [hruns]
        rfl
      apply continues_of_link h
      · rw [hstep]
      · rw [hstep]
      · rw [hstep]
      · rintro ⟨hdsp, -⟩
        rw [hruns] at hdsp
        cases hdsp
  | true =>
      have hstep : hostStep s (.dspWrite space a v) = s.onDsp (memWr hostPeriph space a v) := by
        unfold hostStep
        dsimp only
        rw [hruns]
        rfl
      have hlink := memWr_link space a v s.core
      cases hport : isHostPort space a with
      | false =>
          rw [hport] at hlink
          apply continues_of_link h
          · rw [hstep]
            rfl
          · rw [hstep]
            rfl
          · rw [hstep]
            exact hlink
          · rintro ⟨-, hhost, -⟩
            rw [hport] at hhost
            cases hhost
      | true =>
          rw [hport, if_pos rfl] at hlink
          have hside := rxSide_answerSent s.core.io.toHostLink
          have hring : (answerSent s.core.io.toHostLink).rx = s.core.io.rx :=
            congrArg Prod.fst hside
          have hio : (hostStep s (.dspWrite space a v)).core.io.toHostLink =
              htxSend s.core.io.toHostLink v := by
            rw [hstep]
            exact hlink
          unfold htxSend at hio
          rw [hring] at hio
          have hlast : (hostStep s (.dspWrite space a v)).core.io.rxLast = s.core.io.rxLast := by
            rw [hio]
            split
            · exact congrArg (fun side => side.2.1) hside
            · exact congrArg (fun side => side.2.1) hside
          have hflag : (hostStep s (.dspWrite space a v)).core.io.dspResetting =
              s.core.io.dspResetting := by
            rw [hio]
            split
            · exact congrArg (fun side => side.2.2) hside
            · exact congrArg (fun side => side.2.2) hside
          have haccess : (hostStep s (.dspWrite space a v)).access = s.access := by
            rw [hstep]
            rfl
          have hwait : (hostStep s (.dspWrite space a v)).waiting = s.waiting := by
            rw [hstep]
            rfl
          rcases h.rx with ⟨q, hq⟩
          cases hpush : s.core.io.rx.push hfSize v with
          | none =>
              rw [hpush] at hio
              have hrx : (hostStep s (.dspWrite space a v)).core.io.rx = s.core.io.rx := by
                rw [hio]
                exact hring
              have hbeside : Beside s (hostStep s (.dspWrite space a v)) :=
                ⟨haccess, hwait, hlast, hflag, Or.inl hrx⟩
              constructor
              · exact h.beside hbeside
              · rw [whole_beside hbeside (by rw [hrx]), and_iff_left]
                rintro ⟨-, -, hempty, -⟩
                rw [hq.peek hfSize_lt, List.head?_eq_none_iff] at hempty
                have hfull := (hq.push_eq_none hfSize_lt v).mp hpush
                rw [hempty] at hfull
                cases hfull
          | some g =>
              rw [hpush] at hio
              have hrx : (hostStep s (.dspWrite space a v)).core.io.rx = g := by rw [hio]
              have hbeside : Beside s (hostStep s (.dspWrite space a v)) :=
                ⟨haccess, hwait, hlast, hflag, Or.inr ⟨v, by rw [hrx]; exact hpush⟩⟩
              have hpeek := peek_push hq hpush
              rw [← hrx] at hpeek
              constructor
              · exact h.beside hbeside
              · cases hempty : s.core.io.rx.peek hfSize with
                | none =>
                    rw [hempty, if_pos rfl] at hpeek
                    rw [whole_arrived h hbeside hempty hpeek,
                      and_iff_right (whole_of_empty hempty)]
                    constructor
                    · rintro hcommon ⟨-, -, -, hresetting⟩
                      exact hcommon hresetting
                    · intro hcommon hresetting
                      exact hcommon ⟨hruns, hport, hempty, hresetting⟩
                | some w =>
                    rw [hempty, if_neg (Option.some_ne_none w), ← hempty] at hpeek
                    rw [whole_beside hbeside hpeek, and_iff_left]
                    rintro ⟨-, -, hnone, -⟩
                    rw [hempty] at hnone
                    cases hnone

theorem hostStep_readByte (hleft : s.access.left ≠ 0) (hwaiting : s.waiting = false)
    (flowing : Bool) : hostStep s (.readByte flowing) = readByte s flowing := by
  unfold hostStep HostPort.cpuFree
  dsimp only
  rw [if_neg]
  rintro (hfree | hwait)
  · exact hleft (of_decide_eq_true hfree)
  · rw [hwaiting] at hwait
    cases hwait

theorem hostStep_waiting (hwaiting : s.waiting = true)
    (flowing : Bool) : hostStep s (.readByte flowing) = s := by
  unfold hostStep
  dsimp only
  rw [if_pos (Or.inr hwaiting)]

theorem readByte_eq (s : HostPort) (flowing : Bool) :
    readByte s flowing =
      if mayWait s.access s.core.io.toHostLink then
        if waitsForWord s.core.io.toHostLink flowing then setWaited s true
        else takeByte (setWaited s s.waiting) none
      else takeByte s (rxFind s.core.io.toHostLink) := rfl

theorem continues_readByte (h : Reading o size s) (hread : DataRead o size)
    (hleft : s.access.left ≠ 0) (flowing : Bool)
    (hnext : (hostStep s (.readByte flowing)).access.left ≠ 0) :
    Continues o size s (.readByte flowing) := by
  cases hwaiting : s.waiting with
  | true =>
      have hstep := hostStep_waiting hwaiting flowing
      apply continues_of_link h
      · rw [hstep]
      · rw [hstep]
      · rw [hstep]
      · trivial
  | false =>
      have hstep := hostStep_readByte hleft hwaiting flowing
      rw [readByte_eq] at hstep
      cases hmay : mayWait s.access s.core.io.toHostLink with
      | true =>
          rw [hmay, if_pos rfl] at hstep
          split at hstep
          · constructor
            · rw [hstep]
              exact h.setWaited hmay true
            · rw [hstep]
              exact (and_iff_left trivial).symm
          · have hmore : 1 < s.access.left := by
              rw [hstep] at hnext
              change s.access.left - 1 ≠ 0 at hnext
              lia
            have hfind := (mayWait_iff.mp hmay).2.1
            have hset := h.setWaited hmay s.waiting
            constructor
            · rw [hstep]
              exact hset.take hread hmore (Or.inl rfl) (fun _ _ => Or.inr rfl)
            · rw [hstep, hset.whole_take hread hmore]
              have hsettled := rxFind_settled s.core.io.toHostLink s.access.next
              rw [hfind] at hsettled
              exact and_congr_right fun _ => iff_of_true hsettled trivial
      | false =>
          rw [hmay, if_neg Bool.false_ne_true] at hstep
          have hmore : 1 < s.access.left := by
            rw [hstep] at hnext
            change s.access.left - 1 ≠ 0 at hnext
            lia
          have hbounds := h.next_bounds hread
          constructor
          · rw [hstep]
            apply h.take hread hmore (finds_rxFind _)
            intro hdata hmiss
            have hnone : rxFind s.core.io.toHostLink = none := by
              rcases hmiss with hnone | hresetting
              · exact hnone
              · unfold rxFind
                rw [hresetting]
                rfl
            cases hcoproc : s.access.coproc with
            | true => exact Or.inl rfl
            | false =>
                apply Or.inr
                apply eq_true_of_ne_false
                intro hwaited
                have hwait := mayWait_iff.mpr ⟨hcoproc, hnone, ⟨hdata, by lia⟩, hwaited⟩
                rw [hmay] at hwait
                cases hwait
          · rw [hstep, h.whole_take hread hmore]
            exact and_congr_right fun _ =>
              iff_of_true (rxFind_settled s.core.io.toHostLink s.access.next) trivial

theorem continues_rxPoll (h : Reading o size s) (hread : DataRead o size)
    (hnext : (hostStep s .rxPoll).access.left ≠ 0) : Continues o size s .rxPoll := by
  have hidle (hstep : hostStep s .rxPoll = s) (hkeeps : KeepsWord s .rxPoll) :
      Continues o size s .rxPoll := by
    apply continues_of_link h
    · rw [hstep]
    · rw [hstep]
    · rw [hstep]
    · exact hkeeps
  cases hwaiting : s.waiting with
  | false =>
      apply hidle
      · unfold hostStep
        rw [hwaiting]
        rfl
      · rintro ⟨hwait, -⟩
        rw [hwaiting] at hwait
        cases hwait
  | true =>
      cases hpeek : s.core.io.rx.peek hfSize with
      | none =>
          apply hidle
          · unfold hostStep
            rw [hwaiting, if_pos rfl, hpeek]
          · intro _
            exact agrees_of_empty hpeek s.access.next
      | some v =>
          have hstep : hostStep s .rxPoll = takeByte s (some v) := by
            unfold hostStep
            rw [hwaiting, if_pos rfl, hpeek]
          have hmore : 1 < s.access.left := by
            rw [hstep] at hnext
            change s.access.left - 1 ≠ 0 at hnext
            lia
          have hwaited := (h.waiting hwaiting).1
          constructor
          · rw [hstep]
            exact h.take hread hmore (Or.inr hpeek.symm) (fun _ _ => Or.inr hwaited)
          · rw [hstep, h.whole_take hread hmore]
            apply and_congr_right
            intro _
            constructor
            · rintro (hshown | hagrees) ⟨-, -, hresetting⟩
              · rw [hresetting] at hshown
                cases hshown
              · exact hagrees
            · intro hkeeps
              cases hresetting : s.core.io.dspResetting with
              | false => exact Or.inl rfl
              | true => exact Or.inr (hkeeps ⟨hwaiting, by lia, hresetting⟩)

theorem continues_rxGiveUp (h : Reading o size s) (hread : DataRead o size)
    (hnext : (hostStep s .rxGiveUp).access.left ≠ 0) : Continues o size s .rxGiveUp := by
  cases hwaiting : s.waiting with
  | false =>
      have hstep : hostStep s .rxGiveUp = s := by
        unfold hostStep
        rw [hwaiting]
        rfl
      apply continues_of_link h
      · rw [hstep]
      · rw [hstep]
      · rw [hstep]
      · rintro ⟨hwait, -⟩
        rw [hwaiting] at hwait
        cases hwait
  | true =>
      have hstep : hostStep s .rxGiveUp = takeByte s none := by
        unfold hostStep
        rw [hwaiting]
        rfl
      have hmore : 1 < s.access.left := by
        rw [hstep] at hnext
        change s.access.left - 1 ≠ 0 at hnext
        lia
      have hwaited := (h.waiting hwaiting).1
      constructor
      · rw [hstep]
        exact h.take hread hmore (Or.inl rfl) (fun _ _ => Or.inr hwaited)
      · rw [hstep, h.whole_take hread hmore]
        apply and_congr_right
        intro _
        constructor
        · rintro (hshown | hagrees) ⟨-, -, hresetting⟩
          · rw [hresetting] at hshown
            cases hshown
          · exact hagrees
        · intro hkeeps
          cases hresetting : s.core.io.dspResetting with
          | true => exact Or.inl rfl
          | false => exact Or.inr (hkeeps ⟨hwaiting, by lia, hresetting⟩)

theorem rxSide_memRd (space : Space) (a : BitVec 16) (s : Core Host) :
    rxSide (memRd hostPeriph space a s).2.io.toHostLink = rxSide s.io.toHostLink := by
  rw [memRd_link]
  split
  · unfold hrxTake
    split
    · rfl
    · rfl
  · rfl

theorem rxSide_bootWord (s : Core Host) :
    rxSide (bootWord s).io.toHostLink = rxSide s.io.toHostLink := by
  unfold bootWord
  split
  · split
    · rfl
    · rfl
  · rfl

theorem rxSide_bootStart (s : Core Host) :
    rxSide (bootStart s).io.toHostLink = rxSide s.io.toHostLink := by
  unfold bootStart
  split
  · rfl
  · rfl

theorem continues_of_left (h : Reading o size s) (hread : DataRead o size) {op : HostStep}
    (hop : op.duringRead = true) (hleft : s.access.left ≠ 0)
    (hnext : (hostStep s op).access.left ≠ 0) : Continues o size s op := by
  cases op with
  | hwRead o size inlineOk => cases hop
  | hostWrite o v => cases hop
  | porta v => cases hop
  | dspExec x => cases hop
  | powerState => cases hop
  | readByte flowing => exact continues_readByte h hread hleft flowing hnext
  | rxPoll => exact continues_rxPoll h hread hnext
  | rxGiveUp => exact continues_rxGiveUp h hread hnext
  | dspWrite space a v => exact continues_dspWrite h space a v
  | dspRead space a =>
      have hstep : (hostStep s (.dspRead space a)).access = s.access ∧
          (hostStep s (.dspRead space a)).waiting = s.waiting ∧
          rxSide (hostStep s (.dspRead space a)).core.io.toHostLink =
            rxSide s.core.io.toHostLink := by
        unfold hostStep
        dsimp only
        split
        · exact ⟨rfl, rfl, rxSide_memRd space a s.core⟩
        · exact ⟨rfl, rfl, rfl⟩
      exact continues_of_rxSide h hstep.1 hstep.2.1 hstep.2.2 trivial
  | hostIrqs =>
      exact continues_of_link h rfl rfl (hostIrqs_link (s.core.dsp.irq, s.core.io)) trivial
  | ssiSlot slot word =>
      exact continues_of_link h rfl rfl (ssiSlot_link slot word (s.core.dsp.irq, s.core.io)) trivial
  | lock on => exact continues_of_rxSide h rfl rfl rfl trivial
  | burst on =>
      cases on with
      | true => exact continues_of_rxSide h rfl rfl rfl trivial
      | false => exact continues_of_rxSide h rfl rfl rfl trivial
  | bootWord =>
      have hstep : (hostStep s .bootWord).access = s.access ∧
          (hostStep s .bootWord).waiting = s.waiting ∧
          rxSide (hostStep s .bootWord).core.io.toHostLink = rxSide s.core.io.toHostLink := by
        unfold hostStep
        dsimp only
        split
        · exact ⟨rfl, rfl, rxSide_bootWord s.core⟩
        · exact ⟨rfl, rfl, rfl⟩
      exact continues_of_rxSide h hstep.1 hstep.2.1 hstep.2.2 trivial
  | bootStart =>
      have hstep : (hostStep s .bootStart).access = s.access ∧
          (hostStep s .bootStart).waiting = s.waiting ∧
          rxSide (hostStep s .bootStart).core.io.toHostLink = rxSide s.core.io.toHostLink := by
        unfold hostStep
        dsimp only
        split
        · exact ⟨rfl, rfl, rxSide_bootStart s.core⟩
        · exact ⟨rfl, rfl, rfl⟩
      exact continues_of_rxSide h hstep.1 hstep.2.1 hstep.2.2 trivial

theorem hostStep_taken {op : HostStep} (hop : op.duringRead = true) (hleft : s.access.left ≠ 0)
    (hdone : (hostStep s op).access.left = 0) :
    (exists flowing, op = .readByte flowing ∧ s.waiting = false) ∨
      (s.waiting = true ∧
        exists found, Finds s.core.io.toHostLink found ∧ hostStep s op = takeByte s found) := by
  have hsame (h : (hostStep s op).access = s.access) : False := by
    rw [h] at hdone
    exact hleft hdone
  cases op with
  | hwRead o size inlineOk => cases hop
  | hostWrite o v => cases hop
  | porta v => cases hop
  | dspExec x => cases hop
  | powerState => cases hop
  | readByte flowing =>
      cases hwaiting : s.waiting with
      | true => exact (hsame (by rw [hostStep_waiting hwaiting])).elim
      | false => exact Or.inl ⟨flowing, rfl, rfl⟩
  | rxPoll =>
      cases hwaiting : s.waiting with
      | true =>
          cases hpeek : s.core.io.rx.peek hfSize with
          | none =>
              apply False.elim
              apply hsame
              unfold hostStep
              rw [hwaiting, if_pos rfl, hpeek]
          | some v =>
              refine Or.inr ⟨rfl, some v, Or.inr hpeek.symm, ?_⟩
              unfold hostStep
              rw [hwaiting, if_pos rfl, hpeek]
      | false =>
          apply False.elim
          apply hsame
          unfold hostStep
          rw [hwaiting]
          rfl
  | rxGiveUp =>
      cases hwaiting : s.waiting with
      | true =>
          refine Or.inr ⟨rfl, none, Or.inl rfl, ?_⟩
          unfold hostStep
          rw [hwaiting]
          rfl
      | false =>
          apply False.elim
          apply hsame
          unfold hostStep
          rw [hwaiting]
          rfl
  | hostIrqs => exact (hsame rfl).elim
  | ssiSlot slot word => exact (hsame rfl).elim
  | lock on => exact (hsame rfl).elim
  | burst on =>
      cases on with
      | true => exact (hsame rfl).elim
      | false => exact (hsame rfl).elim
  | dspWrite | dspRead | bootWord | bootStart =>
      apply False.elim
      apply hsame
      unfold hostStep
      dsimp only
      split
      · rfl
      · rfl

theorem wholeWord_last (h : Reading o size s) (hread : DataRead o size) {op : HostStep}
    (hop : op.duringRead = true) (hleft : s.access.left ≠ 0)
    (hdone : (hostStep s op).access.left = 0) :
    WholeWord o size s (hostStep s op) <-> Whole s := by
  rcases hostStep_taken hop hleft hdone with ⟨flowing, rfl, hwaiting⟩ | ⟨hwaiting, found, hfound, hstep⟩
  · have hstep := hostStep_readByte hleft hwaiting flowing
    rw [readByte_eq] at hstep
    cases hmay : mayWait s.access s.core.io.toHostLink with
    | true =>
        rw [hmay, if_pos rfl] at hstep
        split at hstep
        · rw [hstep] at hdone
          exact absurd hdone hleft
        · have hlast : s.access.left = 1 := by
            rw [hstep] at hdone
            change s.access.left - 1 = 0 at hdone
            lia
          have hfind := (mayWait_iff.mp hmay).2.1
          rw [hstep]
          apply (h.setWaited hmay s.waiting).wholeWord_take hread hlast (Or.inl rfl)
          intro _ hword
          have hsome := rxFind_isSome hword
          have hnone : rxFind (setWaited s s.waiting).core.io.toHostLink = none := hfind
          rw [hnone] at hsome
          exact hsome
    | false =>
        rw [hmay, if_neg Bool.false_ne_true] at hstep
        have hlast : s.access.left = 1 := by
          rw [hstep] at hdone
          change s.access.left - 1 = 0 at hdone
          lia
        rw [hstep]
        exact h.wholeWord_take hread hlast (finds_rxFind _) (fun _ hword => rxFind_isSome hword)
  · have hlast : s.access.left = 1 := by
      rw [hstep] at hdone
      change s.access.left - 1 = 0 at hdone
      lia
    rw [hstep]
    apply h.wholeWord_take hread hlast hfound
    intro hlow
    exact absurd hwaiting (h.not_waiting hread hlast hlow)

/-!
## Runs
-/

def InRead (s : HostPort) (op : HostStep) : Prop := op.duringRead = true ∧ s.access.left ≠ 0

instance (s : HostPort) (op : HostStep) : Decidable (InRead s op) :=
  inferInstanceAs (Decidable (_ ∧ _))

theorem reading_run (h : Reading o size s) (hread : DataRead o size) {ops : List HostStep}
    {last : HostStep} (hrun : Steps hostStep InRead s (ops ++ [last])) :
    Reading o size (run hostStep s ops) ∧
      (Whole (run hostStep s ops) <-> Whole s ∧ Steps hostStep KeepsWord s ops) := by
  induction ops generalizing s with
  | nil => exact ⟨h, (and_iff_left trivial).symm⟩
  | cons op rest ih =>
      have hnext : (hostStep s op).access.left ≠ 0 := by
        cases rest with
        | nil => exact hrun.2.1.2
        | cons op' rest' => exact hrun.2.1.2
      have hstep := continues_of_left h hread hrun.1.1 hrun.1.2 hnext
      have hrest := ih hstep.reading hrun.2
      refine ⟨hrest.1, ?_⟩
      rw [run_cons, hrest.2, hstep.whole, and_assoc]
      rfl

end

structure ReadSide (s : HostPort) : Prop where
  rx : exists q, s.core.io.rx.Holds hfSize q
  idle : s.access.left = 0 -> s.waiting = false

theorem ReadSide.same {s t : HostPort} (h : ReadSide s)
    (hlink : SameTx s.core.io.toHostLink t.core.io.toHostLink) (haccess : t.access = s.access)
    (hwaiting : t.waiting = s.waiting) : ReadSide t := by
  constructor
  · exact hlink.rx h.rx
  · rw [haccess, hwaiting]
    exact h.idle

theorem ReadSide.takeByte {s : HostPort} (h : ReadSide s) (found : Option Word) :
    ReadSide (takeByte s found) := ⟨(sameTx_takeByte s found).rx h.rx, fun _ => rfl⟩

theorem readSide_hostWrite {s : HostPort} (h : ReadSide s) (o : Nat) (v : BitVec 8) :
    ReadSide (hostStep s (.hostWrite o v)) := by
  unfold hostStep
  dsimp only
  split
  · refine ⟨?_, h.idle⟩
    show exists q, (hostWrite8 o v s.core.io).rx.Holds hfSize q
    rcases eq_or_ne o 7 with rfl | hword
    · have hrx : (hostWrite8 7 v s.core.io).rx = s.core.io.rx := by
        show (hostSend s.core.io.toHostLink v).rx = _
        unfold hostSend
        dsimp only
        split
        · rfl
        · rfl
      rw [hrx]
      exact h.rx
    · rcases Decidable.em (o = 0 ∧ v &&& 0x80 ≠ 0 ∧ v &&& 0x02 ≠ 0) with hinit | hother
      · rcases hinit with ⟨rfl, hbit, htreq⟩
        have hrx : (hostWrite8 0 v s.core.io).rx = (hostInit s.core.io.toHostLink v).rx := by
          show (if v &&& 0x80 ≠ 0 then _ else _ : Host).rx = _
          rw [if_pos hbit]
        rw [hrx]
        unfold hostInit
        rw [if_pos htreq]
        dsimp only
        split
        · exact rx_cleared s.core.io.toHostLink
        · exact h.rx
      · exact (sameTx_hostWrite8 s.core.io hword hother).rx h.rx
  · exact h

theorem readSide_hostStep (s : HostPort) (op : HostStep) (h : ReadSide s) :
    ReadSide (hostStep s op) := by
  cases op with
  | hostWrite o v => exact readSide_hostWrite h o v
  | hwRead o size inlineOk =>
      unfold hostStep
      dsimp only
      split
      · next hfree => exact ⟨h.rx, fun _ => h.idle (of_decide_eq_true hfree)⟩
      · exact h
  | readByte flowing =>
      unfold hostStep
      dsimp only
      split
      · exact h
      · next hbusy =>
        rw [readByte_eq]
        split
        · split
          · refine ⟨h.rx, ?_⟩
            intro hleft
            exact absurd (Or.inl (decide_eq_true hleft)) hbusy
          · have hset : ReadSide (setWaited s s.waiting) := ⟨h.rx, h.idle⟩
            exact hset.takeByte none
        · exact h.takeByte _
  | rxPoll =>
      unfold hostStep
      dsimp only
      split
      · split
        · exact h.takeByte _
        · exact h
      · exact h
  | rxGiveUp =>
      unfold hostStep
      dsimp only
      split
      · exact h.takeByte none
      · exact h
  | porta v =>
      unfold hostStep
      dsimp only
      split
      · exact h.same (sameTx_portaWrite s.core.io.toHostLink v) rfl rfl
      · exact h
  | dspExec x =>
      unfold hostStep
      dsimp only
      split
      · exact ⟨rx_cleared s.core.io.toHostLink, h.idle⟩
      · exact h
  | dspRead space a =>
      unfold hostStep
      dsimp only
      split
      · have hrx : (memRd hostPeriph space a s.core).2.io.rx = s.core.io.rx :=
          congrArg Prod.fst (rxSide_memRd space a s.core)
        refine ⟨?_, h.idle⟩
        show exists q, (memRd hostPeriph space a s.core).2.io.rx.Holds hfSize q
        rw [hrx]
        exact h.rx
      · exact h
  | dspWrite space a v =>
      unfold hostStep
      dsimp only
      split
      · refine h.same ?_ rfl rfl
        show SameTx s.core.io.toHostLink (memWr hostPeriph space a v s.core).2.io.toHostLink
        rw [memWr_link]
        split
        · exact sameTx_htxSend s.core.io.toHostLink v
        · exact SameTx.refl _
      · exact h
  | hostIrqs => exact h.same (SameTx.of_eq (hostIrqs_link (s.core.dsp.irq, s.core.io))) rfl rfl
  | ssiSlot slot word =>
      exact h.same (SameTx.of_eq (ssiSlot_link slot word (s.core.dsp.irq, s.core.io))) rfl rfl
  | powerState =>
      refine ⟨(sameTx_powerState s).rx ?_, h.idle⟩
      split
      · exact rx_cleared s.core.io.toHostLink
      · exact h.rx
  | bootWord =>
      unfold hostStep
      dsimp only
      split
      · have hrx : (bootWord s.core).io.rx = s.core.io.rx :=
          congrArg Prod.fst (rxSide_bootWord s.core)
        refine ⟨?_, h.idle⟩
        dsimp only
        rw [hrx]
        exact h.rx
      · exact h
  | bootStart =>
      unfold hostStep
      dsimp only
      split
      · have hrx : (bootStart s.core).io.rx = s.core.io.rx :=
          congrArg Prod.fst (rxSide_bootStart s.core)
        refine ⟨?_, h.idle⟩
        dsimp only
        rw [hrx]
        exact h.rx
      · exact h
  | lock on => exact h.same ⟨rfl, rfl, fun hq => hq⟩ rfl rfl
  | burst on =>
      cases on with
      | true => exact h.same ⟨rfl, rfl, fun hq => hq⟩ rfl rfl
      | false => exact h.same ⟨rfl, rfl, fun hq => hq⟩ rfl rfl

theorem readSide_powerOn (htxDepth : Nat) (txdeChip : Bool) (yrom : BitVec 8 -> Word) :
    ReadSide (powerOn htxDepth txdeChip yrom) :=
  ⟨⟨[], WrapRing.holds_nil hfSize (fun _ => 0) 0⟩, fun _ => rfl⟩

theorem reading_hwRead {s : HostPort} (h : ReadSide s) (hfree : s.cpuFree = true) (o size : Nat)
    (inlineOk : Bool) : Reading o size (hostStep s (.hwRead o size inlineOk)) := by
  have hstep : hostStep s (.hwRead o size inlineOk) = beginRead s o size inlineOk := by
    unfold hostStep
    dsimp only
    rw [if_pos hfree]
  have hidle := h.idle (of_decide_eq_true hfree)
  rw [hstep]
  constructor
  · exact Nat.zero_add size
  · rfl
  · rfl
  · rfl
  · exact h.rx
  · intro _ p hp
    exact absurd hp List.not_mem_nil
  · intro hwaiting
    change s.waiting = true at hwaiting
    rw [hidle] at hwaiting
    cases hwaiting
  · intro p hp
    exact absurd hp List.not_mem_nil

def Reached (s : HostPort) : Prop :=
  exists htxDepth txdeChip yrom ops, s = run hostStep (powerOn htxDepth txdeChip yrom) ops

theorem Reached.readSide {s : HostPort} (h : Reached s) : ReadSide s := by
  rcases h with ⟨htxDepth, txdeChip, yrom, ops, rfl⟩
  exact run_invariant readSide_hostStep (readSide_powerOn htxDepth txdeChip yrom) ops

/-- A read of the data register gives the oldest unread word and takes it, or gives the last
word read and takes none, if and only if while it was under way no word came into the empty
ring that differs from the last word read in a byte already taken, and the wait neither took
a word that a reset hides nor gave up on one that had come. -/
theorem wholeWord_iff_keepsWord {s : HostPort} (hs : Reached s) {o size : Nat} (inlineOk : Bool)
    {ops : List HostStep} {last : HostStep} (hread : DataRead o size) (hfree : s.cpuFree = true)
    (hrun : Steps hostStep InRead (hostStep s (.hwRead o size inlineOk)) (ops ++ [last]))
    (hdone :
      (hostStep (run hostStep (hostStep s (.hwRead o size inlineOk)) ops) last).access.left = 0) :
    WholeWord o size (run hostStep (hostStep s (.hwRead o size inlineOk)) ops)
        (hostStep (run hostStep (hostStep s (.hwRead o size inlineOk)) ops) last) <->
      Steps hostStep KeepsWord (hostStep s (.hwRead o size inlineOk)) ops := by
  have hbegin := reading_hwRead hs.readSide hfree o size inlineOk
  have hend := reading_run hbegin hread hrun
  have hlast := (Steps.append_iff.mp hrun).2.1
  have hwhole : Whole (hostStep s (.hwRead o size inlineOk)) := by
    have hstep : hostStep s (.hwRead o size inlineOk) = beginRead s o size inlineOk := by
      unfold hostStep
      dsimp only
      rw [if_pos hfree]
    rw [hstep]
    intro p hp
    exact absurd hp List.not_mem_nil
  rw [wholeWord_last hend.1 hread hlast.1 hlast.2 hdone, hend.2, and_iff_right hwhole]

theorem reached_runningPort : Reached runningPort :=
  ⟨4, true, fun _ => 0, [.dspExec { boot := true, w := [] }, .powerState], rfl⟩

/-- The DSP has sent a word before the read begins. -/
theorem wholeWord_sent :
    WholeWord 4 4
      (run hostStep (hostStep (hostStep runningPort (.dspWrite .x 0xFFEB 0x123456))
        (.hwRead 4 4 false)) [.readByte true, .readByte true, .dspWrite .x 0xFFEB 0x789ABC,
          .readByte true])
      (hostStep (run hostStep (hostStep (hostStep runningPort (.dspWrite .x 0xFFEB 0x123456))
        (.hwRead 4 4 false)) [.readByte true, .readByte true, .dspWrite .x 0xFFEB 0x789ABC,
          .readByte true]) (.readByte true)) := by
  have hreached : Reached (hostStep runningPort (.dspWrite .x 0xFFEB 0x123456)) :=
    ⟨4, true, fun _ => 0, [.dspExec { boot := true, w := [] }, .powerState,
      .dspWrite .x 0xFFEB 0x123456], rfl⟩
  apply (wholeWord_iff_keepsWord hreached false (Or.inr (Or.inl ⟨rfl, rfl⟩)) (by decide +kernel)
    (by decide +kernel) (by decide +kernel)).mpr
  refine ⟨trivial, trivial, ?_, trivial, trivial⟩
  rintro ⟨-, -, hempty, -⟩
  revert hempty
  decide +kernel

/-- The high byte of a long read finds the ring empty.  A word that comes before the next
byte gives the other two, and is taken. -/
theorem torn_by_arrival :
    ¬ (forall s inlineOk ops last, Reached s -> s.cpuFree = true ->
        Steps hostStep InRead (hostStep s (.hwRead 4 4 inlineOk)) (ops ++ [last]) ->
        (hostStep (run hostStep (hostStep s (.hwRead 4 4 inlineOk)) ops) last).access.left = 0 ->
        WholeWord 4 4 (run hostStep (hostStep s (.hwRead 4 4 inlineOk)) ops)
          (hostStep (run hostStep (hostStep s (.hwRead 4 4 inlineOk)) ops) last)) := by
  intro h
  have hword := h runningPort false [.readByte false, .readByte false,
    .dspWrite .x 0xFFEB 0x123456, .readByte false] (.readByte false) reached_runningPort
    (by decide +kernel) (by decide +kernel) (by decide +kernel)
  rcases hword with ⟨w, hpeek, hvalue, -⟩ | ⟨hvalue, -⟩
  · have hfirst : w = 0x123456 := by
      apply Option.some.inj
      rw [← hpeek]
      decide +kernel
    rw [hfirst] at hvalue
    revert hvalue
    decide +kernel
  · revert hvalue
    decide +kernel

end Falcon
end PistormAtari
