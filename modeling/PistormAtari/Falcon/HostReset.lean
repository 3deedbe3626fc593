import PistormAtari.Falcon.WholeWords

/-!
# Resets of the DSP

After the 68k has released the reset line, the old program may run on until the engine sees
the release.  An observer marks what it sends meanwhile, and writes down what the 68k sends.
-/

namespace PistormAtari
namespace Falcon

open Foundation

/-!
## The observer
-/

/-- `since` holds the words that the 68k has sent since the last release, which was on port A
or with a program.  `old` says of each unread word of the DSP whether it was sent after a
release that the engine had not seen. -/
structure Reset where
  since : List Word
  byPort : Bool
  old : List Bool

def Unseen (f : HostLink) : Prop := f.resetEpoch ≠ f.resetSeen

instance (f : HostLink) : Decidable (Unseen f) := inferInstanceAs (Decidable (_ ≠ _))

def Loading (f : HostLink) : Prop := Unseen f ∨ f.dspState = .boot

instance (f : HostLink) : Decidable (Loading f) := inferInstanceAs (Decidable (_ ∨ _))

def Listens (f : HostLink) (byPort : Bool) : Prop :=
  (Unseen f ∧ byPort = true) ∨ (¬ Unseen f ∧ f.dspState = .boot)

def findsWord (s : HostPort) : HostStep -> Bool
  | .readByte _ => !s.cpuFree && !s.waiting && (rxFind s.core.io.toHostLink).isSome
  | .rxPoll => s.waiting && (s.core.io.rx.peek hfSize).isSome
  | _ => false

def Reset.send (r : Reset) (v : Word) : Reset := { r with since := r.since ++ [v] }

def Reset.clear (r : Reset) : Reset := { r with old := [] }

def Reset.release (byPort : Bool) : Reset := { since := [], byPort := byPort, old := [] }

def Reset.hear (r : Reset) (unseen : Bool) : Reset := { r with old := r.old ++ [unseen] }

def Reset.read (r : Reset) : Reset := { r with old := r.old.tail }

def Reset.see (r : Reset) (n : Nat) : Reset := { r with old := List.replicate n false }

def Reset.after (r : Reset) (s : HostPort) : HostStep -> Reset
  | .hostWrite o v =>
      if s.cpuFree then
        if o = 7 then r.send (hostWord s.core.io.toHostLink v)
        else if o = 0 ∧ v &&& 0x80 ≠ 0 ∧ v &&& 0x01 ≠ 0 then r.clear
        else r
      else r
  | .porta v =>
      if s.cpuFree = true ∧ releases s.core.io.toHostLink v = true then Reset.release true else r
  | .dspExec _ => if s.cpuFree then Reset.release false else r
  | .dspWrite space a v =>
      if s.dspRuns = true ∧ isHostPort space a = true ∧ s.core.io.rx.push hfSize v ≠ none then
        r.hear (decide (Unseen s.core.io.toHostLink))
      else r
  | .readByte flowing =>
      if findsWord s (.readByte flowing) = true ∧ s.access.next = 7 then r.read else r
  | .rxPoll => if findsWord s .rxPoll = true ∧ s.access.next = 7 then r.read else r
  | .powerState =>
      if Unseen s.core.io.toHostLink then r.see (hostStep s .powerState).core.io.rx.count else r
  | _ => r

def resetStep (s : HostPort × Reset) (op : HostStep) : HostPort × Reset :=
  (hostStep s.1 op, s.2.after s.1 op)

def loaded (f : HostLink) (pint : BitVec 9 -> Word) : List Word :=
  (List.range f.bootCount).map fun i => pint (BitVec.ofNat 9 i)

/-- While the bootstrap listens, what it has loaded and what waits for it are the words sent
since the release. -/
def Bootstraps (f : HostLink) (pint : BitVec 9 -> Word) (since : List Word) : Prop :=
  f.dspState = .boot -> ¬ Unseen f ->
    exists q, f.tx.Holds hfSize q ∧ since = loaded f pint ++ q

/-- No read finds a word of the old program, nor any word before the new program is loaded,
and a release on port A leads to a bootstrap from the words sent since. -/
structure Isolated (s : HostPort × Reset) (op : HostStep) : Prop where
  hidden : findsWord s.1 op = true -> ¬ Loading s.1.core.io.toHostLink ∧ s.2.old.head? = some false
  boots : Bootstraps (resetStep s op).1.core.io.toHostLink (resetStep s op).1.core.dsp.pint
    (resetStep s op).2.since
  program : op = .powerState -> Unseen s.1.core.io.toHostLink -> s.2.byPort = true ->
    (resetStep s op).1.core.io.dspState ≠ .run

/-- No read begins to wait for a word while the engine has a release to see.  What the 68k
sends for a bootstrap is no more than the ring holds, and it does not clear the ring of it.
No pulse on port A overtakes a program that was handed over, and the releases that the
engine has not seen do not come round to their number again. -/
def KeepsReset (s : HostPort × Reset) : HostStep -> Prop
  | .readByte flowing =>
      s.1.cpuFree = false ∧ s.1.waiting = false ∧
          mayWait s.1.access s.1.core.io.toHostLink = true ∧
          waitsForWord s.1.core.io.toHostLink flowing = true ->
        ¬ Unseen s.1.core.io.toHostLink
  | .hostWrite o v =>
      s.1.cpuFree = true ∧ Listens s.1.core.io.toHostLink s.2.byPort ->
        (o = 7 ->
          s.1.core.io.tx.count < hfSize ∧
            (Unseen s.1.core.io.toHostLink ->
              (s.1.core.io.tx.head - s.1.core.io.bootHead).toNat < hfSize)) ∧
        (o = 0 ∧ v &&& 0x80 ≠ 0 ∧ v &&& 0x02 ≠ 0 -> s.1.core.io.tx.head = s.1.core.io.tx.tail)
  | .porta v =>
      s.1.cpuFree = true ∧ releases s.1.core.io.toHostLink v = true ->
        s.1.core.io.exec = none ∧ s.1.core.io.resetEpoch + 1 ≠ s.1.core.io.resetSeen
  | .dspExec _ => s.1.cpuFree = true -> s.1.core.io.resetEpoch + 1 ≠ s.1.core.io.resetSeen
  | _ => True

/-!
## What holds between steps
-/

structure Separate (f : HostLink) (pint : BitVec 9 -> Word) (left : Nat) (waiting : Bool)
    (r : Reset) : Prop where
  line : f.resetHeld = decide (f.porta &&& 0x10 ≠ 0)
  pressed : f.resetHeld = true -> f.dspResetting = true ∨ f.dspState = .held
  hidden : Unseen f -> f.dspResetting = true ∨ (f.dspState = .held ∧ f.rx.peek hfSize = none)
  silent : f.dspState = .boot -> ¬ Unseen f -> f.rx.peek hfSize = none
  queued : Unseen f -> r.byPort = true ->
    ({ f.tx with tail := f.bootHead } : WrapRing Word).Holds hfSize r.since
  boots : Bootstraps f pint r.since
  waits : waiting = true -> ¬ Unseen f ∧ f.dspState = .run ∧ f.resetHeld = false
  idle : left = 0 -> waiting = false
  unread : exists q, f.rx.Holds hfSize q ∧ q.length = r.old.length
  fresh : ¬ Unseen f -> forall b, b ∈ r.old -> b = false
  program : Unseen f -> (r.byPort = true <-> f.exec = none)

def SeparateAt (s : HostPort × Reset) : Prop :=
  Separate s.1.core.io.toHostLink s.1.core.dsp.pint s.1.access.left s.1.waiting s.2

theorem notRun_of_boot {f : HostLink} (hboot : f.dspState = .boot) : f.dspState ≠ .run := by
  rw [hboot]
  exact nofun

section
variable {f : HostLink} {pint : BitVec 9 -> Word} {left : Nat} {waiting : Bool} {r : Reset}

theorem Separate.notLoading_of_rxFind (h : Separate f pint left waiting r)
    (hfind : (rxFind f).isSome = true) : ¬ Loading f := by
  have hword : f.dspResetting = false ∧ f.rx.peek hfSize ≠ none := by
    unfold rxFind at hfind
    split at hfind
    · cases hfind
    · next hshown => exact ⟨Bool.eq_false_of_not_eq_true hshown, Option.isSome_iff_ne_none.mp hfind⟩
  rintro (hunseen | hboot)
  · rcases h.hidden hunseen with hresetting | ⟨-, hempty⟩
    · rw [hword.1] at hresetting
      cases hresetting
    · exact hword.2 hempty
  · rcases Decidable.em (Unseen f) with hunseen | hseen
    · rcases h.hidden hunseen with hresetting | ⟨-, hempty⟩
      · rw [hword.1] at hresetting
        cases hresetting
      · exact hword.2 hempty
    · exact hword.2 (h.silent hboot hseen)

theorem Separate.notLoading_of_waiting (h : Separate f pint left true r) : ¬ Loading f := by
  have hwaits := h.waits rfl
  rintro (hunseen | hboot)
  · exact hwaits.1 hunseen
  · exact notRun_of_boot hboot hwaits.2.1

theorem Separate.head_fresh (h : Separate f pint left waiting r) (hseen : ¬ Unseen f)
    (hword : f.rx.peek hfSize ≠ none) : r.old.head? = some false := by
  rcases h.unread with ⟨q, hq, hlength⟩
  rw [hq.peek hfSize_lt] at hword
  cases hold : r.old with
  | nil =>
      rw [hold] at hlength
      rw [List.eq_nil_of_length_eq_zero hlength] at hword
      exact absurd rfl hword
  | cons b rest =>
      have hfresh := h.fresh hseen b (by rw [hold]; exact List.mem_cons_self)
      rw [hfresh]
      rfl

theorem Separate.access (h : Separate f pint left waiting r) {left' : Nat} {waiting' : Bool}
    (hwaits : waiting' = true -> ¬ Unseen f ∧ f.dspState = .run ∧ f.resetHeld = false)
    (hidle : left' = 0 -> waiting' = false) : Separate f pint left' waiting' r :=
  ⟨h.line, h.pressed, h.hidden, h.silent, h.queued, h.boots, hwaits, hidle, h.unread, h.fresh,
    h.program⟩

theorem peek_pop_of_none {g : WrapRing Word} (h : g.peek hfSize = none) :
    g.pop.peek hfSize = none := by
  unfold WrapRing.peek at h
  unfold WrapRing.pop
  split at h
  · next hempty =>
    rw [if_pos hempty]
    unfold WrapRing.peek
    rw [if_pos hempty]
  · cases h

theorem Separate.read (h : Separate f pint left waiting r) (v : Word) :
    Separate { f with rx := f.rx.pop, wroteSinceRx := false, rxLast := v } pint left waiting
      r.read := by
  constructor
  · exact h.line
  · exact h.pressed
  · intro hunseen
    rcases h.hidden hunseen with hresetting | ⟨hheld, hempty⟩
    · exact Or.inl hresetting
    · exact Or.inr ⟨hheld, peek_pop_of_none hempty⟩
  · exact fun hboot hseen => peek_pop_of_none (h.silent hboot hseen)
  · exact h.queued
  · exact h.boots
  · exact h.waits
  · exact h.idle
  · rcases h.unread with ⟨q, hq, hlength⟩
    refine ⟨q.tail, hq.pop hfSize_lt hfSize_dvd, ?_⟩
    show q.tail.length = r.old.tail.length
    rw [List.length_tail, List.length_tail, hlength]
  · intro hseen b hb
    exact h.fresh hseen b (List.mem_of_mem_tail hb)
  · exact h.program

theorem Separate.clear (h : Separate f pint left waiting r) :
    Separate { f with rx := { f.rx with tail := f.rx.head } } pint left waiting r.clear := by
  have hempty : ({ f.rx with tail := f.rx.head } : WrapRing Word).peek hfSize = none := by
    unfold WrapRing.peek
    rw [if_pos rfl]
  constructor
  · exact h.line
  · exact h.pressed
  · intro hunseen
    rcases h.hidden hunseen with hresetting | ⟨hheld, -⟩
    · exact Or.inl hresetting
    · exact Or.inr ⟨hheld, hempty⟩
  · exact fun _ _ => hempty
  · exact h.queued
  · exact h.boots
  · exact h.waits
  · exact h.idle
  · exact ⟨[], WrapRing.holds_nil hfSize f.rx.w f.rx.head, rfl⟩
  · intro _ b hb
    exact absurd hb List.not_mem_nil
  · exact h.program

/-!
## Writes of the 68k
-/

theorem hostWord_stored (f : HostLink) (v : BitVec 8) :
    hostWord { f with txb := Function.update f.txb 2 v, wroteSinceRx := true } v = hostWord f v := by
  unfold hostWord
  dsimp only
  rw [Function.update_of_ne (by decide), Function.update_of_ne (by decide)]

theorem push_of_tail {g g' : WrapRing Word} {v : Word} (hpush : g.push hfSize v = some g')
    {t : BitVec 32} (hroom : (g.head - t).toNat < hfSize) :
    ({ g with tail := t } : WrapRing Word).push hfSize v = some { g' with tail := t } := by
  unfold WrapRing.push at hpush
  split at hpush
  · cases hpush
  · cases hpush
    unfold WrapRing.push WrapRing.count
    dsimp only
    rw [if_neg (by lia)]

theorem Separate.send (h : Separate f pint left waiting r) (v : BitVec 8)
    (hroom : Listens f r.byPort -> f.tx.count < hfSize ∧
      (Unseen f -> (f.tx.head - f.bootHead).toNat < hfSize)) :
    Separate (hostSend f v) pint left waiting (r.send (hostWord f v)) := by
  unfold hostSend
  dsimp only
  rw [hostWord_stored]
  cases hpush : f.tx.push hfSize (hostWord f v) with
  | none =>
      have hdeaf : ¬ Listens f r.byPort := by
        intro hlistens
        unfold WrapRing.push at hpush
        rw [if_neg (not_le.mpr (hroom hlistens).1)] at hpush
        cases hpush
      refine ⟨h.line, h.pressed, h.hidden, h.silent, ?_, ?_, h.waits, h.idle, h.unread, h.fresh,
        h.program⟩
      · exact fun hunseen hport => absurd (Or.inl ⟨hunseen, hport⟩) hdeaf
      · exact fun hboot hseen => absurd (Or.inr ⟨hseen, hboot⟩) hdeaf
  | some tx =>
      refine ⟨h.line, h.pressed, h.hidden, h.silent, ?_, ?_, h.waits, h.idle, h.unread, h.fresh,
        h.program⟩
      · intro hunseen hport
        have hspace := (hroom (Or.inl ⟨hunseen, hport⟩)).2 hunseen
        exact (h.queued hunseen hport).push hfSize_lt hfSize_dvd (push_of_tail hpush hspace)
      · intro hboot hseen
        rcases h.boots hboot hseen with ⟨q, hq, hsince⟩
        refine ⟨q ++ [hostWord f v], hq.push hfSize_lt hfSize_dvd hpush, ?_⟩
        show r.since ++ [hostWord f v] = _
        rw [hsince, List.append_assoc]
        rfl

theorem Separate.clearTx (h : Separate f pint left waiting r)
    (hempty : Listens f r.byPort -> f.tx.head = f.tx.tail) :
    Separate { f with tx := { f.tx with head := f.tx.tail } } pint left waiting r := by
  have hsame (hlistens : Listens f r.byPort) :
      ({ f.tx with head := f.tx.tail } : WrapRing Word) = f.tx := by rw [← hempty hlistens]
  refine ⟨h.line, h.pressed, h.hidden, h.silent, ?_, ?_, h.waits, h.idle, h.unread, h.fresh,
    h.program⟩
  · intro hunseen hport
    dsimp only
    rw [← hempty (Or.inl ⟨hunseen, hport⟩)]
    exact h.queued hunseen hport
  · intro hboot hseen
    dsimp only
    rw [hsame (Or.inr ⟨hseen, hboot⟩)]
    exact h.boots hboot hseen

theorem Separate.hostInit (h : Separate f pint left waiting r) (v : BitVec 8)
    (hempty : v &&& 0x02 ≠ 0 -> Listens f r.byPort -> f.tx.head = f.tx.tail) :
    Separate { hostInit f v with icr := v &&& 0x7F } pint left waiting
      (if v &&& 0x01 ≠ 0 then r.clear else r) := by
  have hclear {g : HostLink} (hg : Separate g pint left waiting r) :
      Separate
        (if v &&& 0x01 ≠ 0 then { g with rx := { g.rx with tail := g.rx.head } } else g) pint left
        waiting (if v &&& 0x01 ≠ 0 then r.clear else r) := by
    split
    · exact hg.clear
    · exact hg
  have hinit : Separate (Falcon.hostInit f v) pint left waiting
      (if v &&& 0x01 ≠ 0 then r.clear else r) := by
    unfold Falcon.hostInit
    apply hclear
    split
    · next htreq => exact h.clearTx (hempty htreq)
    · exact h
  exact ⟨hinit.line, hinit.pressed, hinit.hidden, hinit.silent, hinit.queued, hinit.boots,
    hinit.waits, hinit.idle, hinit.unread, hinit.fresh, hinit.program⟩

/-!
## Releases
-/

theorem separate_release {f : HostLink}
    (hhidden : f.dspResetting = true ∨ f.dspState = .held) (hline : f.porta &&& 0x10 = 0)
    (hwrap : f.resetEpoch + 1 ≠ f.resetSeen) {byPort : Bool}
    (hexec : byPort = true <-> f.exec = none) :
    Separate (releaseReset f) pint left false (Reset.release byPort) := by
  have hempty : ({ f.rx with tail := f.rx.head } : WrapRing Word).peek hfSize = none := by
    unfold WrapRing.peek
    rw [if_pos rfl]
  constructor
  · show false = decide (f.porta &&& 0x10 ≠ 0)
    rw [hline]
    rfl
  · exact nofun
  · intro _
    rcases hhidden with hresetting | hheld
    · exact Or.inl hresetting
    · exact Or.inr ⟨hheld, hempty⟩
  · exact fun _ hseen => absurd hwrap hseen
  · exact fun _ _ => WrapRing.holds_nil hfSize f.tx.w f.tx.head
  · exact fun _ hseen => absurd hwrap hseen
  · exact nofun
  · exact fun _ => rfl
  · exact ⟨[], WrapRing.holds_nil hfSize f.rx.w f.rx.head, rfl⟩
  · intro _ b hb
    exact absurd hb List.not_mem_nil
  · exact fun _ => hexec

theorem releases_iff {v : BitVec 8} :
    releases f v = true <-> v &&& 0x10 = 0 ∧ f.porta &&& 0x10 ≠ 0 := decide_eq_true_iff

theorem Separate.portaWrite (h : Separate f pint left false r) (v : BitVec 8)
    (hcond : releases f v = true -> f.exec = none ∧ f.resetEpoch + 1 ≠ f.resetSeen) :
    Separate (portaWrite v f) pint left false
      (if releases f v = true then Reset.release true else r) := by
  unfold Falcon.portaWrite
  dsimp only
  rcases Decidable.em (v &&& 0x10 ≠ 0 ∧ f.porta &&& 0x10 = 0) with hpress | hnot
  · have hkeep : ¬ releases f v = true := fun hrel => hpress.1 (releases_iff.mp hrel).1
    rw [if_pos hpress, if_neg hkeep]
    refine ⟨?_, fun _ => Or.inl rfl, fun _ => Or.inl rfl, h.silent, h.queued, h.boots, nofun,
      h.idle, h.unread, h.fresh, h.program⟩
    show true = decide (v &&& 0x10 ≠ 0)
    exact (decide_eq_true hpress.1).symm
  · rw [if_neg hnot]
    rcases Decidable.em (v &&& 0x10 = 0 ∧ f.porta &&& 0x10 ≠ 0) with hrelease | hkeep
    · have hrel := releases_iff.mpr hrelease
      rw [if_pos hrelease, if_pos hrel]
      have hheld : f.resetHeld = true := by
        rw [h.line]
        exact decide_eq_true hrelease.2
      have hpressed : ({ f with porta := v } : HostLink).dspResetting = true ∨
          ({ f with porta := v } : HostLink).dspState = .held := h.pressed hheld
      have hexec : true = true <-> f.exec = none := iff_of_true rfl (hcond hrel).1
      exact separate_release hpressed hrelease.1 (hcond hrel).2 hexec
    · have hrel : ¬ releases f v = true := fun hrel => hkeep (releases_iff.mp hrel)
      rw [if_neg hkeep, if_neg hrel]
      refine ⟨?_, h.pressed, h.hidden, h.silent, h.queued, h.boots, h.waits, h.idle, h.unread,
        h.fresh, h.program⟩
      show f.resetHeld = decide (v &&& 0x10 ≠ 0)
      rw [h.line]
      apply decide_eq_decide.mpr
      constructor
      · intro hset hclear
        exact hkeep ⟨hclear, hset⟩
      · intro hset hclear
        exact hnot ⟨hset, hclear⟩

theorem separate_falconDspExec (x : DspExec) (hwrap : f.resetEpoch + 1 ≠ f.resetSeen) :
    Separate (falconDspExec x f) pint left false (Reset.release false) := by
  have hline : (f.porta &&& ~~~0x10) &&& 0x10 = 0 := by
    rw [BitVec.and_assoc]
    exact BitVec.and_zero
  unfold falconDspExec
  apply separate_release
  · exact Or.inl rfl
  · exact hline
  · exact hwrap
  · exact ⟨nofun, nofun⟩

end
end Falcon
end PistormAtari
