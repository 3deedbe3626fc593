import PistormAtari.Falcon.HostPort
import PistormAtari.Foundation.Run

/-!
# The rings of the host port

An observer writes down which words the 68k has sent and which the DSP has received since
the last clear.  The ring to the DSP holds the difference.
-/

namespace PistormAtari
namespace Falcon

open Foundation

/-!
## The observer
-/

/-- Words sent and received since the last clear; of those in flight, the first `old` were
sent before a reset release that the engine has not seen yet.  `dropped` counts words refused
because the ring was full. -/
structure Mail where
  sent : List Word
  got : List Word
  old : Nat
  dropped : Nat

def Mail.inFlight (m : Mail) : List Word := m.sent.drop m.got.length

def Mail.write (m : Mail) (v : Word) : Mail :=
  if m.inFlight.length < hfSize then { m with sent := m.sent ++ [v] }
  else { m with dropped := m.dropped + 1 }

def Mail.take (m : Mail) (v : Word) : Mail := { m with got := m.got ++ [v], old := m.old - 1 }

def Mail.clear (m : Mail) : Mail := { m with sent := [], got := [], old := 0 }

def Mail.release (m : Mail) : Mail := { m with old := m.inFlight.length }

def Mail.reset (m : Mail) : Mail := { m with sent := m.inFlight.drop m.old, got := [], old := 0 }

def bootFind (f : HostLink) : Option Word :=
  if f.dspState = .boot ∧ f.bootCount < 512 then f.tx.peek hfSize else none

/-- A write to `$10` of port A that releases the reset line. -/
def releases (f : HostLink) (v : BitVec 8) : Bool := decide (v &&& 0x10 = 0 ∧ f.porta &&& 0x10 ≠ 0)

def Mail.after (m : Mail) (s : HostPort) : HostStep -> Mail
  | .hostWrite o v =>
      if s.cpuFree then
        if o = 7 then m.write (hostWord s.core.io.toHostLink v)
        else if o = 0 ∧ v &&& 0x80 ≠ 0 ∧ v &&& 0x02 ≠ 0 then m.clear
        else m
      else m
  | .porta v => if s.cpuFree = true ∧ releases s.core.io.toHostLink v = true then m.release else m
  | .dspExec _ => if s.cpuFree then m.release else m
  | .dspRead space a =>
      if s.dspRuns = true ∧ isHostPort space a = true then
        (hrxFind s.core.io.toHostLink).elim m m.take
      else m
  | .bootWord => (bootFind s.core.io.toHostLink).elim m m.take
  | .powerState => if s.core.io.resetEpoch ≠ s.core.io.resetSeen then m.reset else m
  | _ => m

def mailStep (s : HostPort × Mail) (op : HostStep) : HostPort × Mail :=
  (hostStep s.1 op, s.2.after s.1 op)

/-- The rings are well formed, and the DSP has received what the 68k has sent, in order and
each word once, but for those in flight. -/
structure Delivered (s : HostPort × Mail) : Prop where
  txCount : s.1.core.io.tx.count ≤ hfSize
  rxCount : s.1.core.io.rx.count ≤ hfSize
  order : s.2.sent = s.2.got ++ s.2.inFlight
  holds : s.1.core.io.tx.Holds hfSize s.2.inFlight
  dropped : s.1.core.io.droppedTx = s.2.dropped

/-- When the engine sees a release, the index saved at the release still parts the words sent
before it from those sent after. -/
def BootHeadKept (s : HostPort × Mail) (op : HostStep) : Prop :=
  op = .powerState -> s.1.core.io.resetEpoch ≠ s.1.core.io.resetSeen ->
    s.1.core.io.bootHead = s.1.core.io.tx.tail + BitVec.ofNat 32 s.2.old

instance (s : HostPort × Mail) (op : HostStep) : Decidable (BootHeadKept s op) :=
  inferInstanceAs (Decidable (_ -> _))

/-!
## What holds between steps
-/

theorem hfSize_lt : hfSize < 2 ^ 32 := by decide

theorem hfSize_dvd : hfSize ∣ 2 ^ 32 := by decide

structure Orderly (f : HostLink) (m : Mail) : Prop where
  tx : f.tx.Holds hfSize m.inFlight
  rx : exists r, f.rx.Holds hfSize r
  order : m.sent = m.got ++ m.inFlight
  old : m.old ≤ m.inFlight.length
  dropped : f.droppedTx = m.dropped

variable {s : HostPort × Mail}

theorem Orderly.delivered (h : Orderly s.1.core.io.toHostLink s.2) :
    Delivered s := by
  rcases h.rx with ⟨r, hr⟩
  constructor
  · rw [h.tx.count hfSize_lt]
    exact h.tx.fits
  · rw [hr.count hfSize_lt]
    exact hr.fits
  · exact h.order
  · exact h.tx
  · exact h.dropped

variable {f g : HostLink}

variable {m : Mail}

theorem Orderly.of_tx (h : Orderly f m) (htx : g.tx = f.tx)
    (hdropped : g.droppedTx = f.droppedTx) (hrx : exists r, g.rx.Holds hfSize r) : Orderly g m := by
  constructor
  · rw [htx]
    exact h.tx
  · exact hrx
  · exact h.order
  · exact h.old
  · rw [hdropped]
    exact h.dropped

theorem rx_cleared (f : HostLink) :
    exists r, ({ f.rx with tail := f.rx.head } : WrapRing Word).Holds hfSize r :=
  ⟨[], WrapRing.holds_nil hfSize f.rx.w f.rx.head⟩

/-!
## The mail
-/

theorem inFlight_of_order {sent got q : List Word} (h : sent = got ++ q) (old dropped : Nat) :
    Mail.inFlight { sent := sent, got := got, old := old, dropped := dropped } = q := by
  unfold Mail.inFlight
  dsimp only
  rw [h, List.drop_left]

theorem orderly_clear (h : Orderly f m)
    (htx : g.tx = { f.tx with head := f.tx.tail }) (hdropped : g.droppedTx = f.droppedTx)
    (hrx : exists r, g.rx.Holds hfSize r) : Orderly g m.clear := by
  constructor
  · rw [htx]
    exact WrapRing.holds_nil hfSize f.tx.w f.tx.tail
  · exact hrx
  · rfl
  · exact Nat.zero_le _
  · rw [hdropped]
    exact h.dropped

theorem Orderly.release (h : Orderly f m) (htx : g.tx = f.tx)
    (hdropped : g.droppedTx = f.droppedTx) (hrx : exists r, g.rx.Holds hfSize r) :
    Orderly g m.release := by
  have hsame := h.of_tx htx hdropped hrx
  exact ⟨hsame.tx, hsame.rx, hsame.order, le_refl _, hsame.dropped⟩

theorem orderly_send {f : HostLink} {m : Mail} (h : Orderly f m) (v : BitVec 8) :
    Orderly (hostSend f v) (m.write (hostWord f v)) := by
  have hword : hostWord { f with txb := Function.update f.txb 2 v, wroteSinceRx := true } v =
      hostWord f v := by
    unfold hostWord
    dsimp only
    rw [Function.update_of_ne (by decide), Function.update_of_ne (by decide)]
  unfold hostSend Mail.write
  dsimp only
  rw [hword]
  cases hpush : f.tx.push hfSize (hostWord f v) with
  | none =>
      have hfull := (h.tx.push_eq_none hfSize_lt _).mp hpush
      rw [if_neg (by lia)]
      exact ⟨h.tx, h.rx, h.order, h.old, congrArg (· + 1) h.dropped⟩
  | some tx =>
      have hroom : m.inFlight.length < hfSize := by
        have hfits := h.tx.fits
        have hne : m.inFlight.length ≠ hfSize := by
          intro hfull
          have hnone := (h.tx.push_eq_none hfSize_lt (hostWord f v)).mpr hfull
          rw [hnone] at hpush
          cases hpush
        lia
      rw [if_pos hroom]
      have hsent : m.sent ++ [hostWord f v] = m.got ++ (m.inFlight ++ [hostWord f v]) := by
        rw [← List.append_assoc, ← h.order]
      have hflight := inFlight_of_order hsent m.old m.dropped
      constructor
      · rw [hflight]
        exact h.tx.push hfSize_lt hfSize_dvd hpush
      · exact h.rx
      · rw [hflight]
        exact hsent
      · rw [hflight, List.length_append]
        exact le_trans h.old (Nat.le_add_right _ _)
      · exact h.dropped

theorem orderly_take {v : Word} (h : Orderly f m)
    (hpeek : f.tx.peek hfSize = some v) (htx : g.tx = f.tx.pop)
    (hdropped : g.droppedTx = f.droppedTx) (hrx : g.rx = f.rx) : Orderly g (m.take v) := by
  rw [h.tx.peek hfSize_lt] at hpeek
  cases hq : m.inFlight with
  | nil =>
      rw [hq] at hpeek
      cases hpeek
  | cons w rest =>
      rw [hq] at hpeek
      cases hpeek
      have hpop := h.tx.pop hfSize_lt hfSize_dvd
      rw [hq] at hpop
      have hsent : m.sent = (m.got ++ [v]) ++ rest := by
        rw [List.append_assoc, List.singleton_append, ← hq]
        exact h.order
      have hflight := inFlight_of_order hsent (m.old - 1) m.dropped
      have hold := h.old
      rw [hq] at hold
      constructor
      · rw [htx]
        show f.tx.pop.Holds hfSize (m.take v).inFlight
        unfold Mail.take
        rw [hflight]
        exact hpop
      · rw [hrx]
        exact h.rx
      · unfold Mail.take
        rw [hflight]
        exact hsent
      · unfold Mail.take
        rw [hflight]
        exact Nat.sub_le_of_le_add hold
      · rw [hdropped]
        exact h.dropped

theorem orderly_reset (h : Orderly f m) (hkept : f.bootHead = f.tx.tail + BitVec.ofNat 32 m.old)
    (htx : g.tx = { f.tx with tail := f.bootHead }) (hdropped : g.droppedTx = f.droppedTx)
    (hrx : exists r, g.rx.Holds hfSize r) : Orderly g m.reset := by
  have hdrop := h.tx.drop hfSize_dvd h.old
  constructor
  · rw [htx, hkept]
    exact hdrop
  · exact hrx
  · rfl
  · exact Nat.zero_le _
  · rw [hdropped]
    exact h.dropped

/-!
## The ring to the 68k
-/

structure SameTx (f g : HostLink) : Prop where
  tx : g.tx = f.tx
  dropped : g.droppedTx = f.droppedTx
  rx : (exists r, f.rx.Holds hfSize r) -> exists r, g.rx.Holds hfSize r

theorem SameTx.refl (f : HostLink) : SameTx f f := ⟨rfl, rfl, fun h => h⟩

theorem SameTx.of_eq (h : g = f) : SameTx f g := h ▸ SameTx.refl g

theorem SameTx.trans {f g h : HostLink} (hfg : SameTx f g) (hgh : SameTx g h) : SameTx f h :=
  ⟨hgh.tx.trans hfg.tx, hgh.dropped.trans hfg.dropped, fun hf => hgh.rx (hfg.rx hf)⟩

theorem Orderly.same (h : Orderly f m) (hsame : SameTx f g) :
    Orderly g m := h.of_tx hsame.tx hsame.dropped (hsame.rx h.rx)

theorem sameTx_answerSent (f : HostLink) : SameTx f (answerSent f) := by
  unfold answerSent
  split
  · dsimp only
    split
    · exact ⟨rfl, rfl, fun h => h⟩
    · exact ⟨rfl, rfl, fun h => h⟩
  · exact SameTx.refl f

theorem sameTx_htxSend (f : HostLink) (v : Word) : SameTx f (htxSend f v) := by
  have hsent := sameTx_answerSent f
  unfold htxSend
  split
  · next rx hpush =>
    refine ⟨hsent.tx, hsent.dropped, ?_⟩
    intro hf
    rcases hsent.rx hf with ⟨r, hr⟩
    exact ⟨r ++ [v], hr.push hfSize_lt hfSize_dvd hpush⟩
  · exact hsent

theorem sameTx_hostByte (o : Nat) (found : Option Word) (f : Host) :
    SameTx f.toHostLink (hostByte o found f).2.toHostLink := by
  unfold hostByte
  dsimp only
  split
  case h_7 =>
    split
    · refine ⟨rfl, rfl, ?_⟩
      rintro ⟨r, hr⟩
      exact ⟨r.tail, hr.pop hfSize_lt hfSize_dvd⟩
    · exact SameTx.refl _
  all_goals exact SameTx.refl _

theorem sameTx_takeByte (s : HostPort) (found : Option Word) :
    SameTx s.core.io.toHostLink (takeByte s found).core.io.toHostLink :=
  sameTx_hostByte _ _ _

theorem sameTx_readByte (s : HostPort) (flowing : Bool) :
    SameTx s.core.io.toHostLink (readByte s flowing).core.io.toHostLink := by
  unfold readByte
  dsimp only
  split
  · split
    · exact SameTx.refl _
    · exact sameTx_takeByte _ _
  · exact sameTx_takeByte _ _

theorem sameTx_hostWrite8 {o : Nat} {v : BitVec 8} (f : Host) (hword : o ≠ 7)
    (hinit : ¬ (o = 0 ∧ v &&& 0x80 ≠ 0 ∧ v &&& 0x02 ≠ 0)) :
    SameTx f.toHostLink (hostWrite8 o v f).toHostLink := by
  unfold hostWrite8
  split
  · split
    · next hbit =>
      have htreq : ¬ (v &&& 0x02 ≠ 0) := fun h => hinit ⟨rfl, hbit, h⟩
      unfold hostInit
      rw [if_neg htreq]
      dsimp only
      split
      · exact ⟨rfl, rfl, fun _ => rx_cleared f.toHostLink⟩
      · exact ⟨rfl, rfl, fun h => h⟩
    · exact ⟨rfl, rfl, fun h => h⟩
  all_goals first
    | exact absurd rfl hword
    | exact ⟨rfl, rfl, fun h => h⟩

theorem sameTx_portaWrite (f : HostLink) (v : BitVec 8) : SameTx f (portaWrite v f) := by
  unfold portaWrite
  dsimp only
  split
  · exact ⟨rfl, rfl, fun h => h⟩
  · split
    · exact ⟨rfl, rfl, fun _ => rx_cleared f⟩
    · exact ⟨rfl, rfl, fun h => h⟩

theorem sameTx_settlePower (f : Host) : SameTx f.toHostLink (settlePower f).toHostLink := by
  unfold settlePower
  dsimp only
  split
  · split
    · exact ⟨rfl, rfl, fun h => h⟩
    · exact ⟨rfl, rfl, fun h => h⟩
  · split
    · exact ⟨rfl, rfl, fun h => h⟩
    · exact ⟨rfl, rfl, fun h => h⟩

theorem sameTx_dspExecLoad (x : DspExec) (s : Core Host) :
    SameTx s.io.toHostLink (dspExecLoad x s).io.toHostLink := by
  have hsend (f : HostLink) (v : Word) (h : SameTx s.io.toHostLink f) :
      SameTx s.io.toHostLink (htxSend f v) := h.trans (sameTx_htxSend f v)
  have hrun (f : HostLink) (n : Nat) (h : SameTx s.io.toHostLink f) :
      SameTx s.io.toHostLink { f with bootCount := n, dspState := .run } :=
    h.trans ⟨rfl, rfl, fun h => h⟩
  exact dspExecLoad_keeps hsend hrun x s (SameTx.refl _)

theorem sameTx_dspReleased (s : Core Host) :
    SameTx (resetHost s.io).toHostLink (dspReleased s).io.toHostLink := by
  unfold dspReleased
  dsimp only
  cases s.io.exec with
  | none => exact ⟨rfl, rfl, fun h => h⟩
  | some x =>
      have hload := sameTx_dspExecLoad x
        { dsp := { dsp56kReset s.dsp with pint := fun _ => 0 }, io := resetHost s.io }
      exact ⟨hload.tx, hload.dropped, hload.rx⟩

/-!
## Steps
-/

section

variable (h : Orderly s.1.core.io.toHostLink s.2)

include h

theorem orderly_hostWrite (o : Nat) (v : BitVec 8) :
    Orderly (hostStep s.1 (.hostWrite o v)).core.io.toHostLink (s.2.after s.1 (.hostWrite o v)) := by
  unfold hostStep Mail.after
  dsimp only
  cases s.1.cpuFree with
  | false => exact h
  | true =>
      rw [if_pos rfl, if_pos rfl]
      split
      · next hword =>
        subst hword
        exact orderly_send h v
      · next hword =>
        split
        · next hinit =>
          rcases hinit with ⟨rfl, hbit, htreq⟩
          have hlink : (hostWrite8 0 v s.1.core.io).toHostLink =
              { hostInit s.1.core.io.toHostLink v with icr := v &&& 0x7F } := by
            show (if v &&& 0x80 ≠ 0 then _ else _ : Host).toHostLink = _
            rw [if_pos hbit]
          show Orderly (hostWrite8 0 v s.1.core.io).toHostLink _
          rw [hlink]
          unfold hostInit
          rw [if_pos htreq]
          dsimp only
          split
          · exact orderly_clear h rfl rfl (rx_cleared s.1.core.io.toHostLink)
          · exact orderly_clear h rfl rfl h.rx
        · next hinit => exact h.same (sameTx_hostWrite8 s.1.core.io hword hinit)

theorem orderly_porta (v : BitVec 8) :
    Orderly (hostStep s.1 (.porta v)).core.io.toHostLink (s.2.after s.1 (.porta v)) := by
  unfold hostStep Mail.after
  dsimp only
  have hsame := sameTx_portaWrite s.1.core.io.toHostLink v
  cases s.1.cpuFree with
  | false =>
      rw [if_neg Bool.false_ne_true, if_neg (fun hand => Bool.false_ne_true hand.1)]
      exact h
  | true =>
      rw [if_pos rfl]
      split
      · exact h.release hsame.tx hsame.dropped (hsame.rx h.rx)
      · exact h.same hsame

theorem orderly_dspExec (x : DspExec) :
    Orderly (hostStep s.1 (.dspExec x)).core.io.toHostLink (s.2.after s.1 (.dspExec x)) := by
  unfold hostStep Mail.after
  dsimp only
  cases s.1.cpuFree with
  | false => exact h
  | true => exact h.release rfl rfl (rx_cleared s.1.core.io.toHostLink)

theorem orderly_dspRead (space : Space) (a : BitVec 16) :
    Orderly (hostStep s.1 (.dspRead space a)).core.io.toHostLink
      (s.2.after s.1 (.dspRead space a)) := by
  unfold hostStep Mail.after
  dsimp only
  cases s.1.dspRuns with
  | false =>
      rw [if_neg Bool.false_ne_true, if_neg (fun hand => Bool.false_ne_true hand.1)]
      exact h
  | true =>
      rw [if_pos rfl]
      show Orderly (memRd hostPeriph space a s.1.core).2.io.toHostLink _
      rw [memRd_link]
      cases isHostPort space a with
      | false =>
          rw [if_neg Bool.false_ne_true, if_neg (fun hand => Bool.false_ne_true hand.2)]
          exact h
      | true =>
          rw [if_pos rfl, if_pos ⟨rfl, rfl⟩]
          unfold hrxTake
          cases hfind : hrxFind s.1.core.io.toHostLink with
          | none => exact h
          | some v =>
              unfold hrxFind at hfind
              split at hfind
              · exact orderly_take h hfind rfl rfl rfl
              · cases hfind

theorem orderly_dspWrite (space : Space) (a : BitVec 16) (v : Word) :
    Orderly (hostStep s.1 (.dspWrite space a v)).core.io.toHostLink s.2 := by
  unfold hostStep
  dsimp only
  cases s.1.dspRuns with
  | false => exact h
  | true =>
      rw [if_pos rfl]
      show Orderly (memWr hostPeriph space a v s.1.core).2.io.toHostLink _
      rw [memWr_link]
      split
      · exact h.same (sameTx_htxSend _ v)
      · exact h

theorem orderly_bootWord :
    Orderly (hostStep s.1 .bootWord).core.io.toHostLink (s.2.after s.1 .bootWord) := by
  unfold hostStep Mail.after bootFind bootWord
  dsimp only
  split
  · next hboot =>
    split
    · next hcount =>
      rw [if_pos ⟨hboot, hcount⟩]
      split
      · next v hpeek =>
        rw [hpeek]
        exact orderly_take h hpeek rfl rfl rfl
      · next hpeek =>
        rw [hpeek]
        exact h
    · next hcount =>
      rw [if_neg (fun hand => hcount hand.2)]
      exact h
  · next hboot =>
    rw [if_neg (fun hand => hboot hand.1)]
    exact h

end

theorem sameTx_powerState (s : HostPort) :
    SameTx
      (if s.core.io.resetEpoch ≠ s.core.io.resetSeen then resetHost s.core.io
        else s.core.io).toHostLink
      (hostStep s .powerState).core.io.toHostLink := by
  have hsettle := sameTx_settlePower
    (if s.core.io.resetEpoch ≠ s.core.io.resetSeen then dspReleased s.core else s.core).io
  split
  · next hnew =>
    rw [if_pos hnew] at hsettle
    have hall := (sameTx_dspReleased s.core).trans hsettle
    unfold hostStep dspPowerState
    dsimp only
    rw [if_pos hnew]
    exact hall
  · next hold =>
    rw [if_neg hold] at hsettle
    unfold hostStep dspPowerState
    dsimp only
    rw [if_neg hold]
    exact hsettle

theorem orderly_powerState (h : Orderly s.1.core.io.toHostLink s.2)
    (hkept : BootHeadKept s .powerState) :
    Orderly (hostStep s.1 .powerState).core.io.toHostLink (s.2.after s.1 .powerState) := by
  have hsame := sameTx_powerState s.1
  unfold Mail.after
  dsimp only
  split
  · next hnew =>
    rw [if_pos hnew] at hsame
    exact orderly_reset h (hkept rfl hnew) hsame.tx hsame.dropped
      (hsame.rx (rx_cleared s.1.core.io.toHostLink))
  · next hold =>
    rw [if_neg hold] at hsame
    exact h.same hsame

theorem orderly_mailStep (s : HostPort × Mail) (op : HostStep)
    (h : Orderly s.1.core.io.toHostLink s.2) (hkept : BootHeadKept s op) :
    Orderly (mailStep s op).1.core.io.toHostLink (mailStep s op).2 := by
  unfold mailStep
  cases op with
  | hostWrite o v => exact orderly_hostWrite h o v
  | porta v => exact orderly_porta h v
  | dspExec x => exact orderly_dspExec h x
  | dspRead space a => exact orderly_dspRead h space a
  | dspWrite space a v => exact orderly_dspWrite h space a v
  | bootWord => exact orderly_bootWord h
  | powerState => exact orderly_powerState h hkept
  | hwRead o size inlineOk =>
      unfold hostStep
      dsimp only
      split
      · exact h
      · exact h
  | readByte flowing =>
      unfold hostStep
      dsimp only
      split
      · exact h
      · exact h.same (sameTx_readByte s.1 flowing)
  | rxPoll =>
      unfold hostStep
      dsimp only
      split
      · split
        · exact h.same (sameTx_takeByte s.1 _)
        · exact h
      · exact h
  | rxGiveUp =>
      unfold hostStep
      dsimp only
      split
      · exact h.same (sameTx_takeByte s.1 none)
      · exact h
  | hostIrqs =>
      exact h.same (SameTx.of_eq (hostIrqs_link (s.1.core.dsp.irq, s.1.core.io)))
  | ssiSlot slot word =>
      exact h.same (SameTx.of_eq (ssiSlot_link slot word (s.1.core.dsp.irq, s.1.core.io)))
  | bootStart =>
      unfold hostStep bootStart
      dsimp only
      split
      · split
        · exact h.same ⟨rfl, rfl, fun h => h⟩
        · exact h
      · exact h
  | lock on => exact h.same ⟨rfl, rfl, fun h => h⟩
  | burst on =>
      cases on with
      | false => exact h.same ⟨rfl, rfl, fun h => h⟩
      | true => exact h.same ⟨rfl, rfl, fun h => h⟩

/-!
## Runs
-/

def mailInit (htxDepth : Nat) (txdeChip : Bool) (yrom : BitVec 8 -> Word) : HostPort × Mail :=
  (powerOn htxDepth txdeChip yrom, { sent := [], got := [], old := 0, dropped := 0 })

theorem orderly_mailInit (htxDepth : Nat) (txdeChip : Bool) (yrom : BitVec 8 -> Word) :
    Orderly (mailInit htxDepth txdeChip yrom).1.core.io.toHostLink
      (mailInit htxDepth txdeChip yrom).2 := by
  have hempty := WrapRing.holds_nil hfSize (fun _ => (0 : Word)) 0
  exact ⟨hempty, ⟨[], hempty⟩, rfl, le_refl _, rfl⟩

theorem bootHeadKept_of_delivered (s : HostPort × Mail) (op : HostStep)
    (h : Orderly s.1.core.io.toHostLink s.2) (hmail : Delivered (mailStep s op)) :
    BootHeadKept s op := by
  rintro rfl hnew
  have hsame := sameTx_powerState s.1
  rw [if_pos hnew] at hsame
  have hholds := hmail.holds
  have hflight : (mailStep s .powerState).2.inFlight = s.2.inFlight.drop s.2.old := by
    show (Mail.after s.2 s.1 .powerState).inFlight = _
    unfold Mail.after
    dsimp only
    rw [if_pos hnew]
    rfl
  rw [hflight] at hholds
  have htx : (mailStep s .powerState).1.core.io.tx =
      { s.1.core.io.tx with tail := s.1.core.io.bootHead } := hsame.tx
  rw [htx] at hholds
  exact h.tx.tail_eq h.old hholds

/-- After every step of a run the rings are well formed and the DSP has received what the 68k
sent, if and only if whenever the engine sees a release, the index saved at the release
still parts the words sent before it from those sent after. -/
theorem delivered_iff_bootHead_kept (htxDepth : Nat) (txdeChip : Bool) (yrom : BitVec 8 -> Word)
    (ops : List HostStep) :
    Steps mailStep (fun s op => Delivered (mailStep s op)) (mailInit htxDepth txdeChip yrom) ops <->
      Steps mailStep BootHeadKept (mailInit htxDepth txdeChip yrom) ops := by
  have hstep (s : HostPort × Mail) (op : HostStep) (h : Orderly s.1.core.io.toHostLink s.2)
      (hkept : BootHeadKept s op) :
      Orderly (mailStep s op).1.core.io.toHostLink (mailStep s op).2 := orderly_mailStep s op h hkept
  have hiff (s : HostPort × Mail) (op : HostStep) (h : Orderly s.1.core.io.toHostLink s.2) :
      Delivered (mailStep s op) <-> BootHeadKept s op :=
    ⟨bootHeadKept_of_delivered s op h, fun hkept => (orderly_mailStep s op h hkept).delivered⟩
  exact Steps.iff_of_invariant hstep hiff (orderly_mailInit htxDepth txdeChip yrom)

/-- The 68k sends a word, pulses the reset line and clears the ring with INIT before the
engine has seen the release.  The ring then holds fewer words than none. -/
theorem init_before_release_seen :
    ¬ (forall ops : List HostStep,
        Steps mailStep (fun s op => Delivered (mailStep s op)) (mailInit 4 true (fun _ => 0)) ops) := by
  intro h
  have hrun := h [.hostWrite 7 0x01, .porta 0x10, .porta 0x00, .hostWrite 0 0x82, .powerState]
  have hlast := hrun.2.2.2.2.1.txCount
  revert hlast
  decide +kernel

end Falcon
end PistormAtari
