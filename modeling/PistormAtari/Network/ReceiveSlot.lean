import Mathlib
import PistormAtari.Foundation.MailSlot
import PistormAtari.Network.PistormNet

/-!
# The receive slot

The frame that `rx_ready` announces is one that the backend delivered, whole,
from the delivery that found the slot empty to the acknowledge.
-/

namespace PistormAtari
namespace Network

open Foundation

def NetState.slot (n : NetState) : Option (List UInt8) :=
  if n.rxReady then some (n.rxFrame.take n.rxLen.toNat) else none

theorem NetState.slot_of_ready {n : NetState} (h : n.rxReady = true) :
    n.slot = some (n.rxFrame.take n.rxLen.toNat) :=
  if_pos h

theorem NetState.slot_of_not_ready {n : NetState} (h : n.rxReady = false) : n.slot = none := by
  unfold NetState.slot
  rw [h]
  rfl

structure NetInv (n : NetState) : Prop where
  enabled : n.rxReady = true -> n.enabled = true
  length : n.rxReady = true -> n.rxLen.toNat ≤ n.rxFrame.length
  legal : n.rxReady = true -> 0 < n.rxLen.toNat ∧ n.rxLen.toNat ≤ frameMax

theorem NetInv.of_not_ready {n : NetState} (h : n.rxReady = false) : NetInv n := by
  have habsurd {p : Prop} (hready : n.rxReady = true) : p :=
    absurd (h.symm.trans hready) Bool.false_ne_true
  exact ⟨habsurd, habsurd, habsurd⟩

structure SameSlot (n n' : NetState) : Prop where
  enabled : n'.enabled = n.enabled
  rxReady : n'.rxReady = n.rxReady
  rxLen : n'.rxLen = n.rxLen
  rxFrame : n'.rxFrame = n.rxFrame

theorem SameSlot.slot {n n' : NetState} (h : SameSlot n n') : n'.slot = n.slot := by
  unfold NetState.slot
  rw [h.rxReady, h.rxLen, h.rxFrame]

theorem SameSlot.inv {n n' : NetState} (h : SameSlot n n') (hn : NetInv n) : NetInv n' := by
  constructor
  · rw [h.rxReady, h.enabled]
    exact hn.enabled
  · rw [h.rxReady, h.rxLen, h.rxFrame]
    exact hn.length
  · rw [h.rxReady, h.rxLen]
    exact hn.legal

/-!
## What a step does to the slot
-/

def NetOp.offer : NetOp -> Option (List UInt8)
  | .rx frame => if Legal frame then some frame else none
  | _ => none

/-- An operation that acknowledges the pending frame or takes the slot away. -/
def Acknowledges (n : NetState) : NetOp -> Prop
  | .write address value size =>
      size = 4 ∧ windowOffset n address &&& ~~~3 = regRxPop ∧ value ≠ 0
  | .ackRx mask => mask &&& 1 ≠ 0
  | .reset => True
  | .shutdown => True
  | .configure _ => True
  | _ => False

inductive SlotStep (n : NetState) (op : NetOp) (n' : NetState) : Prop where
  | same (h : SameSlot n n')
  | cleared (hack : Acknowledges n op) (h : n'.rxReady = false)
  | filled (frame : List UInt8) (hoffer : op.offer = some frame) (henabled : n.enabled = true)
      (hempty : n.rxReady = false) (hslot : n'.slot = some frame) (hinv : NetInv n')

theorem take_memcpy (buf frame : List UInt8) : (memcpy buf frame).take frame.length = frame :=
  List.take_left

theorem Legal.toNat_length {frame : List UInt8} (h : Legal frame) :
    (BitVec.ofNat 32 frame.length).toNat = frame.length := by
  have hle := h.2
  unfold frameMax at hle
  rw [BitVec.toNat_ofNat]
  lia

theorem pnetBackendRx_slotStep (frame : List UInt8) (n : NetState) :
    SlotStep n (.rx frame) (pnetBackendRx frame n) := by
  unfold pnetBackendRx
  split
  · exact SlotStep.same ⟨rfl, rfl, rfl, rfl⟩
  · next hlegal =>
    rw [not_not] at hlegal
    split
    · exact SlotStep.same ⟨rfl, rfl, rfl, rfl⟩
    · next henabled =>
      have henabled' : n.enabled = true := Bool.eq_true_of_not_eq_false henabled
      split
      · exact SlotStep.same ⟨rfl, rfl, rfl, rfl⟩
      · next hready =>
        have hlen := hlegal.toNat_length
        refine SlotStep.filled frame (if_pos hlegal) henabled'
          (Bool.eq_false_of_not_eq_true hready) ?_ ⟨?_, ?_, ?_⟩
        · show some ((memcpy n.rxFrame frame).take (BitVec.ofNat 32 frame.length).toNat) = _
          rw [hlen, take_memcpy]
        · intro _
          exact henabled'
        · intro _
          show (BitVec.ofNat 32 frame.length).toNat ≤ (memcpy n.rxFrame frame).length
          unfold memcpy
          rw [hlen, List.length_append]
          exact Nat.le_add_right _ _
        · intro _
          show 0 < (BitVec.ofNat 32 frame.length).toNat ∧
            (BitVec.ofNat 32 frame.length).toNat ≤ frameMax
          rw [hlen]
          exact hlegal

theorem pistormNetWrite_slotStep (address value size : Word32) (n : NetState) :
    SlotStep n (.write address value size) (pistormNetWrite address value size n) := by
  have hsame {n' : NetState} (h : SameSlot n n') :
      SlotStep n (.write address value size) n' := SlotStep.same h
  unfold pistormNetWrite pnetWriteRegLocked
  dsimp only
  repeat' split
  all_goals first
    | exact hsame ⟨rfl, rfl, rfl, rfl⟩
    | skip
  next hsize _ _ hpop hvalue =>
    exact SlotStep.cleared ⟨hsize, hpop, hvalue⟩ rfl

variable (n : NetState)

theorem netStep_slotStep (op : NetOp) : SlotStep n op (netStep n op) := by
  have hsame {n' : NetState} (h : SameSlot n n') : SlotStep n op n' := SlotStep.same h
  cases op with
  | rx frame => exact pnetBackendRx_slotStep frame n
  | write address value size => exact pistormNetWrite_slotStep address value size n
  | ackRx mask =>
      show SlotStep n _ (pistormNetAckRx mask n)
      unfold pistormNetAckRx
      split
      · next hmask => exact SlotStep.cleared hmask rfl
      · exact hsame ⟨rfl, rfl, rfl, rfl⟩
  | sendTx =>
      show SlotStep n _ (pnetSendTxFrame n)
      unfold pnetSendTxFrame
      split
      · exact hsame ⟨rfl, rfl, rfl, rfl⟩
      · exact hsame ⟨rfl, rfl, rfl, rfl⟩
  | writeFrame frame =>
      show SlotStep n _ (pistormNetWriteFrame frame n)
      unfold pistormNetWriteFrame
      split
      · exact hsame ⟨rfl, rfl, rfl, rfl⟩
      · split
        · exact hsame ⟨rfl, rfl, rfl, rfl⟩
        · exact hsame ⟨rfl, rfl, rfl, rfl⟩
  | transmitted ok =>
      cases ok with
      | true => exact hsame ⟨rfl, rfl, rfl, rfl⟩
      | false => exact hsame ⟨rfl, rfl, rfl, rfl⟩
  | reset => exact SlotStep.cleared trivial rfl
  | shutdown => exact SlotStep.cleared trivial rfl
  | configure config => exact SlotStep.cleared trivial rfl
  | read address size => exact hsame ⟨rfl, rfl, rfl, rfl⟩
  | readFrame maxLen => exact hsame ⟨rfl, rfl, rfl, rfl⟩
  | rxLength => exact hsame ⟨rfl, rfl, rfl, rfl⟩
  | rxPendingMask => exact hsame ⟨rfl, rfl, rfl, rfl⟩
  | linked => exact hsame ⟨rfl, rfl, rfl, rfl⟩

theorem netStep_inv (op : NetOp) (h : NetInv n) : NetInv (netStep n op) := by
  cases netStep_slotStep n op with
  | same hsame => exact hsame.inv h
  | cleared _ hready => exact NetInv.of_not_ready hready
  | filled _ _ _ _ _ hinv => exact hinv

def netSlot : Slot netStep NetInv NetOp.offer where
  held := NetState.slot
  keeps := netStep_inv
  move := by
    intro n op _
    cases netStep_slotStep n op with
    | same hsame =>
        rw [hsame.slot]
        exact SlotMove.kept n.slot
    | cleared _ hready =>
        rw [NetState.slot_of_not_ready hready]
        exact SlotMove.cleared n.slot
    | filled frame hoffer _ hempty hslot _ =>
        rw [NetState.slot_of_not_ready hempty, hslot]
        exact SlotMove.filled hoffer

/-!
## What the guest sees
-/

/-- All that the guest reads of a pending frame is its bytes: a read of the window
that runs past the end finds nothing, and a short buffer takes the first bytes. -/
structure Sight (n : NetState) : Prop where
  status : pnetStatusLocked n &&& statusRxReady ≠ 0 <-> n.slot ≠ none
  pending : pistormNetRxPendingMask n = if n.slot = none then 0 else 1
  length : pistormNetRxLength n = BitVec.ofNat 32 (n.slot.getD []).length
  lengthReg : pnetReadRegLocked n regRxLen = BitVec.ofNat 32 (n.slot.getD []).length
  frame : forall maxLen, pistormNetReadFrame n maxLen = (n.slot.getD []).take maxLen.toNat
  window : forall address size, legalSize size -> inBuffer rxData (windowOffset n address) size ->
    pistormNetRead n address size =
      if (windowOffset n address - rxData).toNat + size.toNat ≤ (n.slot.getD []).length
      then pnetLoadBe (((n.slot.getD []).drop (windowOffset n address - rxData).toNat).take
        size.toNat)
      else 0

theorem pnetStatusLocked_rxReady :
    pnetStatusLocked n &&& statusRxReady = if n.rxReady then statusRxReady else 0 := by
  unfold pnetStatusLocked
  cases n.enabled <;> cases n.linkUp <;> cases n.rxReady <;> cases n.txBusy <;>
    cases n.rxDropped <;> rfl

theorem legalSize.toNat {size : Word32} (h : legalSize size) : 1 ≤ size.toNat ∧ size.toNat ≤ 4 := by
  rcases h with rfl | rfl | rfl
  · decide
  · decide
  · decide

theorem toNat_add_of_inBuffer {offset size : Word32} (hsize : legalSize size)
    (h : inBuffer rxData offset size) :
    (offset - rxData + size).toNat = (offset - rxData).toNat + size.toNat := by
  have hbound := hsize.toNat
  have hle : rxData.toNat ≤ offset.toNat := h.1
  have hdata : rxData.toNat = 2048 := rfl
  have hlt := offset.isLt
  rw [BitVec.toNat_add, BitVec.toNat_sub_of_le h.1]
  apply Nat.mod_eq_of_lt
  lia

theorem sight_of_inv {n : NetState} (h : NetInv n) : Sight n := by
  cases hready : n.rxReady with
  | false =>
      have hslot := NetState.slot_of_not_ready hready
      constructor
      · rw [pnetStatusLocked_rxReady, hready, hslot]
        simp
      · unfold pistormNetRxPendingMask
        rw [hready, hslot]
        simp
      · unfold pistormNetRxLength
        rw [hready, hslot]
        simp
      · show (if n.rxReady then n.rxLen else 0) = _
        rw [hready, hslot]
        rfl
      · intro maxLen
        unfold pistormNetReadFrame
        rw [hready, hslot]
        simp
      · intro address size hsize hin
        unfold pistormNetRead
        dsimp only
        have hnever : ¬ (windowOffset n address - rxData).toNat + size.toNat ≤
            (n.slot.getD []).length := by
          have hpos := hsize.toNat.1
          rw [hslot]
          show ¬ _ ≤ 0
          lia
        rw [if_neg (not_not.mpr hsize), if_pos hin, if_neg hnever]
        apply if_neg
        intro hread
        rw [hready] at hread
        cases hread.1
  | true =>
      have hslot := NetState.slot_of_ready hready
      have henabled := h.enabled hready
      have hlegal := h.legal hready
      have hlen : (n.rxFrame.take n.rxLen.toNat).length = n.rxLen.toNat :=
        List.length_take_of_le (h.length hready)
      have hword : BitVec.ofNat 32 n.rxLen.toNat = n.rxLen := BitVec.ofNat_toNat 32 n.rxLen
      constructor
      · rw [pnetStatusLocked_rxReady, hready, hslot]
        simp [statusRxReady]
      · unfold pistormNetRxPendingMask
        rw [hready, henabled, hslot]
        simp
      · unfold pistormNetRxLength
        rw [hready, henabled, hslot]
        show n.rxLen = BitVec.ofNat 32 (n.rxFrame.take n.rxLen.toNat).length
        rw [hlen, hword]
      · show (if n.rxReady then n.rxLen else 0) = _
        rw [hready, hslot]
        show n.rxLen = BitVec.ofNat 32 (n.rxFrame.take n.rxLen.toNat).length
        rw [hlen, hword]
      · intro maxLen
        unfold pistormNetReadFrame
        rw [hslot]
        show _ = (n.rxFrame.take n.rxLen.toNat).take maxLen.toNat
        rw [List.take_take]
        by_cases hzero : maxLen = 0
        · rw [if_pos hzero, hzero]
          simp
        · rw [if_neg hzero, hready, henabled, if_neg (by simp)]
          congr 1
          split
          · next hgt =>
            have hlt : maxLen.toNat < n.rxLen.toNat := hgt
            exact (Nat.min_eq_left (Nat.le_of_lt hlt)).symm
          · next hle =>
            have hge : n.rxLen.toNat ≤ maxLen.toNat := BitVec.not_lt.mp hle
            exact (Nat.min_eq_right hge).symm
      · intro address size hsize hin
        unfold pistormNetRead
        dsimp only
        rw [if_neg (not_not.mpr hsize), if_pos hin, hready, hslot]
        show _ = if _ ≤ (n.rxFrame.take n.rxLen.toNat).length then
          pnetLoadBe (((n.rxFrame.take n.rxLen.toNat).drop _).take _) else 0
        rw [hlen]
        have hsum := toNat_add_of_inBuffer hsize hin
        have hfits : (true = true ∧ windowOffset n address - rxData + size ≤ n.rxLen) <->
            (windowOffset n address - rxData).toNat + size.toNat ≤ n.rxLen.toNat := by
          rw [← hsum]
          constructor
          · intro hle
            exact hle.2
          · intro hle
            exact ⟨rfl, hle⟩
        by_cases hle : (windowOffset n address - rxData).toNat + size.toNat ≤ n.rxLen.toNat
        · rw [if_pos (hfits.mpr hle), if_pos hle, List.drop_take, List.take_take,
            Nat.min_eq_left (Nat.le_sub_of_add_le' hle)]
        · rw [if_neg (fun hin' => hle (hfits.mp hin')), if_neg hle]

/-!
## Runs
-/

def netAt (ops : List NetOp) (t : Nat) : NetState := run netStep gNet (ops.take t)

/-- The frames of a legal length that are offered while the window is enabled. -/
def offersOf : NetState -> List NetOp -> Nat
  | _, [] => 0
  | n, op :: rest =>
      (if n.enabled = true ∧ op.offer.isSome = true then 1 else 0) + offersOf (netStep n op) rest

theorem offersOf_cons (op : NetOp) (rest : List NetOp) :
    offersOf n (op :: rest) =
      (if n.enabled = true ∧ op.offer.isSome = true then 1 else 0) +
        offersOf (netStep n op) rest := rfl

/-- The receive slot along a run: what the guest sees is a frame that was offered, whole,
from the offer that found the slot empty to an acknowledge; the offers are seen in their
order, each in one stretch; an offer that finds a frame pending leaves no trace but the
count. -/
structure ReceiveLaws (ops : List NetOp) : Prop where
  sight : forall t, Sight (netAt ops t)
  whole : forall t frame, t ≤ ops.length -> (netAt ops t).slot = some frame ->
    exists k, netSlot.Shows gNet ops k t frame
  ordered : forall k k' t t' frame frame', netSlot.Shows gNet ops k t frame ->
    netSlot.Shows gNet ops k' t' frame' -> t ≤ t' ->
    k ≤ k' ∧ (k = k' <-> forall u, t ≤ u -> u ≤ t' -> (netAt ops u).slot ≠ none)
  taken : forall t frame, ops[t]? = some (.rx frame) -> Legal frame ->
    (netAt ops t).enabled = true -> (netAt ops t).slot = none ->
    (netAt ops (t + 1)).slot = some frame
  dropped : forall t frame, ops[t]? = some (.rx frame) -> Legal frame ->
    (netAt ops t).slot ≠ none ->
    netAt ops (t + 1) = { netAt ops t with
      rxDropped := true, rxDrops := (netAt ops t).rxDrops + 1 }
  kept : forall t op, ops[t]? = some op -> ¬ Acknowledges (netAt ops t) op ->
    (netAt ops t).slot ≠ none -> (netAt ops (t + 1)).slot = (netAt ops t).slot
  counted : forall t, (netAt ops t).rxPackets + (netAt ops t).rxDrops =
    BitVec.ofNat 32 (offersOf gNet (ops.take t))

theorem gNet_inv : NetInv gNet := NetInv.of_not_ready rfl

theorem netAt_inv (ops : List NetOp) (t : Nat) : NetInv (netAt ops t) :=
  run_invariant netStep_inv gNet_inv (ops.take t)

theorem netAt_succ {ops : List NetOp} {t : Nat} {op : NetOp} (h : ops[t]? = some op) :
    netAt ops (t + 1) = netStep (netAt ops t) op :=
  Slot.run_take_succ gNet h

theorem netStep_counters {op : NetOp} (h : op.offer = none) :
    (netStep n op).rxPackets = n.rxPackets ∧ (netStep n op).rxDrops = n.rxDrops := by
  cases op with
  | rx frame =>
      have hlegal : ¬ Legal frame := by
        intro hlegal
        have hsome : NetOp.offer (.rx frame) = some frame := if_pos hlegal
        rw [hsome] at h
        cases h
      show (pnetBackendRx frame n).rxPackets = _ ∧ (pnetBackendRx frame n).rxDrops = _
      unfold pnetBackendRx
      rw [if_pos hlegal]
      exact ⟨rfl, rfl⟩
  | write address value size =>
      show (pistormNetWrite address value size n).rxPackets = _ ∧
        (pistormNetWrite address value size n).rxDrops = _
      unfold pistormNetWrite pnetWriteRegLocked
      dsimp only
      repeat' split
      all_goals exact ⟨rfl, rfl⟩
  | ackRx mask =>
      show (pistormNetAckRx mask n).rxPackets = _ ∧ (pistormNetAckRx mask n).rxDrops = _
      unfold pistormNetAckRx
      split
      all_goals exact ⟨rfl, rfl⟩
  | sendTx =>
      show (pnetSendTxFrame n).rxPackets = _ ∧ (pnetSendTxFrame n).rxDrops = _
      unfold pnetSendTxFrame
      split
      all_goals exact ⟨rfl, rfl⟩
  | writeFrame frame =>
      show (pistormNetWriteFrame frame n).rxPackets = _ ∧
        (pistormNetWriteFrame frame n).rxDrops = _
      unfold pistormNetWriteFrame
      repeat' split
      all_goals exact ⟨rfl, rfl⟩
  | transmitted ok =>
      cases ok with
      | true => exact ⟨rfl, rfl⟩
      | false => exact ⟨rfl, rfl⟩
  | reset => exact ⟨rfl, rfl⟩
  | shutdown => exact ⟨rfl, rfl⟩
  | configure config => exact ⟨rfl, rfl⟩
  | read address size => exact ⟨rfl, rfl⟩
  | readFrame maxLen => exact ⟨rfl, rfl⟩
  | rxLength => exact ⟨rfl, rfl⟩
  | rxPendingMask => exact ⟨rfl, rfl⟩
  | linked => exact ⟨rfl, rfl⟩

theorem pnetBackendRx_pending {frame : List UInt8} {n : NetState} (hlegal : Legal frame)
    (henabled : n.enabled = true) (hready : n.rxReady = true) :
    pnetBackendRx frame n = { n with rxDropped := true, rxDrops := n.rxDrops + 1 } := by
  have hon : ¬ n.enabled = false := by
    rw [henabled]
    exact Bool.noConfusion
  unfold pnetBackendRx
  rw [if_neg (not_not.mpr hlegal), if_neg hon, if_pos hready]

theorem pnetBackendRx_counters {frame : List UInt8} (n : NetState) (hlegal : Legal frame) :
    (pnetBackendRx frame n).rxPackets + (pnetBackendRx frame n).rxDrops =
      n.rxPackets + n.rxDrops + if n.enabled = true then 1 else 0 := by
  unfold pnetBackendRx
  rw [if_neg (not_not.mpr hlegal)]
  cases n.enabled with
  | false => simp
  | true =>
      rw [if_neg (by decide), if_pos rfl]
      split
      · exact (BitVec.add_assoc _ _ _).symm
      · show n.rxPackets + 1 + n.rxDrops = _
        ring

theorem counters_run (ops : List NetOp) :
    (run netStep n ops).rxPackets + (run netStep n ops).rxDrops =
      n.rxPackets + n.rxDrops + BitVec.ofNat 32 (offersOf n ops) := by
  induction ops generalizing n with
  | nil => exact (BitVec.add_zero _).symm
  | cons op rest ih =>
      rw [run_cons, ih, offersOf_cons, BitVec.ofNat_add, ← BitVec.add_assoc]
      congr 1
      cases hoffer : op.offer with
      | none =>
          rw [(netStep_counters n hoffer).1, (netStep_counters n hoffer).2]
          simp
      | some frame =>
          cases op with
          | rx frame' =>
              have hlegal : Legal frame' := by
                by_contra hnot
                have hnone : NetOp.offer (.rx frame') = none := if_neg hnot
                rw [hnone] at hoffer
                cases hoffer
              show (pnetBackendRx frame' n).rxPackets + (pnetBackendRx frame' n).rxDrops = _
              rw [pnetBackendRx_counters n hlegal]
              cases n.enabled with
              | false => simp
              | true => simp
          | _ => cases hoffer

/-- For any interleaving of deliveries, reads, acknowledges and resets. -/
theorem receive_laws (ops : List NetOp) : ReceiveLaws ops := by
  constructor
  · intro t
    exact sight_of_inv (netAt_inv ops t)
  · intro t frame ht hslot
    exact netSlot.exists_shows gNet_inv rfl ops ht hslot
  · intro k k' t t' frame frame' h h' ht
    exact ⟨h.ordered h' ht, h.same_iff h' ht⟩
  · intro t frame hop hlegal henabled hempty
    have hready : (netAt ops t).rxReady = false := by
      cases hready : (netAt ops t).rxReady with
      | false => rfl
      | true =>
          rw [NetState.slot_of_ready hready] at hempty
          cases hempty
    rw [netAt_succ hop]
    show (pnetBackendRx frame (netAt ops t)).slot = _
    unfold pnetBackendRx
    rw [if_neg (not_not.mpr hlegal), henabled, hready, if_neg (by decide), if_neg (by decide)]
    show some ((memcpy _ frame).take (BitVec.ofNat 32 frame.length).toNat) = _
    rw [hlegal.toNat_length, take_memcpy]
  · intro t frame hop hlegal hpending
    have hready : (netAt ops t).rxReady = true := by
      cases hready : (netAt ops t).rxReady with
      | true => rfl
      | false => exact absurd (NetState.slot_of_not_ready hready) hpending
    rw [netAt_succ hop]
    exact pnetBackendRx_pending hlegal ((netAt_inv ops t).enabled hready) hready
  · intro t op hop hack hpending
    rw [netAt_succ hop]
    cases netStep_slotStep (netAt ops t) op with
    | same hsame => exact hsame.slot
    | cleared hacked _ => exact absurd hacked hack
    | filled _ _ _ hempty _ _ => exact absurd (NetState.slot_of_not_ready hempty) hpending
  · intro t
    show (run netStep gNet (ops.take t)).rxPackets + (run netStep gNet (ops.take t)).rxDrops = _
    rw [counters_run]
    exact BitVec.zero_add _

/-- The counters are words: after 2^32 drops they have lost the count. -/
theorem counters_wrap :
    ¬ forall ops : List NetOp, (netAt ops ops.length).rxPackets.toNat +
      (netAt ops ops.length).rxDrops.toNat = offersOf gNet ops := by
  intro hall
  let pending : NetState :=
    { gNet with
      enabled := true, rxReady := true, rxLen := 1, irqStatus := 1, rxPackets := 1
      rxFrame := memcpy gNet.rxFrame [0] }
  have hlegal : Legal [0] := by decide
  have hdrops (k : Nat) (n : NetState) (henabled : n.enabled = true) (hready : n.rxReady = true) :
      (run netStep n (List.replicate k (.rx [0]))).rxPackets = n.rxPackets ∧
        (run netStep n (List.replicate k (.rx [0]))).rxDrops = n.rxDrops + BitVec.ofNat 32 k ∧
        offersOf n (List.replicate k (.rx [0])) = k := by
    induction k generalizing n with
    | zero => exact ⟨rfl, (BitVec.add_zero _).symm, rfl⟩
    | succ k ih =>
        have hstep : netStep n (.rx [0]) = { n with rxDropped := true, rxDrops := n.rxDrops + 1 } :=
          pnetBackendRx_pending hlegal henabled hready
        rcases ih (netStep n (.rx [0])) (by rw [hstep]; exact henabled)
          (by rw [hstep]; exact hready) with ⟨hpackets, hdrops, hoffers⟩
        rw [List.replicate_succ, run_cons]
        refine ⟨?_, ?_, ?_⟩
        · rw [hpackets, hstep]
        · rw [hdrops, hstep, BitVec.ofNat_add, BitVec.add_assoc, BitVec.add_comm 1]
          rfl
        · rw [offersOf_cons, hoffers, henabled, if_pos ⟨rfl, rfl⟩, Nat.add_comm]
  have hwrapped : exists rest : List NetOp, (run netStep pending rest).rxPackets = 1 ∧
      (run netStep pending rest).rxDrops = 0 ∧ offersOf pending rest = 2 ^ 32 := by
    rcases hdrops (2 ^ 32) pending rfl rfl with ⟨hpackets, hcount, hoffers⟩
    exact ⟨_, hpackets, hcount.trans (by decide), hoffers⟩
  rcases hwrapped with ⟨rest, hpackets, hcount, hoffers⟩
  have hstart : netStep (netStep gNet (.configure ⟨true, 0, ⟨0, 0, 0, 0, 0, 0⟩⟩)) (.rx [0]) =
      pending := rfl
  have hfirst : offersOf gNet (.configure ⟨true, 0, ⟨0, 0, 0, 0, 0, 0⟩⟩ :: .rx [0] :: rest) =
      0 + (1 + offersOf pending rest) := by
    rw [offersOf_cons, offersOf_cons, hstart]
    rfl
  have hrun := hall (.configure ⟨true, 0, ⟨0, 0, 0, 0, 0, 0⟩⟩ :: .rx [0] :: rest)
  unfold netAt at hrun
  rw [List.take_length, run_cons, run_cons, hstart, hpackets, hcount, hfirst, hoffers] at hrun
  have hone : (1 : Word32).toNat = 1 := rfl
  have hzero : (0 : Word32).toNat = 0 := rfl
  rw [hone, hzero] at hrun
  lia

end Network
end PistormAtari
