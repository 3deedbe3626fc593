import PistormAtari.Foundation.PriorityArbiter
import PistormAtari.Foundation.Run
import PistormAtari.Mfp.Hub

/-!
# Arbitration invariants of the virtual MFP hub

The hub is an instance of the nested priority arbiter: its deliverable mask is
the set of requesting channels above everything in service, and an acknowledge
grants the greatest of them.
-/

namespace PistormAtari
namespace Mfp

open Foundation

/-!
## The masks as sets of channels
-/

/-- The channels that are pending or level-asserted, enabled and unmasked. -/
def requests (h : Hub) : Set (Fin 16) :=
  { ch | (h.vpend.getLsbD ch = true ∨ h.level ch = some true) ∧
    h.ier.getLsbD ch = true ∧ h.imr.getLsbD ch = true }

def inService (h : Hub) : Set (Fin 16) :=
  bitSet h.visr

theorem getLsbD_one_shiftLeft (ch i : Fin 16) :
    (1#16 <<< ch.val).getLsbD i = decide (ch = i) := by
  revert ch i
  decide

theorem foldl_levels_bit (level : Fin 16 -> Option Bool) (chs : List (Fin 16))
    (pend : Mask) (i : Fin 16) :
    (chs.foldl (fun pend ch =>
      if level ch = some true then pend ||| (1#16 <<< ch.val) else pend) pend).getLsbD i
      = (pend.getLsbD i || decide (i ∈ chs ∧ level i = some true)) := by
  induction chs generalizing pend with
  | nil => simp
  | cons ch rest ih =>
      rw [List.foldl_cons, ih]
      by_cases hch : level ch = some true
      · rw [if_pos hch, BitVec.getLsbD_or, getLsbD_one_shiftLeft]
        by_cases hi : ch = i
        · subst hi
          simp [hch]
        · have hi' : ¬ i = ch := fun h => hi h.symm
          simp [hi, hi']
      · rw [if_neg hch]
        by_cases hi : i = ch
        · subst hi
          simp [hch]
        · simp [hi]

theorem pendingNow_bit (h : Hub) (i : Fin 16) :
    (pendingNow h).getLsbD i =
      ((h.vpend.getLsbD i || decide (h.level i = some true)) && h.ier.getLsbD i) := by
  unfold pendingNow
  rw [BitVec.getLsbD_and, foldl_levels_bit]
  simp

theorem mem_requests_iff (h : Hub) (i : Fin 16) :
    i ∈ requests h <-> (pendingNow h &&& h.imr).getLsbD i = true := by
  rw [BitVec.getLsbD_and, pendingNow_bit]
  unfold requests
  simp [and_assoc]

theorem aboveMask_bit {top : Nat} (htop : top < 16) (i : Fin 16) :
    (aboveMask top).getLsbD i = decide (top < i.val) := by
  have hi : i.val < 32 := by lia
  unfold aboveMask
  rw [BitVec.getLsbD_setWidth, BitVec.getLsbD_not, getLsbD_low_mask (by lia)]
  simp only [i.isLt, hi, decide_true, Bool.true_and]
  by_cases h : i.val < top + 1
  · have hle : ¬ top < i.val := by lia
    simp [h, hle]
  · have hlt : top < i.val := by lia
    simp [h, hlt]

theorem bitSet_deliverable (h : Hub) :
    bitSet (deliverable h) = Deliverable (requests h) (inService h) := by
  ext i
  unfold deliverable Deliverable
  rw [mem_bitSet]
  show _ <-> i ∈ requests h ∧ forall b, b ∈ inService h -> b < i
  rw [mem_requests_iff]
  dsimp only
  by_cases hz : pendingNow h &&& h.imr = 0
  · rw [if_pos hz, hz]
    simp
  · rw [if_neg hz]
    cases hscan : scanDown h.visr 16 with
    | none =>
        have hnone := scanDown_eq_none_iff.mp hscan
        constructor
        · intro hreq
          refine ⟨hreq, ?_⟩
          intro b hb
          have hclear := hnone b.val b.isLt
          rw [inService, mem_bitSet, hclear] at hb
          cases hb
        · intro hreq
          exact hreq.1
    | some top =>
        obtain ⟨htop, hgreatest⟩ := scanDown_isGreatest hscan
        dsimp only
        rw [BitVec.getLsbD_and, aboveMask_bit htop]
        simp only [Bool.and_eq_true, decide_eq_true_eq]
        constructor
        · intro hreq
          refine ⟨hreq.1, ?_⟩
          intro b hb
          exact lt_of_le_of_lt (hgreatest.2 hb) hreq.2
        · intro hreq
          exact ⟨hreq.1, hreq.2 ⟨top, htop⟩ hgreatest.1⟩

/-!
## What an acknowledge does
-/

def acknowledged (h : Hub) (ch : Fin 16) : Hub :=
  { h with
    vpend := h.vpend &&& ~~~(1#16 <<< ch.val)
    iacks := Function.update h.iacks ch (h.iacks ch + 1)
    visr := if h.vr &&& 0x08 ≠ 0 then h.visr ||| (1#16 <<< ch.val) else h.visr }

def vectorOf (h : Hub) (ch : Fin 16) : Int :=
  (((h.vr &&& 0xF0).setWidth 32 ||| BitVec.ofNat 32 ch.val).toNat : Int)

theorem iack_cases (h : Hub) :
    (irqWanted h = false ∧ topWanted h = -1 ∧ iack h = (-1, h)) ∨
      exists ch : Fin 16, irqWanted h = true ∧
        IsGreatest (Deliverable (requests h) (inService h)) ch ∧
        topWanted h = ch.val ∧ iack h = (vectorOf h ch, acknowledged h ch) := by
  by_cases hz : deliverable h = 0
  · refine Or.inl ⟨by simp [irqWanted, hz], ?_, ?_⟩
    · simp [topWanted, hz, scanDown]
    · simp [iack, hz, scanDown]
  · obtain ⟨k, hk⟩ := scanDown_ne_none hz
    obtain ⟨hlt, hgreatest⟩ := scanDown_isGreatest hk
    rw [bitSet_deliverable] at hgreatest
    refine Or.inr ⟨⟨k, hlt⟩, bne_iff_ne.mpr hz, hgreatest, ?_, ?_⟩
    · simp [topWanted, hk]
    · have hfin : Fin.ofNat 16 k = ⟨k, hlt⟩ := by
        apply Fin.ext
        simp [Nat.mod_eq_of_lt hlt]
      simp only [iack, hk, hfin]
      rfl

theorem vectorOf_nonneg (h : Hub) (ch : Fin 16) : vectorOf h ch ≠ -1 := by
  unfold vectorOf
  lia

theorem vectorOf_channel (h : Hub) (ch : Fin 16) : vectorOf h ch % 16 = ch.val := by
  unfold vectorOf
  have hch : ch.val % 2 ^ 32 = ch.val := Nat.mod_eq_of_lt (by lia)
  have hnat : ((h.vr &&& 0xF0).setWidth 32 ||| BitVec.ofNat 32 ch.val).toNat % 2 ^ 4
      = ch.val := by
    rw [BitVec.toNat_or, Nat.or_mod_two_pow, BitVec.toNat_ofNat, hch,
      BitVec.toNat_setWidth, BitVec.toNat_and]
    have hlow : ((h.vr.toNat &&& (0xF0 : Byte).toNat) % 2 ^ 32) % 2 ^ 4 = 0 := by
      rw [Nat.mod_mod_of_dvd _ (by decide), Nat.and_mod_two_pow]
      have hmask : (0xF0 : Byte).toNat % 2 ^ 4 = 0 := rfl
      rw [hmask, Nat.and_zero]
    rw [hlow, Nat.zero_or]
    exact Nat.mod_eq_of_lt (by lia)
  lia

/-!
## The invariant
-/

/-- Pending latches are enabled, and nothing is in service in auto-EOI mode. -/
structure Arbitrated (h : Hub) : Prop where
  enabled : bitSet h.vpend ⊆ bitSet h.ier
  autoEoi : h.vr &&& 0x08 = 0 -> h.visr = 0

theorem bitSet_and_subset_right (m n : Mask) : bitSet (m &&& n) ⊆ bitSet n := by
  intro i hi
  rw [mem_bitSet, BitVec.getLsbD_and, Bool.and_eq_true] at hi
  exact hi.2

theorem bitSet_and_subset_left (m n : Mask) : bitSet (m &&& n) ⊆ bitSet m := by
  intro i hi
  rw [mem_bitSet, BitVec.getLsbD_and, Bool.and_eq_true] at hi
  exact hi.1

theorem arbitrated_regWrite {h : Hub} (hh : Arbitrated h) (r : Reg) (b : Byte) :
    Arbitrated (regWrite h r b) := by
  cases r with
  | iera => exact ⟨bitSet_and_subset_right _ _, hh.autoEoi⟩
  | ierb => exact ⟨bitSet_and_subset_right _ _, hh.autoEoi⟩
  | ipra => exact ⟨(bitSet_and_subset_left _ _).trans hh.enabled, hh.autoEoi⟩
  | iprb => exact ⟨(bitSet_and_subset_left _ _).trans hh.enabled, hh.autoEoi⟩
  | isra =>
      refine ⟨hh.enabled, ?_⟩
      intro hvr
      show h.visr &&& _ = 0
      rw [hh.autoEoi hvr]
      exact BitVec.zero_and
  | isrb =>
      refine ⟨hh.enabled, ?_⟩
      intro hvr
      show h.visr &&& _ = 0
      rw [hh.autoEoi hvr]
      exact BitVec.zero_and
  | imra => exact ⟨hh.enabled, hh.autoEoi⟩
  | imrb => exact ⟨hh.enabled, hh.autoEoi⟩
  | vr =>
      refine ⟨hh.enabled, ?_⟩
      intro hvr
      exact if_pos hvr
  | tacr => exact ⟨hh.enabled, hh.autoEoi⟩
  | tadr => exact ⟨hh.enabled, hh.autoEoi⟩

theorem arbitrated_writeSnoop {h : Hub} (hh : Arbitrated h) (addr value : Long)
    (isWord : Bool) : Arbitrated (writeSnoop h addr value isWord) := by
  unfold writeSnoop
  dsimp only
  split
  · exact hh
  · split
    · exact arbitrated_regWrite hh _ _
    · exact hh

theorem arbitrated_raise {h : Hub} (hh : Arbitrated h) (ch : Int) :
    Arbitrated (raise h ch) := by
  unfold raise
  by_cases hrange : ch < 0 ∨ ch > 15
  · rw [if_pos hrange]
    exact hh
  · rw [if_neg hrange]
    dsimp only
    split
    · rename_i hier
      refine ⟨?_, hh.autoEoi⟩
      intro i hi
      obtain ⟨c, hc⟩ : exists c : Fin 16, c.val = ch.toNat := ⟨⟨ch.toNat, by lia⟩, rfl⟩
      rw [mem_bitSet] at hi ⊢
      dsimp only at hi ⊢
      rw [← hc] at hi hier
      rw [BitVec.getLsbD_or, Bool.or_eq_true, getLsbD_one_shiftLeft,
        decide_eq_true_eq] at hi
      rcases hi with hi | rfl
      · exact hh.enabled hi
      · by_contra hclear
        apply hier
        apply BitVec.eq_of_getLsbD_eq
        intro j hj
        have hbit := getLsbD_one_shiftLeft c ⟨j, hj⟩
        dsimp only at hbit
        rw [BitVec.getLsbD_and, hbit]
        by_cases hcj : c = ⟨j, hj⟩
        · have hj' : h.ier.getLsbD j = false := by
            rw [hcj] at hclear
            simpa using hclear
          simp [hj']
        · simp [hcj]
    · exact hh

theorem arbitrated_timerAEvent {h : Hub} (hh : Arbitrated h) :
    Arbitrated (timerAEvent h) := by
  unfold timerAEvent
  split
  · exact hh
  · split
    · exact arbitrated_raise (h := { h with tacnt := h.tadr }) ⟨hh.enabled, hh.autoEoi⟩ 13
    · exact ⟨hh.enabled, hh.autoEoi⟩

theorem arbitrated_iack {h : Hub} (hh : Arbitrated h) : Arbitrated (iack h).2 := by
  rcases iack_cases h with ⟨_, _, hnone⟩ | ⟨ch, _, _, _, hsome⟩
  · rw [hnone]
    exact hh
  · rw [hsome]
    refine ⟨(bitSet_and_subset_left _ _).trans hh.enabled, ?_⟩
    intro hvr
    have hvr' : h.vr &&& 0x08 = 0 := hvr
    show (if h.vr &&& 0x08 ≠ 0 then _ else h.visr) = 0
    rw [if_neg (fun hne => hne hvr')]
    exact hh.autoEoi hvr'

theorem arbitrated_step (h : Hub) (op : Op) (hh : Arbitrated h) :
    Arbitrated (step h op) := by
  cases op with
  | writeSnoop addr value isWord => exact arbitrated_writeSnoop hh addr value isWord
  | raise ch => exact arbitrated_raise hh ch
  | levelChange ch poll =>
      show Arbitrated (registerLevel h ch poll)
      unfold registerLevel
      split
      · exact ⟨hh.enabled, hh.autoEoi⟩
      · exact hh
  | timerAEvent => exact arbitrated_timerAEvent hh
  | iack => exact arbitrated_iack hh
  | reset =>
      refine ⟨?_, fun hvr => rfl⟩
      intro i hi
      rw [mem_bitSet] at hi
      simp [step, reset] at hi

theorem arbitrated_boot : Arbitrated boot := by
  refine ⟨?_, fun _ => rfl⟩
  intro i hi
  rw [mem_bitSet] at hi
  simp [boot] at hi

theorem arbitrated_run (ops : List Op) : Arbitrated (run step boot ops) :=
  run_invariant arbitrated_step arbitrated_boot ops

/-!
## Acknowledges without an EOI
-/

def vectors : Hub -> List Op -> List Int
  | _, [] => []
  | h, Op.iack :: rest => (iack h).1 :: vectors (iack h).2 rest
  | h, op :: rest => vectors (step h op) rest

/-- The channels a run acknowledges: the low nibbles of the vectors delivered. -/
def acknowledgedChannels (h : Hub) (ops : List Op) : List Int :=
  ((vectors h ops).filter (fun v => v ≠ -1)).map (fun v => v % 16)

/-- A run in software-EOI mode in which no step ends a service. -/
def NoEoi : Hub -> List Op -> Prop
  | h, [] => h.vr &&& 0x08 ≠ 0
  | h, op :: rest =>
      h.vr &&& 0x08 ≠ 0 ∧ inService h ⊆ inService (step h op) ∧ NoEoi (step h op) rest

theorem acknowledgedChannels_iack (h : Hub) (rest : List Op) :
    acknowledgedChannels h (Op.iack :: rest) =
      if (iack h).1 = -1 then acknowledgedChannels (iack h).2 rest
      else (iack h).1 % 16 :: acknowledgedChannels (iack h).2 rest := by
  have hvec : vectors h (Op.iack :: rest) = (iack h).1 :: vectors (iack h).2 rest := rfl
  unfold acknowledgedChannels
  rw [hvec]
  by_cases hv : (iack h).1 = -1
  · simp [hv]
  · simp [hv]

theorem acknowledgedChannels_other (h : Hub) {op : Op} (hop : op ≠ Op.iack)
    (rest : List Op) :
    acknowledgedChannels h (op :: rest) = acknowledgedChannels (step h op) rest := by
  unfold acknowledgedChannels
  cases op with
  | iack => exact absurd rfl hop
  | writeSnoop addr value isWord => rfl
  | raise ch => rfl
  | levelChange ch poll => rfl
  | timerAEvent => rfl
  | reset => rfl

theorem grantChain_of_noEoi {h : Hub} {ops : List Op} (hrun : NoEoi h ops) :
    exists grants : List (Fin 16 × Set (Fin 16)), GrantChain (inService h) grants ∧
      acknowledgedChannels h ops = grants.map (fun g => (g.1.val : Int)) := by
  induction ops generalizing h with
  | nil => exact ⟨[], trivial, rfl⟩
  | cons op rest ih =>
      obtain ⟨hsw, hkept, hrest⟩ := hrun
      obtain ⟨grants, hchain, hlist⟩ := ih hrest
      by_cases hop : op = Op.iack
      · subst hop
        rw [acknowledgedChannels_iack]
        rcases iack_cases h with ⟨_, _, hnone⟩ | ⟨ch, _, hgreatest, _, hsome⟩
        · rw [hnone]
          have hstep : step h Op.iack = h := congrArg Prod.snd hnone
          rw [hstep] at hchain hlist
          exact ⟨grants, hchain, by simpa using hlist⟩
        · have hstep : step h Op.iack = acknowledged h ch := congrArg Prod.snd hsome
          rw [hstep] at hchain hlist hkept
          rw [hsome, if_neg (vectorOf_nonneg h ch), vectorOf_channel]
          refine ⟨(ch, inService (acknowledged h ch)) :: grants, ⟨⟨?_, ?_, hkept⟩, hchain⟩, ?_⟩
          · exact hgreatest.1.2
          · show (if h.vr &&& 0x08 ≠ 0 then h.visr ||| (1#16 <<< ch.val)
              else h.visr).getLsbD ch = true
            rw [if_pos hsw, BitVec.getLsbD_or, getLsbD_one_shiftLeft]
            simp
          · rw [List.map_cons, ← hlist]
      · rw [acknowledgedChannels_other h hop]
        exact ⟨grants, grantChain_mono hkept hchain, hlist⟩

theorem acknowledgedChannels_increasing {h : Hub} {ops : List Op}
    (hrun : NoEoi h ops) : (acknowledgedChannels h ops).Pairwise (· < ·) := by
  obtain ⟨grants, hchain, hlist⟩ := grantChain_of_noEoi hrun
  have hpair := pairwise_lt_of_grantChain hchain
  rw [List.pairwise_map] at hpair
  rw [hlist, List.pairwise_map]
  refine hpair.imp ?_
  intro a b hab
  exact Int.ofNat_lt.mpr hab

/-!
## Every run
-/

structure IackContract (h : Hub) : Prop where
  delivers : forall v h', iack h = (v, h') -> v ≠ -1 ->
    exists ch : Fin 16, v = vectorOf h ch ∧ topWanted h = ch.val ∧
      IsGreatest (requests h) ch ∧ forall b, b ∈ inService h -> b < ch
  refuses : (iack h).1 = -1 <-> irqWanted h = false
  unchanged : irqWanted h = false <-> iack h = (-1, h)

theorem iackContract (h : Hub) : IackContract h := by
  rcases iack_cases h with ⟨hwant, _, hnone⟩ | ⟨ch, hwant, hgreatest, htop, hsome⟩
  · refine ⟨?_, ?_, ?_⟩
    · intro v h' heq hv
      rw [hnone] at heq
      cases heq
      exact absurd rfl hv
    · simp [hnone, hwant]
    · simp [hnone, hwant]
  · refine ⟨?_, ?_, ?_⟩
    · intro v h' heq _
      rw [hsome] at heq
      cases heq
      exact ⟨ch, rfl, htop, isGreatest_requests_of_deliverable hgreatest,
        hgreatest.1.2⟩
    · simp [hsome, hwant, vectorOf_nonneg]
    · simp [hsome, hwant, vectorOf_nonneg]

/-- After any sequence of guest register writes, raises, level changes, Timer A
events, acknowledges and resets: the pending latches are enabled channels,
nothing is in service in auto-EOI mode, an acknowledge keeps its contract, and
whatever follows in software-EOI mode without an EOI acknowledges strictly
increasing channels. -/
theorem hub_arbitration (ops : List Op) :
    bitSet (run step boot ops).vpend ⊆ bitSet (run step boot ops).ier ∧
    ((run step boot ops).vr &&& 0x08 = 0 -> (run step boot ops).visr = 0) ∧
    IackContract (run step boot ops) ∧
    forall ops', NoEoi (run step boot ops) ops' ->
      (acknowledgedChannels (run step boot ops) ops').Pairwise (· < ·) := by
  have hinv := arbitrated_run ops
  refine ⟨hinv.enabled, hinv.autoEoi, iackContract _, ?_⟩
  intro ops' hrun
  exact acknowledgedChannels_increasing hrun

example : acknowledgedChannels boot
    [Op.raise 6, Op.iack, Op.raise 3, Op.iack, Op.raise 13, Op.iack] = [6, 13] := by
  decide

/-!
## The account of a channel
-/

def latched (i : Fin 16) (h : Hub) : Bool := h.vpend.getLsbD i

def Op.raises : Op -> Bool
  | .raise _ => true
  | .timerAEvent => true
  | _ => false

def Op.discards : Op -> Bool
  | .writeSnoop _ _ _ => true
  | .reset => true
  | _ => false

/-- How often the operations of a kind turn the latch of a channel to `v`. -/
def turns (i : Fin 16) (kind : Op -> Bool) (v : Bool) : Hub -> List Op -> Nat
  | _, [] => 0
  | h, op :: rest =>
      (kind op && latched i h != v && latched i (step h op) == v).toNat +
        turns i kind v (step h op) rest

abbrev EventOp (i : Fin 16) := { op : Op // forall poll, op ≠ .levelChange i.val poll }

variable {i : Fin 16}

theorem raise_kept (h : Hub) (ch : Int) :
    (raise h ch).level = h.level ∧ bitSet h.vpend ⊆ bitSet (raise h ch).vpend := by
  unfold raise
  dsimp only
  split
  · exact ⟨rfl, subset_rfl⟩
  · split
    · refine ⟨rfl, fun j hj => ?_⟩
      rw [mem_bitSet] at hj ⊢
      rw [BitVec.getLsbD_or, hj]
      rfl
    · exact ⟨rfl, subset_rfl⟩

theorem timerAEvent_kept (h : Hub) :
    (timerAEvent h).level = h.level ∧ bitSet h.vpend ⊆ bitSet (timerAEvent h).vpend := by
  unfold timerAEvent
  split
  · exact ⟨rfl, subset_rfl⟩
  · split
    · exact raise_kept { h with tacnt := h.tadr } 13
    · exact ⟨rfl, subset_rfl⟩

theorem writeSnoop_kept (h : Hub) (addr value : Long) (isWord : Bool) :
    (writeSnoop h addr value isWord).level = h.level ∧
      bitSet (writeSnoop h addr value isWord).vpend ⊆ bitSet h.vpend := by
  unfold writeSnoop
  dsimp only
  split
  · exact ⟨rfl, subset_rfl⟩
  · split
    · next r _ =>
      cases r with
      | iera => exact ⟨rfl, bitSet_and_subset_left _ _⟩
      | ierb => exact ⟨rfl, bitSet_and_subset_left _ _⟩
      | ipra => exact ⟨rfl, bitSet_and_subset_left _ _⟩
      | iprb => exact ⟨rfl, bitSet_and_subset_left _ _⟩
      | _ => exact ⟨rfl, subset_rfl⟩
    · exact ⟨rfl, subset_rfl⟩

theorem iack_latch {h : Hub} (hlevel : h.level i = none) (rest : List Op) :
    (acknowledgedChannels h (.iack :: rest)).count (i.val : Int) +
        (latched i (iack h).2).toNat =
      (acknowledgedChannels (iack h).2 rest).count (i.val : Int) + (latched i h).toNat := by
  rw [acknowledgedChannels_iack]
  rcases iack_cases h with ⟨_, _, hnone⟩ | ⟨ch, _, hgreatest, _, hsome⟩
  · rw [hnone, if_pos rfl]
  · rw [hsome, if_neg (vectorOf_nonneg h ch), vectorOf_channel, List.count_cons]
    have hafter : latched i (acknowledged h ch) = (latched i h && !decide (ch = i)) := by
      unfold latched acknowledged
      dsimp only
      rw [BitVec.getLsbD_and, BitVec.getLsbD_not, getLsbD_one_shiftLeft]
      simp
    rw [hafter]
    by_cases hch : ch = i
    · subst hch
      have hset : latched ch h = true := by
        rcases hgreatest.1.1.1 with hset | hasserted
        · exact hset
        · rw [hlevel] at hasserted
          cases hasserted
      simp [hset]
    · have hval : ¬ (ch.val : Int) = i.val := by
        intro heq
        exact hch (Fin.ext (Int.ofNat.inj heq))
      simp [hch, hval]

theorem set_only {a b : Bool} (h : a = true -> b = true) :
    b.toNat = a.toNat + (true && a != true && b == true).toNat := by
  revert a b
  decide

theorem clear_only {a b : Bool} (h : b = true -> a = true) :
    (true && a != false && b == false).toNat + b.toNat = a.toNat := by
  revert a b
  decide

/-- One step keeps the account, and the channel without a level source. -/
theorem account_step {h : Hub} (hlevel : h.level i = none) {op : Op}
    (hop : forall poll, op ≠ .levelChange i.val poll) (rest : List Op) :
    (step h op).level i = none ∧
      (acknowledgedChannels h (op :: rest)).count (i.val : Int) +
          (op.discards && latched i h != false && latched i (step h op) == false).toNat +
          (latched i (step h op)).toNat =
        (acknowledgedChannels (step h op) rest).count (i.val : Int) + (latched i h).toNat +
          (op.raises && latched i h != true && latched i (step h op) == true).toNat := by
  have hother := fun hop : op ≠ Op.iack => acknowledgedChannels_other h hop rest
  cases op with
  | iack =>
      refine ⟨?_, iack_latch hlevel rest⟩
      show (iack h).2.level i = none
      rcases iack_cases h with ⟨_, _, hnone⟩ | ⟨ch, _, _, _, hsome⟩
      · rw [hnone]
        exact hlevel
      · rw [hsome]
        exact hlevel
  | writeSnoop addr value isWord =>
      obtain ⟨hsame, hsub⟩ := writeSnoop_kept h addr value isWord
      rw [hother (by simp), Nat.add_assoc]
      exact ⟨hsame ▸ hlevel, congrArg _ (clear_only (@hsub i))⟩
  | raise ch =>
      obtain ⟨hsame, hsub⟩ := raise_kept h ch
      rw [hother (by simp), Nat.add_assoc _ (latched i h).toNat]
      exact ⟨hsame ▸ hlevel, congrArg _ (set_only (@hsub i))⟩
  | timerAEvent =>
      obtain ⟨hsame, hsub⟩ := timerAEvent_kept h
      rw [hother (by simp), Nat.add_assoc _ (latched i h).toNat]
      exact ⟨hsame ▸ hlevel, congrArg _ (set_only (@hsub i))⟩
  | levelChange ch poll =>
      rw [hother (by simp)]
      dsimp only [step, registerLevel]
      split
      · refine ⟨(Function.update_of_ne (fun heq => hop poll ?_) _ _).trans hlevel, rfl⟩
        have hval := congrArg Fin.val heq
        dsimp only at hval
        congr
        lia
      · exact ⟨hlevel, rfl⟩
  | reset =>
      rw [hother (by simp), Nat.add_assoc]
      have hclear : latched i (reset h) = false := by
        unfold latched reset
        simp
      refine ⟨hlevel, congrArg _ (clear_only (fun hset => ?_))⟩
      rw [show latched i (step h .reset) = false from hclear] at hset
      cases hset

theorem account_run (ops : List (EventOp i)) {h : Hub} (hlevel : h.level i = none) :
    (acknowledgedChannels h (ops.map Subtype.val)).count (i.val : Int) +
        turns i Op.discards false h (ops.map Subtype.val) +
        (latched i (run step h (ops.map Subtype.val))).toNat =
      (latched i h).toNat + turns i Op.raises true h (ops.map Subtype.val) := by
  induction ops generalizing h with
  | nil => simp [acknowledgedChannels, vectors, turns]
  | cons op rest ih =>
      obtain ⟨hkept, hstep⟩ := account_step hlevel op.2 (rest.map Subtype.val)
      have hrest := ih hkept
      simp only [List.map_cons, turns, run_cons]
      lia

/-- Each time the latch of an event channel is set, it is acknowledged once, cleared by a register
write or a reset, or still set. -/
theorem interrupts_accounted (i : Fin 16) (ops : List (EventOp i)) :
    (acknowledgedChannels boot (ops.map Subtype.val)).count (i.val : Int) +
        turns i Op.discards false boot (ops.map Subtype.val) +
        (latched i (run step boot (ops.map Subtype.val))).toNat =
      turns i Op.raises true boot (ops.map Subtype.val) := by
  have hclear : latched i boot = false := by
    unfold latched boot
    simp
  have haccount := @account_run i ops boot rfl
  rw [hclear] at haccount
  simpa using haccount

end Mfp
end PistormAtari
