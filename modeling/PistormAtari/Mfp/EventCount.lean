import PistormAtari.Foundation.CyclicCount
import PistormAtari.Foundation.Run
import PistormAtari.Mfp.Hub

/-!
# Timer A counts events

In event-count mode every `TADR`th event raises channel 13, whatever else reaches the hub
between the events.
-/

namespace PistormAtari
namespace Mfp

open Foundation

/-!
## Programming the timer
-/

def snooped (addr : Long) (isWord : Bool) : Option Reg :=
  let a := addr &&& 0x00FFFFFF#32
  if a < 0x00FFFA00#32 ∨ a > 0x00FFFA2F#32 then none
  else regAt (if isWord then a ||| 1 else a)

theorem writeSnoop_eq (h : Hub) (addr value : Long) (isWord : Bool) :
    writeSnoop h addr value isWord =
      match snooped addr isWord with
      | some r => regWrite h r (value.setWidth 8)
      | none => h := by
  unfold writeSnoop snooped
  dsimp only
  split
  · rfl
  · rfl

def countOf (b : Byte) : Nat := if b = 0 then 256 else b.toNat

theorem countOf_pos (b : Byte) : 0 < countOf b := by
  unfold countOf
  split
  · decide
  · next hne =>
    apply Nat.pos_of_ne_zero
    intro hzero
    exact hne (BitVec.eq_of_toNat_eq hzero)

def Op.reprograms : Op -> Bool
  | .writeSnoop addr _ isWord =>
      decide (snooped addr isWord = some Reg.tacr ∨ snooped addr isWord = some Reg.tadr)
  | .reset => true
  | _ => false

/-- The timer is in event-count mode, is loaded with `n` and has `left` events to go. -/
structure Counting (n left : Nat) (h : Hub) : Prop where
  mode : h.tacr = 8
  load : h.tadr.toNat = n
  left : h.tacnt.toNat = left

/-- What loads the timer in event-count mode: a write of `TADR` in that mode, or one in any
mode and a later write of `TACR` that sets it. -/
inductive Programmed (b : Byte) : Hub -> Prop
  | tadr (h : Hub) (addr value : Long) (isWord : Bool) (hreg : snooped addr isWord = some Reg.tadr)
      (hvalue : value.setWidth 8 = b) (hmode : h.tacr = 8) :
      Programmed b (writeSnoop h addr value isWord)
  | tacr (h : Hub) (addr value : Long) (isWord : Bool) (hreg : snooped addr isWord = some Reg.tadr)
      (hvalue : value.setWidth 8 = b) (ops : List Op)
      (hops : forall op, op ∈ ops -> op.reprograms = false) (addr' value' : Long) (isWord' : Bool)
      (hreg' : snooped addr' isWord' = some Reg.tacr) (hmode : value'.setWidth 8 &&& 0x0F#8 = 8) :
      Programmed b
        (writeSnoop (run step (writeSnoop h addr value isWord) ops) addr' value' isWord')

theorem load_toNat (b : Byte) :
    (if b = 0 then (256 : Long) else b.setWidth 32).toNat = countOf b := by
  unfold countOf
  split
  · rfl
  · rw [BitVec.toNat_setWidth]
    exact Nat.mod_eq_of_lt (lt_of_lt_of_le b.isLt (by decide))

theorem tadr_write {h : Hub} {addr value : Long} {isWord : Bool}
    (hreg : snooped addr isWord = some Reg.tadr) :
    (writeSnoop h addr value isWord).tacr = h.tacr ∧
      (writeSnoop h addr value isWord).tadr.toNat = countOf (value.setWidth 8) ∧
      (writeSnoop h addr value isWord).tacnt.toNat = countOf (value.setWidth 8) := by
  rw [writeSnoop_eq, hreg]
  exact ⟨rfl, load_toNat _, load_toNat _⟩

theorem regWrite_timer {r : Reg} (hcr : r ≠ Reg.tacr) (hdr : r ≠ Reg.tadr) (h : Hub) (b : Byte) :
    (regWrite h r b).tacr = h.tacr ∧ (regWrite h r b).tadr = h.tadr ∧
      (regWrite h r b).tacnt = h.tacnt := by
  cases r with
  | tacr => exact absurd rfl hcr
  | tadr => exact absurd rfl hdr
  | _ => exact ⟨rfl, rfl, rfl⟩

theorem raise_timer (h : Hub) (ch : Int) :
    (raise h ch).tacr = h.tacr ∧ (raise h ch).tadr = h.tadr ∧ (raise h ch).tacnt = h.tacnt := by
  unfold raise
  dsimp only
  split
  · exact ⟨rfl, rfl, rfl⟩
  · split
    · exact ⟨rfl, rfl, rfl⟩
    · exact ⟨rfl, rfl, rfl⟩

theorem step_timer {op : Op} (hop : op.reprograms = false) (hevent : op ≠ Op.timerAEvent)
    (h : Hub) :
    (step h op).tacr = h.tacr ∧ (step h op).tadr = h.tadr ∧ (step h op).tacnt = h.tacnt := by
  cases op with
  | writeSnoop addr value isWord =>
      have hnot := of_decide_eq_false hop
      rw [not_or] at hnot
      show (writeSnoop h addr value isWord).tacr = _ ∧ (writeSnoop h addr value isWord).tadr = _ ∧
        (writeSnoop h addr value isWord).tacnt = _
      rw [writeSnoop_eq]
      cases hreg : snooped addr isWord with
      | none => exact ⟨rfl, rfl, rfl⟩
      | some r =>
          rw [hreg] at hnot
          exact regWrite_timer (fun heq => hnot.1 (congrArg some heq))
            (fun heq => hnot.2 (congrArg some heq)) h _
  | raise ch => exact raise_timer h ch
  | levelChange ch poll =>
      show (registerLevel h ch poll).tacr = _ ∧ (registerLevel h ch poll).tadr = _ ∧
        (registerLevel h ch poll).tacnt = _
      unfold registerLevel
      split
      · exact ⟨rfl, rfl, rfl⟩
      · exact ⟨rfl, rfl, rfl⟩
  | timerAEvent => exact absurd rfl hevent
  | iack =>
      show (iack h).2.tacr = _ ∧ (iack h).2.tadr = _ ∧ (iack h).2.tacnt = _
      unfold iack
      split
      · exact ⟨rfl, rfl, rfl⟩
      · exact ⟨rfl, rfl, rfl⟩
  | reset => cases hop

/-!
## Counting
-/

section
variable {n left : Nat} {h : Hub}

section

variable (hc : Counting n left h)

include hc

theorem Counting.last_iff : h.tacnt ≤ 1 <-> left ≤ 1 := by
  rw [BitVec.le_def, hc.left]
  rfl

theorem Counting.fires (hlast : left ≤ 1) :
    timerAEvent h = raise { h with tacnt := h.tadr } 13 := by
  unfold timerAEvent
  rw [if_neg (fun hne => hne hc.mode), if_pos (hc.last_iff.mpr hlast)]

theorem Counting.counts (hmore : ¬ left ≤ 1) :
    timerAEvent h = { h with tacnt := h.tacnt - 1 } := by
  unfold timerAEvent
  rw [if_neg (fun hne => hne hc.mode), if_neg (fun hle => hmore (hc.last_iff.mp hle))]

theorem Counting.event : Counting n (countDown n left) (timerAEvent h) := by
  unfold countDown
  split
  · next hlast =>
    rw [hc.fires hlast]
    rcases raise_timer { h with tacnt := h.tadr } 13 with ⟨hmode, hload, hleft⟩
    exact ⟨hmode.trans hc.mode, (congrArg BitVec.toNat hload).trans hc.load,
      (congrArg BitVec.toNat hleft).trans hc.load⟩
  · next hmore =>
    rw [hc.counts hmore]
    refine ⟨hc.mode, hc.load, ?_⟩
    show (h.tacnt - 1).toNat = left - 1
    rw [BitVec.toNat_sub_of_le (by
      rw [BitVec.le_def, hc.left]
      show 1 ≤ left
      lia), hc.left]
    rfl

theorem Counting.other {op : Op} (hop : op.reprograms = false)
    (hevent : op ≠ Op.timerAEvent) : Counting n left (step h op) := by
  rcases step_timer hop hevent h with ⟨hmode, hload, hleft⟩
  exact ⟨hmode.trans hc.mode, (congrArg BitVec.toNat hload).trans hc.load,
    (congrArg BitVec.toNat hleft).trans hc.left⟩

end

def events (ops : List Op) : Nat := ops.countP (· == Op.timerAEvent)

theorem Counting.run {k : Nat} (hn : 0 < n) (hc : Counting n (leftAfter n k) h) {ops : List Op}
    (hops : forall op, op ∈ ops -> op.reprograms = false) :
    Counting n (leftAfter n (k + events ops)) (run step h ops) := by
  induction ops generalizing k h with
  | nil => exact hc
  | cons op rest ih =>
      have hrest : forall op', op' ∈ rest -> op'.reprograms = false :=
        fun op' hop' => hops op' (List.mem_cons_of_mem _ hop')
      by_cases hevent : op = Op.timerAEvent
      · have hnext : Counting n (leftAfter n (k + 1)) (timerAEvent h) := by
          rw [← countDown_leftAfter hn]
          exact hc.event
        have hcount : k + events (op :: rest) = k + 1 + events rest := by
          unfold events
          rw [hevent, List.countP_cons_of_pos (by decide)]
          lia
        rw [hcount, hevent]
        exact ih hnext hrest
      · have hcount : events (op :: rest) = events rest := by
          unfold events
          rw [List.countP_cons_of_neg (by simpa using hevent)]
        rw [hcount]
        exact ih (hc.other (hops op List.mem_cons_self) hevent) hrest

end

theorem step_load {op : Op} (hop : op.reprograms = false) (h : Hub) : (step h op).tadr = h.tadr := by
  by_cases hevent : op = Op.timerAEvent
  · rw [hevent]
    show (timerAEvent h).tadr = h.tadr
    unfold timerAEvent
    split
    · rfl
    · split
      · exact (raise_timer _ 13).2.1
      · rfl
  · exact (step_timer hop hevent h).2.1

theorem run_load (h : Hub) {ops : List Op} (hops : forall op, op ∈ ops -> op.reprograms = false) :
    (run step h ops).tadr = h.tadr := by
  induction ops generalizing h with
  | nil => rfl
  | cons op rest ih =>
      rw [run_cons, ih _ fun op' hop' => hops op' (List.mem_cons_of_mem _ hop'),
        step_load (hops op List.mem_cons_self)]

theorem Programmed.counting {b : Byte} {h : Hub} (hp : Programmed b h) :
    Counting (countOf b) (countOf b) h := by
  cases hp with
  | tadr h addr value isWord hreg hvalue hmode =>
      rcases @tadr_write h _ value _ hreg with ⟨hcr, hload, hleft⟩
      rw [hvalue] at hload hleft
      exact ⟨hcr.trans hmode, hload, hleft⟩
  | tacr h addr value isWord hreg hvalue ops hops addr' value' isWord' hreg' hmode =>
      have hload := (@tadr_write h _ value _ hreg).2.1
      rw [hvalue, ← run_load _ hops] at hload
      rw [writeSnoop_eq, hreg']
      exact ⟨hmode, hload, hload⟩

/-- After `TADR` and mode 8 are programmed channel 13 is raised by every `TADR`th event and by
no other, and in any other mode an event does nothing. -/
theorem timerA_raises_every_nth {b : Byte} {h : Hub} (hp : Programmed b h) {ops : List Op}
    (hops : forall op, op ∈ ops -> op.reprograms = false) :
    (countOf b ∣ events ops + 1 ->
      timerAEvent (run step h ops) =
        raise { run step h ops with tacnt := (run step h ops).tadr } 13) ∧
    (¬ countOf b ∣ events ops + 1 ->
      timerAEvent (run step h ops) =
        { run step h ops with tacnt := (run step h ops).tacnt - 1 }) ∧
    forall idle : Hub, idle.tacr ≠ 8 -> timerAEvent idle = idle := by
  have hpos := countOf_pos b
  have hstart : Counting (countOf b) (leftAfter (countOf b) 0) h := by
    rw [leftAfter_zero]
    exact hp.counting
  have hc := hstart.run hpos hops
  rw [Nat.zero_add] at hc
  have hleft := leftAfter_pos hpos (events ops)
  have hiff := leftAfter_eq_one_iff hpos (events ops)
  refine ⟨fun hdvd => ?_, fun hnot => ?_, fun idle hmode => if_pos hmode⟩
  · apply hc.fires
    rw [hiff.mpr hdvd]
  · apply hc.counts
    intro hle
    exact hnot (hiff.mp (by lia))

/-- `TADR` 2 in mode 8, and an acknowledge between the events. -/
theorem timerA_raises_second :
    (timerAEvent (run step (writeSnoop { boot with tacr := 8 } 0xFFFA1F#32 2#32 false)
      [.timerAEvent, .iack])).vpend = 0x2000#16 := by
  have hops : forall op, op ∈ [Op.timerAEvent, Op.iack] -> op.reprograms = false := by decide
  have hraise := (timerA_raises_every_nth
    (Programmed.tadr { boot with tacr := 8 } 0xFFFA1F#32 2#32 false (by decide) rfl rfl) hops).1
    (by decide)
  rw [hraise]
  decide

end Mfp
end PistormAtari
