import PistormAtari.Stbox.Keyboard

/-!
# The pace of the serial line

After each byte that {lit}`acia_pump` presents the next one is due ten thousand cycles later,
and the due time is cut to 32 bits.  While it fits, bytes keep their distance.  Once it does
not, nothing holds the next byte back.
-/

namespace PistormAtari
namespace Stbox

open Foundation
open Mfp

/-!
## What the keyboard leaves to the serial line
-/

/-- The fields of the ACIA that only the pump and the guest change. -/
structure SameLine (a a' : Acia) : Prop where
  rx : a'.rx = a.rx
  sr : a'.sr = a.sr
  due : a'.nextRxCyc = a.nextRxCyc

variable (a : Acia)

theorem SameLine.refl : SameLine a a := ⟨rfl, rfl, rfl⟩

theorem SameLine.trans {a b c : Acia} (hab : SameLine a b) (hbc : SameLine b c) : SameLine a c :=
  ⟨hbc.rx.trans hab.rx, hbc.sr.trans hab.sr, hbc.due.trans hab.due⟩

theorem sendPacket_eq (packet : List Byte) :
    sendPacket a packet = { a with fifo := a.fifo.pushAll packet } := by
  induction packet generalizing a with
  | nil => rfl
  | cons b rest ih => exact ih (ikbdTx a b)

theorem sameLine_sendPacket (packet : List Byte) : SameLine a (sendPacket a packet) := by
  rw [sendPacket_eq]
  exact ⟨rfl, rfl, rfl⟩

theorem sameLine_joyButton : SameLine a (joyButton a) := by
  unfold joyButton
  split
  · dsimp only
    split
    · rw [sendPacket_eq]
      exact ⟨rfl, rfl, rfl⟩
    · exact ⟨rfl, rfl, rfl⟩
  · exact SameLine.refl a

theorem sameLine_joyReport (port : Fin 2) : SameLine a (joyReport a port) := by
  unfold joyReport
  split
  · exact SameLine.refl a
  · split
    · exact SameLine.refl a
    · split
      · exact SameLine.refl a
      · rw [sendPacket_eq]
        exact ⟨rfl, rfl, rfl⟩

theorem sameLine_joyEmit (port : Fin 2) : SameLine a (joyEmit a port) := by
  unfold joyEmit
  split
  · exact (sameLine_joyButton a).trans (sameLine_joyReport _ port)
  · exact sameLine_joyReport a port

theorem sameLine_joyResend {a a' : Acia} (h : SameLine a a') : SameLine a (joyResend a') :=
  h.trans ((sameLine_joyEmit a' 1).trans (sameLine_joyEmit _ 0))

theorem sameLine_commandCase (total : Nat) (a : Acia) (cmd : List Byte) :
    SameLine a (commandCase total a cmd).1 := by
  unfold commandCase
  dsimp only
  split
  case h_4 | h_5 | h_7 =>
    split
    · exact ⟨rfl, rfl, rfl⟩
    · exact ⟨rfl, rfl, rfl⟩
  case h_8 =>
    split
    · exact ⟨rfl, rfl, rfl⟩
    · exact SameLine.refl a
  all_goals exact ⟨rfl, rfl, rfl⟩

theorem sameLine_ikbdCommand (total : Nat) (a : Acia) (cmd : List Byte) :
    SameLine a (ikbdCommand total a cmd) := by
  have hcase := sameLine_commandCase total a cmd
  unfold ikbdCommand
  split
  · next heq =>
    rw [heq] at hcase
    exact hcase
  · next heq =>
    rw [heq] at hcase
    exact sameLine_joyResend hcase
  · next heq =>
    rw [heq] at hcase
    exact hcase.trans (sameLine_sendPacket _ _)

theorem sameLine_ikbdRx (total : Nat) (a : Acia) (b : Byte) : SameLine a (ikbdRx total a b) := by
  unfold ikbdRx
  split
  · exact ⟨rfl, rfl, rfl⟩
  · next cmd _ _ =>
    rcases sameLine_ikbdCommand total a cmd with ⟨hrx, hsr, hdue⟩
    exact ⟨hrx, hsr, hdue⟩

theorem sameLine_inputDrain (v : BitVec 32) : SameLine a (inputDrain a v) := by
  unfold inputDrain
  dsimp only
  split
  · exact sameLine_sendPacket a _
  · split
    · rw [sendPacket_eq]
      exact ⟨rfl, rfl, rfl⟩
    · exact ⟨rfl, rfl, rfl⟩
  · rcases sameLine_joyEmit _ _ with ⟨hrx, hsr, hdue⟩
    exact ⟨hrx, hsr, hdue⟩
  · exact sameLine_sendPacket a _
  · exact SameLine.refl a

/-!
## The distance of two bytes
-/

def arrivals : Keyboard -> List KeyOp -> List Nat
  | _, [] => []
  | k, op :: ops =>
      if op = .pump ∧ k.presents then k.total :: arrivals (keyStep k op) ops
      else arrivals (keyStep k op) ops

/-- Each byte comes `IKBD_BYTE_CYC` cycles after the one before, or later. -/
def Spaced (times : List Nat) : Prop :=
  times.IsChain fun t t' => t + ikbdByteCyc ≤ t'

def Early (k : Keyboard) (op : KeyOp) : Prop :=
  op = .pump -> k.presents -> k.total + ikbdByteCyc < 2 ^ 32

instance (k : Keyboard) (op : KeyOp) : Decidable (Early k op) :=
  inferInstanceAs (Decidable (_ -> _ -> _))

theorem arrivals_append (k : Keyboard) (ops ops' : List KeyOp) :
    arrivals k (ops ++ ops') = arrivals k ops ++ arrivals (run keyStep k ops) ops' := by
  induction ops generalizing k with
  | nil => rfl
  | cons op rest ih =>
      rw [List.cons_append, run_cons, arrivals, arrivals, ih]
      split
      · rfl
      · rfl

variable {k : Keyboard}

theorem due_keyStep {op : KeyOp} (h : ¬ (op = .pump ∧ k.presents)) :
    (keyStep k op).acia.nextRxCyc = k.acia.nextRxCyc := by
  cases op with
  | drain v => exact (sameLine_inputDrain k.acia v).due
  | pump =>
      have hquiet : ¬ k.presents := fun hpresents => h ⟨rfl, hpresents⟩
      show (aciaPump k).acia.nextRxCyc = k.acia.nextRxCyc
      unfold aciaPump
      rw [if_neg hquiet]
  | read => rfl
  | write b => exact (sameLine_ikbdRx k.total k.acia b).due
  | ran cycles => rfl
  | mfp m => rfl

theorem due_aciaPump (h : k.presents) :
    (aciaPump k).acia.nextRxCyc.toNat = (k.total + ikbdByteCyc) % 2 ^ 32 := by
  unfold aciaPump
  rw [if_pos h]
  dsimp only
  rw [← BitVec.ofNat_add, BitVec.toNat_ofNat]

theorem spaced_of_early {ops : List KeyOp} (h : Steps keyStep Early k ops) :
    (forall t, (arrivals k ops).head? = some t -> k.acia.nextRxCyc.toNat ≤ t) ∧
      Spaced (arrivals k ops) := by
  induction ops generalizing k with
  | nil => exact ⟨fun t ht => (by cases ht), List.isChain_nil⟩
  | cons op rest ih =>
      rcases h with ⟨hearly, hrest⟩
      rcases ih hrest with ⟨hfirst, hspaced⟩
      unfold arrivals
      by_cases hpump : op = .pump ∧ k.presents
      · rcases hpump with ⟨rfl, hpresents⟩
        have hdue : (keyStep k .pump).acia.nextRxCyc.toNat = k.total + ikbdByteCyc :=
          (due_aciaPump hpresents).trans (Nat.mod_eq_of_lt (hearly rfl hpresents))
        rw [hdue] at hfirst
        rw [if_pos ⟨rfl, hpresents⟩]
        constructor
        · intro t ht
          rw [List.head?_cons] at ht
          cases ht
          exact hpresents.2.2
        · exact List.isChain_cons.mpr ⟨hfirst, hspaced⟩
      · rw [if_neg hpump, ← due_keyStep hpump]
        exact ⟨hfirst, hspaced⟩

/-- The guest takes the byte, a key is pressed, and the pump runs again. -/
def anotherKey : List KeyOp := [.pump, .read, .drain 0x00010000#32, .pump]

theorem free_pop {f : GapRing 8 Byte} (h : f.head ≠ f.tail) : f.pop.free ≠ 0 := by
  have hle := f.length_contents_le
  rw [GapRing.contents_pop h, List.length_cons] at hle
  unfold GapRing.free
  lia

theorem sr_after_read (sr : Byte) : (sr ||| 0x81) &&& ~~~0x81 &&& 0x01 = 0 := by
  revert sr
  decide

theorem presents_again (hpresents : k.presents) (hlate : 2 ^ 32 ≤ k.total + ikbdByteCyc) :
    (run keyStep k [.pump, .read, .drain 0x00010000#32]).presents := by
  have hstep : aciaPump k = _ := if_pos hpresents
  have hdue := due_aciaPump hpresents
  rw [run_cons, run_cons, run_cons, run_nil]
  show Keyboard.presents { readData (aciaPump k) with acia := inputDrain (readData (aciaPump k)).acia _ }
  have hdrain : inputDrain (readData (aciaPump k)).acia 0x00010000#32 =
      sendPacket (readData (aciaPump k)).acia [1] := rfl
  rw [hdrain, sendPacket_eq]
  refine ⟨?_, ?_, ?_⟩
  · rw [hstep]
    exact sr_after_read k.acia.sr
  · rw [hstep]
    intro hempty
    have hnil := (GapRing.contents_eq_nil_iff (k.acia.fifo.pop.pushAll [1])).mpr hempty
    have hone : (k.acia.fifo.pop.push 1).contents = [] := hnil
    rw [GapRing.contents_push (free_pop hpresents.2.1)] at hone
    exact absurd hone (List.append_ne_nil_of_right_ne_nil _ (List.cons_ne_nil _ _))
  · have hsame : (readData (aciaPump k)).total = k.total := by
      rw [hstep]
      rfl
    show (aciaPump k).acia.nextRxCyc.toNat ≤ (readData (aciaPump k)).total
    rw [hsame, hdue, Nat.mod_eq_sub_mod hlate]
    calc (k.total + ikbdByteCyc - 2 ^ 32) % 2 ^ 32 ≤ k.total + ikbdByteCyc - 2 ^ 32 := Nat.mod_le _ _
      _ ≤ k.total := by
        unfold ikbdByteCyc
        lia

theorem arrivals_late (hpresents : k.presents)
    (hlate : 2 ^ 32 ≤ k.total + ikbdByteCyc) : ¬ Spaced (arrivals k anotherKey) := by
  have hagain := presents_again hpresents hlate
  have htotal : (run keyStep k [.pump, .read, .drain 0x00010000#32]).total = k.total := by
    show (aciaPump k).total = k.total
    unfold aciaPump
    rw [if_pos hpresents]
  have hcut : anotherKey = [.pump, .read, .drain 0x00010000#32] ++ [.pump] := rfl
  have hfirst : arrivals k [.pump, .read, .drain 0x00010000#32] = [k.total] := by
    rw [arrivals, if_pos ⟨rfl, hpresents⟩]
    rfl
  have hsecond : arrivals (run keyStep k [.pump, .read, .drain 0x00010000#32]) [.pump] =
      [k.total] := by
    rw [arrivals, if_pos ⟨rfl, hagain⟩, htotal]
    rfl
  rw [hcut, arrivals_append, hfirst, hsecond]
  intro hspaced
  have hpair := List.isChain_pair.mp hspaced
  unfold ikbdByteCyc at hpair
  lia

/-- In a run whose due times fit the bytes keep their distance.  A byte whose due time does
not fit can be followed by another one at once. -/
theorem bytes_spaced (ops : List KeyOp) :
    (Steps keyStep Early coldKeyboard ops -> Spaced (arrivals coldKeyboard ops)) ∧
      ((run keyStep coldKeyboard ops).presents ->
        ¬ Early (run keyStep coldKeyboard ops) .pump ->
        ¬ Spaced (arrivals coldKeyboard (ops ++ anotherKey))) := by
  constructor
  · intro h
    exact (spaced_of_early h).2
  · intro hpresents hlate hspaced
    have hcut : 2 ^ 32 ≤ (run keyStep coldKeyboard ops).total + ikbdByteCyc := by
      by_contra hfits
      exact hlate (fun _ _ => Nat.lt_of_not_le hfits)
    rw [arrivals_append] at hspaced
    exact arrivals_late hpresents hcut (List.IsChain.right_of_append hspaced)

/-- Two keys within the first second. -/
theorem bytes_spaced_start :
    Spaced (arrivals coldKeyboard
      [.drain 0x00010000#32, .pump, .read, .drain 0x00020000#32, .ran 10267#32, .pump]) :=
  (bytes_spaced _).1 (by decide)

/-- Slices of 64 cycles until the counter has passed 32 bits, and then two keys. -/
def lateKeys : List KeyOp :=
  List.replicate (2 ^ 26) (.ran 64#32) ++ (.drain 0x00020000#32 :: anotherKey)

theorem run_ran (n : Nat) (k : Keyboard) :
    run keyStep k (List.replicate n (.ran 64#32)) = { k with total := k.total + 64 * n } := by
  induction n generalizing k with
  | zero => rfl
  | succ n ih =>
      rw [List.replicate_succ, run_cons, ih]
      show ({ k with total := k.total + 64 + 64 * n } : Keyboard) = _
      rw [Nat.add_assoc, Nat.mul_succ, Nat.add_comm 64]

theorem late_keys_together : ¬ Spaced (arrivals coldKeyboard lateKeys) := by
  have hcut : lateKeys = (List.replicate (2 ^ 26) (.ran 64#32) ++ [.drain 0x00020000#32]) ++
      anotherKey := by
    unfold lateKeys
    rw [List.append_assoc, List.singleton_append]
  rw [hcut, arrivals_append, run_append, run_ran]
  intro hspaced
  have htail := List.IsChain.right_of_append hspaced
  refine arrivals_late ?_ ?_ htail
  · refine ⟨rfl, ?_, Nat.zero_le _⟩
    decide
  · show 2 ^ 32 ≤ 0 + 64 * 2 ^ 26 + ikbdByteCyc
    unfold ikbdByteCyc
    lia

end Stbox
end PistormAtari
