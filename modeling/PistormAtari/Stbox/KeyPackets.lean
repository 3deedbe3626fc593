import PistormAtari.Stbox.SerialLine

/-!
# The packets of the keyboard

A packet goes into the ring byte by byte, and {lit}`ikbd_tx` drops each byte that finds the
ring full.  The guest receives whole packets as long as every packet finds room for all of
it, or for none of it.
-/

namespace PistormAtari
namespace Stbox

open Foundation
open Mfp

/-- There are two ports. -/
local instance packetPorts : NeZero 2 := ⟨by decide⟩

/-!
## What is sent
-/

def joyButtonPackets (a : Acia) : List (List Byte) :=
  if a.fireButton ≠ a.joyRbutton ∧ a.mouseMode = 0 then
    [[0xF8 ||| (a.mouseButtons &&& 3) ||| a.fireButton, 0, 0]]
  else []

def joyReportPackets (a : Acia) (port : Fin 2) : List (List Byte) :=
  if a.joyEvent = false ∨ (port = 0 ∧ a.mouseMode ≠ 3 ∧ a.both = false) ∨
      a.joyState port = a.joySent port then []
  else [[0xFE + BitVec.ofNat 8 port.val, a.joyState port]]

def joyEmitPackets (a : Acia) (port : Fin 2) : List (List Byte) :=
  if port = 1 then joyButtonPackets a ++ joyReportPackets (joyButton a) port
  else joyReportPackets a port

def joyResendPackets (a : Acia) : List (List Byte) :=
  joyEmitPackets a 1 ++ joyEmitPackets (joyEmit a 1) 0

def answerPackets : Acia × Answer -> List (List Byte)
  | (_, .silent) => []
  | (a, .resend) => joyResendPackets a
  | (_, .packet bytes) => [bytes]

def inputPackets (a : Acia) (v : BitVec 32) : List (List Byte) :=
  let x : Byte := (v >>> 16).setWidth 8
  let y : Byte := (v >>> 8).setWidth 8
  let z : Byte := v.setWidth 8
  match ((v >>> 24).setWidth 8 : Byte) with
  | 0#8 => [[x]]
  | 1#8 => if a.mouseMode = 0 then [[0xF8 ||| (z &&& 3) ||| a.joyRbutton, x, y]] else []
  | 2#8 =>
      let port : Fin 2 := if x &&& 1 = 0 then 0 else 1
      joyEmitPackets
        { a with joy := Function.update a.joy port y, pad := Function.update a.pad port z } port
  | 3#8 => [[x]]
  | _ => []

def keyPackets (k : Keyboard) : KeyOp -> List (List Byte)
  | .drain v => inputPackets k.acia v
  | .write b =>
      match Ikbd.ikbdCommands k.acia.command b with
      | [] => []
      | cmd :: _ => answerPackets (commandCase k.total k.acia cmd)
  | _ => []

/-- The command resets the keyboard processor, whose ring is emptied. -/
def isReset (cmd : List Byte) : Prop := cmd.getD 0 0 = 0x80 ∧ cmd.getD 1 0 = 0x01

instance (cmd : List Byte) : Decidable (isReset cmd) := inferInstanceAs (Decidable (_ ∧ _))

def resets (k : Keyboard) : KeyOp -> Bool
  | .write b =>
      match Ikbd.ikbdCommands k.acia.command b with
      | [] => false
      | cmd :: _ => decide (isReset cmd)
  | _ => false

def ringOf (k : Keyboard) (op : KeyOp) : GapRing 8 Byte :=
  if resets k op then k.acia.fifo.clear else k.acia.fifo

/-!
## The code sends these packets
-/

theorem pushPackets_append (f : GapRing 8 Byte) (xs ys : List (List Byte)) :
    f.pushPackets (xs ++ ys) = (f.pushPackets xs).pushPackets ys :=
  List.foldl_append

variable (a : Acia)

theorem fifo_sendPacket (packet : List Byte) :
    (sendPacket a packet).fifo = a.fifo.pushPackets [packet] := by
  rw [sendPacket_eq]
  rfl

theorem fifo_joyButton :
    (joyButton a).fifo = a.fifo.pushPackets (joyButtonPackets a) := by
  unfold joyButton joyButtonPackets
  dsimp only
  by_cases hchanged : a.fireButton ≠ a.joyRbutton
  · rw [if_pos hchanged]
    by_cases hmouse : a.mouseMode = 0
    · rw [if_pos hmouse, if_pos ⟨hchanged, hmouse⟩]
      exact fifo_sendPacket _ _
    · rw [if_neg hmouse, if_neg (fun h => hmouse h.2)]
      rfl
  · rw [if_neg hchanged, if_neg (fun h => hchanged h.1)]
    rfl

theorem fifo_joyReport (port : Fin 2) :
    (joyReport a port).fifo = a.fifo.pushPackets (joyReportPackets a port) := by
  unfold joyReport joyReportPackets
  by_cases hoff : a.joyEvent = false
  · rw [if_pos hoff, if_pos (Or.inl hoff)]
    rfl
  · rw [if_neg hoff]
    by_cases howned : port = 0 ∧ a.mouseMode ≠ 3 ∧ a.both = false
    · rw [if_pos howned, if_pos (Or.inr (Or.inl howned))]
      rfl
    · rw [if_neg howned]
      by_cases hsame : a.joyState port = a.joySent port
      · rw [if_pos hsame, if_pos (Or.inr (Or.inr hsame))]
        rfl
      · rw [if_neg hsame, if_neg (by tauto)]
        exact fifo_sendPacket _ _

theorem fifo_joyEmit (port : Fin 2) :
    (joyEmit a port).fifo = a.fifo.pushPackets (joyEmitPackets a port) := by
  unfold joyEmit joyEmitPackets
  split
  · rw [fifo_joyReport, fifo_joyButton, pushPackets_append]
  · exact fifo_joyReport a port

theorem fifo_joyResend :
    (joyResend a).fifo = a.fifo.pushPackets (joyResendPackets a) := by
  unfold joyResend joyResendPackets
  rw [fifo_joyEmit, fifo_joyEmit, pushPackets_append]

theorem fifo_commandCase (total : Nat) (a : Acia) (cmd : List Byte) :
    (commandCase total a cmd).1.fifo = if isReset cmd then a.fifo.clear else a.fifo := by
  have hother : cmd.getD 0 0 ≠ 0x80 -> ¬ isReset cmd := fun h hreset => h hreset.1
  unfold commandCase
  dsimp only
  split
  case h_8 hfirst =>
    by_cases hsecond : cmd.getD 1 0 = 0x01
    · have hreset : isReset cmd := ⟨hfirst, hsecond⟩
      rw [if_pos hsecond, if_pos hreset]
    · have hnot : ¬ isReset cmd := fun h => hsecond h.2
      rw [if_neg hsecond, if_neg hnot]
  case h_4 hfirst | h_5 hfirst | h_7 hfirst =>
    rw [if_neg (hother (by rw [hfirst]; decide))]
    split
    · rfl
    · rfl
  case h_12 => rw [if_neg (hother (by assumption))]
  all_goals
    next hfirst => rw [if_neg (hother (by rw [hfirst]; decide))]

theorem fifo_ikbdCommand (total : Nat) (a : Acia) (cmd : List Byte) :
    (ikbdCommand total a cmd).fifo =
      (if isReset cmd then a.fifo.clear else a.fifo).pushPackets
        (answerPackets (commandCase total a cmd)) := by
  have hcase := fifo_commandCase total a cmd
  unfold ikbdCommand
  split
  · next heq =>
    rw [heq] at hcase ⊢
    rw [← hcase]
    rfl
  · next heq =>
    rw [heq] at hcase ⊢
    rw [← hcase]
    exact fifo_joyResend _
  · next heq =>
    rw [heq] at hcase ⊢
    rw [← hcase]
    exact fifo_sendPacket _ _

theorem fifo_inputDrain (v : BitVec 32) :
    (inputDrain a v).fifo = a.fifo.pushPackets (inputPackets a v) := by
  unfold inputDrain inputPackets
  dsimp only
  generalize ((v >>> 24).setWidth 8 : Byte) = kind
  by_cases hmake : kind = 0#8
  · subst hmake
    exact fifo_sendPacket _ _
  · by_cases hmouse : kind = 1#8
    · subst hmouse
      by_cases hmode : a.mouseMode = 0
      · simp only [hmode, if_true]
        exact fifo_sendPacket _ _
      · simp only [hmode, if_false]
        rfl
    · by_cases hjoy : kind = 2#8
      · subst hjoy
        exact fifo_joyEmit _ _
      · by_cases hbreak : kind = 3#8
        · subst hbreak
          exact fifo_sendPacket _ _
        · simp only
          rfl

theorem write_incomplete {k : Keyboard} {b : Byte} (h : Ikbd.ikbdCommands k.acia.command b = []) :
    ringOf k (.write b) = k.acia.fifo ∧ keyPackets k (.write b) = [] ∧
      (ikbdRx k.total k.acia b).fifo = k.acia.fifo := by
  have hresets : resets k (.write b) = false := by
    unfold resets
    dsimp only
    rw [h]
  refine ⟨?_, ?_, ?_⟩
  · unfold ringOf
    rw [hresets]
    rfl
  · unfold keyPackets
    dsimp only
    rw [h]
  · unfold ikbdRx
    rw [h]

theorem write_complete {k : Keyboard} {b : Byte} {cmd : List Byte} {rest : List (List Byte)}
    (h : Ikbd.ikbdCommands k.acia.command b = cmd :: rest) :
    ringOf k (.write b) = (if isReset cmd then k.acia.fifo.clear else k.acia.fifo) ∧
      keyPackets k (.write b) = answerPackets (commandCase k.total k.acia cmd) ∧
      (ikbdRx k.total k.acia b).fifo = (ikbdCommand k.total k.acia cmd).fifo := by
  have hresets : resets k (.write b) = decide (isReset cmd) := by
    unfold resets
    dsimp only
    rw [h]
  refine ⟨?_, ?_, ?_⟩
  · unfold ringOf
    rw [hresets]
    by_cases hreset : isReset cmd
    · rw [if_pos hreset, if_pos (decide_eq_true hreset)]
    · rw [if_neg hreset, if_neg (by rw [decide_eq_true_iff]; exact hreset)]
  · unfold keyPackets
    dsimp only
    rw [h]
  · unfold ikbdRx
    rw [h]

theorem fifo_keyStep {k : Keyboard} {op : KeyOp} (h : op ≠ .pump) :
    (keyStep k op).acia.fifo = (ringOf k op).pushPackets (keyPackets k op) := by
  cases op with
  | drain v => exact fifo_inputDrain k.acia v
  | pump => exact absurd rfl h
  | read => rfl
  | write b =>
      show (ikbdRx k.total k.acia b).fifo = _
      cases hcmds : Ikbd.ikbdCommands k.acia.command b with
      | nil =>
          rcases write_incomplete hcmds with ⟨hring, hpackets, hfifo⟩
          rw [hring, hpackets, hfifo]
          rfl
      | cons cmd rest =>
          rcases write_complete hcmds with ⟨hring, hpackets, hfifo⟩
          rw [hring, hpackets, hfifo, fifo_ikbdCommand]
  | ran cycles => rfl
  | mfp m => rfl

/-!
## What the guest receives
-/

/-- A keyboard with the bytes that were presented to the guest and the packets that were sent
since the keyboard processor was last reset. -/
structure Observed where
  keyboard : Keyboard
  received : List Byte
  sent : List (List Byte)

def observe (o : Observed) (op : KeyOp) : Observed where
  keyboard := keyStep o.keyboard op
  received :=
    if resets o.keyboard op then []
    else if op = .pump ∧ o.keyboard.presents then o.received ++ [o.keyboard.acia.fifo.front]
    else o.received
  sent := (if resets o.keyboard op then [] else o.sent) ++ keyPackets o.keyboard op

def coldObserved : Observed where
  keyboard := coldKeyboard
  received := []
  sent := []

/-- Each packet of the operation goes into the ring as a whole or is dropped as a whole. -/
def SentWhole (o : Observed) (op : KeyOp) : Prop :=
  (ringOf o.keyboard op).Whole (keyPackets o.keyboard op)

/-- Each packet of the operation finds room for all of it or for none of it. -/
def RoomForPackets (o : Observed) (op : KeyOp) : Prop :=
  GapRing.Roomy (ringOf o.keyboard op).free (keyPackets o.keyboard op)

instance (o : Observed) (op : KeyOp) : Decidable (RoomForPackets o op) :=
  inferInstanceAs (Decidable (GapRing.Roomy _ _))

/-- What the guest has received and what waits in the ring are whole packets of those sent. -/
def Framed (o : Observed) : Prop :=
  exists kept : List (List Byte), kept.Sublist o.sent ∧
    o.received ++ o.keyboard.acia.fifo.contents = kept.flatten

theorem Framed.pump {o : Observed} (h : Framed o) : Framed (observe o .pump) := by
  rcases h with ⟨kept, hsublist, hbytes⟩
  refine ⟨kept, ?_, ?_⟩
  · show kept.Sublist (o.sent ++ [])
    rw [List.append_nil]
    exact hsublist
  · show (if _ then _ else _) ++ (aciaPump o.keyboard).acia.fifo.contents = _
    unfold aciaPump
    by_cases hpresents : o.keyboard.presents
    · rw [if_pos hpresents, if_pos ⟨rfl, hpresents⟩]
      show o.received ++ [o.keyboard.acia.fifo.front] ++ o.keyboard.acia.fifo.pop.contents = _
      rw [List.append_assoc, List.singleton_append, ← GapRing.contents_pop hpresents.2.1]
      exact hbytes
    · rw [if_neg hpresents, if_neg (fun hall => hpresents hall.2)]
      exact hbytes

theorem Framed.observe {o : Observed} (h : Framed o) {op : KeyOp} (hwhole : SentWhole o op) :
    Framed (observe o op) := by
  by_cases hpump : op = .pump
  · rw [hpump]
    exact h.pump
  · rcases GapRing.contents_pushPackets hwhole with ⟨new, hnew, hcontents⟩
    rw [← fifo_keyStep hpump] at hcontents
    unfold Stbox.observe Framed
    dsimp only
    rw [hcontents]
    unfold ringOf
    by_cases hreset : resets o.keyboard op = true
    · rw [if_pos hreset, if_pos hreset, if_pos hreset, GapRing.contents_clear]
      exact ⟨new, hnew, rfl⟩
    · rcases h with ⟨kept, hsublist, hbytes⟩
      rw [if_neg hreset, if_neg hreset, if_neg hreset, if_neg (fun hall => hpump hall.1)]
      refine ⟨kept ++ new, hsublist.append hnew, ?_⟩
      rw [← List.append_assoc, hbytes, List.flatten_append]

theorem framed_coldObserved : Framed coldObserved :=
  ⟨[], List.Sublist.refl _, rfl⟩

/-- Packets stay whole in exactly the runs in which each of them finds room for all of it or
for none of it, and in these runs the guest receives whole packets. -/
theorem packets_whole_iff (ops : List KeyOp) :
    (Steps observe SentWhole coldObserved ops <->
        Steps observe RoomForPackets coldObserved ops) ∧
      (Steps observe RoomForPackets coldObserved ops -> Framed (run observe coldObserved ops)) := by
  have hiff : Steps observe SentWhole coldObserved ops <->
      Steps observe RoomForPackets coldObserved ops :=
    @Steps.iff_of_invariant _ _ observe SentWhole RoomForPackets (fun _ => True)
      (fun _ _ _ _ => trivial) (fun o op _ => GapRing.whole_iff_roomy _ _) _ trivial ops
  refine ⟨hiff, fun hroom => ?_⟩
  have hstep : forall o op, Framed o -> SentWhole o op -> Framed (observe o op) :=
    fun o op h hwhole => h.observe hwhole
  exact Steps.invariant hstep framed_coldObserved (hiff.mpr hroom)

/-- Both mouse buttons and a key, with a byte read between them. -/
theorem packets_whole_few :
    Framed (run observe coldObserved
      [.drain 0x01050203#32, .pump, .read, .drain 0x001E0000#32, .ran 10267#32, .pump]) :=
  (packets_whole_iff _).2 (by decide)

def fullRing : List KeyOp := List.replicate 254 (.drain 0x00390000#32) ++ [.drain 0x01000102#32]

theorem free_keys (n : Nat) (o : Observed) :
    (run observe o (List.replicate n (.drain 0x00390000#32))).keyboard.acia.fifo.free =
        o.keyboard.acia.fifo.free - n ∧
      (run observe o (List.replicate n (.drain 0x00390000#32))).keyboard.acia.mouseMode =
        o.keyboard.acia.mouseMode := by
  induction n generalizing o with
  | zero => exact ⟨rfl, rfl⟩
  | succ n ih =>
      have hfree : (observe o (.drain 0x00390000#32)).keyboard.acia.fifo.free =
          o.keyboard.acia.fifo.free - 1 :=
        GapRing.free_pushAll o.keyboard.acia.fifo [0x39]
      rcases ih (observe o (.drain 0x00390000#32)) with ⟨hroom, hmode⟩
      rw [List.replicate_succ, run_cons, hroom, hmode, hfree]
      exact ⟨by lia, rfl⟩

theorem moved_packet {o : Observed} (h : o.keyboard.acia.mouseMode = 0) :
    exists first, keyPackets o.keyboard (.drain 0x01000102#32) = [[first, 0x00, 0x01]] :=
  ⟨0xF8 ||| (0x02 &&& 3) ||| o.keyboard.acia.joyRbutton, if_pos h⟩

theorem mouse_packet_cut : ¬ Steps observe SentWhole coldObserved fullRing := by
  intro hwhole
  have hlast := (Steps.append_iff.mp hwhole).2.1
  rcases free_keys 254 coldObserved with ⟨hfree, hmode⟩
  have hroomy := (GapRing.whole_iff_roomy _ _).mp hlast
  have hone : coldObserved.keyboard.acia.fifo.free = 255 := by decide
  rw [hone] at hfree
  rcases moved_packet hmode with ⟨first, hpackets⟩
  rw [hpackets] at hroomy
  have hbad : 3 ≤ 1 ∨ 1 = 0 := by
    have hring := hroomy.1
    show 3 ≤ 255 - 254 ∨ 255 - 254 = 0
    rw [← hfree]
    exact hring
  exact absurd hbad (by decide)

end Stbox
end PistormAtari
