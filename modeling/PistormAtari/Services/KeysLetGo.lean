import PistormAtari.Services.Psdos
import PistormAtari.Services.Sessions

/-!
# Keys that are let go of

psdos holds what the commands pressed.  When the capture or the focus is lost, one command
lets go of everything, if it finds room in the ring.
-/

namespace PistormAtari
namespace Services

open Foundation

/-!
## What psdos holds
-/

structure Released (i : PsdosInput) : Prop where
  keys : forall k, i.keys k = false
  mouse : i.mouseBtn = 0
  joy : forall p, i.joy p = 0
  stick : forall p axis, i.stick p axis = 0
  trig : forall p axis, i.trig p axis = 0

def KeysInRange (i : PsdosInput) : Prop :=
  forall k, i.keys k = true -> 1 ≤ k ∧ k < retrokLast

def presses (c : PsdosCmd) : Bool :=
  match c.type with
  | .key => c.a != 0
  | .mouse => c.c &&& 7 != 0
  | .joy => low16 c.b != 0
  | .pad => low16 c.b != 0 || c.c != 0 || c.d != 0 || c.e != 0
  | _ => false

theorem released_none : Released PsdosInput.none :=
  { keys := fun _ => rfl
    mouse := rfl
    joy := fun _ => rfl
    stick := fun _ _ => rfl
    trig := fun _ _ => rfl }

theorem keysInRange_none : KeysInRange PsdosInput.none := fun _ h => Bool.noConfusion h

variable {i : PsdosInput}

theorem released_keysUp (h : KeysInRange i) : Released (keysUp i) := by
  constructor
  · intro k
    unfold keysUp
    dsimp only
    split
    · rfl
    · next hout => exact Bool.eq_false_iff.mpr fun hheld => hout (h k hheld)
  · rfl
  · intro p
    rfl
  · intro p axis
    rfl
  · intro p axis
    rfl

theorem keysInRange_keysUp (h : KeysInRange i) : KeysInRange (keysUp i) :=
  fun k hheld => absurd ((released_keysUp h).keys k) (by rw [hheld]; exact Bool.noConfusion)

theorem keysInRange_keyEvent (h : KeysInRange i) (down : Bool) (code : Nat) :
    KeysInRange (keyEvent i down code) := by
  unfold keyEvent
  split
  · exact h
  · next hcode =>
    intro k hheld
    rcases Classical.em (k = code) with rfl | hne
    · lia
    · dsimp only at hheld
      rw [Function.update_of_ne hne] at hheld
      exact h k hheld

theorem released_keyEvent_up (h : Released i) (code : Nat) :
    Released (keyEvent i false code) := by
  unfold keyEvent
  split
  · exact h
  · refine { h with keys := fun k => ?_ }
    dsimp only
    rcases Classical.em (k = code) with rfl | hne
    · rw [Function.update_self]
    · rw [Function.update_of_ne hne]
      exact h.keys k

theorem update_zero {ι α : Type} [DecidableEq ι] [Zero α] {f : ι -> α} (h : forall j, f j = 0)
    {i : ι} {v : α} (hv : v = 0) : forall j, Function.update f i v j = 0 := by
  intro j
  rcases Classical.em (j = i) with rfl | hne
  · rw [Function.update_self]
    exact hv
  · rw [Function.update_of_ne hne]
    exact h j

theorem released_padEvent (h : Released i) {c : PsdosCmd}
    (hb : low16 c.b = 0) (hc : c.c = 0) (hd : c.d = 0) (he : c.e = 0) :
    Released (padEvent i c) := by
  unfold padEvent
  split
  · refine { h with joy := update_zero h.joy hb, stick := ?_, trig := ?_ }
    · intro p axis
      dsimp only
      rcases Classical.em (p = c.a.toNat) with rfl | hne
      · rw [Function.update_self, hc, hd]
        split
        · rfl
        · rfl
        · rfl
        · rfl
      · rw [Function.update_of_ne hne]
        exact h.stick p axis
    · intro p axis
      dsimp only
      rcases Classical.em (p = c.a.toNat) with rfl | hne
      · rw [Function.update_self, he]
        split
        · rfl
        · rfl
      · rw [Function.update_of_ne hne]
        exact h.trig p axis
  · exact h

theorem padEvent_keys (i : PsdosInput) (c : PsdosCmd) : (padEvent i c).keys = i.keys := by
  unfold padEvent
  split
  · rfl
  · rfl

/-!
## What a command does to it
-/

variable (ans : PsdosHost)

theorem coreLoad_input (s : Psdos) (path : Text) :
    (coreLoad ans s path).input = s.input ∨ (coreLoad ans s path).input = PsdosInput.none := by
  unfold coreLoad
  split
  · exact Or.inl rfl
  · right
    dsimp only
    split
    · rfl
    · rfl

theorem loadGame_input (s : Psdos) (path : Text) :
    (loadGame ans s path).input = s.input ∨ (loadGame ans s path).input = PsdosInput.none := by
  unfold loadGame
  split
  · right
    unfold resumed
    dsimp only
    split
    · rcases coreLoad_input ans _ (path.take 4095) with h | h
      · rw [h]
      · rw [h]
    · rfl
  · exact coreLoad_input ans s path

theorem viewCmd_input (s : Psdos) (fresh : Bool) (c : PsdosCmd) :
    (viewCmd s fresh c).input = s.input := by
  unfold viewCmd
  dsimp only
  split
  · split
    · rfl
    · rfl
  · split
    · rfl
    · rfl

theorem handleCmd_input_cases (s : Psdos) (c : PsdosCmd) {P : PsdosInput -> Prop}
    (hsame : P s.input) (hnone : P PsdosInput.none)
    (hup : P (keysUp s.input))
    (hkey : c.type = .key -> P (keyEvent s.input (c.a != 0) c.b.toNat))
    (hmouse : c.type = .mouse ->
      P { s.input with
          mouseDx := s.input.mouseDx + c.a
          mouseDy := s.input.mouseDy + c.b
          mouseBtn := c.c &&& 7 })
    (hjoy : c.type = .joy ->
      P { s.input with joy := Function.update s.input.joy c.a.toNat (low16 c.b) })
    (hpad : c.type = .pad -> P (padEvent s.input c)) :
    P (handleCmd ans s c).input := by
  unfold handleCmd
  cases htype : c.type with
  | hello | option | quit =>
      dsimp only
      try split
      all_goals exact hsame
  | viewNew =>
      dsimp only
      rw [viewCmd_input]
      exact hsame
  | viewSize =>
      dsimp only
      rw [viewCmd_input]
      exact hsame
  | viewFree => exact hnone
  | state =>
      unfold stateCmd
      dsimp only
      split
      · exact hup
      · exact hsame
  | load =>
      dsimp only
      rcases loadGame_input ans s (cmdText c.str) with h | h
      · rw [h]
        exact hsame
      · rw [h]
        exact hnone
  | key => exact hkey htype
  | mouse => exact hmouse htype
  | joy =>
      dsimp only
      split
      · exact hjoy htype
      · exact hsame
  | reset =>
      dsimp only
      split
      · exact hsame
      · rcases loadGame_input ans s s.core.lastPath with h | h
        · rw [h]
          exact hsame
        · rw [h]
          exact hnone
  | keysUp => exact hup
  | pad => exact hpad htype

theorem handleCmd_keysInRange {s : Psdos} (c : PsdosCmd)
    (h : KeysInRange s.input) : KeysInRange (handleCmd ans s c).input := by
  apply handleCmd_input_cases
  · exact h
  · exact keysInRange_none
  · exact keysInRange_keysUp h
  · intro _
    exact keysInRange_keyEvent h _ _
  · intro _
    exact h
  · intro _
    exact h
  · intro _ k hheld
    rw [padEvent_keys] at hheld
    exact h k hheld

theorem handleCmd_released {s : Psdos} {c : PsdosCmd} (h : Released s.input)
    (hrange : KeysInRange s.input) (hquiet : presses c = false) :
    Released (handleCmd ans s c).input := by
  unfold presses at hquiet
  apply handleCmd_input_cases
  · exact h
  · exact released_none
  · exact released_keysUp hrange
  · intro htype
    rw [htype] at hquiet
    dsimp only at hquiet
    rw [hquiet]
    exact released_keyEvent_up h _
  · intro htype
    rw [htype] at hquiet
    exact { h with mouse := bne_eq_false_iff_eq.mp hquiet }
  · intro htype
    rw [htype] at hquiet
    exact { h with joy := update_zero h.joy (bne_eq_false_iff_eq.mp hquiet) }
  · intro htype
    rw [htype] at hquiet
    simp only [Bool.or_eq_false_iff, bne_eq_false_iff_eq] at hquiet
    exact released_padEvent h hquiet.1.1.1 hquiet.1.1.2 hquiet.1.2 hquiet.2

theorem handleCmd_keysUp {s : Psdos} (hrange : KeysInRange s.input) :
    Released (handleCmd ans s keysUpCmd).input :=
  released_keysUp hrange

/-!
## The emulator, the link and psdos
-/

/-- The emulator's side, what has been sent and not been processed, and psdos. -/
structure DosSystem where
  client : DosClient
  wire : List PsdosCmd
  psdos : Psdos

/-- Calls of the emulator's threads, the connector's steps within a session, and psdos
processing a command. -/
inductive DosEvent where
  | begin (call : DosCall)
  | locked (i : Nat)
  | freeView
  | view (ready : Bool)
  | drain
  | process (ans : PsdosHost)

def dosEvent (s : DosSystem) : DosEvent -> DosSystem
  | .begin call => { s with client := s.client.begin call }
  | .locked i => { s with client := s.client.locked i }
  | .freeView => { s with client := { s.client with viewReady := false } }
  | .view ready => { s with client := { s.client with viewReady := ready } }
  | .drain =>
      match s.client.link.ring.peek psdosRingN with
      | none => s
      | some cmd => { s with client := s.client.drain, wire := s.wire ++ [cmd] }
  | .process ans =>
      match s.wire with
      | [] => s
      | cmd :: rest => { s with wire := rest, psdos := handleCmd ans s.psdos cmd }

/-- A session that has just been accepted.  What psdos held for the session before is gone. -/
def DosSystem.start (w : Nat -> PsdosCmd) (p : Psdos) : DosSystem :=
  { client :=
      { DosClient.start w with
        link := (SessionRing.empty w).accept
        connector := .session }
    wire := []
    psdos := viewFree p }

/-- The commands that have entered the ring and not reached psdos. -/
def DosSystem.underWay (s : DosSystem) : List PsdosCmd :=
  s.wire ++ s.client.link.pushes.drop s.client.link.taken

def releases (s : DosClient) : DosCall -> Bool
  | .setCapture on => s.capture && !on
  | .setFocus focused => s.focus && !focused && !s.capture
  | _ => false

/-- The call presses something whether or not DOS has the input. -/
def pressesAnyway : DosCall -> Bool
  | .push cmd => presses cmd
  | _ => false

def CallKeepsReleased (s : DosClient) (call : DosCall) : Prop :=
  (releases s call = true -> s.link.ring.count < psdosRingN) ∧
    (pressesAnyway call = true -> s.capture = true ∨ s.focus = true)

instance (s : DosClient) (call : DosCall) : Decidable (CallKeepsReleased s call) :=
  inferInstanceAs (Decidable (_ ∧ _))

def OptCallKeepsReleased (s : DosClient) : Option DosCall -> Prop
  | none => True
  | some call => CallKeepsReleased s call

instance (s : DosClient) : (call : Option DosCall) -> Decidable (OptCallKeepsReleased s call)
  | none => isTrue trivial
  | some call => inferInstanceAs (Decidable (CallKeepsReleased s call))

/-- A release finds room in the ring, and nothing is pressed for DOS while the capture is off
and the window is not focused. -/
def KeepsReleased (s : DosSystem) : DosEvent -> Prop
  | .locked i => OptCallKeepsReleased s.client s.client.calls[i]?
  | _ => True

instance (s : DosSystem) : (e : DosEvent) -> Decidable (KeepsReleased s e)
  | .locked i => inferInstanceAs (Decidable (OptCallKeepsReleased s.client s.client.calls[i]?))
  | .begin _ | .freeView | .view _ | .drain | .process _ => isTrue trivial

/-- After the last release nothing is pressed; without one, nothing is held and nothing is
pressed. -/
def LetGo (i : PsdosInput) (cmds : List PsdosCmd) : Prop :=
  (Released i ∧ forall c, c ∈ cmds -> presses c = false) ∨
    exists pre post, cmds = pre ++ keysUpCmd :: post ∧ forall c, c ∈ post -> presses c = false

theorem LetGo.concat {cmds : List PsdosCmd} (h : LetGo i cmds) {c : PsdosCmd}
    (hquiet : presses c = false) : LetGo i (cmds ++ [c]) := by
  rcases h with ⟨hreleased, hall⟩ | ⟨pre, post, rfl, hall⟩
  · left
    refine ⟨hreleased, fun c' hc' => ?_⟩
    rcases List.mem_append.mp hc' with hold | hnew
    · exact hall c' hold
    · rw [List.mem_singleton.mp hnew]
      exact hquiet
  · right
    refine ⟨pre, post ++ [c], by rw [List.append_assoc, List.cons_append], fun c' hc' => ?_⟩
    rcases List.mem_append.mp hc' with hold | hnew
    · exact hall c' hold
    · rw [List.mem_singleton.mp hnew]
      exact hquiet

theorem letGo_keysUp (i : PsdosInput) (cmds : List PsdosCmd) : LetGo i (cmds ++ [keysUpCmd]) :=
  Or.inr ⟨cmds, [], rfl, fun _ hc => absurd hc List.not_mem_nil⟩

theorem LetGo.process {s : Psdos} {c : PsdosCmd} {rest : List PsdosCmd}
    (h : LetGo s.input (c :: rest)) (hrange : KeysInRange s.input) (ans : PsdosHost) :
    LetGo (handleCmd ans s c).input rest := by
  rcases h with ⟨hreleased, hall⟩ | ⟨pre, post, heq, hall⟩
  · left
    exact ⟨handleCmd_released ans hreleased hrange (hall c List.mem_cons_self),
      fun c' hc' => hall c' (List.mem_cons_of_mem c hc')⟩
  · cases pre with
    | nil =>
        cases heq
        exact Or.inl ⟨handleCmd_keysUp ans hrange, hall⟩
    | cons first pre =>
        cases heq
        exact Or.inr ⟨pre, post, rfl, hall⟩

/-- Within a session, once neither capture nor focus is on, what is under way lets go. -/
structure KeysSettled (s : DosSystem) : Prop where
  link : s.client.link.Orderly psdosRingN
  connected : s.client.link.connected = true
  inRange : KeysInRange s.psdos.input
  settled : s.client.capture = false -> s.client.focus = false -> LetGo s.psdos.input s.underWay

theorem keysSettled_start (w : Nat -> PsdosCmd) (p : Psdos) :
    KeysSettled (DosSystem.start w p) :=
  { link := (SessionRing.orderly_empty psdosRingN w).accept
    connected := rfl
    inRange := keysInRange_none
    settled := fun _ _ => Or.inl ⟨released_none, fun _ hc => absurd hc List.not_mem_nil⟩ }

theorem underWay_push {s : DosSystem} (h : s.client.link.Orderly psdosRingN) (cmd : PsdosCmd) :
    let s' : DosSystem := { s with client := s.client.putEntry cmd }
    s'.underWay = s.underWay ∨ s'.underWay = s.underWay ++ [cmd] := by
  unfold DosSystem.underWay DosClient.putEntry SessionRing.push
  dsimp only
  split
  · exact Or.inl rfl
  · right
    dsimp only
    rw [List.drop_append_of_le_length h.taken_le, List.append_assoc]

theorem underWay_push_of_room {s : DosSystem} (h : s.client.link.Orderly psdosRingN)
    (hroom : s.client.link.ring.count < psdosRingN) (cmd : PsdosCmd) :
    let s' : DosSystem := { s with client := s.client.putEntry cmd }
    s'.underWay = s.underWay ++ [cmd] := by
  unfold DosSystem.underWay DosClient.putEntry SessionRing.push WrapRing.push
  dsimp only
  rw [if_neg (not_le.mpr hroom)]
  dsimp only
  rw [List.drop_append_of_le_length h.taken_le, List.append_assoc]

section
variable {s : DosSystem}

theorem KeysSettled.sameLink (h : KeysSettled s) {client : DosClient}
    (hlink : client.link = s.client.link)
    (hoff : client.capture = false -> client.focus = false ->
      s.client.capture = false ∧ s.client.focus = false) :
    KeysSettled { s with client := client } := by
  have hunder : ({ s with client := client } : DosSystem).underWay = s.underWay := by
    unfold DosSystem.underWay
    rw [hlink]
  constructor
  · dsimp only
    rw [hlink]
    exact h.link
  · dsimp only
    rw [hlink]
    exact h.connected
  · exact h.inRange
  · intro hcapture hfocus
    rw [hunder]
    have hold := hoff hcapture hfocus
    exact h.settled hold.1 hold.2

theorem KeysSettled.putEntry (h : KeysSettled s) {client : DosClient} {cmd : PsdosCmd}
    (hlink : client.link = s.client.link.push psdosRingN cmd)
    (hsettled : client.capture = false -> client.focus = false ->
      LetGo s.psdos.input ({ s with client := client } : DosSystem).underWay) :
    KeysSettled { s with client := client } := by
  constructor
  · dsimp only
    rw [hlink]
    exact h.link.push psdosRingN_lt psdosRingN_dvd cmd
  · dsimp only
    rw [hlink, (Pushes.push cmd : Pushes psdosRingN s.client.link _).connected]
    exact h.connected
  · exact h.inRange
  · exact hsettled

theorem underWay_congr {client client' : DosClient} (h : client.link = client'.link) :
    ({ s with client := client } : DosSystem).underWay =
      ({ s with client := client' } : DosSystem).underWay := by
  unfold DosSystem.underWay
  dsimp only
  rw [h]

theorem KeysSettled.release (h : KeysSettled s) {client : DosClient}
    (hlink : client.link = s.client.link.push psdosRingN keysUpCmd)
    (hroom : s.client.link.ring.count < psdosRingN) :
    KeysSettled { s with client := client } := by
  refine h.putEntry hlink fun _ _ => ?_
  have hsame : client.link = (s.client.putEntry keysUpCmd).link := hlink
  rw [underWay_congr hsame, underWay_push_of_room h.link hroom]
  exact letGo_keysUp _ _

theorem KeysSettled.finish (h : KeysSettled s) {call : DosCall}
    (hok : CallKeepsReleased s.client call) :
    KeysSettled { s with client := s.client.finish call } := by
  have hroom := hok.1
  unfold DosClient.finish
  cases call with
  | push cmd =>
      refine h.putEntry rfl fun hcapture hfocus => ?_
      have hletGo := h.settled hcapture hfocus
      rcases underWay_push h.link cmd with heq | heq
      · exact heq ▸ hletGo
      · have hquiet : presses cmd = false := by
          rw [← Bool.not_eq_true]
          intro hpress
          rcases hok.2 hpress with hheld | hheld
          · exact absurd (hcapture.symm.trans hheld) Bool.false_ne_true
          · exact absurd (hfocus.symm.trans hheld) Bool.false_ne_true
        exact heq ▸ hletGo.concat hquiet
  | pushInput cmd =>
      dsimp only
      split
      · next hcapture =>
        exact h.putEntry rfl fun hoff => absurd (hoff.symm.trans hcapture) Bool.false_ne_true
      · exact h
  | pushPad cmd =>
      dsimp only
      split
      · next hwanted =>
        unfold DosClient.padsWanted at hwanted
        rw [Bool.and_eq_true, Bool.and_eq_true] at hwanted
        exact h.putEntry rfl fun _ hoff => absurd (hoff.symm.trans hwanted.2) Bool.false_ne_true
      · exact h
  | setCapture on =>
      unfold DosClient.psdosSetCapture
      dsimp only
      split
      · exact h
      · next hchange =>
        cases on with
        | true => exact h.sameLink rfl fun hoff => Bool.noConfusion hoff
        | false =>
            have hheld : s.client.capture = true := by
              rw [← Bool.not_eq_false]
              exact fun heq => hchange heq.symm
            rw [h.connected, Bool.not_false, Bool.true_and, if_pos rfl]
            apply h.release rfl
            apply hroom
            unfold releases
            dsimp only
            rw [hheld]
            rfl
  | setFocus focused =>
      unfold DosClient.psdosSetFocus
      dsimp only
      cases focused with
      | true =>
          rw [if_pos rfl, Bool.not_true, Bool.and_false, Bool.false_and, Bool.false_and,
            if_neg Bool.false_ne_true]
          exact h.sameLink rfl fun _ hoff => Bool.noConfusion hoff
      | false =>
          rw [if_neg Bool.false_ne_true, h.connected, Bool.not_false, Bool.and_true, Bool.and_true]
          cases hfocus : s.client.focus with
          | false =>
              rw [Bool.false_and, if_neg Bool.false_ne_true]
              exact h.sameLink rfl fun hcapture _ => ⟨hcapture, hfocus⟩
          | true =>
              cases hcapture : s.client.capture with
              | true =>
                  rw [Bool.not_true, Bool.and_false, if_neg Bool.false_ne_true]
                  exact h.sameLink rfl fun hoff => Bool.noConfusion hoff
              | false =>
                  rw [Bool.not_false, Bool.and_true, if_pos rfl]
                  apply h.release rfl
                  apply hroom
                  unfold releases
                  dsimp only
                  rw [hfocus, hcapture]
                  rfl

theorem dosEvent_keysSettled (s : DosSystem) (e : DosEvent) (h : KeysSettled s)
    (hok : KeepsReleased s e) : KeysSettled (dosEvent s e) := by
  cases e with
  | begin call =>
      have hsame : (s.client.begin call).capture = s.client.capture ∧
          (s.client.begin call).focus = s.client.focus := by
        unfold DosClient.begin
        split
        · exact ⟨rfl, rfl⟩
        · exact ⟨rfl, rfl⟩
        · split
          · exact ⟨rfl, rfl⟩
          · exact ⟨rfl, rfl⟩
      refine h.sameLink (begin_link s.client call).1 fun hcapture hfocus => ?_
      rw [hsame.1] at hcapture
      rw [hsame.2] at hfocus
      exact ⟨hcapture, hfocus⟩
  | locked i =>
      unfold KeepsReleased at hok
      unfold dosEvent DosClient.locked
      dsimp only at hok ⊢
      cases hcall : s.client.calls[i]? with
      | none => exact h
      | some call =>
          rw [hcall] at hok
          have hrest : KeysSettled
              { s with client := { s.client with calls := s.client.calls.eraseIdx i } } :=
            h.sameLink rfl fun hc hf => ⟨hc, hf⟩
          exact hrest.finish hok
  | freeView => exact h.sameLink rfl fun hcapture hfocus => ⟨hcapture, hfocus⟩
  | view ready => exact h.sameLink rfl fun hcapture hfocus => ⟨hcapture, hfocus⟩
  | drain =>
      unfold dosEvent
      dsimp only
      cases hpeek : s.client.link.ring.peek psdosRingN with
      | none => exact h
      | some cmd =>
          have hlink := h.link.send psdosRingN_lt psdosRingN_dvd
          have hsent : s.client.link.send psdosRingN =
              { s.client.link with
                ring := s.client.link.ring.pop
                taken := s.client.link.taken + 1
                sent := s.client.link.sent ++
                  [{ number := s.client.link.taken
                     opened := s.client.link.opened
                     value := cmd }] } := by
            unfold SessionRing.send
            rw [if_pos h.connected, hpeek]
          have hqueue : s.client.link.pushes.drop s.client.link.taken =
              cmd :: s.client.link.pushes.drop (s.client.link.taken + 1) := by
            rw [h.link.holds.peek psdosRingN_lt, List.head?_drop] at hpeek
            rcases List.getElem?_eq_some_iff.mp hpeek with ⟨hlt, hvalue⟩
            rw [List.drop_eq_getElem_cons hlt, hvalue]
          unfold DosClient.drain
          rw [hsent] at hlink ⊢
          refine { link := hlink, connected := h.connected, inRange := h.inRange, settled := ?_ }
          intro hcapture hfocus
          have hletGo := h.settled hcapture hfocus
          unfold DosSystem.underWay at hletGo ⊢
          rw [hqueue] at hletGo
          dsimp only
          rw [List.append_assoc]
          exact hletGo
  | process ans =>
      unfold dosEvent
      dsimp only
      cases hwire : s.wire with
      | nil =>
          exact h
      | cons cmd rest =>
          refine { h with inRange := handleCmd_keysInRange ans cmd h.inRange, settled := ?_ }
          intro hcapture hfocus
          have hletGo := h.settled hcapture hfocus
          unfold DosSystem.underWay at hletGo
          rw [hwire] at hletGo
          exact LetGo.process hletGo h.inRange ans

def DosSystem.Quiet (s : DosSystem) : Prop :=
  s.wire = [] ∧ s.client.link.ring.tail = s.client.link.ring.head

instance (s : DosSystem) : Decidable s.Quiet := inferInstanceAs (Decidable (_ ∧ _))

/-- In a session whose releases find room, and in which nothing is pressed for DOS while neither
capture nor focus is on, psdos holds nothing then, once it has processed every command. -/
theorem released_of_keepsReleased (w : Nat -> PsdosCmd) (p : Psdos) (events : List DosEvent)
    (h : Steps dosEvent KeepsReleased (DosSystem.start w p) events) :
    let s := run dosEvent (DosSystem.start w p) events
    s.client.capture = false -> s.client.focus = false -> s.Quiet -> Released s.psdos.input := by
  intro s hcapture hfocus hquiet
  have hinv : KeysSettled s :=
    Steps.invariant dosEvent_keysSettled (keysSettled_start w p) h
  have hempty : s.underWay = [] := by
    have htaken := (hinv.link.empty_iff psdosRingN_lt).mp hquiet.2
    unfold DosSystem.underWay
    rw [hquiet.1, htaken, List.drop_length]
    rfl
  have hletGo := hinv.settled hcapture hfocus
  rw [hempty] at hletGo
  rcases hletGo with ⟨hreleased, _⟩ | ⟨pre, post, heq, _⟩
  · exact hreleased
  · exact absurd heq.symm (List.append_ne_nil_of_right_ne_nil _ (List.cons_ne_nil _ _))

/-!
## Two sessions
-/

def keyDown (code : BitVec 32) : PsdosCmd := pushEntry .key 1 code 0 0 0 []

def mouseMove : PsdosCmd := pushEntry .mouse 1 0 0 0 0 []

def captureEvents : List DosEvent :=
  [.begin (.setFocus true), .locked 0, .view true, .begin (.setCapture true), .locked 0]

def letGoEvents : List DosEvent :=
  [.begin (.setCapture false), .locked 0, .begin (.setFocus false), .locked 0, .locked 0]

def noHost : PsdosHost :=
  { execOk := false
    opens := false
    loads := false
    vars := []
    fmt := .rgb1555
    aspect := { height := fun _ _ _ => 1, width := fun _ _ _ => 1 }
    conf := [] }

/-- A key is pressed and the capture lost, with room for the release. -/
theorem released_of_keepsReleased_press :
    Released (run dosEvent (DosSystem.start (fun _ => keysUpCmd) (psdosStart noHost))
      (captureEvents ++ [.begin (.pushInput (keyDown 97)), .locked 0] ++ letGoEvents ++
        [.drain, .process noHost, .drain, .process noHost, .drain, .process noHost])).psdos.input :=
  released_of_keepsReleased (fun _ => keysUpCmd) (psdosStart noHost) _ (by decide) (by decide)
    (by decide) (by decide)

/-- The key is down, nothing else is going on, and the ring holds `n` motions of the mouse. -/
structure KeyDown (n : Nat) (s : DosSystem) : Prop where
  link : s.client.link.Orderly psdosRingN
  connected : s.client.link.connected = true
  queue : s.client.link.pushes.drop s.client.link.taken = List.replicate n mouseMove
  calls : s.client.calls = []
  wire : s.wire = []
  down : s.psdos.input.keys 97 = true

theorem KeyDown.move {n : Nat} {s : DosSystem} (h : KeyDown n s) (hroom : n < psdosRingN)
    (hcapture : s.client.capture = true) :
    let s' := run dosEvent s [.begin (.pushInput mouseMove), .locked 0]
    KeyDown (n + 1) s' ∧ s'.client.capture = true ∧ s'.client.focus = s.client.focus := by
  have hcount : s.client.link.ring.count < psdosRingN := by
    rw [h.link.holds.count psdosRingN_lt, h.queue, List.length_replicate]
    exact hroom
  have hnext : run dosEvent s [.begin (.pushInput mouseMove), .locked 0] =
      { s with client := s.client.putEntry mouseMove } := by
    unfold run
    simp [dosEvent, DosClient.begin, DosClient.locked, DosClient.finish, DosClient.putEntry, h.calls,
      hcapture, h.connected]
  rw [hnext]
  refine ⟨?_, hcapture, rfl⟩
  constructor
  · exact h.link.push psdosRingN_lt psdosRingN_dvd mouseMove
  · exact (Pushes.push mouseMove : Pushes psdosRingN s.client.link _).connected.trans h.connected
  · unfold DosClient.putEntry SessionRing.push WrapRing.push
    dsimp only
    rw [if_neg (not_le.mpr hcount)]
    dsimp only
    rw [List.drop_append_of_le_length h.link.taken_le, h.queue, ← List.replicate_succ']
  · exact h.calls
  · exact h.wire
  · exact h.down

theorem KeyDown.fill {s : DosSystem} (h : KeyDown 0 s) (hcapture : s.client.capture = true)
    (n : Nat) (hroom : n ≤ psdosRingN) :
    let s' := run dosEvent s
      (List.replicate n [DosEvent.begin (.pushInput mouseMove), .locked 0]).flatten
    KeyDown n s' ∧ s'.client.capture = true ∧ s'.client.focus = s.client.focus := by
  induction n with
  | zero => exact ⟨h, hcapture, rfl⟩
  | succ n ih =>
      have hprev := ih (Nat.le_of_succ_le hroom)
      have hmove := hprev.1.move hroom hprev.2.1
      rw [List.replicate_succ', List.flatten_concat, run_append]
      exact ⟨hmove.1, hmove.2.1, hmove.2.2.trans hprev.2.2⟩

theorem KeyDown.release {s : DosSystem} (h : KeyDown psdosRingN s)
    (hcapture : s.client.capture = true) (hfocus : s.client.focus = true) :
    let s' := run dosEvent s letGoEvents
    KeyDown psdosRingN s' ∧ s'.client.capture = false ∧ s'.client.focus = false := by
  have hfull : s.client.link.push psdosRingN keysUpCmd = s.client.link := by
    unfold SessionRing.push
    have hnone := (h.link.holds.push_eq_none psdosRingN_lt keysUpCmd).mpr
      (by rw [h.queue, List.length_replicate])
    rw [hnone]
  have hnext : run dosEvent s letGoEvents =
      { s with client := { s.client with capture := false, focus := false } } := by
    unfold letGoEvents run
    simp [dosEvent, DosClient.begin, DosClient.locked, DosClient.finish,
      DosClient.psdosSetCapture, DosClient.psdosSetFocus, DosClient.putEntry, h.calls, hcapture,
      hfocus, h.connected, hfull]
  rw [hnext]
  exact ⟨{ h with }, rfl, rfl⟩

theorem KeyDown.next {n : Nat} {s : DosSystem} (h : KeyDown (n + 1) s) :
    let s' := run dosEvent s [.drain, .process noHost]
    KeyDown n s' ∧ s'.client.capture = s.client.capture ∧ s'.client.focus = s.client.focus := by
  have hpeek : s.client.link.ring.peek psdosRingN = some mouseMove := by
    rw [h.link.holds.peek psdosRingN_lt, h.queue]
    rfl
  have hnext : run dosEvent s [.drain, .process noHost] =
      { s with client := s.client.drain, psdos := handleCmd noHost s.psdos mouseMove } := by
    rw [run_cons, run_cons, run_nil]
    unfold dosEvent
    dsimp only
    rw [hpeek, h.wire]
    dsimp only [List.nil_append]
  rw [hnext]
  refine ⟨?_, rfl, rfl⟩
  have hsent : (s.client.link.send psdosRingN).taken = s.client.link.taken + 1 ∧
      (s.client.link.send psdosRingN).pushes = s.client.link.pushes ∧
      (s.client.link.send psdosRingN).connected = true := by
    unfold SessionRing.send
    rw [if_pos h.connected, hpeek]
    exact ⟨rfl, rfl, h.connected⟩
  constructor
  · exact h.link.send psdosRingN_lt psdosRingN_dvd
  · exact hsent.2.2
  · unfold DosClient.drain
    dsimp only
    rw [hsent.1, hsent.2.1, ← List.tail_drop, h.queue]
    rfl
  · exact h.calls
  · exact h.wire
  · exact h.down

theorem KeyDown.empty {n : Nat} {s : DosSystem} (h : KeyDown n s) :
    let s' := run dosEvent s (List.replicate n [DosEvent.drain, .process noHost]).flatten
    KeyDown 0 s' ∧ s'.client.capture = s.client.capture ∧ s'.client.focus = s.client.focus := by
  induction n generalizing s with
  | zero => exact ⟨h, rfl, rfl⟩
  | succ n ih =>
      have hnext := h.next
      have hrest := ih hnext.1
      rw [List.replicate_succ, List.flatten_cons, run_append]
      exact ⟨hrest.1, hrest.2.1.trans hnext.2.1, hrest.2.2.trans hnext.2.2⟩

theorem keyDown_pressed :
    let s := run dosEvent (DosSystem.start (fun _ => keysUpCmd) (psdosStart noHost))
      (captureEvents ++ [.begin (.pushInput (keyDown 97)), .locked 0, .drain, .process noHost])
    KeyDown 0 s ∧ s.client.capture = true ∧ s.client.focus = true := by
  refine ⟨?_, by decide, by decide⟩
  have hsettled : KeysSettled (run dosEvent
      (DosSystem.start (fun _ => keysUpCmd) (psdosStart noHost))
      (captureEvents ++ [.begin (.pushInput (keyDown 97)), .locked 0, .drain, .process noHost])) :=
    Steps.invariant dosEvent_keysSettled (keysSettled_start _ _) (by decide)
  exact
    { link := hsettled.link
      connected := hsettled.connected
      queue := by decide
      calls := by decide
      wire := by decide
      down := by decide }

/-- A key is pressed, the ring is filled with motions of the mouse, and the capture is lost: the
release finds no room, and the key stays down. -/
theorem key_held :
    exists events : List DosEvent,
      let s := run dosEvent (DosSystem.start (fun _ => keysUpCmd) (psdosStart noHost)) events
      s.client.capture = false ∧ s.client.focus = false ∧ s.Quiet ∧ ¬ Released s.psdos.input := by
  have hpressed := keyDown_pressed
  have hfull := hpressed.1.fill hpressed.2.1 psdosRingN (le_refl _)
  have hlost := hfull.1.release hfull.2.1 (hfull.2.2.trans hpressed.2.2)
  have hdone := hlost.1.empty
  refine ⟨captureEvents ++
    [.begin (.pushInput (keyDown 97)), .locked 0, .drain, .process noHost] ++
    (List.replicate psdosRingN [DosEvent.begin (.pushInput mouseMove), .locked 0]).flatten ++
    letGoEvents ++ (List.replicate psdosRingN [DosEvent.drain, .process noHost]).flatten, ?_⟩
  rw [run_append, run_append, run_append]
  refine ⟨hdone.2.1.trans hlost.2.1, hdone.2.2.trans hlost.2.2, ⟨hdone.1.wire, ?_⟩, ?_⟩
  · rw [hdone.1.link.holds.empty_iff psdosRingN_lt]
    exact hdone.1.queue
  · intro hreleased
    exact absurd (hreleased.keys 97) (by rw [hdone.1.down]; exact Bool.noConfusion)

end
end Services
end PistormAtari
