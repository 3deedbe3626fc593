import PistormAtari.Ikbd.RawDivert

/-!
# Keys of the USB keyboard

`handle_event` sends each key event of a USB keyboard to the DOS window, the STBOX
or the main machine.  The DOS window keeps the set of the keys pressed for it; the
other two are chosen anew at every event, so a key held across a change of focus is
released somewhere else.
-/

namespace PistormAtari
namespace Ikbd

open Foundation

/-!
## The key table
-/

def KEY_F11 : Nat := 87
def KEY_F12 : Nat := 88
def BTN_LEFT : Nat := 0x110
def BTN_RIGHT : Nat := 0x111
def BTN_MIDDLE : Nat := 0x112
def KEY_MAX : Nat := 0x2FF

def ST_NONE : BitVec 8 := 0x00

def stScanTable : List (BitVec 8) :=
  [ 0x00, 0x01, 0x02, 0x03, 0x04, 0x05, 0x06, 0x07, 0x08, 0x09, 0x0A, 0x0B,
    0x0C, 0x0D, 0x0E, 0x0F, 0x10, 0x11, 0x12, 0x13, 0x14, 0x15, 0x16, 0x17,
    0x18, 0x19, 0x1A, 0x1B, 0x1C, 0x1D, 0x1E, 0x1F, 0x20, 0x21, 0x22, 0x23,
    0x24, 0x25, 0x26, 0x27, 0x28, 0x29, 0x2A, 0x2B, 0x2C, 0x2D, 0x2E, 0x2F,
    0x30, 0x31, 0x32, 0x33, 0x34, 0x35, 0x36, 0x66, 0x38, 0x39, 0x3A, 0x3B,
    0x3C, 0x3D, 0x3E, 0x3F, 0x40, 0x41, 0x42, 0x43, 0x44, 0x63, 0x64, 0x67,
    0x68, 0x69, 0x4A, 0x6A, 0x6B, 0x6C, 0x4E, 0x6D, 0x6E, 0x6F, 0x70, 0x71,
    0x00, 0x00, 0x60, 0x00, 0x00, 0x00, 0x00, 0x00, 0x00, 0x00, 0x00, 0x00,
    0x72, 0x1D, 0x65, 0x00, 0x38, 0x00, 0x47, 0x48, 0x62, 0x4B, 0x4D, 0x61,
    0x50, 0x61, 0x52, 0x53 ]

def stScan (code : Nat) : BitVec 8 :=
  stScanTable.getD code ST_NONE

/-!
## Routing
-/

/-- A key message as its sink gets it: `psdos_key_linux`, `psdos_key_st`,
`stbox_key_event` and `send_key_main`. -/
inductive KeyMessage where
  | dosKey (code : Nat) (down : Bool)
  | dosScan (scan : BitVec 8) (down : Bool)
  | stboxKey (scan : BitVec 8) (down : Bool)
  | mainKey (scan : BitVec 8) (down : Bool)
deriving DecidableEq, Repr

def KeyMessage.sink : KeyMessage -> Sink
  | .dosKey _ _ => .dos
  | .dosScan _ _ => .dos
  | .stboxKey _ _ => .stbox
  | .mainKey _ _ => .main

structure UsbKeys where
  keyDos : Nat -> Bool
  route : Bool

def escToggles (w : Windows) (scan : BitVec 8) : Bool :=
  scan == 0x01 && w.stboxRunning && w.stboxFocus && !w.psdosWantsInput

def sendKey (route : Bool) (w : Windows) (scan : BitVec 8) (pressed : Bool) :
    Bool × Option KeyMessage :=
  if escToggles w scan then (if pressed then !route else route, none)
  else if w.psdosWantsInput then (route, some (.dosScan scan pressed))
  else if stboxWantsInput route w then (route, some (.stboxKey scan pressed))
  else (route, some (.mainKey scan pressed))

/-- The end of `handle_event`, past the keys of the DOS window. -/
def sendMapped (s : UsbKeys) (w : Windows) (code : Nat) (pressed : Bool) :
    UsbKeys × Option KeyMessage :=
  if code = KEY_F12 ∨ code = KEY_F11 then (s, none)
  else if code > KEY_MAX ∨ stScan code = ST_NONE then (s, none)
  else
    let sent := sendKey s.route w (stScan code) pressed
    ({ s with route := sent.1 }, sent.2)

def handleKey (s : UsbKeys) (w : Windows) (code : Nat) (pressed : Bool) :
    UsbKeys × Option KeyMessage :=
  if code = BTN_LEFT ∨ code = BTN_RIGHT ∨ code = BTN_MIDDLE then (s, none)
  else if code ≤ KEY_MAX then
    if pressed then
      if w.psdosWantsInput then
        ({ s with keyDos := Function.update s.keyDos code true }, some (.dosKey code true))
      else sendMapped { s with keyDos := Function.update s.keyDos code false } w code true
    else if s.keyDos code then
      ({ s with keyDos := Function.update s.keyDos code false }, some (.dosKey code false))
    else if w.psdosWantsInput then
      -- pressed for the Atari before the capture: release it there
      (s, if code ≠ KEY_F12 ∧ code ≠ KEY_F11 ∧ stScan code ≠ ST_NONE
        then some (.mainKey (stScan code) false) else none)
    else sendMapped s w code false
  else sendMapped s w code pressed

/-!
## Watched runs
-/

/-- A key event with the windows as they are when it is handled, or a toggle of
the routing from the real keyboard. -/
inductive KeyEvent where
  | key (w : Windows) (code : Nat) (pressed : Bool)
  | toggle
deriving DecidableEq, Repr

/-- The routing beside the keyboard: which keys are down, the sink that received
the press of each, and how many makes and breaks of a key each sink has received. -/
structure KeyWatch where
  keys : UsbKeys
  isDown : Nat -> Bool
  sentTo : Nat -> Option Sink
  makes : Sink -> Nat -> Nat
  breaks : Sink -> Nat -> Nat

def KeyWatch.initial : KeyWatch where
  keys := ⟨fun _ => false, true⟩
  isDown := fun _ => false
  sentTo := fun _ => none
  makes := fun _ _ => 0
  breaks := fun _ _ => 0

def reached (x : KeyWatch) (w : Windows) (code : Nat) (pressed : Bool) : Option Sink :=
  (handleKey x.keys w code pressed).2.map KeyMessage.sink

def counted (counts : Sink -> Nat -> Nat) (code : Nat) (out : Option Sink) :
    Sink -> Nat -> Nat :=
  fun k c => if out = some k ∧ c = code then counts k c + 1 else counts k c

def keyStep (x : KeyWatch) : KeyEvent -> KeyWatch
  | .key w code pressed =>
      let out := reached x w code pressed
      let keys := (handleKey x.keys w code pressed).1
      if pressed then
        { x with
          keys := keys
          isDown := Function.update x.isDown code true
          sentTo := Function.update x.sentTo code out
          makes := counted x.makes code out }
      else
        { x with
          keys := keys
          isDown := Function.update x.isDown code false
          sentTo := Function.update x.sentTo code none
          breaks := counted x.breaks code out }
  | .toggle => { x with keys := { x.keys with route := !x.keys.route } }

def Physical (x : KeyWatch) : KeyEvent -> Prop
  | .key _ code pressed => x.isDown code = !pressed
  | .toggle => True

def Matched (x : KeyWatch) : KeyEvent -> Prop
  | .key w code false => forall k, x.sentTo code = some k -> reached x w code false = some k
  | _ => True

/-- A key pressed for the STBOX is released while the box has the input; one
pressed for the main machine while the box does not have it, or the DOS window
has captured it. -/
def FocusKept (x : KeyWatch) : KeyEvent -> Prop
  | .key w code false =>
      (x.sentTo code = some .stbox ->
        w.psdosWantsInput = false ∧ stboxWantsInput x.keys.route w = true) ∧
      (x.sentTo code = some .main -> w.psdosWantsInput = true ∨
        (stboxWantsInput x.keys.route w = false ∧ escToggles w (stScan code) = false))
  | _ => True

/-!
## Presses
-/

/-- A key the ST has, and that is not one of the emulator's own. -/
structure Mapped (code : Nat) : Prop where
  notOwn : ¬ (code = KEY_F12 ∨ code = KEY_F11)
  scan : ¬ (code > KEY_MAX ∨ stScan code = ST_NONE)

structure SentOk (s : UsbKeys) (code : Nat) (k : Sink) : Prop where
  notButton : ¬ (code = BTN_LEFT ∨ code = BTN_RIGHT ∨ code = BTN_MIDDLE)
  inTable : code ≤ KEY_MAX
  dos : k = .dos -> s.keyDos code = true
  other : k ≠ .dos -> s.keyDos code = false ∧ Mapped code
  esc : k = .stbox -> stScan code ≠ 0x01

theorem sendMapped_keyDos (s : UsbKeys) (w : Windows) (code : Nat) (pressed : Bool) :
    (sendMapped s w code pressed).1.keyDos = s.keyDos := by
  unfold sendMapped
  split
  · rfl
  · split <;> rfl

theorem sendMapped_of_mapped {code : Nat} (h : Mapped code) (s : UsbKeys) (w : Windows)
    (pressed : Bool) :
    (sendMapped s w code pressed).2 = (sendKey s.route w (stScan code) pressed).2 := by
  unfold sendMapped
  rw [if_neg h.notOwn, if_neg h.scan]

theorem mapped_of_sent {s : UsbKeys} {w : Windows} {code : Nat} {pressed : Bool}
    {m : KeyMessage} (h : (sendMapped s w code pressed).2 = some m) : Mapped code := by
  unfold sendMapped at h
  by_cases hown : code = KEY_F12 ∨ code = KEY_F11
  · rw [if_pos hown] at h
    cases h
  · rw [if_neg hown] at h
    by_cases hscan : code > KEY_MAX ∨ stScan code = ST_NONE
    · rw [if_pos hscan] at h
      cases h
    · exact ⟨hown, hscan⟩

theorem sendKey_sink {route : Bool} {w : Windows} {scan : BitVec 8} {pressed : Bool}
    (hdos : w.psdosWantsInput = false) :
    (sendKey route w scan pressed).2.map KeyMessage.sink =
      if escToggles w scan then none
      else if stboxWantsInput route w then some .stbox
      else some .main := by
  unfold sendKey
  rw [hdos]
  by_cases hesc : escToggles w scan = true
  · rw [if_pos hesc, if_pos hesc]
    rfl
  · rw [if_neg hesc, if_neg hesc, if_neg Bool.false_ne_true]
    split <;> rfl

theorem not_esc_of_stbox {route : Bool} {w : Windows} {scan : BitVec 8}
    (hdos : w.psdosWantsInput = false) (hesc : ¬ escToggles w scan = true)
    (hbox : stboxWantsInput route w = true) : scan ≠ 0x01 := by
  intro hscan
  apply hesc
  unfold stboxWantsInput at hbox
  simp only [Bool.and_eq_true] at hbox
  unfold escToggles
  rw [hscan, hbox.1.2, hbox.2, hdos]
  rfl

theorem press_sentOk (s : UsbKeys) (w : Windows) (code : Nat) (k : Sink)
    (h : (handleKey s w code true).2.map KeyMessage.sink = some k) :
    SentOk (handleKey s w code true).1 code k := by
  by_cases hbutton : code = BTN_LEFT ∨ code = BTN_RIGHT ∨ code = BTN_MIDDLE
  · have hnone : handleKey s w code true = (s, none) := if_pos hbutton
    rw [hnone] at h
    cases h
  by_cases htable : code ≤ KEY_MAX
  · cases hdos : w.psdosWantsInput with
    | true =>
        have hkey : handleKey s w code true =
            ({ s with keyDos := Function.update s.keyDos code true },
              some (.dosKey code true)) := by
          unfold handleKey
          rw [if_neg hbutton, if_pos htable, if_pos rfl, if_pos hdos]
        rw [hkey] at h ⊢
        injection h with h
        refine ⟨hbutton, htable, fun _ => Function.update_self _ _ _, ?_, ?_⟩
        · intro hne
          exact absurd h.symm hne
        · intro hbox
          rw [hbox] at h
          cases h
    | false =>
        have hkey : handleKey s w code true =
            sendMapped { s with keyDos := Function.update s.keyDos code false } w code true := by
          unfold handleKey
          rw [if_neg hbutton, if_pos htable, if_pos rfl, hdos, if_neg Bool.false_ne_true]
        rw [hkey] at h ⊢
        obtain ⟨m, hm, _⟩ := Option.map_eq_some_iff.mp h
        have hmapped := mapped_of_sent hm
        rw [sendMapped_of_mapped hmapped, sendKey_sink hdos] at h
        by_cases hesc : escToggles w (stScan code) = true
        · rw [if_pos hesc] at h
          cases h
        · rw [if_neg hesc] at h
          refine ⟨hbutton, htable, ?_, ?_, ?_⟩
          · intro hk
            rw [hk] at h
            split at h <;> cases h
          · intro _
            rw [sendMapped_keyDos]
            exact ⟨Function.update_self _ _ _, hmapped⟩
          · intro hk
            rw [hk] at h
            by_cases hbox : stboxWantsInput s.route w = true
            · exact not_esc_of_stbox hdos hesc hbox
            · rw [if_neg hbox] at h
              cases h
  · have hlarge : code > KEY_MAX := Nat.lt_of_not_le htable
    have hkey : handleKey s w code true = sendMapped s w code true := by
      unfold handleKey
      rw [if_neg hbutton, if_neg htable]
    rw [hkey] at h
    obtain ⟨m, hm, _⟩ := Option.map_eq_some_iff.mp h
    exact absurd (Or.inl hlarge) (mapped_of_sent hm).scan

/-!
## Releases
-/

theorem release_dos {s : UsbKeys} {code : Nat} (h : SentOk s code .dos) (w : Windows) :
    (handleKey s w code false).2.map KeyMessage.sink = some .dos := by
  unfold handleKey
  rw [if_neg h.notButton, if_pos h.inTable, if_neg Bool.false_ne_true, if_pos (h.dos rfl)]
  rfl

theorem release_other {s : UsbKeys} {code : Nat} {k : Sink} (h : SentOk s code k)
    (hk : k ≠ .dos) (w : Windows) :
    (handleKey s w code false).2.map KeyMessage.sink =
      if w.psdosWantsInput then some .main
      else if escToggles w (stScan code) then none
      else if stboxWantsInput s.route w then some .stbox
      else some .main := by
  rcases h.other hk with ⟨hflag, hmapped⟩
  unfold handleKey
  rw [if_neg h.notButton, if_pos h.inTable, if_neg Bool.false_ne_true, hflag,
    if_neg Bool.false_ne_true]
  cases hdos : w.psdosWantsInput with
  | true =>
      have hsent : code ≠ KEY_F12 ∧ code ≠ KEY_F11 ∧ stScan code ≠ ST_NONE :=
        ⟨fun h12 => hmapped.notOwn (Or.inl h12), fun h11 => hmapped.notOwn (Or.inr h11),
          fun hnone => hmapped.scan (Or.inr hnone)⟩
      rw [if_pos rfl, if_pos rfl, if_pos hsent]
      rfl
  | false =>
      rw [if_neg Bool.false_ne_true, if_neg Bool.false_ne_true, sendMapped_of_mapped hmapped,
        sendKey_sink hdos]

theorem release_iff {s : UsbKeys} {code : Nat} {k : Sink} (h : SentOk s code k) (w : Windows) :
    (handleKey s w code false).2.map KeyMessage.sink = some k <->
      (k = .stbox -> w.psdosWantsInput = false ∧ stboxWantsInput s.route w = true) ∧
      (k = .main -> w.psdosWantsInput = true ∨
        (stboxWantsInput s.route w = false ∧ escToggles w (stScan code) = false)) := by
  cases k with
  | dos =>
      rw [release_dos h w]
      simp
  | stbox =>
      have hesc : escToggles w (stScan code) = false := by
        have hscan : (stScan code == 0x01) = false := beq_eq_false_iff_ne.mpr (h.esc rfl)
        unfold escToggles
        rw [hscan]
        rfl
      rw [release_other h (by decide) w, hesc, if_neg Bool.false_ne_true]
      cases w.psdosWantsInput <;> cases stboxWantsInput s.route w <;> simp
  | main =>
      rw [release_other h (by decide) w]
      cases w.psdosWantsInput <;> cases stboxWantsInput s.route w <;>
        cases escToggles w (stScan code) <;> simp

/-!
## Runs
-/

/-- The routing knows where each press went, and only keys that are down went
anywhere. -/
structure KeyInv (x : KeyWatch) : Prop where
  sent : forall code k, x.sentTo code = some k -> SentOk x.keys code k
  up : forall code, x.isDown code = false -> x.sentTo code = none

theorem KeyInv.initial : KeyInv KeyWatch.initial := by
  constructor
  · intro _ _ h
    cases h
  · intro _ _
    rfl

theorem handleKey_keyDos_other (s : UsbKeys) (w : Windows) {code c : Nat} (hc : c ≠ code)
    (pressed : Bool) : (handleKey s w code pressed).1.keyDos c = s.keyDos c := by
  have hupdate (v : Bool) : Function.update s.keyDos code v c = s.keyDos c :=
    Function.update_of_ne hc _ _
  unfold handleKey
  split
  · rfl
  split
  · split
    · split
      · exact hupdate true
      · rw [sendMapped_keyDos]
        exact hupdate false
    · split
      · exact hupdate false
      · split
        · rfl
        · rw [sendMapped_keyDos]
  · rw [sendMapped_keyDos]

theorem SentOk.of_keyDos_eq {s s' : UsbKeys} {code : Nat} {k : Sink} (h : SentOk s code k)
    (heq : s'.keyDos code = s.keyDos code) : SentOk s' code k := by
  constructor
  · exact h.notButton
  · exact h.inTable
  · rw [heq]
    exact h.dos
  · rw [heq]
    exact h.other
  · exact h.esc

theorem keyStep_inv {x : KeyWatch} (h : KeyInv x) (e : KeyEvent) : KeyInv (keyStep x e) := by
  cases e with
  | toggle =>
      constructor
      · intro code k hk
        exact (h.sent code k hk).of_keyDos_eq rfl
      · exact h.up
  | key w code pressed =>
      have hother (c : Nat) (hc : c ≠ code) (k : Sink) (hk : x.sentTo c = some k) :
          SentOk (handleKey x.keys w code pressed).1 c k :=
        (h.sent c k hk).of_keyDos_eq (handleKey_keyDos_other x.keys w hc pressed)
      cases pressed with
      | true =>
          constructor
          · intro c k hk
            change Function.update x.sentTo code _ c = some k at hk
            by_cases hc : c = code
            · subst hc
              rw [Function.update_self] at hk
              exact press_sentOk x.keys w c k hk
            · rw [Function.update_of_ne hc] at hk
              exact hother c hc k hk
          · intro c hup
            change Function.update x.isDown code true c = false at hup
            change Function.update x.sentTo code _ c = none
            by_cases hc : c = code
            · subst hc
              rw [Function.update_self] at hup
              cases hup
            · rw [Function.update_of_ne hc] at hup ⊢
              exact h.up c hup
      | false =>
          constructor
          · intro c k hk
            change Function.update x.sentTo code none c = some k at hk
            by_cases hc : c = code
            · subst hc
              rw [Function.update_self] at hk
              cases hk
            · rw [Function.update_of_ne hc] at hk
              exact hother c hc k hk
          · intro c hup
            change Function.update x.isDown code false c = false at hup
            change Function.update x.sentTo code none c = none
            by_cases hc : c = code
            · subst hc
              rw [Function.update_self]
            · rw [Function.update_of_ne hc] at hup ⊢
              exact h.up c hup

theorem matched_iff_focusKept {x : KeyWatch} (h : KeyInv x) (e : KeyEvent) :
    Matched x e <-> FocusKept x e := by
  cases e with
  | toggle => exact Iff.rfl
  | key w code pressed =>
      cases pressed with
      | true => exact Iff.rfl
      | false =>
          cases hsent : x.sentTo code with
          | none => simp [Matched, FocusKept, hsent]
          | some k =>
              have hiff := release_iff (h.sent code k hsent) w
              simp only [Matched, FocusKept, hsent, Option.some.injEq, forall_eq']
              exact hiff

def Balanced (x : KeyWatch) : Prop :=
  forall k c, x.makes k c ≤ x.breaks k c + (if x.sentTo c = some k then 1 else 0)

theorem keyStep_balanced {x : KeyWatch} (hinv : KeyInv x) (h : Balanced x) {e : KeyEvent}
    (hphysical : Physical x e) (hmatched : Matched x e) : Balanced (keyStep x e) := by
  cases e with
  | toggle => exact h
  | key w code pressed =>
      intro k c
      have hkc := h k c
      by_cases hc : c = code
      · subst hc
        cases pressed with
        | true =>
            have hnone : x.sentTo c = none := hinv.up c hphysical
            change counted x.makes c (reached x w c true) k c ≤ x.breaks k c +
              (if Function.update x.sentTo c (reached x w c true) c = some k then 1 else 0)
            rw [hnone, if_neg (by simp)] at hkc
            rw [Function.update_self]
            unfold counted
            by_cases hout : reached x w c true = some k
            · rw [if_pos ⟨hout, rfl⟩, if_pos hout]
              exact Nat.succ_le_succ hkc
            · rw [if_neg (fun hboth => hout hboth.1), if_neg hout]
              exact hkc
        | false =>
            change x.makes k c ≤ counted x.breaks c (reached x w c false) k c +
              (if Function.update x.sentTo c none c = some k then 1 else 0)
            rw [Function.update_self, if_neg (by simp), Nat.add_zero]
            unfold counted
            by_cases hsent : x.sentTo c = some k
            · rw [if_pos ⟨hmatched k hsent, rfl⟩]
              rw [if_pos hsent] at hkc
              exact hkc
            · rw [if_neg hsent, Nat.add_zero] at hkc
              split
              · exact Nat.le_succ_of_le hkc
              · exact hkc
      · have hcounts (counts : Sink -> Nat -> Nat) (out : Option Sink) :
            counted counts code out k c = counts k c :=
          if_neg (fun hboth => hc hboth.2)
        cases pressed with
        | true =>
            change counted x.makes code _ k c ≤ x.breaks k c +
              (if Function.update x.sentTo code _ c = some k then 1 else 0)
            rw [hcounts, Function.update_of_ne hc]
            exact hkc
        | false =>
            change x.makes k c ≤ counted x.breaks code _ k c +
              (if Function.update x.sentTo code none c = some k then 1 else 0)
            rw [hcounts, Function.update_of_ne hc]
            exact hkc

theorem run_balanced {x : KeyWatch} (hinv : KeyInv x) (h : Balanced x) {events : List KeyEvent}
    (hphysical : Steps keyStep Physical x events) (hmatched : Steps keyStep Matched x events) :
    KeyInv (run keyStep x events) ∧ Balanced (run keyStep x events) := by
  have hstep (x : KeyWatch) (e : KeyEvent) (hx : KeyInv x ∧ Balanced x)
      (he : Physical x e ∧ Matched x e) : KeyInv (keyStep x e) ∧ Balanced (keyStep x e) :=
    ⟨keyStep_inv hx.1 e, keyStep_balanced hx.1 hx.2 he.1 he.2⟩
  exact @Steps.invariant _ _ keyStep _ (fun x => KeyInv x ∧ Balanced x) hstep x ⟨hinv, h⟩ events
    (Steps.and_iff.mpr ⟨hphysical, hmatched⟩)

/-- Releases go where the presses went, and no sink is left holding a key that is
up, exactly along the runs that keep the focus of each held key. -/
theorem keys_released_iff_focus_kept (events : List KeyEvent) :
    (Steps keyStep Matched KeyWatch.initial events ∧
      (Steps keyStep Physical KeyWatch.initial events ->
        (forall c, (run keyStep KeyWatch.initial events).isDown c = false) ->
        forall k c, (run keyStep KeyWatch.initial events).makes k c ≤
          (run keyStep KeyWatch.initial events).breaks k c)) <->
      Steps keyStep FocusKept KeyWatch.initial events := by
  have hstep (x : KeyWatch) (e : KeyEvent) (hinv : KeyInv x) (_ : FocusKept x e) :
      KeyInv (keyStep x e) := keyStep_inv hinv e
  have hagree (x : KeyWatch) (e : KeyEvent) (hinv : KeyInv x) :
      Matched x e <-> FocusKept x e := matched_iff_focusKept hinv e
  have hiff : Steps keyStep Matched KeyWatch.initial events <->
      Steps keyStep FocusKept KeyWatch.initial events :=
    Steps.iff_of_invariant hstep hagree KeyInv.initial
  constructor
  · intro h
    exact hiff.mp h.1
  · intro h
    have hmatched := hiff.mpr h
    constructor
    · exact hmatched
    · intro hphysical hup k c
      have hbalanced : Balanced KeyWatch.initial := fun _ _ => Nat.zero_le _
      rcases run_balanced KeyInv.initial hbalanced hphysical hmatched with ⟨hinv, hend⟩
      have hkc := hend k c
      rw [hinv.up c (hup c), if_neg (by simp), Nat.add_zero] at hkc
      exact hkc

def boxWindows (focus : Bool) : Windows := ⟨true, focus, false, false, false, false⟩

/-- The box has the input when the key goes down, the main machine when it goes up. -/
def boxThenMain : List KeyEvent :=
  [ .key (boxWindows true) 30 true,
    .key (boxWindows false) 30 false ]

/-- A key pressed for the box and released after it lost the focus stays down in
the box, though no key is held. -/
theorem held_key_sticks :
    Steps keyStep Physical KeyWatch.initial boxThenMain ∧
      (forall c, (run keyStep KeyWatch.initial boxThenMain).isDown c = false) ∧
      ¬ Steps keyStep Matched KeyWatch.initial boxThenMain ∧
      (run keyStep KeyWatch.initial boxThenMain).makes .stbox 30 = 1 ∧
      (run keyStep KeyWatch.initial boxThenMain).breaks .stbox 30 = 0 := by
  have hsent : (keyStep KeyWatch.initial (.key (boxWindows true) 30 true)).sentTo 30 =
      some .stbox := by decide
  constructor
  · exact ⟨rfl, rfl, trivial⟩
  constructor
  · intro c
    change Function.update (Function.update (fun _ => false) 30 true) 30 false c = false
    rw [Function.update_idem]
    exact congrFun (Function.update_eq_self 30 (fun _ => false)) c
  constructor
  · intro h
    have hreached := h.2.1 .stbox hsent
    revert hreached
    decide
  · exact ⟨by decide, by decide⟩

end Ikbd
end PistormAtari
