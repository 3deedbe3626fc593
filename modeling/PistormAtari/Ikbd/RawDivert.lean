import PistormAtari.Foundation.Run

/-!
# The divert of the real keyboard

`kbd_usb.c` gives every byte of the real IKBD to the main machine, the STBOX
window or the DOS window.  Packets are framed on the way, and the owner of a
packet is decided at its header.  A run is watched beside the code: what is still
owed to the packet, who owned its header, and who received each key's make.
-/

namespace PistormAtari
namespace Ikbd

open Foundation

/-!
## The windows
-/

structure Windows where
  stboxStarted : Bool
  stboxFocus : Bool
  dosConnected : Bool
  dosViewReady : Bool
  dosFocus : Bool
  dosCapture : Bool
deriving DecidableEq, Repr

def Windows.stboxRunning (w : Windows) : Bool := w.stboxStarted
def Windows.psdosViewOpen (w : Windows) : Bool := w.dosConnected && w.dosViewReady
def Windows.psdosPadsWanted (w : Windows) : Bool :=
  w.dosConnected && w.dosViewReady && w.dosFocus
def Windows.psdosWantsInput (w : Windows) : Bool :=
  w.dosCapture && w.dosFocus && w.dosConnected && w.dosViewReady

inductive Sink where
  | main
  | stbox
  | dos
deriving DecidableEq, Repr

def Windows.isOpen (w : Windows) : Sink -> Bool
  | .main => true
  | .stbox => w.stboxRunning
  | .dos => w.psdosViewOpen

/-!
## The divert
-/

/-- The statics of the divert; `route` is `stbox_route_enabled`. -/
structure RawDivert where
  left : Nat
  toBox : Sink
  lastUs : BitVec 64
  keyOwner : BitVec 7 -> Sink
  route : Bool

def RawDivert.initial : RawDivert where
  left := 0
  toBox := .main
  lastUs := 0
  keyOwner := fun _ => .main
  route := true

def rawPktLen (h : BitVec 8) : Nat :=
  match h with
  | 0xF6#8 => 7
  | 0xF7#8 => 5
  | 0xF8#8 => 2
  | 0xF9#8 => 2
  | 0xFA#8 => 2
  | 0xFB#8 => 2
  | 0xFC#8 => 6
  | 0xFD#8 => 2
  | 0xFE#8 => 1
  | 0xFF#8 => 1
  | _ => 0

def stboxWantsInput (route : Bool) (w : Windows) : Bool :=
  route && w.stboxRunning && w.stboxFocus

def rawSinkWanted (route : Bool) (w : Windows) : Sink :=
  if w.psdosWantsInput then .dos
  else if stboxWantsInput route w then .stbox
  else .main

def rawDivertPossible (w : Windows) : Bool :=
  w.stboxRunning || w.psdosViewOpen

def rawResync (s : RawDivert) (now : BitVec 64) : RawDivert :=
  if s.left ≠ 0 ∧ now - s.lastUs > 4000 then { s with left := 0 } else s

def stboxDivertNext (s : RawDivert) (mainPending : Bool) (w : Windows) (now : BitVec 64) :
    RawDivert × Sink :=
  if mainPending || !rawDivertPossible w then (s, .main)
  else
    let s := rawResync s now
    (s, if s.left ≠ 0 then s.toBox else rawSinkWanted s.route w)

def togglesRoute (w : Windows) (v : BitVec 8) : Bool :=
  v == 0x01 && w.stboxRunning && w.stboxFocus && !w.psdosWantsInput

def packetOwner (route : Bool) (w : Windows) (v : BitVec 8) : Sink :=
  if rawSinkWanted route w = .main ∧ (v = 0xFE ∨ v = 0xFF) ∧ w.psdosPadsWanted then .dos
  else rawSinkWanted route w

def ownerOrMain (w : Windows) (k : Sink) : Sink :=
  if (k = .stbox ∧ !w.stboxRunning) ∨ (k = .dos ∧ !w.psdosViewOpen) then .main else k

/-- The header part of `stbox_divert_real_byte`, past the ESC toggle. -/
def takeHeader (s : RawDivert) (w : Windows) (v : BitVec 8) : RawDivert :=
  let s := { s with left := rawPktLen v, toBox := packetOwner s.route w v }
  let s :=
    if s.left = 0 then
      let sc : BitVec 7 := v.setWidth 7
      if v &&& 0x80 = 0 then { s with keyOwner := Function.update s.keyOwner sc s.toBox }
      else
        { s with toBox := s.keyOwner sc, keyOwner := Function.update s.keyOwner sc .main }
    else s
  { s with toBox := ownerOrMain w s.toBox }

/-- `stbox_divert_real_byte`: the sink the byte goes to, none when it is swallowed
as the ESC toggle. -/
def stboxDivertRealByte (s : RawDivert) (w : Windows) (now : BitVec 64) (v : BitVec 8) :
    RawDivert × Option Sink :=
  if rawDivertPossible w = false then
    ({ s with left := 0, keyOwner := fun _ => .main }, some .main)
  else
    let s := { rawResync s now with lastUs := now }
    if s.left = 0 then
      if togglesRoute w v then ({ s with route := !s.route }, none)
      else
        let s := takeHeader s w v
        (s, some s.toBox)
    else ({ s with left := s.left - 1 }, some s.toBox)

/-!
## Watched runs
-/

/-- What reaches the divert: a byte popped from the real ACIA, a look ahead by a
status shim, and a toggle of the routing from the USB keyboard. -/
inductive RawEvent where
  | byte (w : Windows) (now : BitVec 64) (v : BitVec 8)
  | peek (mainPending : Bool) (w : Windows) (now : BitVec 64)
  | toggle
deriving DecidableEq, Repr

/-- The divert beside the packet on the line: when the last byte came, the bytes
owed to the packet, the owner of its header, whether a window was open then, and
the sink that received each held key's make, as long as it has stayed open. -/
structure Watch where
  raw : RawDivert
  last : BitVec 64
  owed : Nat
  owner : Sink
  possible : Bool
  held : BitVec 7 -> Option Sink

def Watch.initial : Watch where
  raw := RawDivert.initial
  last := 0
  owed := 0
  owner := .main
  possible := false
  held := fun _ => none

def stillHeld (w : Windows) (held : BitVec 7 -> Option Sink) : BitVec 7 -> Option Sink :=
  fun sc => (held sc).filter w.isOpen

def heldAfter (w : Windows) (v : BitVec 8) (owner : Sink) (held : BitVec 7 -> Option Sink) :
    BitVec 7 -> Option Sink :=
  if togglesRoute w v ∨ rawPktLen v ≠ 0 then held
  else Function.update held (v.setWidth 7) (if v &&& 0x80 = 0 then some owner else none)

def watchStep (x : Watch) : RawEvent -> Watch
  | .byte w now v =>
      let raw := (stboxDivertRealByte x.raw w now v).1
      let held := stillHeld w x.held
      if x.owed ≠ 0 then { x with raw := raw, last := now, owed := x.owed - 1, held := held }
      else
        let owner := packetOwner x.raw.route w v
        { raw := raw
          last := now
          owed := rawPktLen v
          owner := owner
          possible := rawDivertPossible w
          held := heldAfter w v owner held }
  | .peek mainPending w now =>
      { x with raw := (stboxDivertNext x.raw mainPending w now).1 }
  | .toggle => { x with raw := { x.raw with route := !x.raw.route } }

/-- Inside a packet no first window opens, no last one closes, and no byte and no
look ahead comes more than 4 ms after the byte before. -/
def Steady (x : Watch) : RawEvent -> Prop
  | .byte w now _ => x.owed ≠ 0 ->
      rawDivertPossible w = x.possible ∧ ¬ now - x.last > 4000
  | .peek _ w now => x.owed ≠ 0 -> rawDivertPossible w -> ¬ now - x.last > 4000
  | .toggle => True

instance (x : Watch) : (e : RawEvent) -> Decidable (Steady x e)
  | .byte w now _ => inferInstanceAs (Decidable (x.owed ≠ 0 ->
      rawDivertPossible w = x.possible ∧ ¬ now - x.last > 4000))
  | .peek _ w now => inferInstanceAs (Decidable (x.owed ≠ 0 -> rawDivertPossible w = true ->
      ¬ now - x.last > 4000))
  | .toggle => isTrue trivial

/-- Where each byte goes: data to the owner of the header, a break to the sink
that holds the key down, every other header to its owner, and the ESC toggle
nowhere. -/
def Routed (x : Watch) : RawEvent -> Prop
  | .byte w now v =>
      let out := (stboxDivertRealByte x.raw w now v).2
      if x.owed ≠ 0 then out = some x.owner
      else if togglesRoute w v then out = none
      else if rawPktLen v = 0 ∧ v &&& 0x80 ≠ 0 then
        (exists k, out = some k) ∧
          forall k, stillHeld w x.held (v.setWidth 7) = some k -> out = some k
      else out = some (packetOwner x.raw.route w v)
  | _ => True

/-!
## Owners
-/

theorem rawSinkWanted_isOpen (route : Bool) (w : Windows) :
    w.isOpen (rawSinkWanted route w) = true := by
  unfold rawSinkWanted
  split
  · rename_i hdos
    unfold Windows.psdosWantsInput at hdos
    simp only [Bool.and_eq_true] at hdos
    unfold Windows.isOpen Windows.psdosViewOpen
    simp [hdos.1.2, hdos.2]
  · split
    · rename_i hbox
      unfold stboxWantsInput at hbox
      simp only [Bool.and_eq_true] at hbox
      exact hbox.1.2
    · rfl

theorem packetOwner_isOpen (route : Bool) (w : Windows) (v : BitVec 8) :
    w.isOpen (packetOwner route w v) = true := by
  unfold packetOwner
  split
  · rename_i hpads
    have hwanted := hpads.2.2
    unfold Windows.psdosPadsWanted at hwanted
    simp only [Bool.and_eq_true] at hwanted
    unfold Windows.isOpen Windows.psdosViewOpen
    simp [hwanted.1.1, hwanted.1.2]
  · exact rawSinkWanted_isOpen route w

variable {w : Windows}

theorem ownerOrMain_of_isOpen {k : Sink} (h : w.isOpen k = true) :
    ownerOrMain w k = k := by
  unfold ownerOrMain
  rw [if_neg]
  rintro (⟨rfl, hclosed⟩ | ⟨rfl, hclosed⟩)
  · have hopen : w.stboxRunning = true := h
    rw [hopen] at hclosed
    cases hclosed
  · have hopen : w.psdosViewOpen = true := h
    rw [hopen] at hclosed
    cases hclosed

theorem eq_main_of_isOpen (hnone : rawDivertPossible w = false) {k : Sink}
    (h : w.isOpen k = true) : k = .main := by
  unfold rawDivertPossible at hnone
  rw [Bool.or_eq_false_iff] at hnone
  cases k with
  | main => rfl
  | stbox =>
      have hopen : w.stboxRunning = true := h
      rw [hnone.1] at hopen
      cases hopen
  | dos =>
      have hopen : w.psdosViewOpen = true := h
      rw [hnone.2] at hopen
      cases hopen

theorem togglesRoute_possible {v : BitVec 8} (h : togglesRoute w v = true) :
    rawDivertPossible w = true := by
  unfold togglesRoute at h
  simp only [Bool.and_eq_true] at h
  unfold rawDivertPossible
  rw [h.1.1.2]
  rfl

theorem stillHeld_eq_some {held : BitVec 7 -> Option Sink} {sc : BitVec 7}
    {k : Sink} (h : stillHeld w held sc = some k) : held sc = some k ∧ w.isOpen k = true := by
  unfold stillHeld at h
  exact Option.filter_eq_some_iff.mp h

/-!
## The divert keeps step with the packets
-/

structure InStep (x : Watch) : Prop where
  left : x.raw.left = if x.possible then x.owed else 0
  tracked : x.owed ≠ 0 -> x.possible = true -> x.raw.toBox = x.owner
  untracked : x.owed ≠ 0 -> x.possible = false -> x.owner = .main
  timed : x.owed ≠ 0 -> x.possible = true -> x.raw.lastUs = x.last
  held : forall sc k, x.held sc = some k -> x.raw.keyOwner sc = k

theorem inStep_initial : InStep Watch.initial := by
  constructor
  · rfl
  · intro h
    exact absurd rfl h
  · intro h
    exact absurd rfl h
  · intro h
    exact absurd rfl h
  · intro sc k h
    cases h

variable {x : Watch}

theorem InStep.boundary (h : InStep x) (howed : x.owed = 0) : x.raw.left = 0 := by
  rw [h.left, howed, ite_self]

theorem rawResync_boundary {s : RawDivert} (h : s.left = 0) (now : BitVec 64) :
    rawResync s now = s := by
  unfold rawResync
  rw [if_neg (fun hgap => hgap.1 h)]

theorem rawResync_steady {s : RawDivert} {now : BitVec 64} (h : ¬ now - s.lastUs > 4000) :
    rawResync s now = s := by
  unfold rawResync
  rw [if_neg (fun hgap => h hgap.2)]

theorem divert_impossible (h : rawDivertPossible w = false) (s : RawDivert)
    (now : BitVec 64) (v : BitVec 8) :
    stboxDivertRealByte s w now v =
      ({ s with left := 0, keyOwner := fun _ => .main }, some .main) := by
  unfold stboxDivertRealByte
  rw [if_pos h]

theorem divert_data (h : rawDivertPossible w = true) {s : RawDivert}
    {now : BitVec 64} (hgap : ¬ now - s.lastUs > 4000) (hleft : s.left ≠ 0) (v : BitVec 8) :
    stboxDivertRealByte s w now v =
      ({ s with lastUs := now, left := s.left - 1 }, some s.toBox) := by
  unfold stboxDivertRealByte
  rw [h, if_neg Bool.true_eq_false_eq_False, rawResync_steady hgap]
  dsimp only
  rw [if_neg hleft]

theorem divert_toggle {v : BitVec 8} (htoggle : togglesRoute w v = true)
    {s : RawDivert} (hleft : s.left = 0) (now : BitVec 64) :
    stboxDivertRealByte s w now v = ({ s with lastUs := now, route := !s.route }, none) := by
  have h := togglesRoute_possible htoggle
  unfold stboxDivertRealByte
  rw [h, if_neg Bool.true_eq_false_eq_False, rawResync_boundary hleft]
  dsimp only
  rw [if_pos hleft, if_pos htoggle]

theorem divert_header (h : rawDivertPossible w = true) {v : BitVec 8}
    (htoggle : togglesRoute w v = false) {s : RawDivert} (hleft : s.left = 0) (now : BitVec 64) :
    stboxDivertRealByte s w now v =
      (takeHeader { s with lastUs := now } w v,
        some (takeHeader { s with lastUs := now } w v).toBox) := by
  unfold stboxDivertRealByte
  rw [h, if_neg Bool.true_eq_false_eq_False, rawResync_boundary hleft]
  dsimp only
  rw [if_pos hleft, htoggle, if_neg Bool.false_ne_true]

theorem takeHeader_owner {s : RawDivert} {w : Windows} {v : BitVec 8}
    (hbreak : ¬ (rawPktLen v = 0 ∧ v &&& 0x80 ≠ 0)) :
    (takeHeader s w v).toBox = packetOwner s.route w v ∧
      (takeHeader s w v).keyOwner =
        if rawPktLen v = 0 then
          Function.update s.keyOwner (v.setWidth 7) (packetOwner s.route w v)
        else s.keyOwner := by
  have howner := ownerOrMain_of_isOpen (packetOwner_isOpen s.route w v)
  unfold takeHeader
  dsimp only
  by_cases hkey : rawPktLen v = 0
  · have hmake : v &&& 0x80 = 0 := by
      by_contra hne
      exact hbreak ⟨hkey, hne⟩
    rw [if_pos hkey, if_pos hmake, if_pos hkey]
    exact ⟨howner, rfl⟩
  · rw [if_neg hkey, if_neg hkey]
    exact ⟨howner, rfl⟩

theorem takeHeader_break {s : RawDivert} {w : Windows} {v : BitVec 8} (hkey : rawPktLen v = 0)
    (hbreak : v &&& 0x80 ≠ 0) :
    (takeHeader s w v).toBox = ownerOrMain w (s.keyOwner (v.setWidth 7)) ∧
      (takeHeader s w v).keyOwner = Function.update s.keyOwner (v.setWidth 7) .main := by
  unfold takeHeader
  dsimp only
  rw [if_pos hkey, if_neg hbreak]
  exact ⟨rfl, rfl⟩

theorem takeHeader_left (s : RawDivert) (w : Windows) (v : BitVec 8) :
    (takeHeader s w v).left = rawPktLen v := by
  unfold takeHeader
  dsimp only
  split
  · split <;> rfl
  · rfl

theorem takeHeader_lastUs (s : RawDivert) (w : Windows) (v : BitVec 8) :
    (takeHeader s w v).lastUs = s.lastUs := by
  unfold takeHeader
  dsimp only
  split
  · split <;> rfl
  · rfl

theorem InStep.stillHeld (h : InStep x) (w : Windows) (sc : BitVec 7) (k : Sink)
    (hk : Ikbd.stillHeld w x.held sc = some k) : x.raw.keyOwner sc = k :=
  h.held sc k (stillHeld_eq_some hk).1

theorem InStep.data (h : InStep x) (howed : x.owed ≠ 0) {w : Windows}
    {now : BitVec 64} {v : BitVec 8} (hsteady : Steady x (.byte w now v)) :
    Routed x (.byte w now v) ∧ InStep (watchStep x (.byte w now v)) := by
  rcases hsteady howed with ⟨hpossible, hgap⟩
  have hstep : watchStep x (.byte w now v) =
      { x with
        raw := (stboxDivertRealByte x.raw w now v).1
        last := now
        owed := x.owed - 1
        held := Ikbd.stillHeld w x.held } := by
    unfold watchStep
    dsimp only
    rw [if_pos howed]
  have hrouted : Routed x (.byte w now v) <->
      (stboxDivertRealByte x.raw w now v).2 = some x.owner := by
    unfold Routed
    dsimp only
    rw [if_pos howed]
  rw [hstep, hrouted]
  cases hopen : x.possible with
  | false =>
      rw [hopen] at hpossible
      have howner := h.untracked howed hopen
      rw [divert_impossible hpossible, howner]
      refine ⟨rfl, ?_⟩
      constructor
      · rfl
      · intro _ htrue
        cases htrue
      · intro _ _
        rfl
      · intro _ htrue
        cases htrue
      · intro sc k hk
        exact (eq_main_of_isOpen hpossible (stillHeld_eq_some hk).2).symm
  | true =>
      rw [hopen] at hpossible
      have hleft : x.raw.left = x.owed := by
        rw [h.left, hopen, if_pos rfl]
      rw [← h.timed howed hopen] at hgap
      rw [divert_data hpossible hgap (by rw [hleft]; exact howed), h.tracked howed hopen]
      refine ⟨rfl, ?_⟩
      constructor
      · change x.raw.left - 1 = x.owed - 1
        rw [hleft]
      · intro _ _
        rfl
      · intro _ hfalse
        cases hfalse
      · intro _ _
        rfl
      · exact h.stillHeld w

theorem watchStep_header (howed : x.owed = 0) (w : Windows) (now : BitVec 64) (v : BitVec 8) :
    watchStep x (.byte w now v) =
      { raw := (stboxDivertRealByte x.raw w now v).1
        last := now
        owed := rawPktLen v
        owner := packetOwner x.raw.route w v
        possible := rawDivertPossible w
        held := heldAfter w v (packetOwner x.raw.route w v) (Ikbd.stillHeld w x.held) } := by
  unfold watchStep
  dsimp only
  rw [if_neg (not_not.mpr howed)]

theorem InStep.heldAfter (h : InStep x) {w : Windows} {v : BitVec 8} {owner : Sink}
    {keyOwner : BitVec 7 -> Sink}
    (hsame : togglesRoute w v = true ∨ rawPktLen v ≠ 0 -> keyOwner = x.raw.keyOwner)
    (hmake : togglesRoute w v = false -> rawPktLen v = 0 -> v &&& 0x80 = 0 ->
      keyOwner = Function.update x.raw.keyOwner (v.setWidth 7) owner)
    (hbreak : togglesRoute w v = false -> rawPktLen v = 0 -> v &&& 0x80 ≠ 0 ->
      keyOwner = Function.update x.raw.keyOwner (v.setWidth 7) .main)
    (sc : BitVec 7) (k : Sink)
    (hk : Ikbd.heldAfter w v owner (Ikbd.stillHeld w x.held) sc = some k) : keyOwner sc = k := by
  unfold Ikbd.heldAfter at hk
  by_cases hplain : togglesRoute w v = true ∨ rawPktLen v ≠ 0
  · rw [if_pos hplain] at hk
    rw [hsame hplain]
    exact h.stillHeld w sc k hk
  · rw [if_neg hplain] at hk
    rw [not_or] at hplain
    have htoggle : togglesRoute w v = false := by simpa using hplain.1
    have hkey : rawPktLen v = 0 := not_not.mp hplain.2
    by_cases hsc : sc = v.setWidth 7
    · rw [hsc, Function.update_self] at hk
      rw [hsc]
      by_cases hm : v &&& 0x80 = 0
      · rw [if_pos hm] at hk
        injection hk with hk
        rw [hmake htoggle hkey hm, Function.update_self, hk]
      · rw [if_neg hm] at hk
        cases hk
    · rw [Function.update_of_ne hsc] at hk
      have hold := h.stillHeld w sc k hk
      by_cases hm : v &&& 0x80 = 0
      · rw [hmake htoggle hkey hm, Function.update_of_ne hsc, hold]
      · rw [hbreak htoggle hkey hm, Function.update_of_ne hsc, hold]

theorem header_alone (howed : x.owed = 0) {w : Windows}
    (hnone : rawDivertPossible w = false) (now : BitVec 64) (v : BitVec 8) :
    Routed x (.byte w now v) ∧ InStep (watchStep x (.byte w now v)) := by
  have howner : packetOwner x.raw.route w v = .main :=
    eq_main_of_isOpen hnone (packetOwner_isOpen _ w v)
  have htoggle : togglesRoute w v = false := by
    cases hcase : togglesRoute w v with
    | false => rfl
    | true =>
        have hopen := togglesRoute_possible hcase
        rw [hnone] at hopen
        cases hopen
  constructor
  · unfold Routed
    dsimp only
    rw [if_neg (not_not.mpr howed), htoggle, if_neg Bool.false_ne_true,
      divert_impossible hnone, howner]
    split
    · refine ⟨⟨.main, rfl⟩, ?_⟩
      intro k hk
      rw [eq_main_of_isOpen hnone (stillHeld_eq_some hk).2]
    · rfl
  · rw [watchStep_header howed, divert_impossible hnone, howner, hnone]
    constructor
    · rfl
    · intro _ htrue
      cases htrue
    · intro _ _
      rfl
    · intro _ htrue
      cases htrue
    · intro sc k hk
      change Ikbd.heldAfter w v .main (Ikbd.stillHeld w x.held) sc = some k at hk
      change Sink.main = k
      unfold Ikbd.heldAfter at hk
      split at hk
      · exact (eq_main_of_isOpen hnone (stillHeld_eq_some hk).2).symm
      · by_cases hsc : sc = v.setWidth 7
        · rw [hsc, Function.update_self] at hk
          split at hk
          · injection hk
          · cases hk
        · rw [Function.update_of_ne hsc] at hk
          exact (eq_main_of_isOpen hnone (stillHeld_eq_some hk).2).symm

theorem InStep.header_open (h : InStep x) (howed : x.owed = 0) {w : Windows}
    (hopen : rawDivertPossible w = true) (now : BitVec 64) (v : BitVec 8) :
    Routed x (.byte w now v) ∧ InStep (watchStep x (.byte w now v)) := by
  have hleft := h.boundary howed
  cases htoggle : togglesRoute w v with
  | true =>
      have hesc : v = 0x01 := by
        unfold togglesRoute at htoggle
        simp only [Bool.and_eq_true, beq_iff_eq] at htoggle
        exact htoggle.1.1.1
      have hlen : rawPktLen v = 0 := by
        rw [hesc]
        rfl
      have hdivert := divert_toggle htoggle hleft now
      constructor
      · unfold Routed
        dsimp only
        rw [if_neg (not_not.mpr howed), if_pos htoggle, hdivert]
      · rw [watchStep_header howed, hdivert]
        constructor
        · change x.raw.left = if rawDivertPossible w = true then rawPktLen v else 0
          rw [hleft, hlen, ite_self]
        · intro hne
          exact absurd hlen hne
        · intro hne
          exact absurd hlen hne
        · intro hne
          exact absurd hlen hne
        · apply h.heldAfter
          · intro _
            rfl
          · intro hfalse
            rw [htoggle] at hfalse
            cases hfalse
          · intro hfalse
            rw [htoggle] at hfalse
            cases hfalse
  | false =>
      have hdivert := divert_header hopen htoggle hleft now
      have hlast := takeHeader_left { x.raw with lastUs := now } w v
      have htracked : rawPktLen v ≠ 0 ->
          (takeHeader { x.raw with lastUs := now } w v).toBox = packetOwner x.raw.route w v :=
        fun hne => (@takeHeader_owner { x.raw with lastUs := now } w v (fun hb => hne hb.1)).1
      constructor
      · unfold Routed
        dsimp only
        rw [if_neg (not_not.mpr howed), htoggle, if_neg Bool.false_ne_true, hdivert]
        by_cases hbreak : rawPktLen v = 0 ∧ v &&& 0x80 ≠ 0
        · rw [if_pos hbreak]
          refine ⟨⟨_, rfl⟩, ?_⟩
          intro k hk
          have hkopen := (stillHeld_eq_some hk).2
          have hkowner := h.stillHeld w _ k hk
          have hbox := (@takeHeader_break { x.raw with lastUs := now } w v hbreak.1 hbreak.2).1
          rw [hbox]
          change some (ownerOrMain w (x.raw.keyOwner (v.setWidth 7))) = some k
          rw [hkowner, ownerOrMain_of_isOpen hkopen]
        · rw [if_neg hbreak]
          exact congrArg some (@takeHeader_owner { x.raw with lastUs := now } w v hbreak).1
      · rw [watchStep_header howed, hdivert]
        constructor
        · change (takeHeader { x.raw with lastUs := now } w v).left =
            if rawDivertPossible w = true then rawPktLen v else 0
          rw [hlast, hopen, if_pos rfl]
        · intro hne _
          exact htracked hne
        · intro _ hfalse
          have hfalse' : rawDivertPossible w = false := hfalse
          rw [hopen] at hfalse'
          cases hfalse'
        · intro _ _
          exact takeHeader_lastUs _ w v
        · apply h.heldAfter
          · rintro (htrue | hne)
            · rw [htoggle] at htrue
              cases htrue
            · have hkeys := (@takeHeader_owner { x.raw with lastUs := now } w v
                (fun hb => hne hb.1)).2
              rw [if_neg hne] at hkeys
              exact hkeys
          · intro _ hkey hmake
            have hkeys := (@takeHeader_owner { x.raw with lastUs := now } w v
              (fun hb => hb.2 hmake)).2
            rw [if_pos hkey] at hkeys
            exact hkeys
          · intro _ hkey hbreak
            exact (@takeHeader_break { x.raw with lastUs := now } w v hkey hbreak).2

theorem InStep.step (h : InStep x) (e : RawEvent) (hsteady : Steady x e) :
    Routed x e ∧ InStep (watchStep x e) := by
  cases e with
  | toggle => exact ⟨trivial, ⟨h.left, h.tracked, h.untracked, h.timed, h.held⟩⟩
  | peek mainPending w now =>
      refine ⟨trivial, ?_⟩
      have hsame : (stboxDivertNext x.raw mainPending w now).1 = x.raw := by
        unfold stboxDivertNext
        split
        · rfl
        · rename_i hlook
          have hpossible : rawDivertPossible w = true := by
            simp only [Bool.or_eq_true, Bool.not_eq_true'] at hlook
            simpa using fun hno => hlook (Or.inr hno)
          by_cases howed : x.owed = 0
          · exact rawResync_boundary (h.boundary howed) now
          · have hgap := hsteady howed hpossible
            cases hopen : x.possible with
            | false =>
                apply rawResync_boundary
                rw [h.left, hopen, if_neg Bool.false_ne_true]
            | true =>
                rw [← h.timed howed hopen] at hgap
                exact rawResync_steady hgap
      change InStep { x with raw := (stboxDivertNext x.raw mainPending w now).1 }
      rw [hsame]
      exact h
  | byte w now v =>
      by_cases howed : x.owed = 0
      · cases hopen : rawDivertPossible w with
        | false => exact header_alone howed hopen now v
        | true => exact h.header_open howed hopen now v
      · exact h.data howed hsteady

/-- In a steady run every byte is routed to the sink that owns it. -/
theorem steady_run_routed {events : List RawEvent}
    (h : Steps watchStep Steady Watch.initial events) :
    Steps watchStep Routed Watch.initial events :=
  Steps.imp_of_invariant (fun _ e hx hok => hx.step e hok) inStep_initial h

def boxFocused : Windows := ⟨true, true, false, false, false, false⟩
def boxBehind : Windows := ⟨true, false, false, false, false, false⟩

def noWindow : Windows := ⟨false, false, false, false, false, false⟩

/-- A mouse packet long after the start with no window open, then a key held and a
mouse packet begun with the box focused, both ended behind it. -/
def acrossFocus : List RawEvent :=
  [.byte noWindow 90000 0xF8, .byte noWindow 90300 0x02, .byte noWindow 90600 0x03,
    .byte boxFocused 95000 0x1E, .byte boxFocused 97000 0xF8, .peek false boxBehind 98000,
    .byte boxBehind 98300 0x05, .byte boxBehind 99600 0xFB, .byte boxBehind 99999 0x9E]

theorem steady_run_routed_across_focus : Steps watchStep Routed Watch.initial acrossFocus :=
  steady_run_routed (by decide)

/-- The ESC make with the box focused reaches no sink. -/
theorem esc_reaches_no_sink :
    ¬ exists k, (stboxDivertRealByte RawDivert.initial boxFocused 0 0x01).2 = some k := by
  have hnone : (stboxDivertRealByte RawDivert.initial boxFocused 0 0x01).2 = none := by
    decide
  rintro ⟨k, hk⟩
  rw [hnone] at hk
  cases hk

end Ikbd
end PistormAtari
