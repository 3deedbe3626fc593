import PistormAtari.Foundation.FrameSplit

/-!
# Command framing of the two IKBD parsers

The guest's bytes to the keyboard processor are collected twice: `stbox.c`
collects what the boxed machine sends (`ikbd_rx`), `kbd_usb.c` what the main
machine sends (`kbd_usb_tx_snoop`).  Each parser is modelled with the fields it
reads, and cut streams are compared.
-/

namespace PistormAtari
namespace Ikbd

open Foundation

abbrev Byte := BitVec 8

/-!
## The parser of `stbox.c`
-/

def ikbdCmdLen (c : Byte) : Nat :=
  match c with
  | 0x07#8 => 1
  | 0x09#8 => 4
  | 0x0A#8 => 2
  | 0x0B#8 => 2
  | 0x0C#8 => 2
  | 0x0E#8 => 5
  | 0x17#8 => 1
  | 0x19#8 => 6
  | 0x1B#8 => 6
  | 0x20#8 => 3
  | 0x21#8 => 2
  | 0x22#8 => 3
  | 0x80#8 => 1
  | _ => 0

/-- The command assembly of the emulated ACIA: `cmd` holds the `cmdlen` bytes
collected so far, in a buffer of eight. -/
structure Acia where
  cmd : List Byte
  cmdneed : Nat
deriving DecidableEq, Repr

def Acia.cmdlen (a : Acia) : Nat := a.cmd.length

def cmdSize : Nat := 8

def Acia.collect (a : Acia) (b : Byte) : Acia :=
  if a.cmdlen = 0 then { cmd := [b], cmdneed := 1 + ikbdCmdLen b }
  else if a.cmdlen < cmdSize then { a with cmd := a.cmd ++ [b] }
  else a

def ikbdRx (a : Acia) (b : Byte) : Acia :=
  if (a.collect b).cmdneed ≤ (a.collect b).cmdlen then { a.collect b with cmd := [] }
  else a.collect b

/-- The call of `ikbd_command` a byte leads to, with the bytes in `acia.cmd`. -/
def ikbdCommands (a : Acia) (b : Byte) : List (List Byte) :=
  if (a.collect b).cmdneed ≤ (a.collect b).cmdlen then [(a.collect b).cmd] else []

def Acia.idle (a : Acia) : Bool := a.cmdlen == 0

def aciaReset : Acia := { cmd := [], cmdneed := 0 }

def stboxWhole : List Byte -> Bool
  | [] => false
  | c :: params => decide (ikbdCmdLen c ≤ params.length)

structure Acia.Holds (a : Acia) (cur : List Byte) : Prop where
  cmd_eq : a.cmd = cur
  need_eq : forall c params, cur = c :: params -> a.cmdneed = 1 + ikbdCmdLen c
  short : forall c params, cur = c :: params -> params.length < ikbdCmdLen c

variable (c : Byte)

theorem ikbdCmdLen_le : ikbdCmdLen c ≤ 6 := by
  unfold ikbdCmdLen
  split <;> decide

theorem Acia.Holds.collect {a : Acia} {cur : List Byte} (h : a.Holds cur) (b : Byte) :
    (a.collect b).cmd = cur ++ [b] ∧
      forall c params, cur ++ [b] = c :: params -> (a.collect b).cmdneed = 1 + ikbdCmdLen c := by
  cases cur with
  | nil =>
      have hlen : a.cmdlen = 0 := by
        unfold Acia.cmdlen
        rw [h.cmd_eq, List.length_nil]
      unfold Acia.collect
      rw [if_pos hlen]
      constructor
      · rfl
      · intro c params heq
        injection heq with hc
        rw [hc]
  | cons c params =>
      have hshort := h.short c params rfl
      have hle := ikbdCmdLen_le c
      have hlen : a.cmdlen = params.length + 1 := by
        unfold Acia.cmdlen
        rw [h.cmd_eq, List.length_cons]
      have hpos : ¬ a.cmdlen = 0 := by lia
      have hsize : a.cmdlen < cmdSize := by
        unfold cmdSize
        lia
      unfold Acia.collect
      rw [if_neg hpos, if_pos hsize]
      constructor
      · rw [h.cmd_eq]
      · intro c' params' heq
        injection heq with hc
        rw [← hc]
        exact h.need_eq c params rfl

theorem Acia.Holds.complete_iff {a : Acia} {cur : List Byte} (h : a.Holds cur) (b : Byte) :
    (a.collect b).cmdneed ≤ (a.collect b).cmdlen <-> stboxWhole (cur ++ [b]) = true := by
  have hcollect := h.collect b
  unfold Acia.cmdlen
  rw [hcollect.1]
  cases hcur : cur ++ [b] with
  | nil => simp at hcur
  | cons c params =>
      rw [hcollect.2 c params hcur, List.length_cons]
      unfold stboxWhole
      rw [decide_eq_true_iff]
      lia

theorem ikbdRx_collects :
    Collects ikbdRx Acia.idle ikbdCommands stboxWhole (fun frame => [frame]) Acia.Holds where
  idle_iff := by
    intro a cur h b
    have hcollect := h.collect b
    have hiff := h.complete_iff b
    unfold ikbdRx Acia.idle
    by_cases hw : stboxWhole (cur ++ [b]) = true
    · rw [if_pos (hiff.mpr hw), hw]
      rfl
    · rw [if_neg fun hle => hw (hiff.mp hle), Bool.eq_false_iff.mpr hw]
      unfold Acia.cmdlen
      rw [hcollect.1]
      simp
  holds_next := by
    intro a cur h b
    have hcollect := h.collect b
    have hiff := h.complete_iff b
    unfold ikbdRx
    by_cases hw : stboxWhole (cur ++ [b]) = true
    · rw [if_pos (hiff.mpr hw), if_pos hw]
      exact ⟨rfl, fun _ _ heq => (List.cons_ne_nil _ _ heq.symm).elim,
        fun _ _ heq => (List.cons_ne_nil _ _ heq.symm).elim⟩
    · rw [if_neg fun hle => hw (hiff.mp hle), if_neg hw]
      refine ⟨hcollect.1, hcollect.2, ?_⟩
      intro c params heq
      rw [heq] at hw
      unfold stboxWhole at hw
      rw [decide_eq_true_iff] at hw
      exact Nat.not_le.mp hw
  acts_eq := by
    intro a cur h b
    have hcollect := h.collect b
    have hiff := h.complete_iff b
    unfold ikbdCommands
    by_cases hw : stboxWhole (cur ++ [b]) = true
    · rw [if_pos (hiff.mpr hw), if_pos hw, hcollect.1]
    · rw [if_neg fun hle => hw (hiff.mp hle), if_neg hw]

theorem aciaReset_holds : aciaReset.Holds [] :=
  ⟨rfl, fun _ _ heq => (List.cons_ne_nil _ _ heq.symm).elim,
    fun _ _ heq => (List.cons_ne_nil _ _ heq.symm).elim⟩

/-- The commands the parser of `stbox.c` finds in a stream, after a reset. -/
def stboxFrames (bytes : List Byte) : List (List Byte) :=
  cuts ikbdRx Acia.idle aciaReset [] bytes

def stboxExecuted (bytes : List Byte) : List (List Byte) :=
  emitted ikbdRx ikbdCommands aciaReset bytes

/-!
## The parser of `kbd_usb.c`
-/

def ikbdParamLen (c : Byte) : Nat :=
  match c with
  | 0x80#8 => 1
  | 0x07#8 => 1
  | 0x09#8 => 4
  | 0x0A#8 => 2
  | 0x0B#8 => 2
  | 0x0C#8 => 2
  | 0x0E#8 => 5
  | 0x17#8 => 1
  | 0x19#8 => 6
  | 0x1B#8 => 6
  | 0x20#8 => 3
  | 0x21#8 => 2
  | 0x22#8 => 2
  | _ => 0

/-- The command parameter consumption of the snooped IKBD state; `param` holds
the `param_n` bytes stored so far. -/
structure Snoop where
  pendingCmd : Byte
  pendingParams : Nat
  memloadLeft : Nat
  param : List Byte
deriving DecidableEq, Repr

def paramSize : Nat := 8

inductive Effect where
  | apply (cmd : Byte)
  | applyParams (cmd : Byte) (param : List Byte)
  | joyMonitor (rate : Byte)
  | mouseThreshArm (delayUs : Nat)
  | resetState
deriving DecidableEq, Repr

def Snoop.take (s : Snoop) (v : Byte) : Snoop :=
  { s with
    param := if s.param.length < paramSize then s.param ++ [v] else s.param
    pendingParams := s.pendingParams - 1 }

def Snoop.resetState (s : Snoop) : Snoop :=
  { s with pendingCmd := 0, pendingParams := 0, memloadLeft := 0, param := [] }

def Snoop.afterReset (s : Snoop) (v : Byte) : Snoop :=
  if s.pendingCmd = 0x80#8 ∧ v = 0x01#8 then (s.take v).resetState else s.take v

def kbdUsbTxSnoop (s : Snoop) (v : Byte) : Snoop :=
  if 0 < s.memloadLeft then { s with memloadLeft := s.memloadLeft - 1 }
  else if 0 < s.pendingParams then
    if (s.afterReset v).pendingParams = 0 then
      if (s.afterReset v).pendingCmd = 0x20#8 then
        { s.afterReset v with memloadLeft := v.toNat }
      else { s.afterReset v with pendingCmd := 0 }
    else s.afterReset v
  else if 0 < ikbdParamLen v then
    { s with pendingCmd := v, pendingParams := ikbdParamLen v, param := [] }
  else s

def completedEffects (s : Snoop) (v : Byte) : List Effect :=
  (if s.pendingCmd = 0x0B#8 then [Effect.mouseThreshArm 2000] else []) ++
    if s.pendingCmd = 0x17#8 then [Effect.joyMonitor v]
    else [Effect.applyParams s.pendingCmd s.param]

def snoopEffects (s : Snoop) (v : Byte) : List Effect :=
  if 0 < s.memloadLeft then []
  else if 0 < s.pendingParams then
    (if s.pendingCmd = 0x80#8 ∧ v = 0x01#8 then [Effect.resetState] else []) ++
      if (s.afterReset v).pendingParams = 0 ∧ (s.afterReset v).pendingCmd ≠ 0x20#8 then
        completedEffects (s.afterReset v) v
      else []
  else if 0 < ikbdParamLen v then []
  else [Effect.apply v]

def Snoop.idle (s : Snoop) : Bool :=
  s.memloadLeft == 0 && s.pendingParams == 0

def snoopReset : Snoop :=
  { pendingCmd := 0, pendingParams := 0, memloadLeft := 0, param := [] }

def countedData : List Byte -> Nat
  | c :: _ :: _ :: n :: _ => if c = 0x20#8 then n.toNat else 0
  | _ => 0

def usbWhole : List Byte -> Bool
  | [] => false
  | c :: params => decide (ikbdParamLen c + countedData (c :: params) ≤ params.length)

theorem usbWhole_cons (params : List Byte) :
    usbWhole (c :: params) =
      decide (ikbdParamLen c + countedData (c :: params) ≤ params.length) := rfl

def commandEffects : List Byte -> List Effect
  | [] => []
  | c :: params =>
      if ikbdParamLen c = 0 then [Effect.apply c]
      else if c = 0x20#8 then []
      else if c = 0x80#8 ∧ params = [0x01#8] then
        [Effect.resetState, Effect.applyParams 0 []]
      else if c = 0x17#8 then [Effect.joyMonitor (params.headD 0)]
      else if c = 0x0B#8 then [Effect.mouseThreshArm 2000, Effect.applyParams c params]
      else [Effect.applyParams c params]

/-- Between two commands, among the parameters of one, or in the data of a
memory load. -/
inductive Snoop.Holds : Snoop -> List Byte -> Prop where
  | idle {s : Snoop} (hmem : s.memloadLeft = 0) (hpend : s.pendingParams = 0) :
      Snoop.Holds s []
  | params {s : Snoop} {params : List Byte} (hmem : s.memloadLeft = 0)
      (hlt : params.length < ikbdParamLen s.pendingCmd)
      (hpend : s.pendingParams = ikbdParamLen s.pendingCmd - params.length)
      (hparam : s.param = params) : Snoop.Holds s (s.pendingCmd :: params)
  | data {s : Snoop} {a b n : Byte} {data : List Byte} (hpend : s.pendingParams = 0)
      (hlt : data.length < n.toNat) (hmem : s.memloadLeft = n.toNat - data.length) :
      Snoop.Holds s (0x20#8 :: a :: b :: n :: data)

theorem ikbdParamLen_le : ikbdParamLen c ≤ 6 := by
  unfold ikbdParamLen
  split <;> decide

theorem countedData_eq_zero {c : Byte} (hc : c ≠ 0x20#8) (params : List Byte) :
    countedData (c :: params) = 0 := by
  unfold countedData
  split
  · rename_i heq
    injection heq with hhead
    rw [if_neg (hhead ▸ hc)]
  · rfl

structure Snoop.Stepped (s : Snoop) (cur : List Byte) (v : Byte) : Prop where
  idle_iff : (kbdUsbTxSnoop s v).idle = usbWhole (cur ++ [v])
  holds_next : (kbdUsbTxSnoop s v).Holds (if usbWhole (cur ++ [v]) then [] else cur ++ [v])
  effects_eq : snoopEffects s v =
    if usbWhole (cur ++ [v]) then commandEffects (cur ++ [v]) else []

variable {s : Snoop}

theorem Snoop.Stepped.of_whole {cur : List Byte} {v : Byte}
    (hwhole : usbWhole (cur ++ [v]) = true) (hmem : (kbdUsbTxSnoop s v).memloadLeft = 0)
    (hpend : (kbdUsbTxSnoop s v).pendingParams = 0)
    (heffects : snoopEffects s v = commandEffects (cur ++ [v])) : s.Stepped cur v := by
  constructor
  · unfold Snoop.idle
    rw [hmem, hpend, hwhole]
    rfl
  · rw [if_pos hwhole]
    exact Snoop.Holds.idle hmem hpend
  · rw [if_pos hwhole, heffects]

theorem Snoop.Stepped.of_short {cur : List Byte} {v : Byte}
    (hshort : usbWhole (cur ++ [v]) = false) (hbusy : (kbdUsbTxSnoop s v).idle = false)
    (hholds : (kbdUsbTxSnoop s v).Holds (cur ++ [v])) (heffects : snoopEffects s v = []) :
    s.Stepped cur v := by
  constructor
  · rw [hbusy, hshort]
  · rw [hshort]
    exact hholds
  · rw [hshort, heffects]
    rfl

theorem Snoop.stepped_command (hmem : s.memloadLeft = 0)
    (hpend : s.pendingParams = 0) (v : Byte) : s.Stepped [] v := by
  have hwhole : usbWhole [v] = decide (ikbdParamLen v = 0) := by
    unfold usbWhole countedData
    simp
  have hmem' : ¬ 0 < s.memloadLeft := by lia
  have hpend' : ¬ 0 < s.pendingParams := by lia
  by_cases hlen : ikbdParamLen v = 0
  · have hlen' : ¬ 0 < ikbdParamLen v := by lia
    have hstep : kbdUsbTxSnoop s v = s := by
      unfold kbdUsbTxSnoop
      rw [if_neg hmem', if_neg hpend', if_neg hlen']
    apply Snoop.Stepped.of_whole
    · rw [List.nil_append, hwhole, decide_eq_true hlen]
    · rw [hstep, hmem]
    · rw [hstep, hpend]
    · unfold snoopEffects commandEffects
      rw [if_neg hmem', if_neg hpend', if_neg hlen', List.nil_append]
      simp only [hlen, if_true]
  · have hlen' : 0 < ikbdParamLen v := Nat.pos_of_ne_zero hlen
    have hstep : kbdUsbTxSnoop s v =
        { s with pendingCmd := v, pendingParams := ikbdParamLen v, param := [] } := by
      unfold kbdUsbTxSnoop
      rw [if_neg hmem', if_neg hpend', if_pos hlen']
    apply Snoop.Stepped.of_short
    · rw [List.nil_append, hwhole, decide_eq_false hlen]
    · rw [hstep]
      unfold Snoop.idle
      simp [hlen]
    · rw [hstep]
      exact Snoop.Holds.params hmem hlen' rfl rfl
    · unfold snoopEffects
      rw [if_neg hmem', if_neg hpend', if_pos hlen']

theorem Snoop.stepped_data {a b n : Byte} {data : List Byte}
    (hpend : s.pendingParams = 0) (hlt : data.length < n.toNat)
    (hmem : s.memloadLeft = n.toNat - data.length) (v : Byte) :
    s.Stepped (0x20#8 :: a :: b :: n :: data) v := by
  have hpos : 0 < s.memloadLeft := by lia
  have hstep : kbdUsbTxSnoop s v = { s with memloadLeft := s.memloadLeft - 1 } := by
    unfold kbdUsbTxSnoop
    rw [if_pos hpos]
  have heffects : snoopEffects s v = [] := by
    unfold snoopEffects
    rw [if_pos hpos]
  have hwhole : usbWhole (0x20#8 :: a :: b :: n :: data ++ [v]) =
      decide (n.toNat ≤ data.length + 1) := by
    unfold usbWhole countedData ikbdParamLen
    simp only [List.cons_append, if_true, List.length_cons, List.length_append,
      List.length_nil, decide_eq_decide]
    lia
  by_cases hlast : n.toNat ≤ data.length + 1
  · apply Snoop.Stepped.of_whole
    · rw [hwhole, decide_eq_true hlast]
    · rw [hstep]
      change s.memloadLeft - 1 = 0
      lia
    · rw [hstep, hpend]
    · rw [heffects]
      rfl
  · apply Snoop.Stepped.of_short
    · rw [hwhole, decide_eq_false hlast]
    · rw [hstep]
      unfold Snoop.idle
      have hleft : s.memloadLeft - 1 ≠ 0 := by lia
      simp [hleft]
    · rw [hstep]
      change Snoop.Holds _ (0x20#8 :: a :: b :: n :: (data ++ [v]))
      apply Snoop.Holds.data
      · exact hpend
      · rw [List.length_append, List.length_singleton]
        lia
      · rw [List.length_append, List.length_singleton]
        change s.memloadLeft - 1 = _
        lia
    · exact heffects

variable {params : List Byte}

theorem Snoop.stepped_param (hmem : s.memloadLeft = 0)
    (hlt : params.length + 1 < ikbdParamLen s.pendingCmd)
    (hpend : s.pendingParams = ikbdParamLen s.pendingCmd - params.length)
    (hparam : s.param = params) (v : Byte) : s.Stepped (s.pendingCmd :: params) v := by
  have hle := ikbdParamLen_le s.pendingCmd
  have hmem' : ¬ 0 < s.memloadLeft := by lia
  have hpend' : 0 < s.pendingParams := by lia
  have hcmd : ¬ (s.pendingCmd = 0x80#8 ∧ v = 0x01#8) := by
    intro hreset
    rw [hreset.1] at hlt
    exact absurd hlt (by simp [ikbdParamLen])
  have hafter : s.afterReset v = { s with
      param := params ++ [v], pendingParams := s.pendingParams - 1 } := by
    have hsize : s.param.length < paramSize := by
      rw [hparam]
      unfold paramSize
      lia
    unfold Snoop.afterReset Snoop.take
    rw [if_neg hcmd, if_pos hsize, hparam]
  have hleft : ¬ (s.afterReset v).pendingParams = 0 := by
    rw [hafter]
    change ¬ s.pendingParams - 1 = 0
    lia
  have hstep : kbdUsbTxSnoop s v = s.afterReset v := by
    unfold kbdUsbTxSnoop
    rw [if_neg hmem', if_pos hpend', if_neg hleft]
  apply Snoop.Stepped.of_short
  · rw [List.cons_append, usbWhole_cons]
    apply decide_eq_false
    rw [List.length_append, List.length_singleton]
    lia
  · rw [hstep]
    unfold Snoop.idle
    simp [hleft]
  · rw [hstep, hafter, List.cons_append]
    apply Snoop.Holds.params
    · exact hmem
    · rw [List.length_append, List.length_singleton]
      exact hlt
    · rw [List.length_append, List.length_singleton]
      change s.pendingParams - 1 = _
      lia
    · rfl
  · have hnot : ¬ ((s.afterReset v).pendingParams = 0 ∧
        (s.afterReset v).pendingCmd ≠ 0x20#8) := fun h => hleft h.1
    unfold snoopEffects
    rw [if_neg hmem', if_pos hpend', if_neg hcmd, if_neg hnot]
    rfl

theorem Snoop.afterReset_last (hlast : params.length + 1 = ikbdParamLen s.pendingCmd)
    (hpend : s.pendingParams = ikbdParamLen s.pendingCmd - params.length)
    (hparam : s.param = params) (v : Byte) :
    s.afterReset v =
      if s.pendingCmd = 0x80#8 ∧ v = 0x01#8 then
        { pendingCmd := 0, pendingParams := 0, memloadLeft := 0, param := [] }
      else { s with param := params ++ [v], pendingParams := 0 } := by
  have hle := ikbdParamLen_le s.pendingCmd
  have hsize : s.param.length < paramSize := by
    rw [hparam]
    unfold paramSize
    lia
  have hzero : s.pendingParams - 1 = 0 := by lia
  unfold Snoop.afterReset Snoop.take Snoop.resetState
  rw [if_pos hsize, hparam, hzero]

theorem Snoop.stepped_count (hmem : s.memloadLeft = 0)
    (hcmd : s.pendingCmd = 0x20#8) (hlast : params.length + 1 = ikbdParamLen s.pendingCmd)
    (hpend : s.pendingParams = ikbdParamLen s.pendingCmd - params.length)
    (hparam : s.param = params) (v : Byte) : s.Stepped (s.pendingCmd :: params) v := by
  have hafter := Snoop.afterReset_last hlast hpend hparam v
  have hno : ¬ (s.pendingCmd = 0x80#8 ∧ v = 0x01#8) := by
    intro hreset
    rw [hcmd] at hreset
    exact absurd hreset.1 (by decide)
  have hmem' : ¬ 0 < s.memloadLeft := by lia
  have hpend' : 0 < s.pendingParams := by lia
  rw [if_neg hno] at hafter
  have hstep : kbdUsbTxSnoop s v =
      { s with param := params ++ [v], pendingParams := 0, memloadLeft := v.toNat } := by
    unfold kbdUsbTxSnoop
    rw [if_neg hmem', if_pos hpend', hafter, if_pos rfl, if_pos hcmd]
  have heffects : snoopEffects s v = [] := by
    unfold snoopEffects
    rw [if_neg hmem', if_pos hpend', hafter, if_neg hno,
      if_neg fun h => h.2 hcmd]
    rfl
  have hlen : ikbdParamLen s.pendingCmd = 3 := by rw [hcmd]; rfl
  obtain ⟨a, b, rfl⟩ : exists a b, params = [a, b] := by
    rw [hlen] at hlast
    exact List.length_eq_two.mp (Nat.succ.inj hlast)
  have hwhole : usbWhole (s.pendingCmd :: [a, b] ++ [v]) = decide (v.toNat = 0) := by
    rw [hcmd]
    unfold usbWhole countedData ikbdParamLen
    simp
  by_cases hzero : v.toNat = 0
  · apply Snoop.Stepped.of_whole
    · rw [hwhole, decide_eq_true hzero]
    · rw [hstep, hzero]
    · rw [hstep]
    · rw [heffects, hcmd]
      rfl
  · apply Snoop.Stepped.of_short
    · rw [hwhole, decide_eq_false hzero]
    · rw [hstep]
      unfold Snoop.idle
      simp [hzero]
    · rw [hstep, hcmd]
      change Snoop.Holds _ (0x20#8 :: a :: b :: v :: [])
      apply Snoop.Holds.data rfl
      · exact Nat.pos_of_ne_zero hzero
      · rfl
    · exact heffects

theorem Snoop.effects_last {v : Byte} (hmem : ¬ 0 < s.memloadLeft)
    (hpend : 0 < s.pendingParams) (hzero : (s.afterReset v).pendingParams = 0)
    (hother : (s.afterReset v).pendingCmd ≠ 0x20#8) :
    snoopEffects s v =
      (if s.pendingCmd = 0x80#8 ∧ v = 0x01#8 then [Effect.resetState] else []) ++
        completedEffects (s.afterReset v) v := by
  have hdone : (s.afterReset v).pendingParams = 0 ∧ (s.afterReset v).pendingCmd ≠ 0x20#8 :=
    ⟨hzero, hother⟩
  unfold snoopEffects
  rw [if_neg hmem, if_pos hpend, if_pos hdone]

theorem Snoop.stepped_last (hmem : s.memloadLeft = 0)
    (hcmd : s.pendingCmd ≠ 0x20#8) (hlast : params.length + 1 = ikbdParamLen s.pendingCmd)
    (hpend : s.pendingParams = ikbdParamLen s.pendingCmd - params.length)
    (hparam : s.param = params) (v : Byte) : s.Stepped (s.pendingCmd :: params) v := by
  have hafter := Snoop.afterReset_last hlast hpend hparam v
  have hmem' : ¬ 0 < s.memloadLeft := by lia
  have hpend' : 0 < s.pendingParams := by lia
  have hzero : (s.afterReset v).pendingParams = 0 := by
    rw [hafter]
    split <;> rfl
  have hother : (s.afterReset v).pendingCmd ≠ 0x20#8 := by
    rw [hafter]
    split
    · decide
    · exact hcmd
  have hmemAfter : (s.afterReset v).memloadLeft = 0 := by
    rw [hafter]
    split
    · rfl
    · exact hmem
  have hstep : kbdUsbTxSnoop s v = { s.afterReset v with pendingCmd := 0 } := by
    unfold kbdUsbTxSnoop
    rw [if_neg hmem', if_pos hpend', if_pos hzero, if_neg hother]
  apply Snoop.Stepped.of_whole
  · rw [List.cons_append, usbWhole_cons, countedData_eq_zero hcmd]
    apply decide_eq_true
    rw [List.length_append, List.length_singleton]
    lia
  · rw [hstep, hmemAfter]
  · rw [hstep, hzero]
  · rw [Snoop.effects_last hmem' hpend' hzero hother, hafter]
    unfold commandEffects
    have hlen : ¬ ikbdParamLen s.pendingCmd = 0 := by lia
    rw [List.cons_append]
    simp only [if_neg hlen, if_neg hcmd]
    by_cases hreset : s.pendingCmd = 0x80#8 ∧ v = 0x01#8
    · have hnil : params = [] := by
        rw [hreset.1] at hlast
        exact List.eq_nil_of_length_eq_zero (Nat.succ.inj hlast)
      rw [if_pos hreset, if_pos hreset, hnil, hreset.2, if_pos ⟨hreset.1, rfl⟩]
      rfl
    · have hreset' : ¬ (s.pendingCmd = 0x80#8 ∧ params ++ [v] = [0x01#8]) := by
        intro h
        apply hreset
        constructor
        · exact h.1
        · have hone := congrArg List.getLast? h.2
          simpa using hone
      rw [if_neg hreset, if_neg hreset, if_neg hreset']
      unfold completedEffects
      by_cases hmon : s.pendingCmd = 0x17#8
      · have hnil : params = [] := by
          rw [hmon] at hlast
          exact List.eq_nil_of_length_eq_zero (Nat.succ.inj hlast)
        simp [hmon, hnil]
      · simp only [if_neg hmon]
        by_cases harm : s.pendingCmd = 0x0B#8
        · simp [harm]
        · simp [harm]

theorem kbdUsbTxSnoop_collects :
    Collects kbdUsbTxSnoop Snoop.idle snoopEffects usbWhole commandEffects Snoop.Holds := by
  have hstepped : forall {s : Snoop} {cur : List Byte}, s.Holds cur -> forall v,
      s.Stepped cur v := by
    intro s cur h v
    cases h with
    | idle hmem hpend => exact Snoop.stepped_command hmem hpend v
    | data hpend hlt hmem => exact Snoop.stepped_data hpend hlt hmem v
    | params hmem hlt hpend hparam =>
        rcases Nat.lt_or_eq_of_le (Nat.succ_le_of_lt hlt) with hmore | hlast
        · exact Snoop.stepped_param hmem hmore hpend hparam v
        · by_cases hcmd : s.pendingCmd = 0x20#8
          · exact Snoop.stepped_count hmem hcmd hlast hpend hparam v
          · exact Snoop.stepped_last hmem hcmd hlast hpend hparam v
  constructor
  · intro s cur h v
    exact (hstepped h v).idle_iff
  · intro s cur h v
    exact (hstepped h v).holds_next
  · intro s cur h v
    exact (hstepped h v).effects_eq

/-- The commands the parser of `kbd_usb.c` finds in a stream, after a reset. -/
def usbFrames (bytes : List Byte) : List (List Byte) :=
  cuts kbdUsbTxSnoop Snoop.idle snoopReset [] bytes

def usbExecuted (bytes : List Byte) : List Effect :=
  emitted kbdUsbTxSnoop snoopEffects snoopReset bytes

variable (bytes : List Byte)

theorem stboxFrames_eq : stboxFrames bytes = grow stboxWhole [] bytes :=
  ikbdRx_collects.cuts_eq aciaReset_holds bytes

theorem usbFrames_eq : usbFrames bytes = grow usbWhole [] bytes :=
  kbdUsbTxSnoop_collects.cuts_eq (Snoop.Holds.idle rfl rfl) bytes

theorem stboxExecuted_eq : stboxExecuted bytes = stboxFrames bytes := by
  have h := ikbdRx_collects.emitted_eq aciaReset_holds bytes
  rw [stboxFrames_eq]
  unfold stboxExecuted
  rw [h, List.flatMap_singleton']

theorem usbExecuted_eq :
    usbExecuted bytes = (usbFrames bytes).flatMap commandEffects := by
  rw [usbFrames_eq]
  exact kbdUsbTxSnoop_collects.emitted_eq (Snoop.Holds.idle rfl rfl) bytes

/-!
## Where the two framings agree

The tables differ at `$22` (three parameters against two) and in the data of a
memory load, which `stbox.c` does not count.
-/

/-- Read command by command, the stream has no `$20` with a count other than
zero and no `$22` with both its parameters; `skip` parameter bytes come first. -/
def Plain : Nat -> List Byte -> Prop
  | _, [] => True
  | skip + 1, _ :: bytes => Plain skip bytes
  | 0, c :: bytes =>
      (c = 0x22#8 -> bytes.length < 2) ∧
        (c = 0x20#8 -> bytes[2]?.getD 0 = 0) ∧ Plain (ikbdParamLen c) bytes

def Plain.decidable : (skip : Nat) -> (bytes : List Byte) -> Decidable (Plain skip bytes)
  | _, [] => isTrue trivial
  | skip + 1, _ :: bytes => Plain.decidable skip bytes
  | 0, c :: bytes =>
      have := Plain.decidable (ikbdParamLen c) bytes
      inferInstanceAs (Decidable ((c = 0x22#8 -> bytes.length < 2) ∧
        (c = 0x20#8 -> bytes[2]?.getD 0 = 0) ∧ Plain (ikbdParamLen c) bytes))

instance (skip : Nat) (bytes : List Byte) : Decidable (Plain skip bytes) :=
  Plain.decidable skip bytes

theorem ikbdCmdLen_eq {c : Byte} (hc : c ≠ 0x22#8) : ikbdCmdLen c = ikbdParamLen c := by
  revert hc
  revert c
  decide

theorem stboxWhole_cons (params : List Byte) :
    stboxWhole (c :: params) = decide (ikbdCmdLen c ≤ params.length) := rfl

theorem ikbdParamLen_le_ikbdCmdLen : ikbdParamLen c ≤ ikbdCmdLen c := by
  revert c
  decide

theorem both_short {c : Byte} {params : List Byte} (hlt : params.length < ikbdParamLen c) :
    usbWhole (c :: params) = false ∧ stboxWhole (c :: params) = false := by
  have hle := ikbdParamLen_le_ikbdCmdLen c
  constructor
  · rw [usbWhole_cons, decide_eq_false_iff_not]
    lia
  · rw [stboxWhole_cons, decide_eq_false_iff_not]
    lia

theorem both_whole {c : Byte} {params : List Byte} (h20 : c ≠ 0x20#8) (h22 : c ≠ 0x22#8)
    (hlen : params.length = ikbdParamLen c) :
    usbWhole (c :: params) = true ∧ stboxWhole (c :: params) = true := by
  constructor
  · rw [usbWhole_cons, countedData_eq_zero h20, decide_eq_true_iff]
    lia
  · rw [stboxWhole_cons, ikbdCmdLen_eq h22, decide_eq_true_iff]
    lia

/-- What `Plain` asks of a stream once the command `c` and `params` are read. -/
def PlainAfter (c : Byte) (params bytes : List Byte) : Prop :=
  (c = 0x22#8 -> params.length + bytes.length < 2) ∧
    (c = 0x20#8 -> bytes[2 - params.length]?.getD 0 = 0) ∧
      Plain (ikbdParamLen c - params.length) bytes

theorem PlainAfter_nil :
    PlainAfter c [] bytes <-> Plain 0 (c :: bytes) := by
  unfold PlainAfter
  rw [List.length_nil, Nat.zero_add, Nat.sub_zero, Nat.sub_zero]
  exact Iff.rfl

theorem PlainAfter_cons {c : Byte} {params : List Byte}
    (hlt : params.length + 1 < ikbdParamLen c) (b : Byte) (bytes : List Byte) :
    PlainAfter c params (b :: bytes) <-> PlainAfter c (params ++ [b]) bytes := by
  unfold PlainAfter
  have hskip : ikbdParamLen c - params.length = ikbdParamLen c - (params.length + 1) + 1 := by
    lia
  rw [List.length_append, List.length_singleton, List.length_cons, hskip]
  apply and_congr
  · rw [Nat.add_right_comm, Nat.add_assoc]
  · apply and_congr
    · apply imp_congr_right
      intro hc
      have hlen : ikbdParamLen c = 3 := by rw [hc]; rfl
      have hidx : 2 - params.length = 2 - (params.length + 1) + 1 := by lia
      rw [hidx, List.getElem?_cons_succ]
    · exact Iff.rfl

theorem agree_last {c : Byte} {params : List Byte} (hlen : params.length + 1 = ikbdParamLen c)
    (b : Byte) (bytes : List Byte)
    (ih : AgreeAlong usbWhole stboxWhole [] bytes <-> Plain 0 bytes) :
    AgreeAlong usbWhole stboxWhole (c :: params) (b :: bytes) <->
      PlainAfter c params (b :: bytes) := by
  have hskip : ikbdParamLen c - params.length = 1 := by lia
  unfold AgreeAlong PlainAfter
  rw [hskip, List.cons_append]
  by_cases h22 : c = 0x22#8
  · subst h22
    have hone : params.length = 1 := Nat.succ.inj hlen
    rw [usbWhole_cons, stboxWhole_cons, countedData_eq_zero (by decide)]
    simp [ikbdParamLen, ikbdCmdLen, hone]
  · by_cases h20 : c = 0x20#8
    · subst h20
      obtain ⟨x, y, rfl⟩ : exists x y, params = [x, y] :=
        List.length_eq_two.mp (Nat.succ.inj hlen)
      have hzero : b.toNat = 0 <-> b = 0#8 := by
        constructor
        · intro h
          exact BitVec.eq_of_toNat_eq h
        · intro h
          rw [h]
          rfl
      have husb : usbWhole (0x20#8 :: ([x, y] ++ [b])) = decide (b.toNat = 0) := by
        unfold usbWhole countedData ikbdParamLen
        simp
      have hstbox : stboxWhole (0x20#8 :: ([x, y] ++ [b])) = true := rfl
      rw [husb, hstbox]
      by_cases hb : b.toNat = 0
      · have hb' := hzero.mp hb
        simp [hb', ih, Plain]
      · have hb' : ¬ b = 0#8 := fun h => hb (hzero.mpr h)
        simp [hb, hb']
    · have hlen' : (params ++ [b]).length = ikbdParamLen c := by
        rw [List.length_append, List.length_singleton]
        exact hlen
      have hwhole := both_whole h20 h22 hlen'
      rw [hwhole.1, hwhole.2, if_pos rfl, ih]
      simp [h20, h22, Plain]

theorem agree_iff :
    (AgreeAlong usbWhole stboxWhole [] bytes <-> Plain 0 bytes) ∧
      forall c params, params.length < ikbdParamLen c ->
        (AgreeAlong usbWhole stboxWhole (c :: params) bytes <-> PlainAfter c params bytes) := by
  induction bytes with
  | nil =>
      constructor
      · exact iff_of_true trivial trivial
      · intro c params hlt
        apply iff_of_true trivial
        unfold PlainAfter
        refine ⟨?_, fun _ => rfl, by cases ikbdParamLen c - params.length <;> trivial⟩
        intro hc
        rw [hc] at hlt
        exact hlt
  | cons b bytes ih =>
      constructor
      · unfold AgreeAlong
        rw [List.nil_append]
        by_cases hlen : ikbdParamLen b = 0
        · have h20 : b ≠ 0x20#8 := by
            intro h
            rw [h] at hlen
            cases hlen
          have h22 : b ≠ 0x22#8 := by
            intro h
            rw [h] at hlen
            cases hlen
          have hwhole : usbWhole [b] = true ∧ stboxWhole [b] = true :=
            both_whole h20 h22 hlen.symm
          rw [hwhole.1, hwhole.2, if_pos rfl, ih.1]
          simp [Plain, h20, h22, hlen]
        · have hlt : ([] : List Byte).length < ikbdParamLen b := Nat.pos_of_ne_zero hlen
          have hshort := both_short hlt
          rw [hshort.1, hshort.2, if_neg Bool.false_ne_true, ih.2 b [] hlt, PlainAfter_nil]
          exact and_iff_right rfl
      · intro c params hlt
        rcases Nat.lt_or_eq_of_le (Nat.succ_le_of_lt hlt) with hmore | hlast
        · have hlt' : (params ++ [b]).length < ikbdParamLen c := by
            rw [List.length_append, List.length_singleton]
            exact hmore
          have hshort := both_short hlt'
          rw [PlainAfter_cons hmore]
          unfold AgreeAlong
          rw [List.cons_append, hshort.1, hshort.2, if_neg Bool.false_ne_true,
            ih.2 c (params ++ [b]) hlt']
          exact and_iff_right rfl
        · exact agree_last hlast b bytes ih.1

/-- The two parsers split a stream into the same commands, each with its
parameters and counted data, and each executes the commands of that split and
nothing else. -/
structure FramedAlike (bytes : List Byte) : Prop where
  frames_eq : stboxFrames bytes = usbFrames bytes
  frames_whole : usbFrames bytes = grow usbWhole [] bytes
  stbox_executes : stboxExecuted bytes = usbFrames bytes
  usb_executes : usbExecuted bytes = (usbFrames bytes).flatMap commandEffects

theorem framedAlike_iff_plain (bytes : List Byte) : FramedAlike bytes <-> Plain 0 bytes := by
  have hagree := (agree_iff bytes).1
  rw [← grow_eq_iff, ← usbFrames_eq, ← stboxFrames_eq] at hagree
  rw [← hagree]
  constructor
  · intro h
    exact h.frames_eq.symm
  · intro heq
    constructor
    · exact heq.symm
    · exact usbFrames_eq bytes
    · rw [stboxExecuted_eq, heq]
    · exact usbExecuted_eq bytes

/-- `$20` loads two bytes at `$00F0`; the boxed machine's parser executes the
first of them as the command `$14`. -/
theorem memory_load_executed :
    ¬ FramedAlike [0x20#8, 0x00#8, 0xF0#8, 0x02#8, 0x14#8, 0x13#8] ∧
      stboxExecuted [0x20#8, 0x00#8, 0xF0#8, 0x02#8, 0x14#8, 0x13#8] =
        [[0x20#8, 0x00#8, 0xF0#8, 0x02#8], [0x14#8], [0x13#8]] ∧
      usbFrames [0x20#8, 0x00#8, 0xF0#8, 0x02#8, 0x14#8, 0x13#8] =
        [[0x20#8, 0x00#8, 0xF0#8, 0x02#8, 0x14#8, 0x13#8]] := by
  refine ⟨?_, by decide, by decide⟩
  intro h
  exact absurd h.frames_eq (by decide)

end Ikbd
end PistormAtari
