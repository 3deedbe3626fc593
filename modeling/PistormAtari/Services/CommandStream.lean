import PistormAtari.Foundation.RecordStream
import PistormAtari.Foundation.Run
import PistormAtari.Services.Psdos

/-!
# Commands on their way to psdos

The emulator sends a record for each command.  psdos receives them in pieces and handles
each one when it is whole; a fresh process goes on where the old one stopped.
-/

namespace PistormAtari
namespace Services

open Foundation

/-!
## Records
-/

def PsdosCmdType.code : PsdosCmdType -> BitVec 32
  | .hello => 1
  | .viewNew => 2
  | .viewFree => 3
  | .viewSize => 4
  | .state => 5
  | .load => 6
  | .key => 7
  | .mouse => 8
  | .joy => 9
  | .reset => 10
  | .option => 11
  | .keysUp => 12
  | .quit => 13
  | .pad => 14

def cmdTypes : List PsdosCmdType :=
  [.hello, .viewNew, .viewFree, .viewSize, .state, .load, .key, .mouse, .joy, .reset, .option,
    .keysUp, .quit, .pad]

def cmdTypeOf (code : BitVec 32) : Option PsdosCmdType := cmdTypes.find? fun t => t.code == code

def wordLE (v : BitVec 32) : List (BitVec 8) :=
  [v.setWidth 8, (v >>> 8).setWidth 8, (v >>> 16).setWidth 8, (v >>> 24).setWidth 8]

/-- The record of a command: eight words, of which one is not used, and the string. -/
def encodeCmd (c : PsdosCmd) : List (BitVec 8) :=
  wordLE c.type.code ++ wordLE c.a ++ wordLE c.b ++ wordLE c.c ++ wordLE c.d ++ wordLE c.e ++
    wordLE 0 ++ wordLE (BitVec.ofNat 32 c.str.length) ++ c.str

def cmdSize : Nat := 32

def wordAt (bs : List (BitVec 8)) (off : Nat) : BitVec 32 :=
  bs.getD (off + 3) 0 ++ bs.getD (off + 2) 0 ++ bs.getD (off + 1) 0 ++ bs.getD off 0

/-- The record at the front of the buffer, with a string of `len` bytes. -/
def recordAt (bs : List (BitVec 8)) (len : Nat) : Option PsdosCmd :=
  (cmdTypeOf (wordAt bs 0)).map fun t =>
    { type := t
      a := wordAt bs 4
      b := wordAt bs 8
      c := wordAt bs 12
      d := wordAt bs 16
      e := wordAt bs 20
      str := (bs.drop cmdSize).take len }

/-!
## The service
-/

/-- The tables of options around a new process, and the lines of its configuration. -/
structure Reexec where
  before : List Opt
  conf : List Text
  after : List Opt

/-- psdos with what is on its way to it.  `sent` and `handled` are the commands so far, and
`reexecs` what became of the options in each new process. -/
structure Service where
  psdos : Psdos
  client : Bool
  wire : List (BitVec 8)
  sent : List PsdosCmd
  handled : List PsdosCmd
  reexecs : List Reexec

def startsProcess (ans : PsdosHost) (s : Psdos) (c : PsdosCmd) : Bool :=
  (c.type == .load || c.type == .reset && !(s.core.loaded && !s.core.exited)) &&
    s.core.used && ans.execOk

abbrev PsdosHosts := Nat -> PsdosHost

def Service.handle (hosts : PsdosHosts) (v : Service) (c : PsdosCmd) : Service :=
  let ans := hosts v.handled.length
  let s := handleCmd ans v.psdos c
  { v with
    psdos := s
    handled := v.handled ++ [c]
    reexecs :=
      if startsProcess ans v.psdos c then
        v.reexecs ++ [{ before := v.psdos.opts, conf := ans.conf, after := s.opts }]
      else v.reexecs }

def Service.drop (v : Service) : Service :=
  { v with psdos := { viewFree v.psdos with inbuf := [] }, client := false }

/-- The loop over the records in the buffer.  A record leaves it before it is handled; what
follows a load goes to the new process, which starts with this loop. -/
def clientParse (hosts : PsdosHosts) : Nat -> Service -> Service
  | 0, v => v
  | fuel + 1, v =>
      let bs := v.psdos.inbuf
      if bs.length < cmdSize then v
      else
        let len := (wordAt bs 28).toNat
        if psdosStrMax < len then v.drop
        else if bs.length < cmdSize + len then v
        else
          let v := { v with psdos := { v.psdos with inbuf := bs.drop (cmdSize + len) } }
          match recordAt bs len with
          | none => clientParse hosts fuel v
          | some c => clientParse hosts fuel (v.handle hosts c)

/-- `recv` gives at most `n` bytes and at most what there is room for; none at all is the end
of the connection. -/
def clientRead (hosts : PsdosHosts) (n : Nat) (v : Service) : Service :=
  let room := psdosInbufSize - v.psdos.inbuf.length
  if room = 0 then v.drop
  else
    let got := min (max n 1) room
    let v :=
      { v with
        psdos := { v.psdos with inbuf := v.psdos.inbuf ++ v.wire.take got }
        wire := v.wire.drop got }
    clientParse hosts (v.psdos.inbuf.length + 1) v

inductive ServiceEvent where
  | push (cmd : PsdosCmd)
  | read (n : Nat)
  | exits

/-- A record is sent for a command that was put into the ring; psdos reads when something has
come. -/
def serviceStep (hosts : PsdosHosts) (v : Service) : ServiceEvent -> Service
  | .push cmd =>
      let c := pushEntry cmd.type cmd.a cmd.b cmd.c cmd.d cmd.e cmd.str
      { v with wire := v.wire ++ encodeCmd c, sent := v.sent ++ [c] }
  | .read n =>
      if v.client = false ∨ v.psdos.quit ∨ v.wire = [] then v else clientRead hosts n v
  | .exits => { v with psdos := { v.psdos with core := { v.psdos.core with exited := true } } }

def serviceStart (ans : PsdosHost) : Service :=
  { psdos := psdosStart ans
    client := true
    wire := []
    sent := []
    handled := []
    reexecs := [] }

/-!
## A record and its pieces
-/

theorem wordLE_joined (v : BitVec 32) :
    (v >>> 24).setWidth 8 ++ (v >>> 16).setWidth 8 ++ (v >>> 8).setWidth 8 ++ v.setWidth 8 = v := by
  apply BitVec.eq_of_toNat_eq
  simp only [BitVec.toNat_append, BitVec.toNat_setWidth, BitVec.toNat_ushiftRight,
    Nat.shiftRight_eq_div_pow]
  have hlt := v.isLt
  rw [← Nat.shiftLeft_add_eq_or_of_lt (by lia), ← Nat.shiftLeft_add_eq_or_of_lt (by lia),
    ← Nat.shiftLeft_add_eq_or_of_lt (by lia)]
  simp only [Nat.shiftLeft_eq]
  lia

theorem cmdTypeOf_code (t : PsdosCmdType) : cmdTypeOf t.code = some t := by
  cases t <;> decide

theorem encodeCmd_length (c : PsdosCmd) : (encodeCmd c).length = cmdSize + c.str.length := by
  unfold encodeCmd wordLE cmdSize
  simp only [List.length_append, List.length_cons, List.length_nil]

theorem wordAt_append {bs : List (BitVec 8)} {off : Nat} (h : off + 3 < bs.length)
    (tail : List (BitVec 8)) : wordAt (bs ++ tail) off = wordAt bs off := by
  unfold wordAt
  rw [List.getD_append _ _ _ _ h, List.getD_append _ _ _ _ (by lia),
    List.getD_append _ _ _ _ (by lia), List.getD_append _ _ _ _ (by lia)]

theorem wordAt_len (c : PsdosCmd) : wordAt (encodeCmd c) 28 = BitVec.ofNat 32 c.str.length :=
  wordLE_joined _

theorem wordAt_len_toNat {c : PsdosCmd} (h : c.str.length < psdosStrMax) :
    (wordAt (encodeCmd c) 28).toNat = c.str.length := by
  rw [wordAt_len, BitVec.toNat_ofNat, Nat.mod_eq_of_lt]
  unfold psdosStrMax at h
  lia

theorem encodeCmd_selfDelimiting {sent : List PsdosCmd}
    (h : forall c, c ∈ sent -> c.str.length < psdosStrMax) : SelfDelimiting encodeCmd sent := by
  constructor
  · intro c _ hempty
    have hlength := encodeCmd_length c
    rw [hempty, List.length_nil] at hlength
    exact absurd hlength (by unfold cmdSize; lia)
  · intro c d tail hc hd heq
    have hlength := congrArg List.length heq
    have hhead : 28 + 3 < (encodeCmd c).length := by
      rw [encodeCmd_length]
      unfold cmdSize
      lia
    have hlen : d.str.length = c.str.length := by
      rw [← wordAt_len_toNat (h d hd), heq, wordAt_append hhead, wordAt_len_toNat (h c hc)]
    rw [List.length_append, encodeCmd_length, encodeCmd_length] at hlength
    exact List.length_eq_zero_iff.mp (by lia)

theorem recordAt_encode (c : PsdosCmd) (tail : List (BitVec 8)) :
    recordAt (encodeCmd c ++ tail) c.str.length = some c := by
  have htype : wordAt (encodeCmd c ++ tail) 0 = c.type.code := wordLE_joined _
  have ha : wordAt (encodeCmd c ++ tail) 4 = c.a := wordLE_joined _
  have hb : wordAt (encodeCmd c ++ tail) 8 = c.b := wordLE_joined _
  have hc : wordAt (encodeCmd c ++ tail) 12 = c.c := wordLE_joined _
  have hd : wordAt (encodeCmd c ++ tail) 16 = c.d := wordLE_joined _
  have he : wordAt (encodeCmd c ++ tail) 20 = c.e := wordLE_joined _
  have hstr : (encodeCmd c ++ tail).drop cmdSize = c.str ++ tail := rfl
  unfold recordAt
  rw [htype, cmdTypeOf_code, ha, hb, hc, hd, he, hstr, List.take_left]
  rfl

/-!
## The buffer of a new process
-/

theorem hexValue_hexDigit {n : Nat} (h : n < 16) : hexValue (hexDigit n) = some n := by
  interval_cases n <;> decide

theorem unhexText_hexText {room : Nat} {bs : List (BitVec 8)} (h : bs.length ≤ room) :
    unhexText room (hexText bs) = bs := by
  induction bs generalizing room with
  | nil =>
      cases room with
      | zero => rfl
      | succ room => rfl
  | cons b rest ih =>
      cases room with
      | zero => cases h
      | succ room =>
          have hhi := hexValue_hexDigit (n := b.toNat / 16) (by have hlt := b.isLt; lia)
          have hlo := hexValue_hexDigit (n := b.toNat % 16) (Nat.mod_lt _ (by decide))
          have hbyte : BitVec.ofNat 8 (b.toNat / 16 * 16 + b.toNat % 16) = b := by
            rw [Nat.div_add_mod', BitVec.ofNat_toNat, BitVec.setWidth_eq]
          change unhexText (room + 1)
            (hexDigit (b.toNat / 16) :: hexDigit (b.toNat % 16) :: hexText rest) = b :: rest
          unfold unhexText
          rw [hhi, hlo]
          dsimp only
          rw [hbyte, ih (Nat.le_of_succ_le_succ h)]

variable (ans : PsdosHost)

theorem coreLoad_inbuf (s : Psdos) (path : Text) :
    (coreLoad ans s path).inbuf = s.inbuf := by
  unfold coreLoad
  split
  · rfl
  · dsimp only
    split
    · rfl
    · rfl

theorem loadGame_inbuf {s : Psdos} (h : s.inbuf.length ≤ psdosInbufSize)
    (path : Text) : (loadGame ans s path).inbuf = s.inbuf := by
  unfold loadGame
  split
  · unfold resumed
    dsimp only
    split
    · rw [coreLoad_inbuf]
      exact unhexText_hexText h
    · exact unhexText_hexText h
  · exact coreLoad_inbuf ans s path

theorem viewCmd_keeps (s : Psdos) (fresh : Bool) (c : PsdosCmd) :
    (viewCmd s fresh c).inbuf = s.inbuf ∧ (viewCmd s fresh c).opts = s.opts := by
  unfold viewCmd
  dsimp only
  generalize (if fresh = true then c.c.toInt else (s.view.bpp : Int)) = bpp
  split
  · exact ⟨rfl, rfl⟩
  · exact ⟨rfl, rfl⟩

theorem handleCmd_cases (s : Psdos) (c : PsdosCmd) :
    ((handleCmd ans s c).inbuf = s.inbuf ∧ (handleCmd ans s c).opts = s.opts ∧
        startsProcess ans s c = false) ∨
      (exists path, handleCmd ans s c = loadGame ans s path ∧
        startsProcess ans s c = (s.core.used && ans.execOk)) ∨
      ((handleCmd ans s c).inbuf = s.inbuf ∧ startsProcess ans s c = false ∧
        exists line, (handleCmd ans s c).opts = optParseLine s.opts line true) := by
  have hother : c.type ≠ .load -> c.type ≠ .reset -> startsProcess ans s c = false := by
    intro hload hreset
    unfold startsProcess
    rw [beq_false_of_ne hload, beq_false_of_ne hreset]
    rfl
  unfold handleCmd
  cases htype : c.type with
  | hello => exact Or.inl ⟨rfl, rfl, hother (by rw [htype]; decide) (by rw [htype]; decide)⟩
  | viewNew =>
      have hkeeps := viewCmd_keeps s true c
      exact Or.inl ⟨hkeeps.1, hkeeps.2, hother (by rw [htype]; decide) (by rw [htype]; decide)⟩
  | viewSize =>
      have hkeeps := viewCmd_keeps s false c
      exact Or.inl ⟨hkeeps.1, hkeeps.2, hother (by rw [htype]; decide) (by rw [htype]; decide)⟩
  | viewFree => exact Or.inl ⟨rfl, rfl, hother (by rw [htype]; decide) (by rw [htype]; decide)⟩
  | state => exact Or.inl ⟨rfl, rfl, hother (by rw [htype]; decide) (by rw [htype]; decide)⟩
  | load =>
      refine Or.inr (Or.inl ⟨_, rfl, ?_⟩)
      unfold startsProcess
      rw [htype]
      rfl
  | key => exact Or.inl ⟨rfl, rfl, hother (by rw [htype]; decide) (by rw [htype]; decide)⟩
  | mouse => exact Or.inl ⟨rfl, rfl, hother (by rw [htype]; decide) (by rw [htype]; decide)⟩
  | joy =>
      dsimp only
      split
      · exact Or.inl ⟨rfl, rfl, hother (by rw [htype]; decide) (by rw [htype]; decide)⟩
      · exact Or.inl ⟨rfl, rfl, hother (by rw [htype]; decide) (by rw [htype]; decide)⟩
  | pad => exact Or.inl ⟨rfl, rfl, hother (by rw [htype]; decide) (by rw [htype]; decide)⟩
  | reset =>
      dsimp only
      split
      · next hruns =>
        refine Or.inl ⟨rfl, rfl, ?_⟩
        unfold startsProcess
        rw [htype, hruns.1, hruns.2]
        rfl
      · next hstopped =>
        refine Or.inr (Or.inl ⟨_, rfl, ?_⟩)
        have hdown : (s.core.loaded && !s.core.exited) = false := by
          rw [Bool.eq_false_iff]
          intro hruns
          rw [Bool.and_eq_true, Bool.not_eq_true'] at hruns
          exact hstopped hruns
        unfold startsProcess
        rw [htype, hdown]
        rfl
  | option =>
      dsimp only
      split
      · exact Or.inl ⟨rfl, rfl, hother (by rw [htype]; decide) (by rw [htype]; decide)⟩
      · exact Or.inr (Or.inr
          ⟨rfl, hother (by rw [htype]; decide) (by rw [htype]; decide), _, rfl⟩)
  | keysUp => exact Or.inl ⟨rfl, rfl, hother (by rw [htype]; decide) (by rw [htype]; decide)⟩
  | quit => exact Or.inl ⟨rfl, rfl, hother (by rw [htype]; decide) (by rw [htype]; decide)⟩

theorem handleCmd_inbuf {s : Psdos} (h : s.inbuf.length ≤ psdosInbufSize)
    (c : PsdosCmd) : (handleCmd ans s c).inbuf = s.inbuf := by
  rcases handleCmd_cases ans s c with hquiet | ⟨path, hload, _⟩ | hoption
  · exact hquiet.1
  · rw [hload]
    exact loadGame_inbuf ans h path
  · exact hoption.1

/-!
## The table of options
-/

def optRead (opts : List Opt) (key : Text) : Option Text := (optFind opts key).map (·.val)

theorem optSet_cases (opts : List Opt) (key val : Text) (dirty : Bool) :
    (exists front o back, opts = front ++ o :: back ∧ (forall p, p ∈ front -> p.key ≠ key) ∧
        o.key = key ∧ optSet opts key val dirty = front ++ o.put val dirty :: back) ∨
      ((forall o, o ∈ opts -> o.key ≠ key) ∧
        (maxOpt ≤ opts.length ∧ optSet opts key val dirty = opts ∨
          opts.length < maxOpt ∧ optSet opts key val dirty = opts ++
            [Opt.put { key := key.take 63, val := [], fromCmd := false } val dirty])) := by
  unfold optSet
  cases hfound : opts.findIdx? fun o => o.key == key with
  | some i =>
      left
      rcases List.findIdx?_eq_some_iff_getElem.mp hfound with ⟨hi, hkey, hbefore⟩
      refine ⟨opts.take i, opts[i], opts.drop (i + 1), ?_, ?_, eq_of_beq hkey, ?_⟩
      · rw [List.getElem_cons_drop, List.take_append_drop]
      · intro p hp heq
        rcases List.mem_take_iff_getElem.mp hp with ⟨j, hj, rfl⟩
        exact hbefore j (by lia) (beq_iff_eq.mpr heq)
      · exact List.modify_eq_take_cons_drop hi
  | none =>
      right
      have hnone : forall o, o ∈ opts -> o.key ≠ key := by
        intro o ho
        exact ne_of_beq_false (List.findIdx?_eq_none_iff.mp hfound o ho)
      refine ⟨hnone, ?_⟩
      dsimp only
      split
      · next hfull => exact Or.inl ⟨hfull, rfl⟩
      · next hroom => exact Or.inr ⟨not_le.mp hroom, rfl⟩

theorem optRead_append (opts opts' : List Opt) (k : Text) :
    optRead (opts ++ opts') k = (optRead opts k).or (optRead opts' k) := by
  unfold optRead optFind
  rw [List.find?_append, Option.map_or]

theorem optRead_cons (o : Opt) (opts : List Opt) (k : Text) :
    optRead (o :: opts) k = if o.key = k then some o.val else optRead opts k := by
  unfold optRead optFind
  rw [List.find?_cons]
  cases hkey : o.key == k with
  | true => rw [if_pos (eq_of_beq hkey)]; rfl
  | false => rw [if_neg (ne_of_beq_false hkey)]

variable {opts : List Opt}

theorem optRead_eq_none {k : Text} (h : forall o, o ∈ opts -> o.key ≠ k) :
    optRead opts k = none := by
  unfold optRead optFind
  rw [Option.map_eq_none_iff, List.find?_eq_none]
  intro o ho
  rw [beq_iff_eq]
  exact h o ho

theorem optRead_isSome {o : Opt} (ho : o ∈ opts) :
    exists v, optRead opts o.key = some v := by
  unfold optRead
  cases hfind : optFind opts o.key with
  | none =>
      have hnot := List.find?_eq_none.mp hfind o ho
      rw [beq_self_eq_true] at hnot
      exact absurd rfl hnot
  | some found => exact ⟨found.val, rfl⟩

structure ParsedOpt (key val : Text) : Prop where
  key : key ≠ [] ∧ '#' ∉ key ∧ '=' ∉ key ∧ key.dropWhile isBlank = key
  val : val ≠ [] ∧ '#' ∉ val ∧ val.dropWhile isBlank = val

structure Opt.Shaped (o : Opt) : Prop where
  key : o.key.length ≤ 63
  val : o.val.length ≤ 95
  parsed : o.fromCmd = true -> ParsedOpt o.key o.val

/-- The entries fit their fields, and those set by commands came out of lines. -/
structure TableOk (opts : List Opt) : Prop where
  entries : forall o, o ∈ opts -> o.Shaped
  length : opts.length ≤ maxOpt

theorem dropWhile_of_prefix {p : Char -> Bool} {l q : Text} (hq : q <+: l)
    (h : l.dropWhile p = l) : q.dropWhile p = q := by
  cases q with
  | nil => rfl
  | cons c cs =>
      rcases hq with ⟨rest, rfl⟩
      apply List.dropWhile_cons_of_neg
      intro hc
      rw [List.cons_append, List.dropWhile_cons_of_pos hc] at h
      have hlen := congrArg List.length h
      have hle := List.IsSuffix.length_le (List.dropWhile_suffix (l := cs ++ rest) p)
      rw [List.length_cons] at hlen
      lia

theorem ParsedOpt.take {key val : Text} (h : ParsedOpt key val) :
    ParsedOpt (key.take 63) (val.take 95) := by
  constructor
  · refine ⟨?_, ?_, ?_, dropWhile_of_prefix (List.take_prefix _ _) h.key.2.2.2⟩
    · exact mt List.take_eq_nil_iff.mp (by
        rw [not_or]
        exact ⟨by decide, h.key.1⟩)
    · exact fun hmem => h.key.2.1 (List.mem_of_mem_take hmem)
    · exact fun hmem => h.key.2.2.1 (List.mem_of_mem_take hmem)
  · refine ⟨?_, ?_, dropWhile_of_prefix (List.take_prefix _ _) h.val.2.2⟩
    · exact mt List.take_eq_nil_iff.mp (by
        rw [not_or]
        exact ⟨by decide, h.val.1⟩)
    · exact fun hmem => h.val.2.1 (List.mem_of_mem_take hmem)

theorem Opt.put_val {o : Opt} (h : o.val.length ≤ 95) (val : Text) (dirty : Bool) :
    (o.put val dirty).val = val.take 95 := by
  unfold put
  dsimp only
  split
  · next heq =>
    rw [heq] at h ⊢
    rw [List.take_of_length_le h]
  · rfl

theorem tableOk_optSet (h : TableOk opts) {key val : Text} {dirty : Bool}
    (hparsed : (dirty = true ∨ exists o, o ∈ opts ∧ o.key = key ∧ o.fromCmd = true) ->
      ParsedOpt key val) : TableOk (optSet opts key val dirty) := by
  have hshaped : forall o : Opt, o.key.length ≤ 63 -> o.val.length ≤ 95 -> o.key = key.take 63 ->
      (o.fromCmd = true -> exists p, p ∈ opts ∧ p.key = key ∧ p.fromCmd = true) ->
      (o.put val dirty).Shaped := by
    intro o hkey hval hcut hcmd
    constructor
    · exact hkey
    · rw [Opt.put_val hval]
      exact List.length_take_le _ _
    · intro hput
      rw [Opt.put_val hval]
      change ParsedOpt o.key _
      rw [hcut]
      apply ParsedOpt.take
      apply hparsed
      change (o.fromCmd || dirty) = true at hput
      rcases Bool.or_eq_true_iff.mp hput with hold | hnew
      · exact Or.inr (hcmd hold)
      · exact Or.inl hnew
  rcases optSet_cases opts key val dirty with
    ⟨front, o, back, rfl, _, hkey, hset⟩ | ⟨_, ⟨_, hset⟩ | ⟨hroom, hset⟩⟩
  · rw [hset]
    have ho := h.entries o (List.mem_append_right _ List.mem_cons_self)
    constructor
    · intro p hp
      rcases List.mem_append.mp hp with hfront | hrest
      · exact h.entries p (List.mem_append_left _ hfront)
      · rcases List.mem_cons.mp hrest with rfl | hback
        · apply hshaped o ho.key ho.val
          · rw [← hkey, List.take_of_length_le ho.key]
          · exact fun hcmd => ⟨o, List.mem_append_right _ List.mem_cons_self, hkey, hcmd⟩
        · exact h.entries p (List.mem_append_right _ (List.mem_cons_of_mem _ hback))
    · have hlen := h.length
      rw [List.length_append, List.length_cons] at hlen ⊢
      exact hlen
  · rw [hset]
    exact h
  · rw [hset]
    constructor
    · intro p hp
      rcases List.mem_append.mp hp with hold | hnew
      · exact h.entries p hold
      · rw [List.mem_singleton.mp hnew]
        exact hshaped _ (List.length_take_le _ _) (Nat.zero_le _) rfl
          fun hcmd => Bool.noConfusion hcmd
    · rw [List.length_append, List.length_singleton]
      exact hroom

theorem optLine_parsed {line key val : Text} (h : optLine line = some (key, val)) :
    ParsedOpt key val := by
  unfold optLine at h
  dsimp only at h
  generalize hcut : line.takeWhile (· != '#') = cut at h
  have hhash : '#' ∉ cut := by
    rw [← hcut]
    intro hmem
    have hne := List.mem_takeWhile_imp hmem
    rw [bne_self_eq_false] at hne
    cases hne
  have htrim : forall (l : Text) (p q : Char -> Bool),
      ((l.dropWhile p).rdropWhile q).dropWhile p = (l.dropWhile p).rdropWhile q :=
    fun l p q => dropWhile_of_prefix (List.rdropWhile_prefix q _) (List.dropWhile_idempotent p l)
  have hsub : forall (l : Text) (p q : Char -> Bool) (c : Char),
      c ∈ (l.dropWhile p).rdropWhile q -> c ∈ l := by
    intro l p q c hc
    exact (List.dropWhile_suffix p).subset ((List.rdropWhile_prefix q _).subset hc)
  cases heq : cut.dropWhile (· != '=') with
  | nil =>
      rw [heq] at h
      cases h
  | cons eq v =>
      rw [heq] at h
      dsimp only at h
      split at h
      · cases h
      · next hfull =>
        cases h
        rw [not_or] at hfull
        constructor
        · refine ⟨hfull.1, ?_, ?_, htrim _ _ _⟩
          · intro hmem
            exact hhash ((List.takeWhile_prefix _).subset (hsub _ _ _ _ hmem))
          · intro hmem
            have hne := List.mem_takeWhile_imp (hsub _ _ _ _ hmem)
            rw [bne_self_eq_false] at hne
            cases hne
        · refine ⟨hfull.2, ?_, htrim _ _ _⟩
          intro hmem
          have hv := hsub _ _ _ _ hmem
          have hsuffix := List.dropWhile_suffix (l := cut) (· != '=')
          rw [heq] at hsuffix
          exact hhash (hsuffix.subset (List.mem_cons_of_mem _ hv))

theorem tableOk_optParseLine (h : TableOk opts) (line : Text) (dirty : Bool) :
    TableOk (optParseLine opts line dirty) := by
  unfold optParseLine
  cases hline : optLine line with
  | none => exact h
  | some kv => exact tableOk_optSet h fun _ => optLine_parsed hline

def NoneFromCmd (opts : List Opt) : Prop := forall o, o ∈ opts -> o.fromCmd = false

theorem optSet_own (h : TableOk opts ∧ NoneFromCmd opts) (key val : Text) :
    TableOk (optSet opts key val false) ∧ NoneFromCmd (optSet opts key val false) := by
  constructor
  · apply tableOk_optSet h.1
    rintro (hdirty | ⟨o, ho, _, hcmd⟩)
    · cases hdirty
    · rw [h.2 o ho] at hcmd
      cases hcmd
  · rcases optSet_cases opts key val false with
      ⟨front, o, back, rfl, _, hkey, hset⟩ | ⟨_, ⟨_, hset⟩ | ⟨hroom, hset⟩⟩
    · rw [hset]
      intro p hp
      rcases List.mem_append.mp hp with hfront | hrest
      · exact h.2 p (List.mem_append_left _ hfront)
      · rcases List.mem_cons.mp hrest with rfl | hback
        · have ho := h.2 o (List.mem_append_right _ List.mem_cons_self)
          change (o.fromCmd || false) = false
          rw [ho]
          rfl
        · exact h.2 p (List.mem_append_right _ (List.mem_cons_of_mem _ hback))
    · rw [hset]
      exact h.2
    · rw [hset]
      intro p hp
      rcases List.mem_append.mp hp with hold | hnew
      · exact h.2 p hold
      · rw [List.mem_singleton.mp hnew]
        rfl

theorem foldl_own {ι : Type} {f : List Opt -> ι -> List Opt}
    (hf : forall opts i, TableOk opts ∧ NoneFromCmd opts ->
      TableOk (f opts i) ∧ NoneFromCmd (f opts i)) {opts : List Opt}
    (h : TableOk opts ∧ NoneFromCmd opts) (l : List ι) :
    TableOk (l.foldl f opts) ∧ NoneFromCmd (l.foldl f opts) := by
  induction l generalizing opts with
  | nil => exact h
  | cons i rest ih => exact ih (hf opts i h)

theorem optDefaults_own (conf : List Text) :
    TableOk (optDefaults conf) ∧ NoneFromCmd (optDefaults conf) := by
  have hempty : TableOk [] ∧ NoneFromCmd [] := by
    constructor
    · constructor
      · exact fun o ho => absurd ho List.not_mem_nil
      · exact Nat.zero_le _
    · exact fun o ho => absurd ho List.not_mem_nil
  unfold optDefaults
  apply foldl_own
  · intro opts line h
    unfold optParseLine
    cases optLine line with
    | none => exact h
    | some kv => exact optSet_own h kv.1 kv.2
  · apply foldl_own
    · exact fun opts d h => optSet_own h d.1 d.2
    · exact hempty

theorem setVariables_ok (h : TableOk opts) (vars : List (Text × Text)) :
    TableOk (setVariables opts vars) ∧
      forall k v, optRead opts k = some v -> optRead (setVariables opts vars) k = some v := by
  unfold setVariables
  induction vars generalizing opts with
  | nil => exact ⟨h, fun _ _ hread => hread⟩
  | cons var rest ih =>
      rw [List.foldl_cons]
      cases hfind : optFind opts var.1 with
      | some o => exact ih h
      | none =>
          dsimp only
          have hnone : forall o, o ∈ opts -> o.key ≠ var.1 := by
            intro o ho heq
            exact List.find?_eq_none.mp hfind o ho (beq_iff_eq.mpr heq)
          have hset : TableOk (optSet opts var.1 var.2 false) := by
            apply tableOk_optSet h
            rintro (hdirty | ⟨o, ho, hkey, _⟩)
            · cases hdirty
            · exact absurd hkey (hnone o ho)
          refine ⟨(ih hset).1, ?_⟩
          intro k v hread
          apply (ih hset).2 k v
          rcases optSet_cases opts var.1 var.2 false with
            ⟨front, o, back, hopts, _, hkey, _⟩ | ⟨_, ⟨_, hnew⟩ | ⟨_, hnew⟩⟩
          · refine absurd hkey (hnone o ?_)
            rw [hopts]
            exact List.mem_append_right _ List.mem_cons_self
          · rw [hnew]
            exact hread
          · rw [hnew, optRead_append, hread]
            rfl

/-!
## Options in a new process
-/

def cmdOpts (opts : List Opt) : List Opt := opts.filter (·.fromCmd)

def Opt.line (o : Opt) : Text := o.key ++ '=' :: o.val

def newKeys (keys : List Text) : List Text -> Nat
  | [] => 0
  | k :: rest => if keys.contains k then newKeys keys rest else 1 + newKeys (keys ++ [k]) rest

/-- The option is one line, and the line is the option again: the cut of a long key or a long
value did not leave a blank at its end. -/
structure Opt.Rereads (o : Opt) : Prop where
  oneLine : newline ∉ o.key ∧ newline ∉ o.val
  key : o.key.rdropWhile isBlank = o.key
  val : o.val.rdropWhile isLineBlank = o.val

/-- The options set by commands are read again one by one, the last of a cut key is the one
that was in force, and the new table has room for all of them. -/
structure Carried (opts : List Opt) (conf : List Text) : Prop where
  rereads : forall o, o ∈ cmdOpts opts -> o.Rereads
  inForce : forall o, o ∈ cmdOpts opts -> optRead (cmdOpts opts).reverse o.key = optRead opts o.key
  room : (optDefaults conf).length +
    newKeys ((optDefaults conf).map (·.key)) ((cmdOpts opts).map (·.key)) ≤ maxOpt

theorem resumeOpts_eq (h : forall o, o ∈ opts -> o.Shaped) {text : Text}
    (hlen : text.length + 161 * opts.length ≤ 161 * maxOpt) :
    resumeOpts opts text = text ++ unlines ((cmdOpts opts).map Opt.line) := by
  induction opts generalizing text with
  | nil => exact (List.append_nil text).symm
  | cons o rest ih =>
      have hrest : forall o, o ∈ rest -> o.Shaped := fun o ho => h o (List.mem_cons_of_mem _ ho)
      have ho := h o List.mem_cons_self
      have hkey := ho.key
      have hval := ho.val
      rw [List.length_cons] at hlen
      unfold resumeOpts cmdOpts
      cases hcmd : o.fromCmd with
      | true =>
          have hroom : text.length + 170 < resumeRoom := by
            unfold resumeRoom
            unfold maxOpt at hlen ⊢
            lia
          rw [if_pos ⟨rfl, hroom⟩, List.filter_cons_of_pos hcmd, ih hrest]
          · change (text ++ (o.line ++ [newline])) ++ unlines ((cmdOpts rest).map Opt.line) =
              text ++ unlines (o.line :: (cmdOpts rest).map Opt.line)
            rw [unlines_cons, List.append_assoc, List.append_assoc]
            rfl
          · simp only [List.length_append, List.length_cons, List.length_nil]
            lia
      | false =>
          rw [if_neg (fun hset => Bool.noConfusion hset.1), List.filter_cons_of_neg, ih hrest]
          · rfl
          · lia
          · rw [hcmd]
            exact Bool.false_ne_true

theorem Opt.line_length {o : Opt} (h : o.Shaped) : o.line.length < 256 := by
  have hkey := h.key
  have hval := h.val
  unfold line
  rw [List.length_append, List.length_cons]
  lia

theorem takeWhile_of_notMem {c : Char} {l : Text} (h : c ∉ l) : l.takeWhile (· != c) = l := by
  rw [List.takeWhile_eq_self_iff]
  intro d hd
  rw [bne_iff_ne]
  rintro rfl
  exact h hd

theorem Opt.optLine_line {o : Opt} (h : ParsedOpt o.key o.val) (hrereads : o.Rereads) :
    optLine o.line = some (o.key, o.val) := by
  have hhash : '#' ∉ o.line := by
    unfold line
    intro hmem
    rcases List.mem_append.mp hmem with hkey | hrest
    · exact h.key.2.1 hkey
    · rcases List.mem_cons.mp hrest with heq | hval
      · exact absurd heq (by decide)
      · exact h.val.2.1 hval
  have hkey : o.line.takeWhile (· != '=') = o.key := by
    unfold line
    rw [takeWhile_append_stop (by decide), takeWhile_of_notMem h.key.2.2.1]
  have hval : o.line.dropWhile (· != '=') = '=' :: o.val := by
    have hsplit := List.takeWhile_append_dropWhile (p := (· != '=')) (l := o.line)
    rw [hkey] at hsplit
    exact List.append_cancel_left hsplit
  unfold optLine
  dsimp only
  rw [takeWhile_of_notMem hhash, hval, hkey]
  dsimp only
  rw [h.key.2.2.2, hrereads.key, h.val.2.2, hrereads.val, if_neg]
  rw [not_or]
  exact ⟨h.key.1, h.val.1⟩

theorem resumeParse_unlines {l : List Opt} (hshaped : forall o, o ∈ l -> o.Shaped)
    (hcmd : forall o, o ∈ l -> o.fromCmd = true) (hrereads : forall o, o ∈ l -> o.Rereads)
    (opts : List Opt) :
    resumeParse opts (unlines (l.map Opt.line)) =
      l.foldl (fun opts o => optSet opts o.key o.val true) opts := by
  unfold resumeParse
  rw [textLines_unlines]
  · induction l generalizing opts with
    | nil => rfl
    | cons o rest ih =>
        have ho := hshaped o List.mem_cons_self
        have hline : optParseLine opts o.line true = optSet opts o.key o.val true := by
          unfold optParseLine
          rw [Opt.optLine_line (ho.parsed (hcmd o List.mem_cons_self))
            (hrereads o List.mem_cons_self)]
        rw [List.map_cons, List.foldl_cons, List.foldl_cons, if_pos (Opt.line_length ho), hline]
        exact ih (fun o ho => hshaped o (List.mem_cons_of_mem _ ho))
          (fun o ho => hcmd o (List.mem_cons_of_mem _ ho))
          (fun o ho => hrereads o (List.mem_cons_of_mem _ ho)) _
  · intro line hline
    rcases List.mem_map.mp hline with ⟨o, ho, rfl⟩
    have hone := (hrereads o ho).oneLine
    intro hmem
    rcases List.mem_append.mp hmem with hkey | hrest
    · exact hone.1 hkey
    · rcases List.mem_cons.mp hrest with heq | hval
      · exact absurd heq (by decide)
      · exact hone.2 hval

theorem optSet_fits (h : TableOk opts) {o : Opt} (ho : o.Shaped)
    (hroom : opts.length < maxOpt ∨ (opts.map (·.key)).contains o.key = true) :
    (forall k, optRead (optSet opts o.key o.val true) k =
        if o.key = k then some o.val else optRead opts k) ∧
      (optSet opts o.key o.val true).map (·.key) =
        if (opts.map (·.key)).contains o.key then opts.map (·.key)
        else opts.map (·.key) ++ [o.key] := by
  have hval := ho.val
  rcases optSet_cases opts o.key o.val true with
    ⟨front, p, back, rfl, hfront, hkey, hset⟩ | ⟨hnone, hset⟩
  · have hp := h.entries p (List.mem_append_right _ List.mem_cons_self)
    rw [hset]
    constructor
    · intro k
      rw [optRead_append, optRead_append, optRead_cons, optRead_cons,
        Opt.put_val hp.val, List.take_of_length_le hval]
      change (optRead front k).or (if p.key = k then _ else _) = _
      rw [hkey]
      split
      · next heq =>
        rw [optRead_eq_none (by rw [← heq]; exact hfront)]
        rfl
      · rfl
    · have hmem : ((front ++ p :: back).map (·.key)).contains o.key = true := by
        rw [List.contains_iff_mem, List.map_append, List.map_cons, hkey]
        exact List.mem_append_right _ List.mem_cons_self
      rw [if_pos hmem, List.map_append, List.map_append, List.map_cons, List.map_cons]
      rfl
  · have hnot : (opts.map (·.key)).contains o.key = false := by
      rw [← Bool.not_eq_true, List.contains_iff_mem]
      intro hmem
      rcases List.mem_map.mp hmem with ⟨p, hp, hkey⟩
      exact hnone p hp hkey
    rcases hset with ⟨hfull, _⟩ | ⟨_, hset⟩
    · rw [hnot] at hroom
      rcases hroom with hroom | hin
      · exact absurd hfull (not_le.mpr hroom)
      · cases hin
    · rw [hset, if_neg (by rw [hnot]; exact Bool.false_ne_true), List.map_append]
      constructor
      · intro k
        rw [optRead_append, optRead_cons, Opt.put_val (Nat.zero_le _),
          List.take_of_length_le hval]
        change (optRead opts k).or (if o.key.take 63 = k then _ else none) = _
        rw [List.take_of_length_le ho.key]
        split
        · next heq =>
          rw [optRead_eq_none (by rw [← heq]; exact hnone)]
          rfl
        · rw [Option.or_none]
      · change _ ++ [o.key.take 63] = _
        rw [List.take_of_length_le ho.key]

theorem foldl_optSet {l : List Opt} (hshaped : forall o, o ∈ l -> o.Shaped)
    (hcmd : forall o, o ∈ l -> o.fromCmd = true) {opts : List Opt} (h : TableOk opts)
    (hroom : opts.length + newKeys (opts.map (·.key)) (l.map (·.key)) ≤ maxOpt) :
    TableOk (l.foldl (fun opts o => optSet opts o.key o.val true) opts) ∧
      forall k, optRead (l.foldl (fun opts o => optSet opts o.key o.val true) opts) k =
        (optRead l.reverse k).or (optRead opts k) := by
  induction l generalizing opts with
  | nil => exact ⟨h, fun k => rfl⟩
  | cons o rest ih =>
      have ho := hshaped o List.mem_cons_self
      rw [List.map_cons] at hroom
      unfold newKeys at hroom
      have hset : TableOk (optSet opts o.key o.val true) :=
        tableOk_optSet h fun _ => ho.parsed (hcmd o List.mem_cons_self)
      have hfits := optSet_fits h ho (by
        split at hroom
        · next hin => exact Or.inr hin
        · left
          lia)
      have hlength := congrArg List.length hfits.2
      have hnext := ih (fun o ho => hshaped o (List.mem_cons_of_mem _ ho))
        (fun o ho => hcmd o (List.mem_cons_of_mem _ ho)) hset (by
          rw [hfits.2]
          split at hroom
          · next hin =>
            rw [if_pos hin, List.length_map, List.length_map] at hlength
            rw [if_pos hin, hlength]
            exact hroom
          · next hout =>
            rw [if_neg hout, List.length_map, List.length_append, List.length_map,
              List.length_singleton] at hlength
            rw [if_neg hout, hlength]
            lia)
      refine ⟨hnext.1, fun k => ?_⟩
      rw [List.foldl_cons, hnext.2 k, List.reverse_cons, optRead_append, Option.or_assoc,
        hfits.1 k, optRead_cons]
      split
      · rfl
      · rfl

theorem coreLoad_opts (s : Psdos) (path : Text) :
    (coreLoad ans s path).opts = s.opts ∨
      (coreLoad ans s path).opts = setVariables s.opts ans.vars := by
  have hvars : (coreUnload s).opts = s.opts := rfl
  unfold coreLoad
  split
  · exact Or.inl rfl
  · dsimp only
    rw [hvars]
    cases (coreUnload s).core.inited with
    | true =>
        left
        split
        · rfl
        · rfl
    | false =>
        right
        split
        · rfl
        · rfl

theorem coreLoad_reads {s : Psdos} (h : TableOk s.opts) (path : Text) :
    TableOk (coreLoad ans s path).opts ∧
      forall k v, optRead s.opts k = some v -> optRead (coreLoad ans s path).opts k = some v := by
  rcases coreLoad_opts ans s path with hopts | hopts
  · rw [hopts]
    exact ⟨h, fun _ _ hread => hread⟩
  · rw [hopts]
    exact setVariables_ok h ans.vars

theorem resumed_reads {s : Psdos} (h : TableOk s.opts) (path : Text) :
    TableOk (resumed ans s path).opts ∧
      (Carried s.opts ans.conf -> forall o, o ∈ cmdOpts s.opts ->
        optRead (resumed ans s path).opts o.key = optRead s.opts o.key) := by
  generalize hopts : resumeParse (optDefaults ans.conf) (resumeOpts s.opts []) = opts
  have htable : TableOk opts := by
    rw [← hopts]
    unfold resumeParse
    apply List.foldlRecOn (textLines (resumeOpts s.opts [])) _ (optDefaults_own ans.conf).1
    intro table htable line _
    split
    · exact tableOk_optParseLine htable line true
    · exact htable
  have hread : Carried s.opts ans.conf -> forall o, o ∈ cmdOpts s.opts ->
      optRead opts o.key = optRead s.opts o.key := by
    intro hcarried o ho
    have hshaped : forall o, o ∈ cmdOpts s.opts -> o.Shaped :=
      fun o ho => h.entries o (List.mem_of_mem_filter ho)
    have hcmd : forall o, o ∈ cmdOpts s.opts -> o.fromCmd = true :=
      fun o ho => (List.mem_filter.mp ho).2
    have hlen : ([] : Text).length + 161 * s.opts.length ≤ 161 * maxOpt := by
      have hlen := h.length
      rw [List.length_nil]
      lia
    have hlast := hcarried.inForce o ho
    rw [resumeOpts_eq h.entries hlen, List.nil_append,
      resumeParse_unlines hshaped hcmd hcarried.rereads] at hopts
    rw [← hopts, (foldl_optSet hshaped hcmd (optDefaults_own ans.conf).1 hcarried.room).2, hlast]
    rcases optRead_isSome (List.mem_of_mem_filter ho) with ⟨v, hv⟩
    rw [hv]
    rfl
  unfold resumed
  rw [hopts]
  dsimp only
  split
  · rcases coreLoad_reads ans (s :=
      { opts := opts
        input := PsdosInput.none
        view := { s.view with full := true, map := none }
        frames := Frames.none
        core :=
          { opened := false
            inited := false
            loaded := false
            exited := false
            failed := false
            used := false
            lastPath := []
            fmt := .rgb1555
            aspect := ans.aspect }
        picture :=
          { s.picture with
            surface := { s.picture.surface with consumed := s.picture.surface.serial } }
        inbuf := unhexText psdosInbufSize (hexText s.inbuf)
        quit := false }) htable (path.take 4095) with ⟨hok, hkeeps⟩
    refine ⟨hok, fun hcarried o ho => ?_⟩
    rcases optRead_isSome (List.mem_of_mem_filter ho) with ⟨v, hv⟩
    rw [hv]
    apply hkeeps
    rw [← hv]
    exact hread hcarried o ho
  · exact ⟨htable, hread⟩

theorem handleCmd_reads {s : Psdos} (h : TableOk s.opts) (c : PsdosCmd) :
    TableOk (handleCmd ans s c).opts ∧
      (startsProcess ans s c = true -> Carried s.opts ans.conf ->
        forall o, o ∈ cmdOpts s.opts ->
          optRead (handleCmd ans s c).opts o.key = optRead s.opts o.key) := by
  rcases handleCmd_cases ans s c with ⟨_, hopts, hstays⟩ | ⟨path, hload, hstarts⟩ |
    ⟨_, hstays, line, hopts⟩
  · rw [hopts, hstays]
    exact ⟨h, fun hstarts => Bool.noConfusion hstarts⟩
  · rw [hload, hstarts, Bool.and_eq_true]
    unfold loadGame
    split
    · have hreads := resumed_reads ans h path
      exact ⟨hreads.1, fun _ => hreads.2⟩
    · next hsame => exact ⟨(coreLoad_reads ans h path).1, fun hnew => absurd hnew hsame⟩
  · rw [hopts, hstays]
    exact ⟨tableOk_optParseLine h line true, fun hstarts => Bool.noConfusion hstarts⟩

/-!
## The stream
-/

/-- Each of the new processes so far read the options of the commands as the old one did, if
they could be carried over. -/
def ReexecsKeep (rs : List Reexec) : Prop :=
  forall r, r ∈ rs -> Carried r.before r.conf ->
    forall o, o ∈ cmdOpts r.before -> optRead r.after o.key = optRead r.before o.key

structure ServiceOk (v : Service) : Prop where
  client : v.client = true
  sent : forall c, c ∈ v.sent -> c.str.length < psdosStrMax
  split : StreamSplit encodeCmd v.sent v.handled v.psdos.inbuf v.wire
  options : TableOk v.psdos.opts
  reexecs : ReexecsKeep v.reexecs

def ServiceWaits (v : Service) : Prop := CutRecord encodeCmd v.sent v.psdos.inbuf

theorem inbuf_short {v : Service} (hok : ServiceOk v) (hwaits : ServiceWaits v) :
    v.psdos.inbuf.length < cmdSize + psdosStrMax := by
  apply CutRecord.length_lt hwaits (by decide)
  intro c hc
  have hlen := hok.sent c hc
  rw [encodeCmd_length]
  lia

theorem serviceOk_handle (hosts : PsdosHosts) {v : Service} (hok : ServiceOk v) {c : PsdosCmd}
    {rest : List (BitVec 8)} (hrest : rest.length ≤ psdosInbufSize)
    (hsplit : StreamSplit encodeCmd v.sent (v.handled ++ [c]) rest v.wire) :
    ServiceOk (Service.handle hosts { v with psdos := { v.psdos with inbuf := rest } } c) ∧
      (Service.handle hosts { v with psdos := { v.psdos with inbuf := rest } } c).psdos.inbuf =
        rest := by
  have hinbuf := handleCmd_inbuf (hosts v.handled.length) (s := { v.psdos with inbuf := rest })
    hrest c
  have hreads := handleCmd_reads (hosts v.handled.length) (s := { v.psdos with inbuf := rest })
    hok.options c
  refine ⟨?_, hinbuf⟩
  unfold Service.handle
  constructor
  · exact hok.client
  · exact hok.sent
  · dsimp only
    rw [hinbuf]
    exact hsplit
  · exact hreads.1
  · dsimp only
    split
    · next hstarts =>
      intro r hr
      rcases List.mem_append.mp hr with hold | hnew
      · exact hok.reexecs r hold
      · rw [List.mem_singleton.mp hnew]
        exact hreads.2 hstarts
    · exact hok.reexecs

theorem clientParse_ok (hosts : PsdosHosts) {fuel : Nat} {v : Service} (hok : ServiceOk v)
    (hlen : v.psdos.inbuf.length ≤ psdosInbufSize) (hfuel : v.psdos.inbuf.length < fuel) :
    ServiceOk (clientParse hosts fuel v) ∧ ServiceWaits (clientParse hosts fuel v) := by
  induction fuel generalizing v with
  | zero => cases hfuel
  | succ fuel ih =>
      unfold clientParse
      dsimp only
      rcases hok.split.front with ⟨c, rest, hmem, hbuf, hsplit⟩ | hcut
      · have hstr := hok.sent c hmem
        have hwhole := encodeCmd_length c
        have hlength := congrArg List.length hbuf
        rw [List.length_append, hwhole] at hlength
        have hword : (wordAt v.psdos.inbuf 28).toNat = c.str.length := by
          rw [hbuf, wordAt_append (by rw [hwhole]; unfold cmdSize; lia), wordAt_len_toNat hstr]
        have hrecord : recordAt v.psdos.inbuf c.str.length = some c := by
          rw [hbuf]
          exact recordAt_encode c rest
        have hdrop : v.psdos.inbuf.drop (cmdSize + c.str.length) = rest := by
          rw [hbuf, List.drop_left' hwhole]
        rw [if_neg (by lia), hword, if_neg (by lia), if_neg (by lia), hrecord, hdrop]
        dsimp only
        have hnext := serviceOk_handle hosts hok (by lia) hsplit
        apply ih hnext.1
        · rw [hnext.2]
          lia
        · rw [hnext.2]
          have hsize : 0 < cmdSize := by decide
          lia
      · have hstays : ServiceOk v ∧ ServiceWaits v := ⟨hok, hcut⟩
        split
        · exact hstays
        · next hhead =>
          rcases hcut with hempty | ⟨c, tail, hmem, hne, hrecord⟩
          · rw [hempty] at hhead
            exact absurd (by decide) hhead
          · have hstr := hok.sent c hmem
            have hword : (wordAt v.psdos.inbuf 28).toNat = c.str.length := by
              rw [← wordAt_len_toNat hstr, hrecord,
                wordAt_append (by unfold cmdSize at hhead; lia)]
            have hlength := congrArg List.length hrecord
            have hpos := List.length_pos_iff.mpr hne
            rw [encodeCmd_length, List.length_append] at hlength
            rw [hword, if_neg (by lia), if_pos (by lia)]
            exact hstays

theorem clientParse_wire (hosts : PsdosHosts) (fuel : Nat) (v : Service) :
    (clientParse hosts fuel v).wire = v.wire := by
  induction fuel generalizing v with
  | zero => rfl
  | succ fuel ih =>
      unfold clientParse
      dsimp only
      split
      · rfl
      · split
        · rfl
        · split
          · rfl
          · split
            · rw [ih]
            · rw [ih]
              rfl

theorem clientRead_ok (hosts : PsdosHosts) (n : Nat) {v : Service} (hok : ServiceOk v)
    (hwaits : ServiceWaits v) (hwire : v.wire ≠ []) :
    ServiceOk (clientRead hosts n v) ∧ ServiceWaits (clientRead hosts n v) ∧
      (clientRead hosts n v).wire.length < v.wire.length := by
  have hshort := inbuf_short hok hwaits
  have hsize : psdosInbufSize = cmdSize + psdosStrMax + 16 := rfl
  have hpos := List.length_pos_iff.mpr hwire
  unfold clientRead
  dsimp only
  rw [if_neg (by lia)]
  generalize hgot : min (max n 1) (psdosInbufSize - v.psdos.inbuf.length) = got
  have hsplit := hok.split.receive got
  have hparse := @clientParse_ok hosts ((v.psdos.inbuf ++ v.wire.take got).length + 1)
    { v with
      psdos := { v.psdos with inbuf := v.psdos.inbuf ++ v.wire.take got }
      wire := v.wire.drop got }
    { client := hok.client
      sent := hok.sent
      split := hsplit
      options := hok.options
      reexecs := hok.reexecs }
    (by
      dsimp only
      rw [List.length_append, List.length_take]
      lia)
    (Nat.lt_succ_self _)
  refine ⟨hparse.1, hparse.2, ?_⟩
  rw [clientParse_wire, List.length_drop]
  lia

theorem serviceOk_step (hosts : PsdosHosts) {v : Service} (e : ServiceEvent)
    (h : ServiceOk v ∧ ServiceWaits v) :
    ServiceOk (serviceStep hosts v e) ∧ ServiceWaits (serviceStep hosts v e) := by
  rcases h with ⟨hok, hwaits⟩
  cases e with
  | push cmd =>
      constructor
      · constructor
        · exact hok.client
        · intro c hc
          rcases List.mem_append.mp hc with hold | hnew
          · exact hok.sent c hold
          · rw [List.mem_singleton.mp hnew]
            have hle := List.length_take_le (psdosStrMax - 1) cmd.str
            exact lt_of_le_of_lt hle (by decide)
        · exact hok.split.send _
        · exact hok.options
        · exact hok.reexecs
      · exact hwaits.send _
  | read n =>
      unfold serviceStep
      dsimp only
      split
      · exact ⟨hok, hwaits⟩
      · next hreads =>
        rw [not_or, not_or] at hreads
        have hread := clientRead_ok hosts n hok hwaits hreads.2.2
        exact ⟨hread.1, hread.2.1⟩
  | exits =>
      exact
        ⟨{ client := hok.client
           sent := hok.sent
           split := hok.split
           options := hok.options
           reexecs := hok.reexecs }, hwaits⟩

theorem serviceOk_start :
    ServiceOk (serviceStart ans) ∧ ServiceWaits (serviceStart ans) := by
  constructor
  · constructor
    · rfl
    · exact fun c hc => absurd hc List.not_mem_nil
    · exact StreamSplit.start
    · exact (optDefaults_own ans.conf).1
    · exact fun r hr => absurd hr List.not_mem_nil
  · exact Or.inl rfl

/-- psdos handles the commands in their order, all that were received whole; there is always
room to receive more; and each new process reads the options of the commands as the old one
did, where they could be carried over. -/
theorem handled_in_order (hosts : PsdosHosts) (ans : PsdosHost) (events : List ServiceEvent) :
    let v := run (serviceStep hosts) (serviceStart ans) events
    v.client = true ∧ v.handled <+: v.sent ∧ (v.wire = [] -> v.handled = v.sent) ∧
      v.psdos.inbuf.length < psdosInbufSize ∧
      (v.wire ≠ [] -> v.psdos.quit = false ->
        forall n, (serviceStep hosts v (.read n)).wire.length < v.wire.length) ∧
      ((forall r, r ∈ v.reexecs -> Carried r.before r.conf) ->
        forall r, r ∈ v.reexecs -> forall o, o ∈ cmdOpts r.before ->
          optRead r.after o.key = optRead r.before o.key) := by
  intro v
  have hstep : forall v e, ServiceOk v ∧ ServiceWaits v ->
      ServiceOk (serviceStep hosts v e) ∧ ServiceWaits (serviceStep hosts v e) :=
    fun _ e h => serviceOk_step hosts e h
  have hv : ServiceOk v ∧ ServiceWaits v := run_invariant hstep (serviceOk_start ans) events
  rcases hv with ⟨hok, hwaits⟩
  refine ⟨hok.client, hok.split.in_order, ?_, ?_, ?_, ?_⟩
  · intro hwire
    have hsplit := hok.split
    rw [hwire] at hsplit
    exact hsplit.all_handled hwaits (encodeCmd_selfDelimiting hok.sent)
  · have hshort := inbuf_short hok hwaits
    exact lt_of_lt_of_le hshort (by decide)
  · intro hwire hquit n
    unfold serviceStep
    dsimp only
    rw [if_neg]
    · exact (clientRead_ok hosts n hok hwaits hwire).2.2
    · rw [not_or, not_or, hok.client, hquit]
      exact ⟨Bool.noConfusion, Bool.noConfusion, hwire⟩
  · exact fun hcarried r hr => hok.reexecs r hr (hcarried r hr)

def plainHost : PsdosHost :=
  { execOk := true
    opens := true
    loads := true
    vars := []
    fmt := .xrgb8888
    aspect :=
      { height := fun _ _ w => w
        width := fun _ _ h => h }
    conf := [] }

def plainCmd (type : PsdosCmdType) (str : List (BitVec 8)) : PsdosCmd :=
  { type := type, a := 0, b := 0, c := 0, d := 0, e := 0, str := str }

/-- An option whose value has a line feed in it, `a=b` and `c` behind that, and two games. -/
def twoLineOption : List ServiceEvent :=
  [.push (plainCmd .option [97, 61, 98, 10, 99]), .push (plainCmd .load []),
    .push (plainCmd .load []), .read 1072]

/-- The new process reads only the first line of the value. -/
theorem option_cut :
    ¬ forall (hosts : PsdosHosts) (ans : PsdosHost) (events : List ServiceEvent),
      forall r, r ∈ (run (serviceStep hosts) (serviceStart ans) events).reexecs ->
        forall o, o ∈ cmdOpts r.before -> optRead r.after o.key = optRead r.before o.key := by
  intro hall
  have hrun := hall (fun _ => plainHost) plainHost twoLineOption
  revert hrun
  decide +kernel

end Services
end PistormAtari
