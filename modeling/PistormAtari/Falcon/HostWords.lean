import PistormAtari.Falcon.HostFifos

/-!
# Reads of the data register

A read of the data register takes one byte after another, and each byte looks at the ring
again.
-/

namespace PistormAtari
namespace Falcon

open Foundation

/-!
## Bytes of a word
-/

def dataByte (o : Nat) (v : Word) : BitVec 8 :=
  match o with
  | 5 => (v >>> 16).setWidth 8
  | 6 => (v >>> 8).setWidth 8
  | 7 => v.setWidth 8
  | _ => 0

def assemble (bytes : List (BitVec 8)) : BitVec 32 :=
  bytes.foldl (fun v b => (v <<< 8) ||| b.setWidth 32) 0

def readOf (o size : Nat) (v : Word) : BitVec 32 :=
  assemble ((List.range' o size).map fun i => dataByte i v)

theorem assemble_snoc (bytes : List (BitVec 8)) (b : BitVec 8) :
    assemble (bytes ++ [b]) = (assemble bytes <<< 8) ||| b.setWidth 32 := by
  unfold assemble
  rw [List.foldl_append]
  rfl

theorem shiftIn_toNat {v : BitVec 32} (hv : v.toNat < 2 ^ 24) (b : BitVec 8) :
    ((v <<< 8) ||| b.setWidth 32).toNat = v.toNat * 256 + b.toNat := by
  have hb : b.toNat < 2 ^ 8 := b.isLt
  rw [BitVec.toNat_or, BitVec.toNat_shiftLeft, BitVec.toNat_setWidth, Nat.shiftLeft_eq,
    Nat.mod_eq_of_lt (by lia), Nat.mod_eq_of_lt (by lia), ← Nat.shiftLeft_eq,
    ← Nat.shiftLeft_add_eq_or_of_lt hb, Nat.shiftLeft_eq]

theorem assemble_lt (bytes : List (BitVec 8)) (hlen : bytes.length ≤ 4) :
    (assemble bytes).toNat < 256 ^ bytes.length := by
  induction bytes using List.reverseRecOn with
  | nil => exact Nat.zero_lt_one
  | append_singleton rest b ih =>
      rw [List.length_append, List.length_singleton] at hlen
      have hrest := ih (by lia)
      have hpow : 256 ^ rest.length ≤ 256 ^ 3 := Nat.pow_le_pow_right (by lia) (by lia)
      have hb : b.toNat < 2 ^ 8 := b.isLt
      rw [assemble_snoc, shiftIn_toNat (by lia), List.length_append, List.length_singleton,
        Nat.pow_succ]
      lia

theorem assemble_inj {bytes others : List (BitVec 8)} (hlen : bytes.length = others.length)
    (hshort : bytes.length ≤ 4) (h : assemble bytes = assemble others) : bytes = others := by
  induction bytes using List.reverseRecOn generalizing others with
  | nil => exact (List.eq_nil_of_length_eq_zero hlen.symm).symm
  | append_singleton rest b ih =>
      rcases List.eq_nil_or_concat others with rfl | ⟨rest', b', rfl⟩
      · rw [List.length_append] at hlen
        cases hlen
      · rw [List.concat_eq_append] at h hlen ⊢
        rw [List.length_append, List.length_append, List.length_singleton,
          List.length_singleton] at hlen
        rw [List.length_append, List.length_singleton] at hshort
        have hpow : 256 ^ rest.length ≤ 256 ^ 3 := Nat.pow_le_pow_right (by lia) (by lia)
        have hlt := assemble_lt rest (by lia)
        have hpow' : 256 ^ rest'.length ≤ 256 ^ 3 := Nat.pow_le_pow_right (by lia) (by lia)
        have hlt' := assemble_lt rest' (by lia)
        have hb : b.toNat < 2 ^ 8 := b.isLt
        have hb' : b'.toNat < 2 ^ 8 := b'.isLt
        have hnat := congrArg BitVec.toNat h
        rw [assemble_snoc, assemble_snoc, shiftIn_toNat (by lia), shiftIn_toNat (by lia)] at hnat
        have hrest : rest = rest' := ih (by lia) (by lia) (BitVec.eq_of_toNat_eq (by lia))
        have hlast : b = b' := BitVec.eq_of_toNat_eq (by lia)
        rw [hrest, hlast]

/-!
## One word
-/

def DataRead (o size : Nat) : Prop := (o = 4 ∧ size = 2) ∨ (o = 4 ∧ size = 4) ∨ (o = 6 ∧ size = 2)

/-- What may happen while the 68k thread is in a read, resets seen by the engine aside. -/
def HostStep.duringRead : HostStep -> Bool
  | .hwRead _ _ _ => false
  | .hostWrite _ _ => false
  | .porta _ => false
  | .dspExec _ => false
  | .powerState => false
  | _ => true

/-- The read gives the oldest unread word, which its last byte takes, or the last word read. -/
def WholeWord (o size : Nat) (s t : HostPort) : Prop :=
  (exists w, s.core.io.rx.peek hfSize = some w ∧ t.access.value = readOf o size w ∧
      t.core.io.rx = if o + size = 8 then s.core.io.rx.pop else s.core.io.rx) ∨
    (t.access.value = readOf o size s.core.io.rxLast ∧ t.core.io.rx = s.core.io.rx)

def source (f : HostLink) (hit : Bool) : Word :=
  if hit then (f.rx.peek hfSize).getD f.rxLast else f.rxLast

/-- The oldest unread word, if there is one, and the last word read have this byte in common. -/
def Agrees (f : HostLink) (o : Nat) : Prop := dataByte o (source f true) = dataByte o f.rxLast

/-- A word that arrives in the empty ring after some bytes of the read have these in common
with the last word read.  A read that has waited takes the word only if no reset hides it
from the later bytes, and gives up only if they will not find one, unless the words have
the byte in common. -/
def KeepsWord (s : HostPort) : HostStep -> Prop
  | .dspWrite space a v =>
      s.dspRuns = true ∧ isHostPort space a = true ∧ s.core.io.rx.peek hfSize = none ∧
          s.core.io.dspResetting = false ->
        forall p, p ∈ s.access.found -> dataByte p.1 v = dataByte p.1 s.core.io.rxLast
  | .rxPoll =>
      s.waiting = true ∧ s.access.left ≠ 1 ∧ s.core.io.dspResetting = true ->
        Agrees s.core.io.toHostLink s.access.next
  | .rxGiveUp =>
      s.waiting = true ∧ s.access.left ≠ 1 ∧ s.core.io.dspResetting = false ->
        Agrees s.core.io.toHostLink s.access.next
  | _ => True

structure Reading (o size : Nat) (s : HostPort) : Prop where
  left : s.access.found.length + s.access.left = size
  next : s.access.next = o + s.access.found.length
  offsets : s.access.found.reverse.map Prod.fst = List.range' o s.access.found.length
  value : s.access.value =
    assemble (s.access.found.reverse.map fun p =>
      dataByte p.1 (source s.core.io.toHostLink p.2))
  rx : exists q, s.core.io.rx.Holds hfSize q
  empty : s.core.io.rx.peek hfSize = none -> forall p, p ∈ s.access.found -> p.2 = false
  waiting : s.waiting = true -> s.access.waited = true ∧ forall p, p ∈ s.access.found -> p.1 < 5
  waited : forall p, p ∈ s.access.found -> 5 ≤ p.1 ->
    p.2 = false ∨ s.core.io.dspResetting = true -> s.access.coproc = true ∨ s.access.waited = true

/-- Each byte so far comes from the word that the last byte will come from. -/
def Whole (s : HostPort) : Prop :=
  forall p, p ∈ s.access.found ->
    p.2 = !s.core.io.dspResetting ∨ Agrees s.core.io.toHostLink p.1

theorem agrees_of_empty {f : HostLink} (h : f.rx.peek hfSize = none) (o : Nat) : Agrees f o := by
  unfold Agrees source
  rw [if_pos rfl, h]
  rfl

theorem dataByte_source {f : HostLink} {o : Nat} (h : Agrees f o) (hit : Bool) :
    dataByte o (source f hit) = dataByte o f.rxLast := by
  cases hit with
  | true => exact h
  | false => rfl

theorem value_eq_readOf {o size : Nat} {found : List (Nat × Bool)} {f : HostLink}
    (hoffsets : found.reverse.map Prod.fst = List.range' o size) (hsize : size ≤ 4) (w : Word) :
    assemble (found.reverse.map fun p => dataByte p.1 (source f p.2)) = readOf o size w <->
      forall p, p ∈ found -> dataByte p.1 (source f p.2) = dataByte p.1 w := by
  have hmap : (List.range' o size).map (fun i => dataByte i w) =
      found.reverse.map fun p => dataByte p.1 w := by
    rw [← hoffsets, List.map_map]
    rfl
  have hlen : found.reverse.length = size := by
    rw [← List.length_map Prod.fst, hoffsets, List.length_range']
  unfold readOf
  rw [hmap]
  constructor
  · intro h
    have hbytes := assemble_inj (by rw [List.length_map, List.length_map])
      (by rw [List.length_map, hlen]; exact hsize) h
    intro p hp
    exact List.map_inj_left.mp hbytes p (List.mem_reverse.mpr hp)
  · intro h
    apply congrArg
    apply List.map_inj_left.mpr
    intro p hp
    exact h p (List.mem_reverse.mp hp)

/-!
## The other steps
-/

structure Beside (s t : HostPort) : Prop where
  access : t.access = s.access
  waiting : t.waiting = s.waiting
  rxLast : t.core.io.rxLast = s.core.io.rxLast
  resetting : t.core.io.dspResetting = s.core.io.dspResetting
  rx : t.core.io.rx = s.core.io.rx ∨ exists v, s.core.io.rx.push hfSize v = some t.core.io.rx

theorem peek_push {f g : WrapRing Word} {q : List Word} {v : Word} (h : f.Holds hfSize q)
    (hg : f.push hfSize v = some g) :
    g.peek hfSize = if f.peek hfSize = none then some v else f.peek hfSize := by
  rw [(h.push hfSize_lt hfSize_dvd hg).peek hfSize_lt, h.peek hfSize_lt]
  cases q with
  | nil => rfl
  | cons w rest => rfl

theorem beside_source {o size : Nat} {s t : HostPort} (h : Reading o size s) (hbeside : Beside s t)
    {p : Nat × Bool} (hp : p ∈ s.access.found) :
    source t.core.io.toHostLink p.2 = source s.core.io.toHostLink p.2 := by
  unfold source
  rw [hbeside.rxLast]
  rcases hbeside.rx with hrx | ⟨v, hpush⟩
  · rw [hrx]
  · rcases h.rx with ⟨q, hq⟩
    rw [peek_push hq hpush]
    cases hpeek : s.core.io.rx.peek hfSize with
    | none =>
        rw [h.empty hpeek p hp]
        rfl
    | some w => rw [if_neg (Option.some_ne_none w)]

theorem Reading.beside {o size : Nat} {s t : HostPort} (h : Reading o size s)
    (hbeside : Beside s t) : Reading o size t := by
  constructor
  · rw [hbeside.access]
    exact h.left
  · rw [hbeside.access]
    exact h.next
  · rw [hbeside.access]
    exact h.offsets
  · rw [hbeside.access, h.value]
    apply congrArg
    apply List.map_inj_left.mpr
    intro p hp
    rw [beside_source h hbeside (List.mem_reverse.mp hp)]
  · rcases h.rx with ⟨q, hq⟩
    rcases hbeside.rx with hrx | ⟨v, hpush⟩
    · rw [hrx]
      exact ⟨q, hq⟩
    · exact ⟨q ++ [v], hq.push hfSize_lt hfSize_dvd hpush⟩
  · intro hempty
    rw [hbeside.access]
    apply h.empty
    rcases hbeside.rx with hrx | ⟨v, hpush⟩
    · rw [← hrx]
      exact hempty
    · rcases h.rx with ⟨q, hq⟩
      rw [peek_push hq hpush] at hempty
      split at hempty
      · cases hempty
      · exact hempty
  · rw [hbeside.waiting, hbeside.access]
    exact h.waiting
  · rw [hbeside.access, hbeside.resetting]
    exact h.waited

theorem whole_beside {s t : HostPort} (hbeside : Beside s t)
    (hpeek : t.core.io.rx.peek hfSize = s.core.io.rx.peek hfSize) : Whole t <-> Whole s := by
  unfold Whole Agrees source
  rw [hbeside.access, hbeside.resetting, hpeek, hbeside.rxLast]

theorem whole_arrived {o size : Nat} {s t : HostPort} (h : Reading o size s) (hbeside : Beside s t)
    (hempty : s.core.io.rx.peek hfSize = none) {v : Word}
    (hpeek : t.core.io.rx.peek hfSize = some v) :
    Whole t <->
      (s.core.io.dspResetting = false ->
        forall p, p ∈ s.access.found -> dataByte p.1 v = dataByte p.1 s.core.io.rxLast) := by
  unfold Whole Agrees source
  rw [hbeside.access, hbeside.resetting, hpeek, hbeside.rxLast]
  constructor
  · intro hwhole hresetting p hp
    rcases hwhole p hp with hhit | hagrees
    · rw [h.empty hempty p hp, hresetting] at hhit
      cases hhit
    · exact hagrees
  · intro hcommon p hp
    cases hresetting : s.core.io.dspResetting with
    | true => exact Or.inl (h.empty hempty p hp)
    | false => exact Or.inr (hcommon hresetting p hp)

theorem whole_of_empty {s : HostPort} (hempty : s.core.io.rx.peek hfSize = none) : Whole s :=
  fun p _ => Or.inr (agrees_of_empty hempty p.1)

/-!
## Bytes of the read
-/

theorem hostByte_data {o : Nat} (ho : o = 4 ∨ o = 5 ∨ o = 6 ∨ o = 7) (found : Option Word)
    (f : Host) : (hostByte o found f).1 = dataByte o (found.getD f.rxLast) := by
  rcases ho with rfl | rfl | rfl | rfl
  · rfl
  · rfl
  · rfl
  · cases found with
    | none => rfl
    | some v => rfl

theorem hostByte_link {o : Nat} (ho : o ≠ 7) (found : Option Word) (f : Host) :
    (hostByte o found f).2 = f := by
  unfold hostByte
  dsimp only
  split
  case h_7 => exact absurd rfl ho
  all_goals rfl

def Finds (f : HostLink) (found : Option Word) : Prop := found = none ∨ found = f.rx.peek hfSize

theorem Finds.source {f : HostLink} {found : Option Word} (h : Finds f found) :
    found.getD f.rxLast = source f found.isSome := by
  cases found with
  | none => rfl
  | some v =>
      rcases h with hnone | hpeek
      · cases hnone
      · unfold Falcon.source
        rw [← hpeek]
        rfl

theorem DataRead.bounds {o size : Nat} (h : DataRead o size) : 4 ≤ o ∧ o + size ≤ 8 ∧ size ≤ 4 := by
  rcases h with ⟨rfl, rfl⟩ | ⟨rfl, rfl⟩ | ⟨rfl, rfl⟩
  all_goals exact ⟨by decide, by decide, by decide⟩

section
variable {o size : Nat} {s : HostPort}

theorem Reading.next_bounds (h : Reading o size s) (hread : DataRead o size) :
    4 ≤ s.access.next ∧ s.access.next + s.access.left ≤ 8 := by
  have hbounds := hread.bounds
  have hnext := h.next
  have hsum := h.left
  constructor
  · lia
  · lia

theorem Reading.takeByte_offsets (h : Reading o size s) (found : Option Word) :
    (takeByte s found).access.found.reverse.map Prod.fst =
      List.range' o (s.access.found.length + 1) := by
  show (((s.access.next, found.isSome) :: s.access.found).reverse).map Prod.fst = _
  rw [List.reverse_cons, List.map_append, h.offsets, h.next, List.range'_concat, Nat.one_mul]
  rfl

theorem Reading.takeByte_value (h : Reading o size s) (hread : DataRead o size)
    (hleft : s.access.left ≠ 0) {found : Option Word} (hfound : Finds s.core.io.toHostLink found) :
    (takeByte s found).access.value =
      assemble ((takeByte s found).access.found.reverse.map fun p =>
        dataByte p.1 (source s.core.io.toHostLink p.2)) := by
  have hbounds := h.next_bounds hread
  have hbyte := hostByte_data (by lia : s.access.next = 4 ∨ s.access.next = 5 ∨ s.access.next = 6 ∨
    s.access.next = 7) found s.core.io
  rw [hfound.source] at hbyte
  show (s.access.value <<< 8) ||| (hostByte s.access.next found s.core.io).1.setWidth 32 =
    assemble (((s.access.next, found.isSome) :: s.access.found).reverse.map _)
  rw [List.reverse_cons, List.map_append, List.map_singleton, assemble_snoc, ← h.value, hbyte]

theorem Reading.take (h : Reading o size s) (hread : DataRead o size) (hleft : 1 < s.access.left)
    {found : Option Word} (hfound : Finds s.core.io.toHostLink found)
    (hwaited : 5 ≤ s.access.next -> found = none ∨ s.core.io.dspResetting = true ->
      s.access.coproc = true ∨ s.access.waited = true) : Reading o size (takeByte s found) := by
  have hbounds := h.next_bounds hread
  have hio : (takeByte s found).core.io = s.core.io := hostByte_link (by lia) found s.core.io
  constructor
  · show (s.access.found.length + 1) + (s.access.left - 1) = size
    have hsum := h.left
    lia
  · show s.access.next + 1 = o + (s.access.found.length + 1)
    have hnext := h.next
    lia
  · exact h.takeByte_offsets found
  · rw [hio]
    exact h.takeByte_value hread (by lia) hfound
  · rw [hio]
    exact h.rx
  · rw [hio]
    intro hempty p hp
    rcases List.mem_cons.mp hp with rfl | hold
    · rcases hfound with hnone | hpeek
      · rw [hnone]
        rfl
      · rw [hpeek, hempty]
        rfl
    · exact h.empty hempty p hold
  · intro hwaiting
    cases hwaiting
  · rw [hio]
    intro p hp hdata hmiss
    rcases List.mem_cons.mp hp with rfl | hold
    · apply hwaited hdata
      rcases hmiss with hmiss | hresetting
      · exact Or.inl (Option.isNone_iff_eq_none.mp (Option.isSome_eq_false_iff.mp hmiss))
      · exact Or.inr hresetting
    · exact h.waited p hold hdata hmiss

theorem Reading.whole_take (h : Reading o size s) (hread : DataRead o size)
    (hleft : 1 < s.access.left) (found : Option Word) :
    Whole (takeByte s found) <->
      Whole s ∧ (found.isSome = !s.core.io.dspResetting ∨
        Agrees s.core.io.toHostLink s.access.next) := by
  have hbounds := h.next_bounds hread
  have hio : (takeByte s found).core.io = s.core.io := hostByte_link (by lia) found s.core.io
  unfold Whole
  rw [hio]
  constructor
  · intro hwhole
    constructor
    · intro p hp
      exact hwhole p (List.mem_cons_of_mem _ hp)
    · exact hwhole (s.access.next, found.isSome) List.mem_cons_self
  · rintro ⟨hwhole, hlast⟩ p hp
    rcases List.mem_cons.mp hp with rfl | hold
    · exact hlast
    · exact hwhole p hold

/-!
## The last byte
-/

theorem pop_ne {f : WrapRing Word} {w : Word} (h : f.peek hfSize = some w) : f.pop ≠ f := by
  unfold WrapRing.peek at h
  split at h
  · cases h
  · next hne =>
    unfold WrapRing.pop
    rw [if_neg hne]
    intro heq
    have htail := congrArg WrapRing.tail heq
    dsimp only at htail
    exact absurd (add_eq_left.mp htail) (by decide)

theorem Reading.value_iff (h : Reading o size s) (hread : DataRead o size)
    (hleft : s.access.left = 1) {found : Option Word} (hfound : Finds s.core.io.toHostLink found)
    (w : Word) :
    (takeByte s found).access.value = readOf o size w <->
      (forall p, p ∈ s.access.found ->
        dataByte p.1 (source s.core.io.toHostLink p.2) = dataByte p.1 w) ∧
      dataByte s.access.next (source s.core.io.toHostLink found.isSome) =
        dataByte s.access.next w := by
  have hsum := h.left
  have hoffsets := h.takeByte_offsets found
  have hsize : s.access.found.length + 1 = size := by lia
  rw [hsize] at hoffsets
  rw [h.takeByte_value hread (by lia) hfound, value_eq_readOf hoffsets hread.bounds.2.2]
  constructor
  · intro hall
    constructor
    · intro p hp
      exact hall p (List.mem_cons_of_mem _ hp)
    · exact hall (s.access.next, found.isSome) List.mem_cons_self
  · rintro ⟨hold, hlast⟩ p hp
    rcases List.mem_cons.mp hp with rfl | hp
    · exact hlast
    · exact hold p hp

theorem takeByte_none_rx (s : HostPort) : (takeByte s none).core.io.rx = s.core.io.rx := by
  show (hostByte s.access.next none s.core.io).2.rx = _
  unfold hostByte
  dsimp only
  split
  all_goals rfl

theorem takeByte_some_rx {w : Word} (hnext : s.access.next = 7) :
    (takeByte s (some w)).core.io.rx = s.core.io.rx.pop := by
  show (hostByte s.access.next (some w) s.core.io).2.rx = _
  rw [hnext]
  rfl

theorem Reading.wholeWord_of_empty (h : Reading o size s) (hread : DataRead o size)
    (hleft : s.access.left = 1) (hempty : s.core.io.rx.peek hfSize = none) :
    WholeWord o size s (takeByte s none) := by
  refine Or.inr ⟨?_, takeByte_none_rx s⟩
  rw [h.value_iff hread hleft (Or.inl rfl)]
  constructor
  · intro p _
    exact dataByte_source (agrees_of_empty hempty p.1) p.2
  · rfl

theorem Reading.wholeWord_of_low (h : Reading o size s) (hread : DataRead o size)
    (hleft : s.access.left = 1) (hlow : o + size = 8) {w : Word}
    (hpeek : s.core.io.rx.peek hfSize = some w) {found : Option Word}
    (hfound : Finds s.core.io.toHostLink found) (hlast : found.isSome = !s.core.io.dspResetting) :
    WholeWord o size s (takeByte s found) <-> Whole s := by
  have hsum := h.left
  have hnext : s.access.next = 7 := by
    rw [h.next]
    lia
  have hsource : source s.core.io.toHostLink true = w := by
    unfold source
    rw [if_pos rfl, hpeek]
    rfl
  cases found with
  | none =>
      have hhidden : s.core.io.dspResetting = true := by
        rw [← Bool.not_eq_false', ← hlast]
        rfl
      constructor
      · rintro (⟨w', -, -, hrx⟩ | ⟨hvalue, -⟩)
        · rw [if_pos hlow, takeByte_none_rx] at hrx
          exact absurd hrx.symm (pop_ne hpeek)
        · rw [h.value_iff hread hleft hfound] at hvalue
          intro p hp
          have hbyte := hvalue.1 p hp
          cases hhit : p.2 with
          | false =>
              rw [hhidden]
              exact Or.inl rfl
          | true =>
              rw [hhit] at hbyte
              exact Or.inr hbyte
      · intro hwhole
        refine Or.inr ⟨?_, takeByte_none_rx s⟩
        rw [h.value_iff hread hleft hfound]
        refine ⟨?_, rfl⟩
        intro p hp
        rcases hwhole p hp with hhit | hagrees
        · rw [hhit, hhidden]
          rfl
        · exact dataByte_source hagrees p.2
  | some w' =>
      have hshown : s.core.io.dspResetting = false := by
        rw [← Bool.not_eq_true', ← hlast]
        rfl
      constructor
      · rintro (⟨w'', hpeek', hvalue, -⟩ | ⟨-, hrx⟩)
        · rw [hpeek] at hpeek'
          cases hpeek'
          rw [h.value_iff hread hleft hfound] at hvalue
          intro p hp
          have hbyte := hvalue.1 p hp
          cases hhit : p.2 with
          | true =>
              rw [hshown]
              exact Or.inl rfl
          | false =>
              rw [hhit] at hbyte
              apply Or.inr
              unfold Agrees
              rw [hsource]
              exact hbyte.symm
        · rw [takeByte_some_rx hnext] at hrx
          exact absurd hrx (pop_ne hpeek)
      · intro hwhole
        refine Or.inl ⟨w, hpeek, ?_, ?_⟩
        · rw [h.value_iff hread hleft hfound]
          constructor
          · intro p hp
            rw [← hsource]
            rcases hwhole p hp with hhit | hagrees
            · rw [hhit, hshown]
              rfl
            · rw [dataByte_source hagrees p.2]
              exact hagrees.symm
          · rw [← hsource]
            rfl
        · rw [if_pos hlow, takeByte_some_rx hnext]

theorem Reading.wholeWord_of_high (h : Reading o size s) (hread : DataRead o size)
    (hleft : s.access.left = 1) (hhigh : o + size ≠ 8) {found : Option Word}
    (hfound : Finds s.core.io.toHostLink found) :
    WholeWord o size s (takeByte s found) ∧ Whole s := by
  have hsum := h.left
  have hnext := h.next
  have hfirst : forall p, p ∈ s.access.found -> p.1 = 4 := by
    intro p hp
    have hmem : p.1 ∈ s.access.found.reverse.map Prod.fst :=
      List.mem_map_of_mem (List.mem_reverse.mpr hp)
    rw [h.offsets, List.mem_range'_1] at hmem
    rcases hread with ⟨rfl, rfl⟩ | ⟨rfl, rfl⟩ | ⟨rfl, rfl⟩
    · lia
    · exact absurd rfl hhigh
    · exact absurd rfl hhigh
  have hnot : s.access.next ≠ 7 := by
    have hbounds := hread.bounds
    lia
  have hrx : (takeByte s found).core.io.rx = s.core.io.rx := by
    show (hostByte s.access.next found s.core.io).2.rx = _
    rw [hostByte_link hnot]
  have hbyte (p : Nat × Bool) (hp : p ∈ s.access.found) (v w : Word) :
      dataByte p.1 v = dataByte p.1 w := by
    rw [hfirst p hp]
    rfl
  constructor
  · rcases hfound with rfl | hpeek
    · refine Or.inr ⟨?_, hrx⟩
      rw [h.value_iff hread hleft (Or.inl rfl)]
      exact ⟨fun p hp => hbyte p hp _ _, rfl⟩
    · cases hfind : s.core.io.rx.peek hfSize with
      | none =>
          rw [hfind] at hpeek
          rw [hpeek]
          exact h.wholeWord_of_empty hread hleft hfind
      | some w =>
          refine Or.inl ⟨w, hfind, ?_, ?_⟩
          · rw [h.value_iff hread hleft (Or.inr hpeek)]
            refine ⟨fun p hp => hbyte p hp _ _, ?_⟩
            unfold source
            rw [hpeek, hfind]
            rfl
          · rw [if_neg hhigh, hrx]
  · intro p hp
    exact Or.inr (hbyte p hp _ _)

theorem Reading.wholeWord_take (h : Reading o size s) (hread : DataRead o size)
    (hleft : s.access.left = 1) {found : Option Word} (hfound : Finds s.core.io.toHostLink found)
    (hlast : o + size = 8 -> s.core.io.rx.peek hfSize ≠ none ->
      found.isSome = !s.core.io.dspResetting) :
    WholeWord o size s (takeByte s found) <-> Whole s := by
  rcases eq_or_ne (o + size) 8 with hlow | hhigh
  · cases hpeek : s.core.io.rx.peek hfSize with
    | none =>
        have hnone : found = none := by
          rcases hfound with hnone | hfind
          · exact hnone
          · rw [hfind, hpeek]
        rw [hnone]
        exact iff_of_true (h.wholeWord_of_empty hread hleft hpeek) (whole_of_empty hpeek)
    | some w =>
        have hsome : s.core.io.rx.peek hfSize ≠ none := by
          rw [hpeek]
          exact Option.some_ne_none w
        exact h.wholeWord_of_low hread hleft hlow hpeek hfound (hlast hlow hsome)
  · have hboth := h.wholeWord_of_high hread hleft hhigh hfound
    exact iff_of_true hboth.1 hboth.2

/-- A read waits at its first data byte, so never at the low one. -/
theorem Reading.not_waiting (h : Reading o size s) (hread : DataRead o size)
    (hleft : s.access.left = 1) (hlow : o + size = 8) : s.waiting ≠ true := by
  intro hwaiting
  have hsum := h.left
  have hmem : 6 ∈ s.access.found.reverse.map Prod.fst := by
    rw [h.offsets, List.mem_range'_1]
    rcases hread with ⟨rfl, rfl⟩ | ⟨rfl, rfl⟩ | ⟨rfl, rfl⟩
    · cases hlow
    · lia
    · lia
  rcases List.mem_map.mp hmem with ⟨p, hp, hoffset⟩
  have hhigh := (h.waiting hwaiting).2 p (List.mem_reverse.mp hp)
  lia

end
end Falcon
end PistormAtari
