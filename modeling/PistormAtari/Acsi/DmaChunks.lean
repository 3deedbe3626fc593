import Mathlib
import PistormAtari.Acsi.CdbTransfer
import PistormAtari.Foundation.AddressRun

/-!
# The bursts of the DMA chip

Device data reaches RAM in bursts of 16 bytes, and what is left waits in the FIFO.  How a
stream is cut into calls of {lit}`dma_out` does not matter while its blocks lie in ST-RAM or
beyond it.  The CPU's mirror takes a block that does not fit into ST-RAM not at all, so at
the end of ST-RAM the cut does matter.
-/

namespace PistormAtari
namespace Acsi

open Foundation

variable {φ : Type _}

/-!
## What a stream should do
-/

/-- The machine after the bytes are put at consecutive addresses: on the bus below 4 MB, in
the mirror below the end of ST-RAM. -/
def Machine.receive (env : Host φ) (m : Machine) (bytes : List Byte) : Machine :=
  { m with
    bus := Foundation.receive 0x400000 m.bus m.dmaAddr bytes
    ram := Foundation.receive env.stramTop.toNat m.ram m.dmaAddr bytes
    dmaAddr := m.dmaAddr + BitVec.ofNat 32 bytes.length }

theorem Machine.receive_append (env : Host φ) (m : Machine) (xs ys : List Byte) :
    m.receive env (xs ++ ys) = (m.receive env xs).receive env ys := by
  unfold Machine.receive
  simp only [Foundation.receive_append, List.length_append, BitVec.ofNat_add, BitVec.add_assoc]

theorem Machine.receive_nil (env : Host φ) (m : Machine) : m.receive env [] = m := by
  have haddr : m.dmaAddr + BitVec.ofNat 32 ([] : List Byte).length = m.dmaAddr := BitVec.add_zero _
  unfold Machine.receive
  rw [haddr]
  rfl

def burstBytes (bytes : List Byte) : List Byte := bytes.take (bytes.length / 16 * 16)

def leftBytes (bytes : List Byte) : List Byte := bytes.drop (bytes.length / 16 * 16)

def dmaOuts (env : Host φ) (s : List Byte × Machine) (bufs : List (List Byte)) :
    List Byte × Machine :=
  bufs.foldl (fun s buf => ((dmaOut env buf s.1 s.2).fifo, (dmaOut env buf s.1 s.2).machine)) s

/-- The held bytes and the stream arrive in whole bursts, and the rest is held. -/
def Arrives (env : Host φ) (fifo stream : List Byte) (m : Machine) (r : List Byte × Machine) :
    Prop :=
  r = (leftBytes (fifo ++ stream), m.receive env (burstBytes (fifo ++ stream)))

/-!
## Blocks
-/

/-- A block of `n` bytes from `a` on does not wrap round the counter, and lies below the end
of ST-RAM or above it. -/
def OneSided (top : Nat) (a : BitVec 32) (n : Nat) : Prop :=
  n = 0 ∨ (a.toNat + n ≤ 2 ^ 32 ∧ (top ≤ a.toNat ∨ a.toNat + n ≤ top))

instance (top : Nat) (a : BitVec 32) (n : Nat) : Decidable (OneSided top a n) :=
  inferInstanceAs (Decidable (_ ∨ _))

theorem OneSided.part {top : Nat} {a : BitVec 32} {n k j : Nat} (h : OneSided top a n)
    (hin : k + j ≤ n) : OneSided top (a + BitVec.ofNat 32 k) j := by
  rcases Nat.eq_zero_or_pos j with hj | hj
  · exact Or.inl hj
  · rcases h with hn | ⟨hwrap, hside⟩
    · lia
    · have haddr := @toNat_add_ofNat a k (by lia)
      right
      rw [haddr]
      refine ⟨by lia, ?_⟩
      rcases hside with habove | hbelow
      · exact Or.inl (by lia)
      · exact Or.inr (by lia)

theorem copyToRam_oneSided {env : Host φ} {m : Machine} {buf : List Byte}
    (h : OneSided env.stramTop.toNat m.dmaAddr buf.length) :
    (m.copyToRam env buf).advance buf.length = m.receive env buf := by
  rcases h with hnil | ⟨hwrap, hside⟩
  · rw [List.eq_nil_of_length_eq_zero hnil]
    unfold Machine.copyToRam Machine.advance Machine.receive
    simp [Foundation.receive]
  · unfold Machine.copyToRam Machine.advance Machine.receive
    rw [receive_of_run hwrap, receive_of_run hwrap]
    congr 1
    dsimp only
    rcases hside with habove | hbelow
    · rw [if_neg (by lia), Nat.sub_eq_zero_of_le habove, List.take_zero, writeBlock_nil]
    · rcases Nat.eq_zero_or_pos buf.length with hnil | hpos
      · rw [List.eq_nil_of_length_eq_zero hnil, List.take_nil, writeBlock_nil]
        split
        · rfl
        · rfl
      · rw [if_pos (by lia), List.take_of_length_le (by lia)]

/-!
## The bursts that are still to come
-/

/-- The blocks that `k` bursts from `a` on can be copied in: with bytes in the FIFO the first
burst is one of its own. -/
def Clear (top : Nat) (a : BitVec 32) (held : Bool) (k : Nat) : Prop :=
  if held then OneSided top a (min k 1 * 16) ∧ OneSided top (a + 16) ((k - 1) * 16)
  else OneSided top a (k * 16)

instance (top : Nat) (a : BitVec 32) (held : Bool) (k : Nat) : Decidable (Clear top a held k) :=
  inferInstanceAs (Decidable (if held then
    OneSided top a (min k 1 * 16) ∧ OneSided top (a + 16) ((k - 1) * 16)
    else OneSided top a (k * 16)))

theorem Clear.hold {top : Nat} {a : BitVec 32} {held : Bool} {k : Nat} (h : Clear top a held k) :
    Clear top a true k := by
  cases held with
  | true => exact h
  | false =>
      have hall : OneSided top a (k * 16) := h
      have hfirst := @OneSided.part top a (k * 16) 0 (min k 1 * 16) hall (by lia)
      have hrest := @OneSided.part top a (k * 16) (min k 1 * 16) ((k - 1) * 16) hall (by lia)
      rw [show BitVec.ofNat 32 0 = 0#32 from rfl, BitVec.add_zero] at hfirst
      refine ⟨hfirst, ?_⟩
      rcases Nat.eq_zero_or_pos k with hk | hk
      · rw [hk]
        exact Or.inl rfl
      · rw [show min k 1 * 16 = 16 by lia] at hrest
        exact hrest

theorem Clear.moved {top : Nat} {a : BitVec 32} {k j : Nat} (h : Clear top a false k) (hj : j ≤ k) :
    OneSided top a (j * 16) ∧ Clear top (a + BitVec.ofNat 32 (j * 16)) false (k - j) := by
  have hall : OneSided top a (k * 16) := h
  have hfirst := @OneSided.part top a (k * 16) 0 (j * 16) hall (by lia)
  rw [show BitVec.ofNat 32 0 = 0#32 from rfl, BitVec.add_zero] at hfirst
  refine ⟨hfirst, ?_⟩
  show OneSided top (a + BitVec.ofNat 32 (j * 16)) ((k - j) * 16)
  apply hall.part
  lia

theorem Clear.first {top : Nat} {a : BitVec 32} {k : Nat} (h : Clear top a true (k + 1)) :
    OneSided top a 16 ∧ Clear top (a + 16) false k := by
  rcases h with ⟨hfirst, hrest⟩
  rw [show min (k + 1) 1 * 16 = 16 by lia] at hfirst
  exact ⟨hfirst, hrest⟩

/-- Between two iterations: whole bursts of the data have been moved, in front of the FIFO,
the rest of the buffer and what is still to be sent, and the bursts to come are clear. -/
structure Delivers (env : Host φ) (m : Machine) (bytes : List Byte) (l : DmaOut)
    (coming : List Byte) : Prop where
  short : l.fifo.length < 16
  moved : exists moved, bytes = moved ++ (l.fifo ++ l.buf ++ coming) ∧ 16 ∣ moved.length ∧
    l.machine = m.receive env moved
  clear : Clear env.stramTop.toNat l.machine.dmaAddr (!l.fifo.isEmpty)
    ((l.fifo ++ l.buf ++ coming).length / 16)

section
variable {env : Host φ} {m : Machine} {bytes coming : List Byte} {l : DmaOut}

section

variable (h : Delivers env m bytes l coming)

include h

theorem Delivers.bulk (hempty : l.fifo = [])
    (hlong : 16 ≤ l.buf.length) : Delivers env m bytes (dmaOutStep env l) coming := by
  rcases h.moved with ⟨moved, hbytes, hdvd, hmachine⟩
  have hstep : dmaOutStep env l =
      { l with
        buf := l.buf.drop (l.buf.length / 16 * 16)
        machine := (l.machine.copyToRam env (l.buf.take (l.buf.length / 16 * 16))).advance
          (l.buf.length / 16 * 16) } := by
    unfold dmaOutStep
    rw [if_pos ⟨hempty, hlong⟩]
  have hlen : (l.buf.take (l.buf.length / 16 * 16)).length = l.buf.length / 16 * 16 :=
    List.length_take_of_le (Nat.div_mul_le_self _ _)
  have hclear := h.clear
  rw [hempty, List.nil_append, List.length_append] at hclear
  have hbursts := Clear.moved (j := l.buf.length / 16) hclear (by lia)
  have hcopy : (l.machine.copyToRam env (l.buf.take (l.buf.length / 16 * 16))).advance
      (l.buf.length / 16 * 16) = l.machine.receive env (l.buf.take (l.buf.length / 16 * 16)) := by
    have hwhole := hbursts.1
    rw [← hlen] at hwhole
    have harrives := copyToRam_oneSided hwhole
    rw [hlen] at harrives
    exact harrives
  rw [hstep, hcopy]
  refine ⟨h.short, ⟨moved ++ l.buf.take (l.buf.length / 16 * 16), ?_, ?_, ?_⟩, ?_⟩
  · rw [hbytes, hempty]
    simp only [List.nil_append, List.append_assoc]
    rw [← List.append_assoc (l.buf.take _), List.take_append_drop]
  · rw [List.length_append, hlen]
    exact Nat.dvd_add hdvd (Nat.dvd_mul_left _ _)
  · rw [hmachine, ← Machine.receive_append]
  · have hrest : (l.fifo ++ l.buf.drop (l.buf.length / 16 * 16) ++ coming).length / 16 =
        (l.buf.length + coming.length) / 16 - l.buf.length / 16 := by
      rw [hempty, List.nil_append, List.length_append, List.length_drop]
      lia
    dsimp only
    rw [hrest, hempty]
    show Clear _ (l.machine.dmaAddr + BitVec.ofNat 32 _) false _
    rw [hlen]
    exact hbursts.2

theorem Delivers.fill {b : Byte} {rest : List Byte}
    (hbuf : l.buf = b :: rest) (hfull : l.fifo.length = 15) :
    Delivers env m bytes (dmaOutStep env l) coming := by
  rcases h.moved with ⟨moved, hbytes, hdvd, hmachine⟩
  have hne : l.fifo ≠ [] := by
    intro hnil
    rw [hnil] at hfull
    cases hfull
  have hlen : (l.fifo ++ [b]).length = 16 := by
    rw [List.length_append, hfull]
    rfl
  have hstep : dmaOutStep env l =
      { buf := rest, fifo := [],
        machine := (l.machine.copyToRam env (l.fifo ++ [b])).advance 16 } := by
    unfold dmaOutStep
    rw [if_neg (fun hall => hne hall.1), hbuf]
    dsimp only
    rw [List.take_one, List.head?_cons, Option.toList_some, if_pos hlen]
    rfl
  have hheld : (!l.fifo.isEmpty) = true := by
    cases hcase : l.fifo with
    | nil => exact absurd hcase hne
    | cons _ _ => rfl
  have hcount : (l.fifo ++ l.buf ++ coming).length / 16 = (rest ++ coming).length / 16 + 1 := by
    rw [hbuf, List.length_append, List.length_append, List.length_append, List.length_cons, hfull]
    lia
  have hclear := h.clear
  rw [hheld, hcount] at hclear
  have hcopy : (l.machine.copyToRam env (l.fifo ++ [b])).advance 16 =
      l.machine.receive env (l.fifo ++ [b]) := by
    have hwhole := hclear.first.1
    rw [← hlen] at hwhole
    have harrives := copyToRam_oneSided hwhole
    rw [hlen] at harrives
    exact harrives
  rw [hstep, hcopy]
  refine ⟨Nat.succ_pos 15, ⟨moved ++ (l.fifo ++ [b]), ?_, ?_, ?_⟩, ?_⟩
  · rw [hbytes, hbuf]
    simp
  · rw [List.length_append, hlen]
    exact Nat.dvd_add hdvd (Nat.dvd_refl 16)
  · rw [hmachine, ← Machine.receive_append]
  · show Clear _ (l.machine.dmaAddr + BitVec.ofNat 32 (l.fifo ++ [b]).length) false
      ((rest ++ coming).length / 16)
    rw [hlen]
    exact hclear.first.2

theorem Delivers.hold {b : Byte} {rest : List Byte}
    (hbuf : l.buf = b :: rest) (hroom : l.fifo.length ≠ 15)
    (hfew : ¬ (l.fifo = [] ∧ 16 ≤ l.buf.length)) :
    Delivers env m bytes (dmaOutStep env l) coming := by
  rcases h.moved with ⟨moved, hbytes, hdvd, hmachine⟩
  have hshort := h.short
  have hlen : (l.fifo ++ [b]).length = l.fifo.length + 1 := by
    rw [List.length_append, List.length_singleton]
  have hstep : dmaOutStep env l = { l with buf := rest, fifo := l.fifo ++ [b] } := by
    unfold dmaOutStep
    rw [if_neg hfew, hbuf]
    dsimp only
    rw [List.take_one, List.head?_cons, Option.toList_some, if_neg (by lia)]
    rfl
  have hsame : l.fifo ++ [b] ++ rest ++ coming = l.fifo ++ l.buf ++ coming := by
    rw [hbuf]
    simp
  rw [hstep]
  refine ⟨by dsimp only; lia, ⟨moved, ?_, hdvd, hmachine⟩, ?_⟩
  · dsimp only
    rw [hsame]
    exact hbytes
  · have hheld : (!(l.fifo ++ [b]).isEmpty) = true := by
      cases l.fifo with
      | nil => rfl
      | cons _ _ => rfl
    dsimp only
    rw [hsame, hheld]
    exact h.clear.hold

theorem Delivers.step (hmore : (!l.buf.isEmpty) = true) :
    Delivers env m bytes (dmaOutStep env l) coming := by
  cases hbuf : l.buf with
  | nil =>
      rw [hbuf] at hmore
      cases hmore
  | cons b rest =>
      by_cases hbulk : l.fifo = [] ∧ 16 ≤ l.buf.length
      · exact h.bulk hbulk.1 hbulk.2
      · by_cases hfull : l.fifo.length = 15
        · exact h.fill hbuf hfull
        · exact h.hold hbuf hfull hbulk

end

theorem dmaOut_buf (env : Host φ) (buf fifo : List Byte) (m : Machine) :
    (dmaOut env buf fifo m).buf = [] := by
  have hlowers : Lowers (fun l : DmaOut => !l.buf.isEmpty) (dmaOutStep env) (fun _ => True)
      (fun l => l.buf.length) := by
    intro l _ hmore
    refine ⟨trivial, ?_⟩
    dsimp only at hmore ⊢
    cases hbuf : l.buf with
    | nil =>
        rw [hbuf] at hmore
        cases hmore
    | cons b rest =>
        unfold dmaOutStep
        dsimp only
        split
        · next hbulk =>
          dsimp only
          rw [hbuf] at hbulk ⊢
          rw [List.length_drop]
          lia
        · split
          · dsimp only
            rw [hbuf]
            exact Nat.lt_succ_self _
          · dsimp only
            rw [hbuf]
            exact Nat.lt_succ_self _
  have hdone := @whileFuel_exits _ _ _ _ _ hlowers buf.length
    { buf := buf, fifo := fifo, machine := m } trivial (le_refl _)
  exact List.isEmpty_iff.mp (Bool.not_eq_false' .. |>.mp hdone)

theorem Delivers.dmaOut {buf fifo : List Byte} {now : Machine}
    (h : Delivers env m bytes { buf := buf, fifo := fifo, machine := now } coming) :
    Delivers env m bytes
      { buf := []
        fifo := (dmaOut env buf fifo now).fifo
        machine := (dmaOut env buf fifo now).machine } coming := by
  have hbody : forall l : DmaOut, Delivers env m bytes l coming -> (!l.buf.isEmpty) = true ->
      Delivers env m bytes (dmaOutStep env l) coming := fun l hl hmore => hl.step hmore
  have hloop : Delivers env m bytes (Acsi.dmaOut env buf fifo now) coming :=
    @whileFuel_invariant _ _ _ (fun l => Delivers env m bytes l coming) hbody buf.length _ h
  have hsame : Acsi.dmaOut env buf fifo now =
      { buf := []
        fifo := (Acsi.dmaOut env buf fifo now).fifo
        machine := (Acsi.dmaOut env buf fifo now).machine } := by
    rw [← dmaOut_buf env buf fifo now]
  rw [← hsame]
  exact hloop

theorem Delivers.calls {fifo : List Byte} {now : Machine} {bufs : List (List Byte)}
    (h : Delivers env m bytes { buf := [], fifo := fifo, machine := now } bufs.flatten) :
    Delivers env m bytes
      { buf := []
        fifo := (dmaOuts env (fifo, now) bufs).1
        machine := (dmaOuts env (fifo, now) bufs).2 } [] := by
  induction bufs generalizing fifo now with
  | nil => exact h
  | cons buf rest ih =>
      have hnext : Delivers env m bytes { buf := buf, fifo := fifo, machine := now } rest.flatten := by
        have hsame : fifo ++ [] ++ (buf :: rest).flatten = fifo ++ buf ++ rest.flatten := by simp
        rcases h.moved with ⟨moved, hbytes, hdvd, hmachine⟩
        have hclear := h.clear
        dsimp only at hbytes hmachine hclear
        rw [hsame] at hbytes hclear
        exact ⟨h.short, ⟨moved, hbytes, hdvd, hmachine⟩, hclear⟩
      exact ih hnext.dmaOut

theorem burst_unique {moved rest : List Byte} (hdvd : 16 ∣ moved.length) (hshort : rest.length < 16) :
    moved = burstBytes (moved ++ rest) ∧ rest = leftBytes (moved ++ rest) := by
  have hcount : (moved ++ rest).length / 16 * 16 = moved.length := by
    rw [List.length_append]
    rcases hdvd with ⟨k, hk⟩
    lia
  unfold burstBytes leftBytes
  rw [hcount, List.take_left, List.drop_left]
  exact ⟨rfl, rfl⟩

theorem Delivers.arrives {fifo stream : List Byte} {r : List Byte × Machine}
    (h : Delivers env m (fifo ++ stream) { buf := [], fifo := r.1, machine := r.2 } []) :
    Arrives env fifo stream m r := by
  rcases h.moved with ⟨moved, hbytes, hdvd, hmachine⟩
  dsimp only at hbytes hmachine
  rw [List.append_nil, List.append_nil] at hbytes
  rcases burst_unique hdvd h.short with ⟨hmoved, hleft⟩
  unfold Arrives
  rw [hbytes, ← hmoved, ← hleft, ← hmachine]

def Transfer.clear (env : Host φ) (a : BitVec 32) (held len : Nat) : Prop :=
  Clear env.stramTop.toNat a (decide (0 < held)) ((held + len) / 16)

instance (env : Host φ) (a : BitVec 32) (held len : Nat) : Decidable (Transfer.clear env a held len) :=
  inferInstanceAs (Decidable (Clear _ _ _ _))

theorem delivers_start {fifo stream : List Byte} (hshort : fifo.length < 16)
    (hclear : Transfer.clear env m.dmaAddr fifo.length stream.length) :
    Delivers env m (fifo ++ stream) { buf := [], fifo := fifo, machine := m } stream := by
  refine ⟨hshort, ⟨[], by simp, ⟨0, rfl⟩, (m.receive_nil env).symm⟩, ?_⟩
  have hheld : (!fifo.isEmpty) = decide (0 < fifo.length) := by
    cases fifo with
    | nil => rfl
    | cons _ _ => rfl
  dsimp only
  rw [List.append_nil, List.length_append, hheld]
  exact hclear

theorem dmaOuts_arrives {fifo stream : List Byte} (hshort : fifo.length < 16)
    (hclear : Transfer.clear env m.dmaAddr fifo.length stream.length) {bufs : List (List Byte)}
    (hbufs : bufs.flatten = stream) :
    Arrives env fifo stream m (dmaOuts env (fifo, m) bufs) := by
  apply Delivers.arrives
  apply Delivers.calls
  rw [hbufs]
  exact delivers_start hshort hclear

/-!
## One call
-/

def Machine.put (env : Host φ) (m : Machine) (bytes : List Byte) : Machine :=
  (m.copyToRam env bytes).advance bytes.length

theorem Machine.put_nil (env : Host φ) (m : Machine) : m.put env [] = m := by
  have haddr : m.dmaAddr + BitVec.ofNat 32 ([] : List Byte).length = m.dmaAddr := BitVec.add_zero _
  unfold Machine.put Machine.copyToRam Machine.advance
  dsimp only
  rw [haddr, List.take_nil, writeBlock_nil, writeBlock_nil, ite_self]

theorem Machine.put_bus {x : Nat} {bytes : List Byte} (h : x < m.dmaAddr.toNat) :
    (m.put env bytes).bus x = m.bus x :=
  writeBlock_of_outside (Or.inl h)

theorem Machine.put_ram_beyond {bytes : List Byte}
    (h : env.stramTop.toNat < m.dmaAddr.toNat + bytes.length) : (m.put env bytes).ram = m.ram := by
  show (if m.dmaAddr.toNat < env.stramTop.toNat ∧
    bytes.length ≤ env.stramTop.toNat - m.dmaAddr.toNat then _ else m.ram) = m.ram
  rw [if_neg (by lia)]

theorem Machine.put_ram_outside {x : Nat} {bytes : List Byte}
    (h : x < m.dmaAddr.toNat ∨ m.dmaAddr.toNat + bytes.length ≤ x) :
    (m.put env bytes).ram x = m.ram x := by
  show (if m.dmaAddr.toNat < env.stramTop.toNat ∧
    bytes.length ≤ env.stramTop.toNat - m.dmaAddr.toNat then _ else m.ram) x = m.ram x
  split
  · exact writeBlock_of_outside h
  · rfl

theorem loop_few (n : Nat) (l : DmaOut) (hfew : l.fifo.length + l.buf.length < 16) :
    (whileFuel (fun l => !l.buf.isEmpty) (dmaOutStep env) n l).machine = l.machine := by
  have hbody : forall x : DmaOut, (x.machine = l.machine ∧ x.fifo.length + x.buf.length < 16) ->
      (!x.buf.isEmpty) = true -> (dmaOutStep env x).machine = l.machine ∧
        (dmaOutStep env x).fifo.length + (dmaOutStep env x).buf.length < 16 := by
    rintro x ⟨hsame, hroom⟩ hmore
    cases hbuf : x.buf with
    | nil =>
        rw [hbuf] at hmore
        cases hmore
    | cons b rest =>
        rw [hbuf, List.length_cons] at hroom
        have hlen : (x.fifo ++ [b]).length = x.fifo.length + 1 := by
          rw [List.length_append, List.length_singleton]
        have hstep : dmaOutStep env x = { x with buf := rest, fifo := x.fifo ++ [b] } := by
          unfold dmaOutStep
          rw [if_neg (by rw [hbuf, List.length_cons]; lia), hbuf]
          dsimp only
          rw [List.take_one, List.head?_cons, Option.toList_some, if_neg (by lia)]
          rfl
        rw [hstep]
        refine ⟨hsame, ?_⟩
        dsimp only
        lia
  exact (@whileFuel_invariant _ _ _
    (fun x : DmaOut => x.machine = l.machine ∧ x.fifo.length + x.buf.length < 16) hbody n _ ⟨rfl, hfew⟩).1

theorem loop_bulk {n : Nat} {buf : List Byte} (hn : buf.length ≤ n) :
    (whileFuel (fun l => !l.buf.isEmpty) (dmaOutStep env) n
      { buf := buf, fifo := [], machine := m }).machine = m.put env (burstBytes buf) := by
  unfold burstBytes
  rcases Nat.lt_or_ge buf.length 16 with hfew | hmany
  · rw [loop_few n _ (by dsimp only; rw [List.length_nil, Nat.zero_add]; exact hfew),
      Nat.div_eq_of_lt hfew, Nat.zero_mul, List.take_zero, Machine.put_nil]
  · cases n with
    | zero => lia
    | succ n =>
        have hmore : (!buf.isEmpty) = true := by
          cases buf with
          | nil => cases hmany
          | cons _ _ => rfl
        have hlen : (buf.take (buf.length / 16 * 16)).length = buf.length / 16 * 16 :=
          List.length_take_of_le (Nat.div_mul_le_self _ _)
        have hstep : dmaOutStep env { buf := buf, fifo := [], machine := m } =
            { buf := buf.drop (buf.length / 16 * 16), fifo := [],
              machine := m.put env (buf.take (buf.length / 16 * 16)) } := by
          unfold dmaOutStep Machine.put
          rw [if_pos ⟨rfl, hmany⟩, hlen]
        rw [whileFuel, if_pos hmore, hstep, loop_few]
        dsimp only
        rw [List.length_drop, List.length_nil]
        lia

theorem loop_fill {n : Nat} {buf fifo : List Byte} (hne : fifo ≠ []) (hshort : fifo.length < 16)
    (hfills : 16 ≤ fifo.length + buf.length) (hn : buf.length ≤ n) :
    exists n', ((fifo ++ buf).drop 16).length ≤ n' ∧
      whileFuel (fun l => !l.buf.isEmpty) (dmaOutStep env) n
          { buf := buf, fifo := fifo, machine := m } =
        whileFuel (fun l => !l.buf.isEmpty) (dmaOutStep env) n'
          { buf := (fifo ++ buf).drop 16, fifo := [],
            machine := m.put env ((fifo ++ buf).take 16) } := by
  induction buf generalizing fifo n with
  | nil => exact absurd hfills (by rw [List.length_nil]; lia)
  | cons b rest ih =>
      cases n with
      | zero => cases hn
      | succ n =>
          have hlen : (fifo ++ [b]).length = fifo.length + 1 := by
            rw [List.length_append, List.length_singleton]
          rw [List.length_cons] at hfills hn
          rw [whileFuel, if_pos (by rfl)]
          by_cases hfull : fifo.length = 15
          · have hstep : dmaOutStep env { buf := b :: rest, fifo := fifo, machine := m } =
                { buf := rest, fifo := [], machine := m.put env (fifo ++ [b]) } := by
              unfold dmaOutStep Machine.put
              rw [if_neg (fun hall => hne hall.1)]
              dsimp only
              rw [List.take_one, List.head?_cons, Option.toList_some, if_pos (by lia), hlen, hfull]
              rfl
            have hsplit : fifo ++ b :: rest = (fifo ++ [b]) ++ rest := by simp
            have hdrop : (fifo ++ b :: rest).drop 16 = rest := by
              rw [hsplit, List.drop_left' (by lia)]
            have htake : (fifo ++ b :: rest).take 16 = fifo ++ [b] := by
              rw [hsplit, List.take_left' (by lia)]
            rw [hstep, hdrop, htake]
            exact ⟨n, by lia, rfl⟩
          · have hstep : dmaOutStep env { buf := b :: rest, fifo := fifo, machine := m } =
                { buf := rest, fifo := fifo ++ [b], machine := m } := by
              unfold dmaOutStep
              rw [if_neg (fun hall => hne hall.1)]
              dsimp only
              rw [List.take_one, List.head?_cons, Option.toList_some, if_neg (by lia)]
              rfl
            have hsame : fifo ++ b :: rest = (fifo ++ [b]) ++ rest := by simp
            rw [hstep, hsame]
            apply ih
            · intro hnil
              rw [hnil] at hlen
              cases hlen
            · lia
            · lia
            · lia

theorem dmaOut_machine_eq (fifo stream : List Byte) (hshort : fifo.length < 16) :
    (dmaOut env stream fifo m).machine =
      if fifo = [] then m.put env (burstBytes stream)
      else if fifo.length + stream.length < 16 then m
      else (m.put env ((fifo ++ stream).take 16)).put env (burstBytes ((fifo ++ stream).drop 16)) := by
  unfold dmaOut
  split
  · next hnil =>
    rw [hnil]
    exact loop_bulk (le_refl _)
  · next hne =>
    split
    · next hfew => exact loop_few _ _ hfew
    · next hmany =>
      rcases @loop_fill _ env m _ stream fifo hne hshort (by lia) (le_refl _) with ⟨n', hn', heq⟩
      rw [heq]
      exact loop_bulk hn'

/-!
## Which transfers arrive however they are cut
-/

theorem exists_other (b : Byte) : exists d : Byte, d ≠ b := ⟨b + 1, by simp⟩

def Machine.filled (a : BitVec 32) (d : Byte) : Machine where
  ram := fun _ => d
  bus := fun _ => d
  dmaAddr := a
  dmaStatus := 0

section
variable {a : BitVec 32} {fifo stream xs ys : List Byte} {b : Byte}

theorem arrives_bus {r : List Byte × Machine} (h : Arrives env fifo stream m r)
    (hbytes : burstBytes (fifo ++ stream) = xs ++ b :: ys)
    (hlen : (burstBytes (fifo ++ stream)).length ≤ 2 ^ 32)
    (hx : (m.dmaAddr.toNat + xs.length) % 2 ^ 32 < 0x400000) :
    r.2.bus ((m.dmaAddr.toNat + xs.length) % 2 ^ 32) = b := by
  rw [h]
  show Foundation.receive 0x400000 m.bus m.dmaAddr (burstBytes (fifo ++ stream)) _ = b
  rw [hbytes] at hlen ⊢
  exact receive_of_met hlen hx

theorem arrives_ram {r : List Byte × Machine} (h : Arrives env fifo stream m r)
    (hbytes : burstBytes (fifo ++ stream) = xs ++ b :: ys)
    (hlen : (burstBytes (fifo ++ stream)).length ≤ 2 ^ 32)
    (hx : (m.dmaAddr.toNat + xs.length) % 2 ^ 32 < env.stramTop.toNat) :
    r.2.ram ((m.dmaAddr.toNat + xs.length) % 2 ^ 32) = b := by
  rw [h]
  show Foundation.receive env.stramTop.toNat m.ram m.dmaAddr (burstBytes (fifo ++ stream)) _ = b
  rw [hbytes] at hlen ⊢
  exact receive_of_met hlen hx

section

variable (h : forall m : Machine, m.dmaAddr = a -> Arrives env fifo stream m (dmaOuts env (fifo, m) [stream]))

include h

theorem written_bus (hlen : (burstBytes (fifo ++ stream)).length ≤ 2 ^ 32) {j : Nat}
    (hj : j < (burstBytes (fifo ++ stream)).length) (hx : (a.toNat + j) % 2 ^ 32 < 0x400000) :
    exists d, (dmaOut env stream fifo (Machine.filled a d)).machine.bus ((a.toNat + j) % 2 ^ 32) ≠ d := by
  rcases exists_other (burstBytes (fifo ++ stream))[j] with ⟨d, hd⟩
  refine ⟨d, fun heq => ?_⟩
  have htake : ((burstBytes (fifo ++ stream)).take j).length = j :=
    List.length_take_of_le (Nat.le_of_lt hj)
  have hsplit : burstBytes (fifo ++ stream) = (burstBytes (fifo ++ stream)).take j ++
      (burstBytes (fifo ++ stream))[j] :: (burstBytes (fifo ++ stream)).drop (j + 1) := by
    rw [List.cons_getElem_drop_succ, List.take_append_drop]
  have harrives := arrives_bus (h (Machine.filled a d) rfl) hsplit hlen (by rw [htake]; exact hx)
  rw [htake] at harrives
  exact hd (heq.symm.trans harrives)

theorem written_ram (hlen : (burstBytes (fifo ++ stream)).length ≤ 2 ^ 32) {j : Nat}
    (hj : j < (burstBytes (fifo ++ stream)).length)
    (hx : (a.toNat + j) % 2 ^ 32 < env.stramTop.toNat) :
    exists d, (dmaOut env stream fifo (Machine.filled a d)).machine.ram ((a.toNat + j) % 2 ^ 32) ≠ d := by
  rcases exists_other (burstBytes (fifo ++ stream))[j] with ⟨d, hd⟩
  refine ⟨d, fun heq => ?_⟩
  have htake : ((burstBytes (fifo ++ stream)).take j).length = j :=
    List.length_take_of_le (Nat.le_of_lt hj)
  have hsplit : burstBytes (fifo ++ stream) = (burstBytes (fifo ++ stream)).take j ++
      (burstBytes (fifo ++ stream))[j] :: (burstBytes (fifo ++ stream)).drop (j + 1) := by
    rw [List.cons_getElem_drop_succ, List.take_append_drop]
  have harrives := arrives_ram (h (Machine.filled a d) rfl) hsplit hlen (by rw [htake]; exact hx)
  rw [htake] at harrives
  exact hd (heq.symm.trans harrives)

end

theorem length_burstBytes (bytes : List Byte) :
    (burstBytes bytes).length = bytes.length / 16 * 16 :=
  List.length_take_of_le (Nat.div_mul_le_self _ _)

theorem not_oneSided {top n : Nat} (h : ¬ OneSided top a n) :
    0 < n ∧ (2 ^ 32 < a.toNat + n ∨
      (a.toNat < top ∧ top < a.toNat + n ∧ a.toNat + n ≤ 2 ^ 32)) := by
  unfold OneSided at h
  lia

theorem length_bursts (hlen : stream.length < 2 ^ 32) (hshort : fifo.length < 16) :
    (burstBytes (fifo ++ stream)).length = (fifo.length + stream.length) / 16 * 16 ∧
      (burstBytes (fifo ++ stream)).length ≤ 2 ^ 32 := by
  rw [length_burstBytes, List.length_append]
  exact ⟨rfl, by lia⟩

section

variable (h : forall m : Machine, m.dmaAddr = a -> Arrives env fifo stream m (dmaOuts env (fifo, m) [stream]))

include h

/-- A run that wraps round reaches address 0. -/
theorem reached_bus (hlen : stream.length < 2 ^ 32) (hshort : fifo.length < 16)
    (hwrap : 2 ^ 32 < a.toNat + (fifo.length + stream.length) / 16 * 16) :
    exists d, (dmaOut env stream fifo (Machine.filled a d)).machine.bus 0 ≠ d := by
  rcases length_bursts hlen hshort with ⟨hdata, hmax⟩
  have hlt := a.isLt
  have hzero : (a.toNat + (2 ^ 32 - a.toNat)) % 2 ^ 32 = 0 := by
    rw [Nat.add_sub_cancel' (Nat.le_of_lt hlt), Nat.mod_self]
  have hwritten := @written_bus _ env a fifo stream h hmax (2 ^ 32 - a.toNat)
    (by rw [hdata]; lia) (by rw [hzero]; decide)
  rw [hzero] at hwritten
  exact hwritten

theorem reached_ram (hlen : stream.length < 2 ^ 32) (hshort : fifo.length < 16) {j : Nat}
    (hj : j < (fifo.length + stream.length) / 16 * 16) {x : Nat} (hx : (a.toNat + j) % 2 ^ 32 = x)
    (hbelow : x < env.stramTop.toNat) :
    exists d, (dmaOut env stream fifo (Machine.filled a d)).machine.ram x ≠ d := by
  rcases length_bursts hlen hshort with ⟨hdata, hmax⟩
  have hwritten := @written_ram _ env a fifo stream h hmax j (by rw [hdata]; exact hj)
    (by rw [hx]; exact hbelow)
  rw [hx] at hwritten
  exact hwritten

end

theorem oneSided_of_arrives (h : forall m : Machine, m.dmaAddr = a ->
      Arrives env [] stream m (dmaOuts env ([], m) [stream]))
    (hlen : stream.length < 2 ^ 32) : OneSided env.stramTop.toNat a (stream.length / 16 * 16) := by
  have hempty : ([] : List Byte).length < 16 := by decide
  have hcode : forall d, (dmaOut env stream [] (Machine.filled a d)).machine =
      (Machine.filled a d).put env (burstBytes stream) := by
    intro d
    rw [dmaOut_machine_eq _ _ (hempty), if_pos rfl]
  have hlt := a.isLt
  have hcount : (([] : List Byte).length + stream.length) / 16 * 16 = stream.length / 16 * 16 := by
    rw [List.length_nil, Nat.zero_add]
  by_contra hnot
  rcases not_oneSided hnot with ⟨hpos, hwrap | ⟨hstart, hbeyond, _⟩⟩
  · rcases reached_bus h hlen (hempty) (by rw [hcount]; exact hwrap) with ⟨d, hd⟩
    apply hd
    rw [hcode]
    apply Machine.put_bus
    show 0 < a.toNat
    lia
  · rcases reached_ram h hlen (hempty) (by rw [hcount]; exact hpos)
      (Nat.mod_eq_of_lt hlt) hstart with ⟨d, hd⟩
    apply hd
    rw [hcode, Machine.put_ram_beyond]
    · rfl
    · show env.stramTop.toNat < a.toNat + (burstBytes stream).length
      rw [length_burstBytes]
      exact hbeyond

section

variable (h : forall m : Machine, m.dmaAddr = a -> Arrives env fifo stream m (dmaOuts env (fifo, m) [stream]))

include h

theorem bothSided_of_arrives
    (hne : fifo ≠ []) (hlen : stream.length < 2 ^ 32) (hshort : fifo.length < 16)
    (hmany : ¬ fifo.length + stream.length < 16) :
    OneSided env.stramTop.toNat a 16 ∧
      OneSided env.stramTop.toNat (a + 16) (((fifo.length + stream.length) / 16 - 1) * 16) := by
  have hfirst : ((fifo ++ stream).take 16).length = 16 := by
    apply List.length_take_of_le
    rw [List.length_append]
    lia
  have hrest : (burstBytes ((fifo ++ stream).drop 16)).length =
      ((fifo.length + stream.length) / 16 - 1) * 16 := by
    rw [length_burstBytes, List.length_drop, List.length_append]
    lia
  have hcode : forall d, (dmaOut env stream fifo (Machine.filled a d)).machine =
      ((Machine.filled a d).put env ((fifo ++ stream).take 16)).put env
        (burstBytes ((fifo ++ stream).drop 16)) := by
    intro d
    rw [dmaOut_machine_eq _ _ hshort, if_neg hne, if_neg hmany]
  have hnext : forall d, ((Machine.filled a d).put env ((fifo ++ stream).take 16)).dmaAddr =
      a + 16 := by
    intro d
    show a + BitVec.ofNat 32 ((fifo ++ stream).take 16).length = a + 16
    rw [hfirst]
    rfl
  have hsum : (a + 16).toNat = (a.toNat + 16) % 2 ^ 32 := BitVec.toNat_add a 16
  have hlt := a.isLt
  -- neither copy reaches address 0 when the run wraps round
  have hno : 2 ^ 32 < a.toNat + (fifo.length + stream.length) / 16 * 16 -> 0 < (a + 16).toNat ->
      False := by
    intro hwrap hpos
    rcases reached_bus h hlen hshort hwrap with ⟨d, hd⟩
    apply hd
    rw [hcode, Machine.put_bus, Machine.put_bus]
    · rfl
    · show 0 < a.toNat
      lia
    · rw [hnext]
      exact hpos
  refine ⟨?_, ?_⟩
  · by_contra hnot
    rcases not_oneSided hnot with ⟨_, hwrap | ⟨hstart, hbeyond, hin⟩⟩
    · exact hno (by lia) (by lia)
    · rcases reached_ram h hlen hshort (show 0 < _ by lia) (Nat.mod_eq_of_lt hlt) hstart with ⟨d, hd⟩
      apply hd
      rw [hcode, Machine.put_ram_outside, Machine.put_ram_beyond]
      · rfl
      · show env.stramTop.toNat < a.toNat + ((fifo ++ stream).take 16).length
        rw [hfirst]
        exact hbeyond
      · rw [hnext, hsum, hrest]
        lia
  · by_contra hnot
    rcases not_oneSided hnot with ⟨hpos, hwrap | ⟨hstart, hbeyond, hin⟩⟩
    · exact hno (by lia) (by lia)
    · rcases reached_ram h hlen hshort (show 16 < _ by lia) hsum.symm hstart with ⟨d, hd⟩
      apply hd
      rw [hcode, Machine.put_ram_beyond, Machine.put_ram_outside]
      · rfl
      · show (a + 16).toNat < a.toNat ∨ a.toNat + ((fifo ++ stream).take 16).length ≤ (a + 16).toNat
        rw [hsum, hfirst]
        lia
      · rw [hnext, hrest]
        exact hbeyond

theorem clear_of_arrives (hlen : stream.length < 2 ^ 32) (hshort : fifo.length < 16) :
    Transfer.clear env a fifo.length stream.length := by
  unfold Transfer.clear
  by_cases hnil : fifo = []
  · rw [hnil] at h ⊢
    rw [List.length_nil, Nat.zero_add]
    exact oneSided_of_arrives h hlen
  · rw [decide_eq_true (List.length_pos_iff.mpr hnil)]
    by_cases hfew : fifo.length + stream.length < 16
    · rw [Nat.div_eq_of_lt hfew]
      exact ⟨Or.inl rfl, Or.inl rfl⟩
    · have hwhole := bothSided_of_arrives h hnil hlen hshort hfew
      refine ⟨?_, hwhole.2⟩
      rw [show min ((fifo.length + stream.length) / 16) 1 * 16 = 16 by lia]
      exact hwhole.1

end

/-- However a stream is cut, the held bytes and the stream arrive in whole bursts, in exactly
the transfers whose blocks in one call are clear. -/
theorem dma_stream_arrives_iff (hshort : fifo.length < 16) (hlen : stream.length < 2 ^ 32) :
    (forall m : Machine, m.dmaAddr = a -> forall bufs : List (List Byte), bufs.flatten = stream ->
      Arrives env fifo stream m (dmaOuts env (fifo, m) bufs)) <->
    Transfer.clear env a fifo.length stream.length := by
  constructor
  · intro h
    apply clear_of_arrives _ hlen hshort
    intro m hm
    exact h m hm [stream] (by simp)
  · rintro hclear m rfl bufs hbufs
    exact dmaOuts_arrives hshort hclear hbufs

end

end

/-- Twenty bytes behind three held ones, sent in two calls. -/
theorem short_reply_arrives :
    Arrives deadHost [1, 2, 3] (List.replicate 20 4) (Machine.filled 0x1844 0)
      (dmaOuts deadHost ([1, 2, 3], Machine.filled 0x1844 0)
        [List.replicate 15 4, List.replicate 5 4]) :=
  (dma_stream_arrives_iff (by decide) (by decide)).mpr (by decide) _ rfl _ rfl

/-- Three bursts of which two lie in ST-RAM: sent in one call they do not reach the mirror. -/
theorem last_bursts_lost :
    ¬ Arrives deadHost [] (List.replicate 48 1) (Machine.filled 0x3FFFE0 0)
      (dmaOuts deadHost ([], Machine.filled 0x3FFFE0 0) [List.replicate 48 1]) := by
  intro h
  have hram := congrArg (fun r : List Byte × Machine => r.2.ram 0x3FFFE0) h
  revert hram
  decide

end Acsi
end PistormAtari
