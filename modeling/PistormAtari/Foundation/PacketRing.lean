import Mathlib

/-!
# Packets in a ring

A ring holds the bytes of packets one behind the other, with the first byte of
each packet marked.  Read byte by byte, it delivers the packets whole and in
order, and the mark of the next byte tells whether a packet is under way.
-/

namespace PistormAtari
namespace Foundation

variable {α : Type _}

def marked : List α -> List (α × Bool)
  | [] => []
  | a :: rest => (a, true) :: rest.map (fun b => (b, false))

structure Packets (α : Type _) where
  current : List α
  queue : List (List α)

def Packets.entries (p : Packets α) : List (α × Bool) :=
  p.current.map (fun a => (a, false)) ++ p.queue.flatMap marked

def Packets.WellFormed (p : Packets α) : Prop := forall q, q ∈ p.queue -> q ≠ []

def Packets.empty : Packets α := ⟨[], []⟩

def Packets.push (p : Packets α) (packet : List α) : Packets α :=
  if packet = [] then p else { p with queue := p.queue ++ [packet] }

def Packets.pop (p : Packets α) : Packets α :=
  match p.current, p.queue with
  | _ :: rest, queue => ⟨rest, queue⟩
  | [], (_ :: rest) :: queue => ⟨rest, queue⟩
  | [], _ => p

def midPacket : List (α × Bool) -> Bool
  | [] => false
  | entry :: _ => !entry.2

theorem Packets.empty_wellFormed : (Packets.empty : Packets α).WellFormed := by
  intro q hq
  cases hq

theorem Packets.entries_push (p : Packets α) (packet : List α) :
    (p.push packet).entries = p.entries ++ marked packet := by
  unfold Packets.push
  split
  · next hnil =>
    rw [hnil]
    exact (List.append_nil _).symm
  · simp [Packets.entries]

variable {p : Packets α}

theorem Packets.WellFormed.push (h : p.WellFormed) (packet : List α) :
    (p.push packet).WellFormed := by
  unfold Packets.push
  split
  · exact h
  · next hne =>
    intro q hq
    rcases List.mem_append.mp hq with hold | hnew
    · exact h q hold
    · rw [List.mem_singleton.mp hnew]
      exact hne

theorem midPacket_append_marked (entries : List (α × Bool)) (packet : List α) :
    midPacket (entries ++ marked packet) = midPacket entries := by
  cases entries with
  | cons entry rest => rfl
  | nil =>
      cases packet with
      | nil => rfl
      | cons a rest => rfl

theorem Packets.midPacket_entries (h : p.WellFormed) :
    midPacket p.entries = true <-> p.current ≠ [] := by
  rcases p with ⟨current, queue⟩
  cases current with
  | cons a rest => simp [Packets.entries, midPacket]
  | nil =>
      cases queue with
      | nil => simp [Packets.entries, midPacket]
      | cons q rest =>
          have hq : q ≠ [] := h q List.mem_cons_self
          cases q with
          | nil => exact absurd rfl hq
          | cons a tail => simp [Packets.entries, marked, midPacket]

theorem Packets.entries_pop (h : p.WellFormed) {entry : α × Bool}
    {rest : List (α × Bool)} (hentries : p.entries = entry :: rest) :
    p.pop.entries = rest ∧ p.pop.WellFormed := by
  rcases p with ⟨current, queue⟩
  cases current with
  | cons a tail =>
      simp only [Packets.entries, List.map_cons, List.cons_append, List.cons.injEq] at hentries
      exact ⟨hentries.2, h⟩
  | nil =>
      cases queue with
      | nil => simp [Packets.entries] at hentries
      | cons q behind =>
          have hq : q ≠ [] := h q List.mem_cons_self
          cases q with
          | nil => exact absurd rfl hq
          | cons a tail =>
              simp only [Packets.entries, List.map_nil, List.nil_append, List.flatMap_cons,
                marked, List.cons_append, List.cons.injEq] at hentries
              constructor
              · exact hentries.2
              · intro q' hq'
                exact h q' (List.mem_cons_of_mem _ hq')

/-!
## What has been taken out
-/

/-- Of the packets put in so far some have begun: what was taken out and the rest of the packet
under way are their values. -/
def Packets.Delivers (p : Packets α) (accepted : List (List α)) (popped : List α) : Prop :=
  exists begun, accepted = begun ++ p.queue ∧ begun.flatten = popped ++ p.current ∧
    (p.current = [] ∨ exists whole last, begun = whole ++ [last] ∧ p.current.length < last.length)

theorem Packets.Delivers.empty : (Packets.empty : Packets α).Delivers [] [] :=
  ⟨[], rfl, rfl, Or.inl rfl⟩

theorem Packets.entries_values (p : Packets α) :
    p.entries.map Prod.fst = p.current ++ p.queue.flatten := by
  have hmarked : forall packet : List α, (marked packet).map Prod.fst = packet := by
    intro packet
    cases packet with
    | nil => rfl
    | cons a rest => simp [marked, Function.comp_def]
  have hqueue : forall queue : List (List α),
      (queue.flatMap marked).map Prod.fst = queue.flatten := by
    intro queue
    induction queue with
    | nil => rfl
    | cons packet rest ih =>
        rw [List.flatMap_cons, List.map_append, hmarked, ih, List.flatten_cons]
  unfold Packets.entries
  rw [List.map_append, hqueue, List.map_map]
  exact congrArg (· ++ _) (List.map_id _)

variable {accepted : List (List α)}

variable {popped : List α}

theorem Packets.Delivers.flatten (h : p.Delivers accepted popped) :
    accepted.flatten = popped ++ p.entries.map Prod.fst := by
  rcases h with ⟨begun, haccepted, hbegun, _⟩
  rw [haccepted, List.flatten_append, hbegun, entries_values, List.append_assoc]

theorem Packets.Delivers.push
    (h : p.Delivers accepted popped) {packet : List α} (hne : packet ≠ []) :
    (p.push packet).Delivers (accepted ++ [packet]) popped := by
  rcases h with ⟨begun, haccepted, hbegun, hcurrent⟩
  unfold Packets.push
  rw [if_neg hne]
  refine ⟨begun, ?_, hbegun, hcurrent⟩
  rw [haccepted, List.append_assoc]

theorem Packets.Delivers.pop
    (h : p.Delivers accepted popped) {entry : α × Bool} {rest : List (α × Bool)}
    (hentries : p.entries = entry :: rest) (hwell : p.WellFormed) :
    p.pop.Delivers accepted (popped ++ [entry.1]) := by
  rcases p with ⟨current, queue⟩
  rcases h with ⟨begun, haccepted, hbegun, hcurrent⟩
  cases current with
  | cons a tail =>
      simp only [Packets.entries, List.map_cons, List.cons_append, List.cons.injEq] at hentries
      refine ⟨begun, haccepted, ?_, ?_⟩
      · rw [← hentries.1, hbegun, List.append_assoc]
        rfl
      · rcases hcurrent with hnil | ⟨whole, last, hlast, hlt⟩
        · cases hnil
        · exact Or.inr ⟨whole, last, hlast, Nat.lt_of_succ_lt hlt⟩
  | nil =>
      cases queue with
      | nil => simp [Packets.entries] at hentries
      | cons packet behind =>
          cases packet with
          | nil => exact absurd rfl (hwell [] List.mem_cons_self)
          | cons a tail =>
              simp only [Packets.entries, List.map_nil, List.nil_append, List.flatMap_cons,
                marked, List.cons_append, List.cons.injEq] at hentries
              refine ⟨begun ++ [a :: tail], ?_, ?_, ?_⟩
              · rw [haccepted, List.append_assoc]
                rfl
              · rw [List.flatten_append, hbegun, ← hentries.1]
                simp [Packets.pop]
              · exact Or.inr ⟨begun, a :: tail, rfl, Nat.lt_succ_self _⟩

theorem length_flatten_take_le (packets : List (List α)) {k j : Nat} (h : k ≤ j) :
    (packets.take k).flatten.length ≤ (packets.take j).flatten.length := by
  have hcut : packets.take k = (packets.take j).take k := by
    rw [List.take_take, Nat.min_eq_left h]
  have hall : (packets.take j).flatten =
      (packets.take k).flatten ++ ((packets.take j).drop k).flatten := by
    rw [hcut, ← List.flatten_append, List.take_append_drop]
  rw [hall, List.length_append]
  exact Nat.le_add_right _ _

theorem Packets.Delivers.whole_iff (h : p.Delivers accepted popped) :
    p.current = [] <-> exists k, popped = (accepted.take k).flatten := by
  rcases h with ⟨begun, haccepted, hbegun, hcurrent⟩
  constructor
  · intro hnil
    rw [hnil, List.append_nil] at hbegun
    exact ⟨begun.length, by rw [haccepted, List.take_left', hbegun]; rfl⟩
  · rintro ⟨k, hpopped⟩
    rcases hcurrent with hnil | ⟨whole, last, hlast, hlt⟩
    · exact hnil
    · by_contra hne
      have hpos := List.length_pos_of_ne_nil hne
      have hlength := congrArg List.length hbegun
      rw [hlast, List.flatten_append, List.flatten_singleton, List.length_append,
        List.length_append] at hlength
      have hwhole : accepted.take whole.length = whole := by
        rw [haccepted, hlast, List.append_assoc, List.take_left']
        rfl
      have hbegunTake : accepted.take begun.length = begun := by
        rw [haccepted, List.take_left']
        rfl
      rcases Nat.lt_or_ge whole.length k with hbeyond | hwithin
      · have hle := length_flatten_take_le accepted (show begun.length ≤ k by
          rw [hlast, List.length_append]
          exact hbeyond)
        rw [hbegunTake, ← hpopped, hbegun, List.length_append] at hle
        lia
      · have hle := length_flatten_take_le accepted hwithin
        rw [hwhole, ← hpopped] at hle
        lia

end Foundation
end PistormAtari
