import Mathlib

/-!
# Runs behind an escape symbol

In a stream of symbols one symbol is an escape.  Behind it stand the symbol that
is repeated and two symbols that count.  All other symbols stand for themselves.
-/

namespace PistormAtari
namespace Foundation

structure EscapeCode (α : Type _) where
  mark : α
  count : α -> α -> Nat

inductive Token {α : Type _} (c : EscapeCode α)
  | literal (b : α) (hne : b ≠ c.mark)
  | run (v hi lo : α)

variable {α : Type _} {c : EscapeCode α}

def Token.code : Token c -> List α
  | .literal b _ => [b]
  | .run v hi lo => [c.mark, v, hi, lo]

def Token.expansion : Token c -> List α
  | .literal b _ => [b]
  | .run v hi lo => List.replicate (c.count hi lo) v

def encodeTokens (tokens : List (Token c)) : List α :=
  tokens.flatMap Token.code

def expandTokens (tokens : List (Token c)) : List α :=
  tokens.flatMap Token.expansion

@[simp] theorem encodeTokens_nil : encodeTokens ([] : List (Token c)) = [] := rfl

@[simp] theorem expandTokens_nil : expandTokens ([] : List (Token c)) = [] := rfl

@[simp] theorem encodeTokens_cons (t : Token c) (rest : List (Token c)) :
    encodeTokens (t :: rest) = t.code ++ encodeTokens rest := rfl

@[simp] theorem expandTokens_cons (t : Token c) (rest : List (Token c)) :
    expandTokens (t :: rest) = t.expansion ++ expandTokens rest := rfl

/-!
## Streams that fill a room

A reader with a room to fill takes tokens until the stream ends or the room is
full.  What stands behind the tokens that fill the room is not read.
-/

def FillsFrom (c : EscapeCode α) (room : Nat) (data : List α) : Prop :=
  exists (tokens : List (Token c)) (rest : List α),
    data = encodeTokens tokens ++ rest ∧
      (rest = [] ∨ room ≤ (expandTokens tokens).length)

theorem fillsFrom_nil (room : Nat) : FillsFrom c room [] :=
  ⟨[], [], rfl, Or.inl rfl⟩

theorem fillsFrom_full (data : List α) : FillsFrom c 0 data :=
  ⟨[], data, rfl, Or.inr (Nat.zero_le _)⟩

theorem FillsFrom.first {room : Nat} {b : α} {data : List α} (hroom : 0 < room)
    (h : FillsFrom c room (b :: data)) :
    exists (t : Token c) (rest : List α),
      b :: data = t.code ++ rest ∧ FillsFrom c (room - t.expansion.length) rest := by
  rcases h with ⟨tokens, rest, hdata, hend⟩
  cases tokens with
  | nil =>
      rcases hend with hnil | hfull
      · rw [hnil] at hdata
        cases hdata
      · have hzero : room ≤ 0 := hfull
        lia
  | cons t tokens =>
      have hsplit : b :: data = t.code ++ (encodeTokens tokens ++ rest) := by
        rw [hdata, encodeTokens_cons, List.append_assoc]
      refine ⟨t, encodeTokens tokens ++ rest, hsplit, tokens, rest, rfl, ?_⟩
      rcases hend with hnil | hfull
      · exact Or.inl hnil
      · right
        rw [expandTokens_cons, List.length_append] at hfull
        lia

theorem FillsFrom.cons {room : Nat} {data : List α} (t : Token c)
    (h : FillsFrom c (room - t.expansion.length) data) :
    FillsFrom c room (t.code ++ data) := by
  rcases h with ⟨tokens, rest, hdata, hend⟩
  refine ⟨t :: tokens, rest, ?_, ?_⟩
  · rw [hdata, encodeTokens_cons, List.append_assoc]
  · rcases hend with hnil | hfull
    · exact Or.inl hnil
    · right
      rw [expandTokens_cons, List.length_append]
      lia

theorem fillsFrom_literal {room : Nat} {b : α} {data : List α} (hroom : 0 < room)
    (hb : b ≠ c.mark) :
    FillsFrom c room (b :: data) <-> FillsFrom c (room - 1) data := by
  constructor
  · intro h
    rcases h.first hroom with ⟨t, rest, hdata, hrest⟩
    cases t with
    | literal b' hb' =>
        rcases List.cons.inj hdata with ⟨_, htail⟩
        rw [htail]
        exact hrest
    | run v hi lo => exact absurd (List.cons.inj hdata).1 hb
  · intro h
    exact FillsFrom.cons (Token.literal b hb) h

theorem fillsFrom_run {room : Nat} {v hi lo : α} {data : List α} (hroom : 0 < room) :
    FillsFrom c room (c.mark :: v :: hi :: lo :: data) <->
      FillsFrom c (room - c.count hi lo) data := by
  constructor
  · intro h
    rcases h.first hroom with ⟨t, rest, hdata, hrest⟩
    cases t with
    | literal b hb => exact absurd (List.cons.inj hdata).1.symm hb
    | run v' hi' lo' =>
        simp only [Token.code, List.cons_append, List.nil_append, List.cons.injEq] at hdata
        rcases hdata with ⟨_, _, rfl, rfl, rfl⟩
        simpa [Token.expansion] using hrest
  · intro h
    apply FillsFrom.cons (Token.run v hi lo)
    simpa [Token.expansion] using h

end Foundation
end PistormAtari
