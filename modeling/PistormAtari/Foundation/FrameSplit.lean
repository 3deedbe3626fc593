import PistormAtari.Foundation.Run

/-!
# Streams cut into frames

A collector reads a stream one symbol at a time and decides after each symbol
whether what it holds is a whole frame.  The frames of a stream depend on that
decision alone, and two collectors cut a stream alike exactly when they decide
alike at every symbol.
-/

namespace PistormAtari
namespace Foundation

variable {β : Type _}

/-- The whole frames of a stream; `cur` holds the symbols collected so far. -/
def grow (whole : List β -> Bool) : List β -> List β -> List (List β)
  | _, [] => []
  | cur, b :: bs =>
      if whole (cur ++ [b]) then (cur ++ [b]) :: grow whole [] bs
      else grow whole (cur ++ [b]) bs

def AgreeAlong (whole whole' : List β -> Bool) : List β -> List β -> Prop
  | _, [] => True
  | cur, b :: bs =>
      whole (cur ++ [b]) = whole' (cur ++ [b]) ∧
        AgreeAlong whole whole' (if whole (cur ++ [b]) then [] else cur ++ [b]) bs

theorem length_lt_of_grow_eq_cons {whole : List β -> Bool} {cur bs frame : List β}
    {frames : List (List β)} (h : grow whole cur bs = frame :: frames) :
    cur.length < frame.length := by
  induction bs generalizing cur with
  | nil => cases h
  | cons b bs ih =>
      unfold grow at h
      split at h
      · injection h with hframe hframes
        rw [← hframe, List.length_append, List.length_singleton]
        exact Nat.lt_succ_self _
      · have hlt := ih h
        rw [List.length_append, List.length_singleton] at hlt
        exact Nat.lt_of_succ_lt hlt

theorem cons_ne_grow (whole : List β -> Bool) (frame bs : List β) (frames : List (List β)) :
    frame :: frames ≠ grow whole frame bs := by
  intro heq
  exact Nat.lt_irrefl _ (length_lt_of_grow_eq_cons heq.symm)

theorem grow_eq_iff (whole whole' : List β -> Bool) (cur bs : List β) :
    grow whole cur bs = grow whole' cur bs <-> AgreeAlong whole whole' cur bs := by
  induction bs generalizing cur with
  | nil => exact iff_of_true rfl trivial
  | cons b bs ih =>
      unfold grow AgreeAlong
      cases hw : whole (cur ++ [b]) with
      | true =>
          cases hw' : whole' (cur ++ [b]) with
          | true => simp [ih]
          | false =>
              have hne := cons_ne_grow whole' (cur ++ [b]) bs (grow whole [] bs)
              simpa using hne
      | false =>
          cases hw' : whole' (cur ++ [b]) with
          | true =>
              have hne := (cons_ne_grow whole (cur ++ [b]) bs (grow whole' [] bs)).symm
              simpa using hne
          | false => simp [ih]

/-!
## Collectors as machines

A machine cuts the stream after every symbol that leaves it idle, and acts on
some of the symbols.
-/

variable {σ α : Type _}

def cuts (step : σ -> β -> σ) (idle : σ -> Bool) : σ -> List β -> List β -> List (List β)
  | _, _, [] => []
  | s, cur, b :: bs =>
      if idle (step s b) then (cur ++ [b]) :: cuts step idle (step s b) [] bs
      else cuts step idle (step s b) (cur ++ [b]) bs

def emitted (step : σ -> β -> σ) (acts : σ -> β -> List α) : σ -> List β -> List α
  | _, [] => []
  | s, b :: bs => acts s b ++ emitted step acts (step s b) bs

/-- The state of the machine holds the symbols `cur` of the frame it is in; it
is idle after each whole frame and acts there, on the whole frame. -/
structure Collects (step : σ -> β -> σ) (idle : σ -> Bool) (acts : σ -> β -> List α)
    (whole : List β -> Bool) (meaning : List β -> List α) (Holds : σ -> List β -> Prop) :
    Prop where
  idle_iff : forall {s cur}, Holds s cur -> forall b, idle (step s b) = whole (cur ++ [b])
  holds_next : forall {s cur}, Holds s cur -> forall b,
    Holds (step s b) (if whole (cur ++ [b]) then [] else cur ++ [b])
  acts_eq : forall {s cur}, Holds s cur -> forall b,
    acts s b = if whole (cur ++ [b]) then meaning (cur ++ [b]) else []

namespace Collects

variable {step : σ -> β -> σ} {idle : σ -> Bool} {acts : σ -> β -> List α}
  {whole : List β -> Bool} {meaning : List β -> List α} {Holds : σ -> List β -> Prop}

theorem cuts_eq (h : Collects step idle acts whole meaning Holds) {s : σ} {cur : List β}
    (hs : Holds s cur) (bs : List β) : cuts step idle s cur bs = grow whole cur bs := by
  induction bs generalizing s cur with
  | nil => rfl
  | cons b bs ih =>
      have hnext := h.holds_next hs b
      unfold cuts grow
      rw [h.idle_iff hs b]
      cases hw : whole (cur ++ [b]) with
      | true =>
          rw [hw, if_pos rfl] at hnext
          rw [if_pos rfl, if_pos rfl, ih hnext]
      | false =>
          rw [hw, if_neg Bool.false_ne_true] at hnext
          rw [if_neg Bool.false_ne_true, if_neg Bool.false_ne_true, ih hnext]

theorem emitted_eq (h : Collects step idle acts whole meaning Holds) {s : σ} {cur : List β}
    (hs : Holds s cur) (bs : List β) :
    emitted step acts s bs = (grow whole cur bs).flatMap meaning := by
  induction bs generalizing s cur with
  | nil => rfl
  | cons b bs ih =>
      have hnext := h.holds_next hs b
      unfold emitted grow
      rw [h.acts_eq hs b, ih hnext]
      cases hw : whole (cur ++ [b]) with
      | true => rw [if_pos rfl, if_pos rfl, if_pos rfl, List.flatMap_cons]
      | false =>
          rw [if_neg Bool.false_ne_true, if_neg Bool.false_ne_true,
            if_neg Bool.false_ne_true, List.nil_append]

end Collects

end Foundation
end PistormAtari
