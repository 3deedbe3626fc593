import PistormAtari.Foundation.CText

/-!
# Lines of a text

A text is cut at every newline, and only its last line may lack one.  Repeated
`fgets` with a buffer of `n` characters reads the same lines, except that a line
of `n` characters or more comes in several pieces.
-/

namespace PistormAtari
namespace Foundation

def textLines : Text -> List Text
  | [] => []
  | c :: cs =>
      if c = newline then [] :: textLines cs
      else
        match textLines cs with
        | [] => [[c]]
        | l :: ls => (c :: l) :: ls

def unlines (ls : List Text) : Text :=
  ls.flatMap (· ++ [newline])

/-- What one `fgets` after the other reads, when the buffer has room for `left`
more characters, and for `room` when a new string starts. -/
def fgetsFrom (room : Nat) : Nat -> Text -> List Text
  | _, [] => []
  | left, c :: cs =>
      if c = newline ∨ left ≤ 1 then [c] :: fgetsFrom room room cs
      else
        match fgetsFrom room (left - 1) cs with
        | [] => [[c]]
        | p :: ps => (c :: p) :: ps

def fgets (n : Nat) (t : Text) : List Text :=
  fgetsFrom (n - 1) (n - 1) t

variable {l t u : Text} {ls : List Text}

@[simp] theorem unlines_nil : unlines [] = [] := rfl

@[simp] theorem unlines_cons (l : Text) (ls : List Text) :
    unlines (l :: ls) = l ++ newline :: unlines ls := by
  simp [unlines]

@[simp] theorem unlines_append (ls ls' : List Text) :
    unlines (ls ++ ls') = unlines ls ++ unlines ls' := by
  simp [unlines]

theorem notMem_cons {c : Char} {cs : Text} (h : newline ∉ c :: cs) :
    c ≠ newline ∧ newline ∉ cs :=
  ⟨fun heq => h (by simp [heq]), fun hmem => h (by simp [hmem])⟩

/-!
## Cutting a text into lines
-/

theorem textLines_of_notMem (h : newline ∉ u) : textLines u = if u = [] then [] else [u] := by
  induction u with
  | nil => rfl
  | cons c cs ih =>
      rcases notMem_cons h with ⟨hc, hcs⟩
      rw [textLines, if_neg hc, ih hcs]
      cases cs <;> simp

theorem textLines_line_append (h : newline ∉ l) (t : Text) :
    textLines (l ++ newline :: t) = l :: textLines t := by
  induction l with
  | nil => simp [textLines]
  | cons c cs ih =>
      rcases notMem_cons h with ⟨hc, hcs⟩
      rw [List.cons_append, textLines, if_neg hc, ih hcs]

theorem textLines_unlines_append (h : forall l, l ∈ ls -> newline ∉ l) (t : Text) :
    textLines (unlines ls ++ t) = ls ++ textLines t := by
  induction ls with
  | nil => rfl
  | cons l ls ih =>
      have htail := ih (fun l' hl' => h l' (by simp [hl']))
      rw [unlines_cons, List.append_assoc, List.cons_append, textLines_line_append (h l (by simp)),
        htail]
      rfl

theorem textLines_unlines (h : forall l, l ∈ ls -> newline ∉ l) :
    textLines (unlines ls) = ls := by
  simpa [textLines] using textLines_unlines_append h []

/-- Every text is a run of whole lines and a last line without a newline, which
may be empty. -/
theorem exists_unlines (t : Text) :
    exists (ls : List Text) (u : Text),
      (forall l, l ∈ ls -> newline ∉ l) ∧ newline ∉ u ∧ t = unlines ls ++ u := by
  induction t with
  | nil => exact ⟨[], [], by simp, by simp, rfl⟩
  | cons c cs ih =>
      rcases ih with ⟨ls, u, hls, hu, rfl⟩
      rcases Decidable.em (c = newline) with rfl | hc
      · exact ⟨[] :: ls, u, by simpa using hls, hu, by simp⟩
      · have hext : forall s : Text, newline ∉ s -> newline ∉ c :: s := by
          intro s hs hmem
          rcases List.mem_cons.mp hmem with heq | hmem
          · exact hc heq.symm
          · exact hs hmem
        cases ls with
        | nil => exact ⟨[], c :: u, by simp, hext u hu, rfl⟩
        | cons l ls =>
            refine ⟨(c :: l) :: ls, u, ?_, hu, by simp⟩
            intro l' hl'
            rcases List.mem_cons.mp hl' with rfl | hl'
            · exact hext l (hls l (by simp))
            · exact hls l' (by simp [hl'])

/-- How a text without NUL is cut into lines. -/
theorem exists_cut {text : Text} (hnul : nul ∉ text) :
    exists (ls : List Text) (u : Text), (forall l, l ∈ ls -> newline ∉ l) ∧ newline ∉ u ∧
      (forall l, l ∈ ls -> nul ∉ l) ∧ nul ∉ u ∧ text = unlines ls ++ u ∧
      textLines text = ls ++ if u = [] then [] else [u] := by
  rcases exists_unlines text with ⟨ls, u, hls, hu, rfl⟩
  rw [List.mem_append, not_or] at hnul
  refine ⟨ls, u, hls, hu, ?_, hnul.2, rfl, ?_⟩
  · intro l hl hmem
    exact hnul.1 (List.mem_flatMap.mpr ⟨l, hl, by simp [hmem]⟩)
  · rw [textLines_unlines_append hls, textLines_of_notMem hu]

theorem clean_lines {text : Text} (h : nul ∉ text) :
    forall l, l ∈ textLines text -> newline ∉ l ∧ nul ∉ l := by
  rcases exists_cut h with ⟨ls, u, hlsnl, hunl, hlsnul, hunul, _, hlines⟩
  intro l hl
  rw [hlines] at hl
  rcases List.mem_append.mp hl with hl | hl
  · exact ⟨hlsnl l hl, hlsnul l hl⟩
  · split at hl
    · cases hl
    · rw [List.mem_singleton.mp hl]
      exact ⟨hunl, hunul⟩

theorem nul_notMem_unlines {ls : List Text} (h : forall l, l ∈ ls -> newline ∉ l ∧ nul ∉ l) :
    nul ∉ unlines ls := by
  have hne : nul ≠ newline := by decide
  intro hmem
  rcases List.mem_flatMap.mp hmem with ⟨l, hl, hmem⟩
  rcases List.mem_append.mp hmem with hmem | hmem
  · exact (h l hl).2 hmem
  · exact hne (List.mem_singleton.mp hmem)

/-!
## Pieces
-/

theorem flatten_fgetsFrom (room left : Nat) (t : Text) :
    (fgetsFrom room left t).flatten = t := by
  induction t generalizing left with
  | nil => rfl
  | cons c cs ih =>
      rw [fgetsFrom]
      split
      · simp [ih room]
      · have htail := ih (left - 1)
        cases hp : fgetsFrom room (left - 1) cs with
        | nil =>
            rw [hp] at htail
            simp [← htail]
        | cons p ps =>
            rw [hp] at htail
            simp [← htail]

theorem flatten_fgets (n : Nat) (t : Text) : (fgets n t).flatten = t :=
  flatten_fgetsFrom (n - 1) (n - 1) t

theorem fgetsFrom_line_append (h : newline ∉ l) (room left : Nat) (t : Text) :
    fgetsFrom room left (l ++ newline :: t) =
      fgetsFrom room left (l ++ [newline]) ++ fgetsFrom room room t := by
  induction l generalizing left with
  | nil => simp [fgetsFrom]
  | cons c cs ih =>
      rcases notMem_cons h with ⟨_, hcs⟩
      rw [List.cons_append, List.cons_append, fgetsFrom, fgetsFrom]
      split
      · rw [ih hcs room, List.cons_append]
      · rw [ih hcs (left - 1)]
        cases hp : fgetsFrom room (left - 1) (cs ++ [newline]) with
        | nil =>
            have hflat := flatten_fgetsFrom room (left - 1) (cs ++ [newline])
            rw [hp] at hflat
            simp at hflat
        | cons p ps => rfl

theorem fgets_line_append {n : Nat} (h : newline ∉ l) (t : Text) :
    fgets n (l ++ newline :: t) = fgets n (l ++ [newline]) ++ fgets n t :=
  fgetsFrom_line_append h (n - 1) (n - 1) t

theorem fgetsFrom_short {room left : Nat} (hne : l ≠ []) (hlen : l.length ≤ left)
    (h : newline ∉ l.dropLast) : fgetsFrom room left l = [l] := by
  induction l generalizing left with
  | nil => exact absurd rfl hne
  | cons c cs ih =>
      cases cs with
      | nil =>
          rw [fgetsFrom]
          split <;> simp [fgetsFrom]
      | cons d ds =>
          have hc : c ≠ newline := fun heq => h (by simp [heq])
          have hds : newline ∉ (d :: ds).dropLast := fun hmem => h (by
            rw [List.dropLast_cons_of_ne_nil (by simp)]
            exact List.mem_cons_of_mem _ hmem)
          have hlen' : (d :: ds).length ≤ left - 1 := by
            simp only [List.length_cons] at hlen ⊢
            lia
          have hleft : ¬ left ≤ 1 := by
            simp only [List.length_cons] at hlen
            lia
          rw [fgetsFrom, if_neg (by simp [hc, hleft]), ih (by simp) hlen' hds]

theorem fgets_short_line {n : Nat} (h : newline ∉ l) (hlen : l.length + 1 < n) :
    fgets n (l ++ [newline]) = [l ++ [newline]] := by
  refine fgetsFrom_short (by simp) ?_ (by simpa using h)
  rw [List.length_append, List.length_singleton]
  lia

theorem fgets_short_of_notMem {n : Nat} (h : newline ∉ u) (hne : u ≠ []) (hlen : u.length < n) :
    fgets n u = [u] :=
  fgetsFrom_short hne (by lia) (fun hmem => h (List.mem_of_mem_dropLast hmem))

/-- With its newline a line has the same pieces; the newline ends the last one or is a
piece of its own. -/
theorem fgetsFrom_newline {room left : Nat} (u : Text) :
    fgetsFrom room left (u ++ [newline]) = fgetsFrom room left u ++ [[newline]] ∨
      exists init last, fgetsFrom room left u = init ++ [last] ∧
        fgetsFrom room left (u ++ [newline]) = init ++ [last ++ [newline]] := by
  induction u generalizing left with
  | nil => exact Or.inl (by simp [fgetsFrom])
  | cons c cs ih =>
      rw [List.cons_append, fgetsFrom, fgetsFrom]
      split
      · rcases @ih room with h | ⟨init, last, hu, h⟩
        · exact Or.inl (by rw [h, List.cons_append])
        · exact Or.inr ⟨[c] :: init, last, by rw [hu, List.cons_append], by rw [h, List.cons_append]⟩
      · rcases @ih (left - 1) with h | ⟨init, last, hu, h⟩
        · rw [h]
          cases hcs : fgetsFrom room (left - 1) cs with
          | nil => exact Or.inr ⟨[], [c], rfl, rfl⟩
          | cons p ps => exact Or.inl rfl
        · rw [h, hu]
          cases init with
          | nil => exact Or.inr ⟨[], c :: last, rfl, rfl⟩
          | cons p ps => exact Or.inr ⟨(c :: p) :: ps, last, rfl, rfl⟩

theorem mem_fgets_newline {n : Nat} {p : Text} (h : p ∈ fgets n u) :
    p ∈ fgets n (u ++ [newline]) ∨ p ++ [newline] ∈ fgets n (u ++ [newline]) := by
  unfold fgets at h ⊢
  rcases fgetsFrom_newline u with heq | ⟨init, last, hu, heq⟩
  · rw [heq]
    exact Or.inl (List.mem_append_left _ h)
  · rw [hu] at h
    rw [heq]
    rcases List.mem_append.mp h with h | h
    · exact Or.inl (List.mem_append_left _ h)
    · rw [List.mem_singleton.mp h]
      exact Or.inr (by simp)

theorem newline_notMem_dropLast {room left : Nat} {t q : Text} (h : q ∈ fgetsFrom room left t) :
    newline ∉ q.dropLast := by
  induction t generalizing left q with
  | nil => cases h
  | cons c cs ih =>
      rw [fgetsFrom] at h
      split at h
      · rcases List.mem_cons.mp h with rfl | h
        · simp
        · exact ih h
      · rename_i hc
        rw [not_or] at hc
        cases hp : fgetsFrom room (left - 1) cs with
        | nil =>
            rw [hp] at h
            rw [List.mem_singleton.mp h]
            simp
        | cons p ps =>
            rw [hp] at h
            rcases List.mem_cons.mp h with rfl | h
            · have hfirst := @ih (left - 1) p (by rw [hp]; simp)
              cases p with
              | nil => simp
              | cons d ds =>
                  rw [List.dropLast_cons_of_ne_nil (by simp)]
                  intro hmem
                  rcases List.mem_cons.mp hmem with heq | hmem
                  · exact hc.1 heq.symm
                  · exact hfirst hmem
            · exact @ih (left - 1) q (by rw [hp]; simp [h])

end Foundation
end PistormAtari
