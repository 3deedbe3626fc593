import Mathlib

/-!
# C strings

A character stands for a byte.  A C string is the part of a buffer before its
first NUL; a buffer of `n` characters holds at most `n - 1` of them.  The
functions of the C library that text parsers use are defined here under their
own names, for the C locale.
-/

namespace PistormAtari
namespace Foundation

abbrev Text := List Char

def nul : Char := Char.ofNat 0
def newline : Char := '\n'

def cstr (s : Text) : Text :=
  s.takeWhile (· != nul)

theorem cstr_of_notMem {s : Text} (h : nul ∉ s) : cstr s = s := by
  refine List.takeWhile_eq_self_iff.mpr ?_
  intro c hc
  have hne : c ≠ nul := fun heq => h (heq ▸ hc)
  simpa using hne

theorem nul_notMem_cstr (s : Text) : nul ∉ cstr s := by
  intro h
  have hne := List.mem_takeWhile_imp h
  simp at hne

theorem takeWhile_append_stop {p : Char -> Bool} {c : Char} (h : p c = false) (s t : Text) :
    (s ++ c :: t).takeWhile p = s.takeWhile p := by
  induction s with
  | nil => simp [h]
  | cons d s ih =>
      rw [List.cons_append, List.takeWhile_cons, List.takeWhile_cons, ih]

structure CBuf (n : Nat) where
  chars : Text
  fits : chars.length < n
  noNul : nul ∉ chars
deriving DecidableEq

def CBuf.print (n : Nat) (hn : 0 < n) (s : Text) : CBuf n where
  chars := (cstr s).take (n - 1)
  fits := by
    have h := List.length_take_le (n - 1) (cstr s)
    lia
  noNul := fun h => nul_notMem_cstr s (List.mem_of_mem_take h)

/-!
## Characters
-/

def isBlank (c : Char) : Bool :=
  c == ' ' || c == '\t'

def isspace (c : Char) : Bool :=
  c == ' ' || (9 ≤ c.toNat && c.toNat ≤ 13)

def tolower (c : Char) : Char :=
  c.toLower

def skipBlanks (s : Text) : Text :=
  s.dropWhile isBlank

def lowercase (s : Text) : Text :=
  s.map tolower

/-- `!strcasecmp(a, b)`. -/
def sameCase (a b : Text) : Bool :=
  lowercase a == lowercase b

/-- `!strncasecmp(s, w, strlen(w))`. -/
def startsWith (s w : Text) : Bool :=
  sameCase (s.take w.length) w

def unsigned (n : Nat) : Text :=
  Nat.toDigits 10 n

def decimal (i : Int) : Text :=
  if i < 0 then '-' :: unsigned i.natAbs else unsigned i.natAbs

/-- `strstr(s, w)`: the rest of `s` from the first place where `w` stands. -/
def strstr (w : Text) : Text -> Option Text
  | [] => if w.isEmpty then some [] else none
  | c :: cs => if w.isPrefixOf (c :: cs) then some (c :: cs) else strstr w cs

theorem tolower_tolower (c : Char) : tolower (tolower c) = tolower c := by
  simp only [tolower, Char.toLower]
  split
  · rename_i h
    have hge : 97 ≤ (c.val + 32).toNat := by
      have h1 := UInt32.le_iff_toNat_le.mp h.1
      have h2 := UInt32.le_iff_toNat_le.mp h.2
      rw [UInt32.toNat_add]
      simp at h1 h2 ⊢
      lia
    split
    · rename_i h'
      have h2 := UInt32.le_iff_toNat_le.mp h'.2
      simp at h2 hge
      lia
    · rfl
  · rfl

theorem lowercase_lowercase (s : Text) : lowercase (lowercase s) = lowercase s := by
  rw [lowercase, lowercase, List.map_map]
  exact List.map_congr_left (fun c _ => tolower_tolower c)

@[simp] theorem sameCase_self (s : Text) : sameCase s s = true := by
  simp [sameCase]

theorem tolower_eq {c d : Char} (h : tolower c = d) (hd : ¬ (97 ≤ d.toNat ∧ d.toNat ≤ 122)) :
    c = d := by
  unfold tolower Char.toLower at h
  split at h
  · rename_i hup
    exfalso
    have hlo : 65 ≤ c.toNat := hup.1
    have hhi : c.toNat ≤ 90 := hup.2
    refine hd ?_
    rw [← h]
    have hval : (c.val + 32).toNat = c.toNat + 32 := by
      have hc : c.val.toNat = c.toNat := rfl
      rw [UInt32.toNat_add, hc]
      simp
      lia
    have hnat : (⟨c.val + 32, by
        have := hval
        simp only [UInt32.isValidChar, Nat.isValidChar]
        lia⟩ : Char).toNat = c.toNat + 32 := hval
    constructor
    · refine le_trans ?_ (le_of_eq hnat.symm)
      lia
    · refine le_trans (le_of_eq hnat) ?_
      lia
  · exact h

theorem mem_of_sameCase {a b : Text} {d : Char} (h : sameCase a b = true) (hd : d ∈ b)
    (hlow : tolower d = d) (hup : ¬ (97 ≤ d.toNat ∧ d.toNat ≤ 122)) : d ∈ a := by
  have heq : lowercase a = lowercase b := by simpa [sameCase] using h
  have hmem : d ∈ lowercase b := List.mem_map.mpr ⟨d, hd, hlow⟩
  rw [← heq] at hmem
  rcases List.mem_map.mp hmem with ⟨c, hc, hcd⟩
  rw [← tolower_eq hcd hup]
  exact hc

end Foundation
end PistormAtari
