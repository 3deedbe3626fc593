import PistormAtari.Foundation.Separators

/-!
# TOS names

Names are byte strings.  `valid83` recognises the names TOS can hold, `trunc83`
cuts a typed name the way GEMDOS does, and `mangle` makes a `BASE~N.EXT` name
for a host name that TOS cannot hold.
-/

namespace PistormAtari
namespace Hostdos

open Foundation

abbrev Byte := BitVec 8
abbrev Name := List Byte

def ch (c : Char) : Byte :=
  BitVec.ofNat 8 c.toNat

def dot : Byte := 0x2E
def tilde : Byte := 0x7E

/-!
## Characters

`isalnum` and `toupper` of the C locale.
-/

def isalnum (c : Byte) : Bool :=
  (ch '0' ≤ c && c ≤ ch '9') || (ch 'A' ≤ c && c ≤ ch 'Z') || (ch 'a' ≤ c && c ≤ ch 'z')

def toupper (c : Byte) : Byte :=
  if ch 'a' ≤ c ∧ c ≤ ch 'z' then c - 0x20 else c

/-- `_-!#$%&'()@^`, the backtick, braces and `~`. -/
def tosPunctuation : List Byte :=
  [0x5F, 0x2D, 0x21, 0x23, 0x24, 0x25, 0x26, 0x27, 0x28, 0x29, 0x40, 0x5E, 0x60, 0x7B,
    0x7D, 0x7E]

def tosCharOk (c : Byte) : Bool :=
  if isalnum c then c < 0x80 else tosPunctuation.contains c && c != 0

theorem tosCharOk_toupper : forall c : Byte, tosCharOk c = true ->
    tosCharOk (toupper c) = true := by
  decide

theorem toupper_toupper : forall c : Byte, toupper (toupper c) = toupper c := by
  decide

theorem tosCharOk_ne_dot : forall c : Byte, tosCharOk c = true -> c ≠ dot := by
  decide

theorem tosCharOk_digit : forall d : BitVec 4, d.toNat < 10 ->
    tosCharOk (ch '0' + d.setWidth 8) = true ∧
      toupper (ch '0' + d.setWidth 8) = ch '0' + d.setWidth 8 ∧
      ch '0' + d.setWidth 8 ≠ tilde := by
  decide

/-!
## Base and extension
-/

def beforeDot (n : Name) : Name :=
  n.takeWhile (· != dot)

/-- The part of a name after its first dot, empty when there is none. -/
def afterDot (n : Name) : Name :=
  (n.dropWhile (· != dot)).tail

/-- `ext.empty() ? base : base + "." + ext`. -/
def join83 (base ext : Name) : Name :=
  if ext = [] then base else base ++ dot :: ext

def valid83 (n : Name) : Bool :=
  let base := beforeDot n
  let ext := afterDot n
  !base.isEmpty && decide (base.length ≤ 8) && decide (ext.length ≤ 3) &&
    !(n.contains dot && ext.isEmpty) && base.all tosCharOk && ext.all tosCharOk

def upper (n : Name) : Name :=
  n.map toupper

def trunc83 (n : Name) : Name :=
  if n = [dot] ∨ n = [dot, dot] then n
  else
    let s := upper n
    join83 ((beforeDot s).take 8) ((beforeDot (afterDot s)).take 3)

variable {n : Name}

theorem beforeDot_of_notMem (h : dot ∉ n) : beforeDot n = n := by
  unfold beforeDot
  rw [List.takeWhile_eq_self_iff]
  intro x hx
  have hne : x ≠ dot := fun heq => h (heq ▸ hx)
  simpa using hne

theorem afterDot_of_notMem (h : dot ∉ n) : afterDot n = [] := by
  have hdrop : n.dropWhile (· != dot) = [] := by
    rw [List.dropWhile_eq_nil_iff]
    intro x hx
    have hne : x ≠ dot := fun heq => h (heq ▸ hx)
    simpa using hne
  unfold afterDot
  rw [hdrop]
  rfl

theorem split_at_dot {base : Name} (h : dot ∉ base) (ext : Name) :
    beforeDot (base ++ dot :: ext) = base ∧ afterDot (base ++ dot :: ext) = ext := by
  have hall : forall x, x ∈ base -> (x != dot) = true := by
    intro x hx
    have hne : x ≠ dot := fun heq => h (heq ▸ hx)
    simpa using hne
  constructor
  · unfold beforeDot
    rw [List.takeWhile_append_of_pos hall]
    simp
  · unfold afterDot
    rw [List.dropWhile_append_of_pos hall]
    simp

theorem beforeDot_join83 {base : Name} (h : dot ∉ base) (ext : Name) :
    beforeDot (join83 base ext) = base := by
  unfold join83
  split
  · exact beforeDot_of_notMem h
  · exact (split_at_dot h ext).1

theorem afterDot_join83 {base : Name} (h : dot ∉ base) (ext : Name) :
    afterDot (join83 base ext) = ext := by
  unfold join83
  split
  · rename_i hext
    rw [afterDot_of_notMem h, hext]
  · exact (split_at_dot h ext).2

theorem eq_append_of_mem_dot (h : dot ∈ n) :
    n = beforeDot n ++ dot :: afterDot n := by
  have hne : n.dropWhile (· != dot) ≠ [] := by
    intro hnil
    rw [List.dropWhile_eq_nil_iff] at hnil
    have hdot := hnil dot h
    simp at hdot
  have hhead : (n.dropWhile (· != dot)).head hne = dot := by
    have hfalse := List.head_dropWhile_not (· != dot) hne
    simpa using hfalse
  have hcons := List.cons_head_tail hne
  rw [hhead] at hcons
  unfold beforeDot afterDot
  rw [hcons, List.takeWhile_append_dropWhile]

structure Parts83 (base ext : Name) : Prop where
  base_ne : base ≠ []
  base_len : base.length ≤ 8
  ext_len : ext.length ≤ 3
  base_ok : forall c, c ∈ base -> tosCharOk c = true
  ext_ok : forall c, c ∈ ext -> tosCharOk c = true

variable {base ext : Name}

theorem Parts83.dot_notMem_base (h : Parts83 base ext) : dot ∉ base :=
  fun hmem => tosCharOk_ne_dot dot (h.base_ok dot hmem) rfl

theorem Parts83.dot_notMem_ext (h : Parts83 base ext) : dot ∉ ext :=
  fun hmem => tosCharOk_ne_dot dot (h.ext_ok dot hmem) rfl

theorem valid83_join83 (h : Parts83 base ext) :
    valid83 (join83 base ext) = true := by
  have hbase := beforeDot_join83 h.dot_notMem_base ext
  have hext := afterDot_join83 h.dot_notMem_base ext
  have hdot : (join83 base ext).contains dot = true -> ext ≠ [] := by
    intro hmem hnil
    rw [hnil, join83, if_pos rfl] at hmem
    exact h.dot_notMem_base (by simpa using hmem)
  unfold valid83
  rw [hbase, hext]
  have hne : base.isEmpty = false := by simpa using h.base_ne
  have hallBase : base.all tosCharOk = true := by simpa using h.base_ok
  have hallExt : ext.all tosCharOk = true := by simpa using h.ext_ok
  have hnot : ((join83 base ext).contains dot && ext.isEmpty) = false := by
    cases hd : (join83 base ext).contains dot with
    | false => rfl
    | true => simpa using hdot hd
  dsimp only
  rw [hnot, hne, hallBase, hallExt]
  simp [h.base_len, h.ext_len]

theorem parts83_of_valid83 (h : valid83 n = true) :
    n = join83 (beforeDot n) (afterDot n) ∧ Parts83 (beforeDot n) (afterDot n) := by
  unfold valid83 at h
  simp only [Bool.and_eq_true, Bool.not_eq_true', decide_eq_true_eq, List.all_eq_true] at h
  rcases h with ⟨⟨⟨⟨⟨hne, hbase⟩, hext⟩, hdot⟩, hokBase⟩, hokExt⟩
  constructor
  · rcases Decidable.em (dot ∈ n) with hmem | hmem
    · have hext : afterDot n ≠ [] := by
        intro hnil
        rw [hnil] at hdot
        simp [hmem] at hdot
      rw [join83, if_neg hext]
      exact eq_append_of_mem_dot hmem
    · rw [join83, if_pos (afterDot_of_notMem hmem), beforeDot_of_notMem hmem]
  · exact ⟨by simpa using hne, hbase, hext, hokBase, hokExt⟩

/-!
## Case folding and the cut
-/

theorem upper_upper (n : Name) : upper (upper n) = upper n := by
  unfold upper
  rw [List.map_map]
  apply List.map_congr_left
  intro c _
  exact toupper_toupper c

theorem upper_join83 (base ext : Name) :
    upper (join83 base ext) = join83 (upper base) (upper ext) := by
  have hdot : toupper dot = dot := by decide
  unfold join83 upper
  split
  · rename_i hext
    simp [hext]
  · rename_i hext
    rw [if_neg (by simpa using hext)]
    simp [hdot]

theorem Parts83.upper (h : Parts83 base ext) :
    Parts83 (Hostdos.upper base) (Hostdos.upper ext) where
  base_ne := by simpa [Hostdos.upper] using h.base_ne
  base_len := by simpa [Hostdos.upper] using h.base_len
  ext_len := by simpa [Hostdos.upper] using h.ext_len
  base_ok := by
    intro c hc
    rcases List.mem_map.mp hc with ⟨x, hx, rfl⟩
    exact tosCharOk_toupper x (h.base_ok x hx)
  ext_ok := by
    intro c hc
    rcases List.mem_map.mp hc with ⟨x, hx, rfl⟩
    exact tosCharOk_toupper x (h.ext_ok x hx)

theorem valid83_upper (h : valid83 n = true) : valid83 (upper n) = true := by
  rcases parts83_of_valid83 h with ⟨hn, hparts⟩
  rw [hn, upper_join83]
  exact valid83_join83 hparts.upper

theorem trunc83_of_valid83 (h : valid83 n = true) : trunc83 n = upper n := by
  rcases parts83_of_valid83 (valid83_upper h) with ⟨hn, hparts⟩
  have hne : ¬ (n = [dot] ∨ n = [dot, dot]) := by
    rintro (rfl | rfl)
    · exact absurd h (by decide)
    · exact absurd h (by decide)
  have hext := beforeDot_of_notMem hparts.dot_notMem_ext
  unfold trunc83
  rw [if_neg hne]
  dsimp only
  rw [hext, List.take_of_length_le hparts.base_len, List.take_of_length_le hparts.ext_len,
    ← hn]

/-!
## Mangled names
-/

/-- `sanitize`: spaces and dots go, what TOS cannot hold becomes `_`. -/
def sanitize (s : Name) : Name :=
  (s.filter (fun c => c != ch ' ' && c != dot)).map
    (fun c => if tosCharOk c then toupper c else ch '_')

def decimal (n : Nat) : Name :=
  ((Nat.digits 10 n).map (fun k => ch '0' + BitVec.ofNat 8 k)).reverse

/-- `host.rfind('.')` as the parts before and after it; a leading dot does not
count. -/
def splitExt (host : Name) : Name × Name :=
  let ext := (host.reverse.takeWhile (· != dot)).reverse
  let base := host.take (host.length - (ext.length + 1))
  if dot ∈ host ∧ base ≠ [] then (base, ext) else (host, [])

def mangle (host : Name) (n : Nat) : Name :=
  let base := sanitize (splitExt host).1
  let ext := (sanitize (splitExt host).2).take 3
  let base := if base = [] then [ch '_'] else base
  let suf := tilde :: decimal n
  join83 (base.take (8 - suf.length) ++ suf) ext

def tosUpper (c : Byte) : Bool :=
  tosCharOk c && toupper c == c

theorem tosUpper_toupper {c : Byte} (h : tosCharOk c = true) : tosUpper (toupper c) = true := by
  simp [tosUpper, tosCharOk_toupper c h, toupper_toupper c]

theorem tosUpper_of_mem_sanitize {s : Name} {c : Byte} (h : c ∈ sanitize s) :
    tosUpper c = true := by
  rcases List.mem_map.mp h with ⟨x, _, rfl⟩
  split
  · rename_i hok
    exact tosUpper_toupper hok
  · decide

theorem decimal_digit {n : Nat} {c : Byte} (h : c ∈ decimal n) :
    tosUpper c = true ∧ c ≠ tilde := by
  rcases List.mem_map.mp (List.mem_reverse.mp h) with ⟨k, hk, rfl⟩
  have hlt : k < 10 := Nat.digits_lt_base (by decide) hk
  rcases tosCharOk_digit (BitVec.ofNat 4 k) (by rw [BitVec.toNat_ofNat]; lia) with
    ⟨hok, hup, hne⟩
  have hcast : (BitVec.ofNat 4 k).setWidth 8 = BitVec.ofNat 8 k := by
    apply BitVec.eq_of_toNat_eq
    rw [BitVec.toNat_setWidth, BitVec.toNat_ofNat, BitVec.toNat_ofNat]
    lia
  rw [hcast] at hok hup hne
  exact ⟨by simp [tosUpper, hok, hup], hne⟩

theorem digits_of_decimal (n : Nat) :
    (decimal n).reverse.map (fun c => (c - ch '0').toNat) = Nat.digits 10 n := by
  unfold decimal
  rw [List.reverse_reverse, List.map_map]
  have hid : forall k, k ∈ Nat.digits 10 n ->
      ((fun c => (c - ch '0').toNat) ∘ fun k => ch '0' + BitVec.ofNat 8 k) k = id k := by
    intro k hk
    have hlt : k < 10 := Nat.digits_lt_base (by decide) hk
    have hsub : ch '0' + BitVec.ofNat 8 k - ch '0' = BitVec.ofNat 8 k := by bv_omega
    simp only [Function.comp_apply]
    rw [hsub, BitVec.toNat_ofNat]
    exact Nat.mod_eq_of_lt (by lia)
  rw [List.map_congr_left hid, List.map_id]

theorem decimal_injective {m n : Nat} (h : decimal m = decimal n) : m = n := by
  have hdigits : Nat.digits 10 m = Nat.digits 10 n := by
    rw [← digits_of_decimal m, ← digits_of_decimal n, h]
  exact Nat.digits_inj_iff.mp hdigits

theorem length_decimal {n : Nat} (h : n < 100000) : (decimal n).length ≤ 5 := by
  unfold decimal
  rw [List.length_reverse, List.length_map]
  exact (Nat.digits_length_le_iff (by decide) n).mpr (by simpa using h)

structure Mangled (base ext : Name) (n : Nat) (name : Name) : Prop where
  eq : exists stem, stem.length + (decimal n).length ≤ 7 ∧
    base = stem ++ tilde :: decimal n ∧ name = join83 base ext
  base_ok : forall c, c ∈ base -> tosUpper c = true
  ext_ok : forall c, c ∈ ext -> tosUpper c = true
  ext_len : ext.length ≤ 3

theorem mangle_parts (host : Name) {n : Nat} (h : n < 100000) :
    exists base, Mangled base ((sanitize (splitExt host).2).take 3) n (mangle host n) := by
  have hlen := length_decimal h
  let base := sanitize (splitExt host).1
  let stem := (if base = [] then [ch '_'] else base).take (8 - (tilde :: decimal n).length)
  have hstem : forall c, c ∈ stem -> tosUpper c = true := by
    intro c hc
    have hmem := List.mem_of_mem_take hc
    split at hmem
    · rw [List.mem_singleton] at hmem
      subst hmem
      decide
    · exact tosUpper_of_mem_sanitize hmem
  refine ⟨stem ++ tilde :: decimal n, ⟨stem, ?_, rfl, rfl⟩, ?_, ?_, ?_⟩
  · have hle : stem.length ≤ 8 - (tilde :: decimal n).length := List.length_take_le ..
    rw [List.length_cons] at hle
    lia
  · intro c hc
    rcases List.mem_append.mp hc with hc | hc
    · exact hstem c hc
    · rcases List.mem_cons.mp hc with rfl | hc
      · decide
      · exact (decimal_digit hc).1
  · intro c hc
    exact tosUpper_of_mem_sanitize (List.mem_of_mem_take hc)
  · exact List.length_take_le ..

theorem Mangled.parts83 {base ext name : Name} {n : Nat} (h : Mangled base ext n name) :
    Parts83 base ext := by
  rcases h with ⟨⟨stem, hlen, rfl, _⟩, hbase, hext, hextLen⟩
  refine ⟨by simp, ?_, hextLen, ?_, ?_⟩
  · rw [List.length_append, List.length_cons]
    lia
  · intro c hc
    exact (Bool.and_eq_true _ _ ▸ hbase c hc).1
  · intro c hc
    exact (Bool.and_eq_true _ _ ▸ hext c hc).1

theorem upper_of_tosUpper (h : forall c, c ∈ n -> tosUpper c = true) :
    upper n = n := by
  have hid : forall c, c ∈ n -> toupper c = id c := by
    intro c hc
    have hok := h c hc
    simp only [tosUpper, Bool.and_eq_true, beq_iff_eq] at hok
    exact hok.2
  unfold upper
  rw [List.map_congr_left hid, List.map_id]

theorem valid83_mangle (host : Name) {n : Nat} (h : n < 100000) :
    valid83 (mangle host n) = true := by
  rcases mangle_parts host h with ⟨base, hbase⟩
  rcases hbase.eq with ⟨_, _, _, hname⟩
  rw [hname]
  exact valid83_join83 hbase.parts83

theorem upper_mangle (host : Name) {n : Nat} (h : n < 100000) :
    upper (mangle host n) = mangle host n := by
  rcases mangle_parts host h with ⟨base, hbase⟩
  rcases hbase.eq with ⟨_, _, _, hname⟩
  rw [hname, upper_join83, upper_of_tosUpper hbase.base_ok, upper_of_tosUpper hbase.ext_ok]

theorem mangle_injective (host : Name) {m n : Nat} (hm : m < 100000) (hn : n < 100000)
    (h : mangle host m = mangle host n) : m = n := by
  rcases mangle_parts host hm with ⟨base, hbase⟩
  rcases mangle_parts host hn with ⟨base', hbase'⟩
  have heq : base = base' := by
    rcases hbase.eq with ⟨_, _, _, hname⟩
    rcases hbase'.eq with ⟨_, _, _, hname'⟩
    have hcut := congrArg beforeDot h
    rwa [hname, hname', beforeDot_join83 hbase.parts83.dot_notMem_base,
      beforeDot_join83 hbase'.parts83.dot_notMem_base] at hcut
  rcases hbase.eq with ⟨stem, _, hstem, _⟩
  rcases hbase'.eq with ⟨stem', _, hstem', _⟩
  rw [hstem, hstem'] at heq
  have hnot : forall k, tilde ∉ decimal k := fun k hmem => (decimal_digit hmem).2 rfl
  exact decimal_injective (append_cons_inj_of_notMem_right (hnot m) (hnot n) heq).2

/-!
## Search patterns
-/

/-- One field of `fcb`: `*` fills the rest of it with `?`, a short name is padded
with spaces. -/
def fcbField : Nat -> Name -> Name
  | 0, _ => []
  | k + 1, [] => ch ' ' :: fcbField k []
  | k + 1, c :: cs =>
      if c = ch '*' then List.replicate (k + 1) (ch '?') else c :: fcbField k cs

def fcb (n : Name) : Name :=
  fcbField 8 (beforeDot n) ++ fcbField 3 (afterDot n)

def match83 (pat name : Name) : Bool :=
  if name = [dot] ∨ name = [dot, dot] then pat = [ch '*', dot, ch '*'] || pat = name
  else (List.zip (fcb (upper pat)) (fcb name)).all (fun pn => pn.1 == ch '?' || pn.1 == pn.2)

def hasWild (s : Name) : Bool :=
  s.any (fun c => c == ch '*' || c == ch '?')

end Hostdos
end PistormAtari
