import PistormAtari.Foundation.BoundedTable
import PistormAtari.Foundation.Run
import PistormAtari.Hostdos.GuestMemory

/-!
# The forced cookies

`machine_cookie.c` looks at the guest's cookie jar from time to time.  Once a real jar has settled
it puts the machine's own cookies into it, in the guest's memory.
-/

namespace PistormAtari
namespace Cookies

open Foundation
open Hostdos (Addr Mem rd32 wr32 rd32_congr rd32_wr32 rd32_wr32_apart wr32_outside)

abbrev Long := BitVec 32
abbrev Cookie := Long × Long

def stRamSize : Long := 0x00400000
def cookiePtr : Addr := 0x5A0
def jarMaxSlots : Nat := 64
def maxForced : Nat := 3
def cMch : Long := 0x5F4D4348
def cCpu : Long := 0x5F435055
def cVdo : Long := 0x5F56444F
def cSnd : Long := 0x5F534E44

/-- `g_forced`, `g_seen_ptr` and `g_settled`, without what was logged. -/
structure Watcher where
  forced : List Cookie
  seenPtr : Long
  settled : Nat

def forceAdd (tag want : Long) (w : Watcher) : Watcher :=
  { w with forced := (put (fun n => n < maxForced) tag want 0 w.forced).getD w.forced }

def machineCookieSet (mchValue : Long) : Watcher -> Watcher := forceAdd cMch mchValue

def machineCookieSetSteHw (w : Watcher) : Watcher := forceAdd cSnd 3 (forceAdd cVdo 0x00010000 w)

/-!
## The jar
-/

def printable (tag : Long) : Bool :=
  [0, 8, 16, 24].all fun (b : Nat) =>
    let c := (tag >>> b) &&& 0xFF
    0x20 ≤ c && c ≤ 0x7E

/-- The loop of `jar_looks_real`: the entries it passes, where it stops, and if one of them is
the system's own. -/
def scanTags (m : Mem) : Nat -> Addr -> Option (Nat × Addr × Bool)
  | 0, a => some (0, a, false)
  | left + 1, a =>
      let tag := rd32 m a
      if tag = 0 then some (0, a, false)
      else if printable tag = false then none
      else (scanTags m left (a + 8)).map fun (i, e, os) =>
        (i + 1, e, os || tag == cCpu || tag == cVdo)

def jarLooksReal (m : Mem) (jar : Addr) : Option Nat :=
  match scanTags m jarMaxSlots jar with
  | none => none
  | some (i, a, osCookie) =>
      if i ≥ jarMaxSlots ∨ i = 0 ∨ osCookie = false then none
      else if (rd32 m (a + 4)).toNat > jarMaxSlots * 4 ∨ (rd32 m (a + 4)).toNat ≤ i then none
      else some i

/-- The end of `force_one`: a cookie behind the `used` ones, if the jar is not full. -/
def appendAt (m : Mem) (tag want : Long) (a : Addr) (used : Nat) : Option Mem :=
  let cap := rd32 m (a + 4)
  if used + 1 < cap.toNat ∧ cap.toNat ≤ jarMaxSlots then
    some (wr32 (wr32 (wr32 (wr32 m (a + 8) 0) (a + 12) cap) a tag) (a + 4) want)
  else none

def forceFrom (m : Mem) (tag want : Long) : Nat -> Addr -> Nat -> Option Mem
  | 0, a, used => appendAt m tag want a used
  | left + 1, a, used =>
      if rd32 m a = 0 then appendAt m tag want a used
      else if rd32 m a = tag then
        some (if rd32 m (a + 4) = want then m else wr32 m (a + 4) want)
      else forceFrom m tag want left (a + 8) (used + 1)

def forceOne (m : Mem) (jar : Addr) (c : Cookie) : Option Mem :=
  forceFrom m c.1 c.2 jarMaxSlots jar 0

def forceAll (jar : Addr) : List Cookie -> Mem -> Mem
  | [], m => m
  | c :: cs, m =>
      match forceOne m jar c with
      | none => m
      | some m' => forceAll jar cs m'

def machineCookieTick (m : Mem) (w : Watcher) : Mem × Watcher :=
  let jar := rd32 m cookiePtr
  if w.forced = [] then (m, w)
  else if jar ≠ w.seenPtr then (m, { w with seenPtr := jar, settled := 0 })
  else if jar = 0 ∨ jar ≥ stRamSize - 64 * 8 ∨ jar &&& 1 ≠ 0 then (m, w)
  else if jarLooksReal m jar = none then (m, { w with settled := 0 })
  else if w.settled < 2 then (m, { w with settled := w.settled + 1 })
  else (forceAll jar w.forced m, w)

/-!
## The jar as a table
-/

/-- From `a` on there are these cookies, and behind them an empty tag with the capacity. -/
def Holds (m : Mem) (cap : Long) : Addr -> List Cookie -> Prop
  | a, [] => rd32 m a = 0 ∧ rd32 m (a + 4) = cap
  | a, c :: cs =>
      c.1 ≠ 0 ∧ rd32 m a = c.1 ∧ rd32 m (a + 4) = c.2 ∧ Holds m cap (a + 8) cs

def room (cap : Long) (used : Nat) : Bool :=
  used + 1 < cap.toNat ∧ cap.toNat ≤ jarMaxSlots

def SameOutside (a : Addr) (n : Nat) (m m' : Mem) : Prop :=
  forall x : Addr, x.toNat < a.toNat ∨ a.toNat + 8 * n ≤ x.toNat -> m' x = m x

variable {m m' : Mem} {cap tag want : Long} {a : Addr} {es es' : List Cookie} {used left : Nat}

theorem SameOutside.trans {n n' : Nat} {m'' : Mem} (h : SameOutside a n m m')
    (h' : SameOutside a n' m' m'') (hle : n ≤ n') : SameOutside a n' m m'' := by
  intro x hx
  rw [h' x hx, h x (by lia)]

theorem forceFrom_of_end (h : rd32 m a = 0) (left : Nat) :
    forceFrom m tag want left a used = appendAt m tag want a used := by
  cases left with
  | zero => rfl
  | succ left => exact if_pos h

theorem appendAt_spec (hcap : rd32 m (a + 4) = cap) (htag : tag ≠ 0)
    (hfits : a.toNat + 16 ≤ 2 ^ 32) (hroom : room cap used = true) :
    exists m', appendAt m tag want a used = some m' ∧ Holds m' cap a [(tag, want)] ∧
      SameOutside a 2 m m' := by
  unfold appendAt
  rw [hcap]
  refine ⟨_, if_pos (of_decide_eq_true hroom), ⟨htag, ?_, ?_, ?_, ?_⟩, fun x hx => ?_⟩
  · rw [rd32_wr32_apart _ _ (by bv_omega) (by bv_omega), rd32_wr32]
  · rw [rd32_wr32]
  · rw [rd32_wr32_apart _ _ (by bv_omega) (by bv_omega),
      rd32_wr32_apart _ _ (by bv_omega) (by bv_omega),
      rd32_wr32_apart _ _ (by bv_omega) (by bv_omega), rd32_wr32]
  · rw [rd32_wr32_apart _ _ (by bv_omega) (by bv_omega),
      rd32_wr32_apart _ _ (by bv_omega) (by bv_omega),
      show a + 8 + 4 = a + 12 by bv_omega, rd32_wr32]
  · rw [wr32_outside _ _ (by bv_omega), wr32_outside _ _ (by bv_omega),
      wr32_outside _ _ (by bv_omega), wr32_outside _ _ (by bv_omega)]

theorem Holds.behind (h : Holds m cap a es) (v : Long) (b : Addr) (hle : b.toNat + 4 ≤ a.toNat)
    (hfits : a.toNat + 8 * (es.length + 1) ≤ 2 ^ 32) : Holds (wr32 m b v) cap a es := by
  induction es generalizing a with
  | nil =>
      have hlen : ([] : List Cookie).length = 0 := rfl
      refine ⟨?_, ?_⟩
      · rw [rd32_wr32_apart _ _ (by bv_omega) (by bv_omega)]
        exact h.1
      · rw [rd32_wr32_apart _ _ (by bv_omega) (by bv_omega)]
        exact h.2
  | cons e rest ih =>
      obtain ⟨hne, htag, hval, hrest⟩ := h
      rw [List.length_cons] at hfits
      have hnext : (a + 8).toNat = a.toNat + 8 := by bv_omega
      refine ⟨hne, ?_, ?_, ih hrest (by lia) (by lia)⟩
      · rw [rd32_wr32_apart _ _ (by bv_omega) (by bv_omega)]
        exact htag
      · rw [rd32_wr32_apart _ _ (by bv_omega) (by bv_omega)]
        exact hval

theorem forceFrom_spec (hholds : Holds m cap a es) (htag : tag ≠ 0) (hleft : es.length ≤ left)
    (hfits : a.toNat + 8 * (es.length + 2) ≤ 2 ^ 32) :
    match put (room cap) tag want used es with
    | none => forceFrom m tag want left a used = none
    | some es' => exists m', forceFrom m tag want left a used = some m' ∧ Holds m' cap a es' ∧
        SameOutside a (es'.length + 1) m m' := by
  induction es generalizing a used left with
  | nil =>
      rw [forceFrom_of_end hholds.1, put]
      by_cases hroom : room cap used = true
      · rw [if_pos hroom]
        exact appendAt_spec hholds.2 htag (by simpa using hfits) hroom
      · rw [if_neg hroom]
        unfold appendAt
        rw [hholds.2]
        exact if_neg (fun h => hroom (decide_eq_true h))
  | cons e rest ih =>
      obtain ⟨hne, hkey, hval, hrest⟩ := hholds
      rw [List.length_cons] at hleft hfits
      obtain ⟨left, rfl⟩ : exists k, left = k + 1 := ⟨left - 1, by lia⟩
      have hnext : (a + 8).toNat = a.toNat + 8 := by bv_omega
      unfold forceFrom put
      rw [hkey, if_neg hne]
      by_cases heq : e.1 = tag
      · rw [if_pos heq, if_pos heq]
        by_cases hwant : rd32 m (a + 4) = want
        · rw [if_pos hwant]
          exact ⟨m, rfl, ⟨htag, hkey.trans heq, hwant, hrest⟩, fun x _ => rfl⟩
        · rw [if_neg hwant]
          refine ⟨_, rfl, ⟨htag, ?_, rd32_wr32 _ _ _, ?_⟩, fun x hx => ?_⟩
          · rw [rd32_wr32_apart _ _ (by bv_omega) (by bv_omega)]
            exact hkey.trans heq
          · exact hrest.behind want (a + 4) (by bv_omega) (by lia)
          · rw [List.length_cons] at hx
            exact wr32_outside _ _ (by bv_omega)
      · rw [if_neg heq, if_neg heq]
        have hspec := @ih (a + 8) (used + 1) left hrest (by lia) (by lia)
        cases hput : put (room cap) tag want (used + 1) rest with
        | none =>
            rw [hput] at hspec
            exact hspec
        | some rest' =>
            rw [hput] at hspec
            obtain ⟨m', hforce, hholds', hsame⟩ := hspec
            have hkept : forall b : Addr, b.toNat + 4 ≤ a.toNat + 8 -> a.toNat ≤ b.toNat ->
                rd32 m' b = rd32 m b := by
              intro b hb hlo
              refine rd32_congr (fun i hi => hsame _ (Or.inl ?_))
              bv_omega
            refine ⟨m', hforce, ⟨hne, ?_, ?_, hholds'⟩, fun x hx => hsame x ?_⟩
            · rw [hkept a (by lia) (by lia)]
              exact hkey
            · rw [hkept (a + 4) (by bv_omega) (by bv_omega)]
              exact hval
            · rw [List.length_cons] at hx
              lia

theorem forceFrom_same (hholds : Holds m cap a es) (hlookup : es.lookup tag = some want)
    (hleft : es.length ≤ left) : forceFrom m tag want left a used = some m := by
  induction es generalizing a used left with
  | nil => cases hlookup
  | cons e rest ih =>
      obtain ⟨hne, hkey, hval, hrest⟩ := hholds
      rw [List.length_cons] at hleft
      obtain ⟨left, rfl⟩ : exists k, left = k + 1 := ⟨left - 1, by lia⟩
      rw [List.lookup_cons] at hlookup
      unfold forceFrom
      rw [hkey, if_neg hne]
      by_cases heq : e.1 = tag
      · rw [heq, beq_self_eq_true] at hlookup
        rw [if_pos heq, hval, if_pos (Option.some.inj hlookup)]
      · have hother : (tag == e.1) = false := by simpa using Ne.symm heq
        rw [hother] at hlookup
        rw [if_neg heq]
        exact ih hrest hlookup (by lia)

def Fits (cap : Long) (es : List Cookie) : Prop :=
  es.length < cap.toNat ∧ es.length < jarMaxSlots

theorem Fits.put (h : Fits cap es) (hkeys : KeysPut (room cap) tag 0 es es') :
    Fits cap es' := by
  rcases hkeys with hsame | ⟨hroom, _, hmore⟩
  · have hlength := congrArg List.length hsame
    rw [List.length_map, List.length_map] at hlength
    unfold Fits
    rw [hlength]
    exact h
  · have hlength := congrArg List.length hmore
    rw [List.length_append, List.length_map, List.length_map] at hlength
    have hless := of_decide_eq_true hroom
    rw [Nat.zero_add] at hless
    unfold Fits
    simp only [List.length_singleton] at hlength
    lia

theorem forceOne_spec {c : Cookie} (htag : c.1 ≠ 0) (hholds : Holds m cap a es)
    (hfits : Fits cap es) (hend : a.toNat + 8 * 65 ≤ 2 ^ 32) :
    match put (room cap) c.1 c.2 0 es with
    | none => forceOne m a c = none
    | some es' => exists m', forceOne m a c = some m' ∧ Holds m' cap a es' ∧
        SameOutside a (es'.length + 1) m m' := by
  have hslots : jarMaxSlots = 64 := rfl
  have hless := hfits.2
  exact forceFrom_spec hholds htag (by lia) (by lia)

theorem forceAll_spec {cs : List Cookie} (hcs : 0 ∉ cs.map Prod.fst) (hholds : Holds m cap a es)
    (hfits : Fits cap es) (hend : a.toNat + 8 * 65 ≤ 2 ^ 32) :
    Holds (forceAll a cs m) cap a (putAll (room cap) cs es) ∧
      Fits cap (putAll (room cap) cs es) ∧
      SameOutside a ((putAll (room cap) cs es).length + 1) m (forceAll a cs m) := by
  induction cs generalizing m es with
  | nil => exact ⟨hholds, hfits, fun x _ => rfl⟩
  | cons c rest ih =>
      rw [List.map_cons, List.mem_cons, not_or] at hcs
      have hspec := forceOne_spec (Ne.symm hcs.1) hholds hfits hend
      unfold forceAll putAll
      cases hput : put (room cap) c.1 c.2 0 es with
      | none =>
          rw [hput] at hspec
          rw [show forceOne m a c = none from hspec]
          exact ⟨hholds, hfits, fun x _ => rfl⟩
      | some es' =>
          rw [hput] at hspec
          obtain ⟨m', hforce, hholds', hsame⟩ := hspec
          rw [hforce]
          have hkeys := (put_spec hput).2.2
          obtain ⟨hdone, hdoneFits, hdoneSame⟩ := ih hcs.2 hholds' (hfits.put hkeys)
          refine ⟨hdone, hdoneFits, hsame.trans hdoneSame ?_⟩
          have hlonger := (@keys_putAll _ _ _ (room cap) rest es').length_le
          rw [List.length_map, List.length_map] at hlonger
          lia

theorem forceAll_again {cs : List Cookie} (hkeys : (cs.map Prod.fst).Nodup)
    (hcs : 0 ∉ cs.map Prod.fst) (hholds : Holds m cap a (putAll (room cap) cs es))
    (hfits : Fits cap (putAll (room cap) cs es)) (hend : a.toNat + 8 * 65 ≤ 2 ^ 32) :
    forceAll a cs m = m := by
  induction cs generalizing es with
  | nil => rfl
  | cons c rest ih =>
      rw [List.map_cons, List.nodup_cons] at hkeys
      rw [List.map_cons, List.mem_cons, not_or] at hcs
      unfold forceAll
      unfold putAll at hholds hfits
      cases hput : put (room cap) c.1 c.2 0 es with
      | none =>
          rw [hput] at hholds hfits
          have hspec := forceOne_spec (Ne.symm hcs.1) hholds hfits hend
          rw [hput] at hspec
          rw [show forceOne m a c = none from hspec]
      | some es' =>
          rw [hput] at hholds hfits
          have hthere : (putAll (room cap) rest es').lookup c.1 = some c.2 := by
            rw [lookup_putAll_of_notMem hkeys.1, (put_spec hput).1]
          have hsame : forceOne m a c = some m :=
            forceFrom_same hholds hthere (le_of_lt hfits.2)
          rw [hsame]
          exact ih hkeys.2 hcs.2 hholds hfits

theorem scanTags_spec {i : Nat} {e : Addr} {os : Bool} (h : scanTags m left a = some (i, e, os))
    (hi : i < left) : exists es, es.length = i ∧ Holds m (rd32 m (e + 4)) a es := by
  induction left generalizing a i os with
  | zero => cases hi
  | succ left ih =>
      unfold scanTags at h
      dsimp only at h
      split at h
      · next hend =>
        cases h
        exact ⟨[], rfl, hend, rfl⟩
      · next hne =>
        split at h
        · cases h
        · obtain ⟨⟨i', e', os'⟩, hrest, heq⟩ := Option.map_eq_some_iff.mp h
          cases heq
          obtain ⟨es, hlength, hholds⟩ := ih hrest (by lia)
          exact ⟨(rd32 m a, rd32 m (a + 4)) :: es, by rw [List.length_cons, hlength],
            hne, rfl, rfl, hholds⟩

theorem jarLooksReal_spec {i : Nat} (h : jarLooksReal m a = some i) :
    exists cap es, es.length = i ∧ Holds m cap a es ∧ Fits cap es := by
  unfold jarLooksReal at h
  split at h
  · cases h
  · next i' e os hscan =>
    split at h
    · cases h
    · next hreal =>
      split at h
      · cases h
      · next hcap =>
        cases h
        obtain ⟨es, hlength, hholds⟩ := scanTags_spec hscan (by lia)
        refine ⟨_, es, hlength, hholds, ?_, ?_⟩
        · lia
        · lia

/-!
## Ticks
-/

/-- The jar in the guest's memory has settled, and the cookies are put into it. -/
structure Forced (m : Mem) (w : Watcher) (s' : Mem × Watcher) (jar : Addr) (cap : Long)
    (es es' : List Cookie) : Prop where
  pointer : rd32 m cookiePtr = jar
  seen : w.seenPtr = jar ∧ 2 ≤ w.settled
  real : jarLooksReal m jar = some es.length
  before : Holds m cap jar es
  after : Holds s'.1 cap jar es'
  inside : es'.length < cap.toNat ∧ jar.toNat + 8 * (es'.length + 1) ≤ stRamSize.toNat
  same : SameOutside jar (es'.length + 1) m s'.1
  order : es.map Prod.fst <+: es'.map Prod.fst
  others : forall tag, tag ∉ w.forced.map Prod.fst -> es'.lookup tag = es.lookup tag
  wanted : es.length + w.forced.length < cap.toNat -> cap.toNat ≤ jarMaxSlots ->
    forall c, c ∈ w.forced -> es'.lookup c.1 = some c.2
  again : (machineCookieTick s'.1 s'.2).1 = s'.1

theorem machineCookieTick_cases (m : Mem) (w : Watcher) :
    (machineCookieTick m w).1 = m ∨
      rd32 m cookiePtr = w.seenPtr ∧ w.seenPtr < stRamSize - 64 * 8 ∧ 2 ≤ w.settled ∧
        jarLooksReal m w.seenPtr ≠ none ∧
        machineCookieTick m w = (forceAll w.seenPtr w.forced m, w) := by
  unfold machineCookieTick
  dsimp only
  split
  · exact Or.inl rfl
  · split
    · exact Or.inl rfl
    · next hseen =>
      rw [not_not.mp hseen]
      split
      · exact Or.inl rfl
      · next hplace =>
        split
        · exact Or.inl rfl
        · next hreal =>
          split
          · exact Or.inl rfl
          · exact Or.inr ⟨rfl, by bv_omega, by lia, hreal, rfl⟩

def ForcedOk (w : Watcher) : Prop :=
  0 ∉ w.forced.map Prod.fst ∧ (w.forced.map Prod.fst).Nodup

theorem machineCookieTick_forced (m : Mem) {w : Watcher} (hw : ForcedOk w) :
    (machineCookieTick m w).1 = m ∨
      exists jar cap es es', Forced m w (machineCookieTick m w) jar cap es es' := by
  rcases machineCookieTick_cases m w with hsame | ⟨hseen, hplace, hsettled, hreal, hforce⟩
  · exact Or.inl hsame
  · obtain ⟨i, hi⟩ := Option.ne_none_iff_exists'.mp hreal
    obtain ⟨cap, es, rfl, hholds, hfits⟩ := jarLooksReal_spec hi
    have hslots : jarMaxSlots = 64 := rfl
    have hend : w.seenPtr.toNat + 8 * 65 ≤ 2 ^ 32 := by
      unfold stRamSize at hplace
      bv_omega
    obtain ⟨hafter, hfits', hsame⟩ := forceAll_spec hw.1 hholds hfits hend
    have hless := hfits'.2
    rw [hforce]
    refine Or.inr ⟨w.seenPtr, cap, es, _, hseen, ⟨rfl, hsettled⟩, hi, hholds, hafter,
      ⟨hfits'.1, ?_⟩, hsame, keys_putAll _ _, fun tag htag => lookup_putAll_of_notMem htag,
      fun hroom hcap c hc => lookup_putAll hw.2 (fun j hj => ?_) hc, ?_⟩
    · unfold stRamSize at hplace ⊢
      bv_omega
    · exact decide_eq_true ⟨by lia, hcap⟩
    · rcases machineCookieTick_cases (forceAll w.seenPtr w.forced m) w with
        hagain | ⟨_, _, _, _, hagain⟩
      · exact hagain
      · refine (congrArg Prod.fst hagain).trans ?_
        exact forceAll_again hw.2 hw.1 hafter hfits' hend

/-!
## Runs
-/

/-- What happens between two looks at the jar, where the guest may write anything. -/
inductive Op where
  | guest (m : Mem)
  | set (mchValue : Long)
  | setSteHw
  | tick

def step (s : Mem × Watcher) : Op -> Mem × Watcher
  | .guest m => (m, s.2)
  | .set mchValue => (s.1, machineCookieSet mchValue s.2)
  | .setSteHw => (s.1, machineCookieSetSteHw s.2)
  | .tick => machineCookieTick s.1 s.2

theorem ForcedOk.forceAdd {w : Watcher} (h : ForcedOk w) (htag : tag ≠ 0) :
    ForcedOk (forceAdd tag want w) := by
  unfold Cookies.forceAdd
  cases hput : put (fun n => n < maxForced) tag want 0 w.forced with
  | none => exact h
  | some fs =>
      unfold ForcedOk
      dsimp only [Option.getD_some]
      rcases (put_spec hput).2.2 with hsame | ⟨_, hnew, hmore⟩
      · rw [hsame]
        exact h
      · rw [hmore, List.mem_append, not_or, List.mem_singleton, ← List.concat_eq_append]
        exact ⟨⟨h.1, Ne.symm htag⟩, h.2.concat hnew⟩

theorem forcedOk_step (s : Mem × Watcher) (op : Op) (h : ForcedOk s.2) : ForcedOk (step s op).2 := by
  cases op with
  | guest m => exact h
  | set mchValue => exact h.forceAdd (by decide)
  | setSteHw =>
      have hvdo : ForcedOk (forceAdd cVdo 0x00010000 s.2) := h.forceAdd (by decide)
      exact hvdo.forceAdd (by decide)
  | tick =>
      have hforced : (machineCookieTick s.1 s.2).2.forced = s.2.forced := by
        unfold machineCookieTick
        dsimp only
        repeat' split
        all_goals rfl
      show ForcedOk (machineCookieTick s.1 s.2).2
      unfold ForcedOk
      rw [hforced]
      exact h

/-- Whatever the guest writes and whatever is set, a tick leaves the guest's memory alone or forces
the cookies in its jar. -/
theorem cookies_forced (m : Mem) (ops : List Op) :
    let s := run step (m, ⟨[], 0, 0⟩) ops
    (machineCookieTick s.1 s.2).1 = s.1 ∨
      exists jar cap es es', Forced s.1 s.2 (machineCookieTick s.1 s.2) jar cap es es' := by
  intro s
  have hok : ForcedOk s.2 := run_invariant forcedOk_step ⟨by simp, by simp⟩ ops
  exact machineCookieTick_forced s.1 hok

end Cookies
end PistormAtari
