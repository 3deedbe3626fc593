import PistormAtari.Config.Save

/-!
# Rendered lines

A rendered line is its key, a space and a value.  It is short, and it has no newline
when the path settings have none.
-/

namespace PistormAtari
namespace Config

open Foundation
open Psctrl

def managedKeys : List Text :=
  settingsKeys ++ ["fps".toList]

def plainKey (key : Text) : Bool :=
  key.all (fun c => c.isLower || c.isDigit || c == '_') && key.length < 24 && !key.isEmpty

theorem settingsKeys_eq : settingsKeys =
    gBootkeys ++ "debug".toList ::
      ["jit_power".toList, "comp_constjump".toList, "compnf".toList, "compfpu".toList,
        "blit_timed_ns".toList, "vbl_refract_ns".toList, "drm_dirtyband".toList,
        "fvdi_scale".toList, "drm_async".toList, "ym_gain".toList, "ym_lag_ms".toList,
        "lmc".toList, "audio_frames".toList, "mouse_thresh".toList, "mouse_scale".toList,
        "stbox_slice_cyc".toList, "stbox_telemetry".toList, "ipl_confirm_ns".toList,
        "fdd_mfp_irq".toList, "blit_trace".toList] := by
  rw [settingsKeys, cfgTunables_names]

theorem nodup_settingsKeys : settingsKeys.Nodup := by
  rw [settingsKeys_eq]
  decide +kernel

variable {key : Text}

theorem plainKey_of_managed (h : key ∈ managedKeys) : plainKey key = true := by
  have hall : forall k, k ∈ managedKeys -> plainKey k = true := by
    rw [managedKeys, settingsKeys_eq]
    decide +kernel
  exact hall key h

def bootValueKeys : List Text :=
  (bootValues {}).map (·.1)

theorem map_fst_bootValues (c : EmulatorConfig) : (bootValues c).map (·.1) = bootValueKeys := rfl

theorem bootValueKeys_subset : forall k, k ∈ bootValueKeys -> k ∈ managedKeys := by
  rw [managedKeys, settingsKeys_eq]
  decide +kernel

/-!
## The shape of a rendered line
-/

theorem renderBootKey_eq {key line : Text} {c : EmulatorConfig}
    (h : renderBootKey key c = some line) :
    exists v, (key, some v) ∈ bootValues c ∧ line = key ++ ' ' :: v := by
  unfold renderBootKey at h
  split at h
  · rename_i v hv
    refine ⟨v, ?_, (Option.some.inj h).symm⟩
    rcases List.lookup_eq_some_iff.mp hv with ⟨before, after, heq, _⟩
    rw [heq]
    simp
  · cases h

theorem settingsRenderKey_eq {key line : Text} {s : PsState}
    (h : settingsRenderKey key s = some line) :
    (key = "debug".toList ∧ line = renderDebug s) ∨
      exists it, it ∈ cfgTunables ∧ it.name = key ∧ line = renderItem it s := by
  unfold settingsRenderKey at h
  split at h
  · rename_i hkey
    exact Or.inl ⟨hkey, (Option.some.inj h).symm⟩
  · rcases Option.map_eq_some_iff.mp h with ⟨it, hit, rfl⟩
    have hname := List.find?_some hit
    exact Or.inr ⟨it, List.mem_of_find?_eq_some hit, by simpa using hname, rfl⟩

theorem renderDebug_eq (s : PsState) : exists v, renderDebug s = "debug".toList ++ ' ' :: v := by
  unfold renderDebug
  split
  · exact ⟨"none".toList, rfl⟩
  · exact ⟨_, rfl⟩

theorem renderItem_eq (it : PsItem) (s : PsState) :
    exists v, renderItem it s = it.name ++ ' ' :: v := by
  unfold renderItem
  split
  · exact ⟨_, rfl⟩
  · exact ⟨_, rfl⟩

theorem renderKey_eq {key line : Text} {c : EmulatorConfig} {s : PsState}
    (h : renderKey c s key = some line) :
    key ∈ managedKeys ∧ exists v, line = key ++ ' ' :: v := by
  unfold renderKey at h
  split at h
  · rename_i line' hboot
    cases h
    rcases renderBootKey_eq hboot with ⟨v, hv, rfl⟩
    refine ⟨bootValueKeys_subset key ?_, v, rfl⟩
    rw [← map_fst_bootValues c]
    exact List.mem_map.mpr ⟨(key, some v), hv, rfl⟩
  · rcases settingsRenderKey_eq h with ⟨rfl, rfl⟩ | ⟨it, hit, rfl, rfl⟩
    · refine ⟨by simp [managedKeys, settingsKeys], renderDebug_eq s⟩
    · refine ⟨?_, renderItem_eq it s⟩
      refine List.mem_append_left _ (List.mem_append_right _ (List.mem_cons_of_mem _ ?_))
      exact List.mem_map.mpr ⟨it, hit, rfl⟩

/-!
## Short lines without newlines
-/

abbrev Tame (n : Nat) (s : Text) : Prop :=
  s.length ≤ n ∧ newline ∉ s ∧ nul ∉ s

structure PlainPaths (c : EmulatorConfig) : Prop where
  rom : newline ∉ c.rom.path.chars
  stboxTos : newline ∉ c.stboxTos.chars

theorem tame_append {m n : Nat} {s t : Text} (hs : Tame m s) (ht : Tame n t) :
    Tame (m + n) (s ++ t) := by
  refine ⟨?_, ?_, ?_⟩
  · rw [List.length_append]
    exact Nat.add_le_add hs.1 ht.1
  · rw [List.mem_append]
    exact fun h => h.elim hs.2.1 ht.2.1
  · rw [List.mem_append]
    exact fun h => h.elim hs.2.2 ht.2.2

theorem tame_mono {m n : Nat} {s : Text} (hs : Tame m s) (h : m ≤ n) : Tame n s :=
  ⟨hs.1.trans h, hs.2⟩

theorem tame_ite {n : Nat} {s t : Text} (b : Prop) [Decidable b] (hs : Tame n s)
    (ht : Tame n t) : Tame n (if b then s else t) := by
  split
  · exact hs
  · exact ht

theorem tame_unsigned {n : Nat} (h : n < 2 ^ 32) : Tame 10 (unsigned n) := by
  have hdigit : forall c, c ∈ unsigned n -> c.isDigit = true :=
    fun c hc => Nat.isDigit_of_mem_toDigits (by decide) (by decide) hc
  refine ⟨(Nat.length_toDigits_le_iff (by decide) (by decide)).mpr (by lia), ?_, ?_⟩
  · intro hmem
    exact absurd (hdigit _ hmem) (by decide)
  · intro hmem
    exact absurd (hdigit _ hmem) (by decide)

theorem tame_decimal (i : Int32) : Tame 11 (decimal i.toInt) := by
  have hlo := i.le_toInt
  have hhi := i.toInt_lt
  have hdigits : Tame 10 (unsigned i.toInt.natAbs) := tame_unsigned (by lia)
  unfold decimal
  split
  · have hsign : Tame 1 ['-'] := by decide
    exact tame_append hsign hdigits
  · exact tame_mono hdigits (by decide)

theorem tame_path {p : PathBuf} (h : newline ∉ p.chars) : Tame 256 p.chars :=
  ⟨by have := p.fits; lia, h, p.noNul⟩

theorem tame_getD {n : Nat} {names : List Text} {dflt : Text}
    (h : forall t, t ∈ names -> Tame n t) (hd : Tame n dflt) (i : Nat) :
    Tame n (names.getD i dflt) := by
  rw [List.getD_eq_getElem?_getD]
  cases hi : names[i]? with
  | none => exact hd
  | some t => exact h t (List.mem_of_getElem? hi)

theorem tame_nameAt {n : Nat} {names : List Text} {dflt : Text}
    (h : forall t, t ∈ names -> Tame n t) (hd : Tame n dflt) (i : Int32) :
    Tame n (nameAt names i dflt) :=
  tame_ite _ (tame_getD h hd _) hd

theorem tame_kbdValue (c : EmulatorConfig) : Tame 256 (kbdValue c) := by
  have hdiv : Tame 21 (if 1 < c.kbdMouseDiv then
      " mousediv ".toList ++ decimal c.kbdMouseDiv.toInt else []) :=
    tame_ite _ (tame_append (m := 10) (by decide) (tame_decimal _)) (by decide)
  have hmode : Tame 11 (if c.kbdMode = 1 then " merge".toList
      else if c.kbdMode = 2 then " standalone".toList else []) :=
    tame_ite _ (by decide) (tame_ite _ (by decide) (by decide))
  have hgrab : Tame 7 (if c.kbdGrab then [] else " nograb".toList) :=
    tame_ite _ (by decide) (by decide)
  have husb : Tame 3 "usb".toList := by decide
  have hline := tame_append (tame_append (tame_append husb hgrab) hmode) hdiv
  exact tame_ite _ (by decide) (tame_mono hline (by decide))

theorem tame_boolName (b : Bool) : Tame 256 (boolName b) := by
  cases b <;> decide

theorem tame_bootValues {c : EmulatorConfig} (hc : PlainPaths c) :
    forall e, e ∈ bootValues c -> forall v, e.2 = some v -> Tame 256 v := by
  have hsome : forall {t : Text}, Tame 256 t -> forall v, some t = some v -> Tame 256 v := by
    intro t ht v hv
    cases hv
    exact ht
  have hif : forall (b : Prop) [Decidable b] {t : Text}, Tame 256 t ->
      forall v, (if b then some t else none) = some v -> Tame 256 v := by
    intro b _ t ht v hv
    split at hv
    · exact hsome ht v hv
    · cases hv
  have hifn : forall (b : Prop) [Decidable b] {t : Text}, Tame 256 t ->
      forall v, (if b then none else some t) = some v -> Tame 256 v := by
    intro b _ t ht v hv
    split at hv
    · cases hv
    · exact hsome ht v hv
  have hsize : forall (n : UInt32) (d : Nat) (t : Text), Tame 1 t ->
      Tame 256 (unsigned (n.toNat / d) ++ t) := by
    intro n d t ht
    have hlt : n.toNat / d < 2 ^ 32 := lt_of_le_of_lt (Nat.div_le_self _ _) n.toNat_lt
    exact tame_mono (tame_append (tame_unsigned hlt) ht) (by decide)
  have hint : forall i : Int32, Tame 256 (decimal i.toInt) :=
    fun i => tame_mono (tame_decimal i) (by decide)
  simp only [bootValues, List.forall_mem_cons]
  refine ⟨hif _ (tame_nameAt (by decide) (by decide) _), hsome (tame_getD (by decide) (by decide) _),
    hsome (tame_boolName _), hsome (tame_boolName _), hsome (tame_boolName _),
    hif _ (tame_ite _ (by decide) (by decide)),
    hsome (tame_ite _ (by decide) (tame_ite _ (by decide) (by decide))),
    hsome (hsize _ _ _ (by decide)), hsome (tame_ite _ (by decide) (hsize _ _ _ (by decide))),
    hsome (tame_boolName _), hsome (tame_boolName _), hsome (tame_boolName _),
    hsome (tame_boolName _), hsome (tame_boolName _), hsome (tame_boolName _), hsome ?_,
    hsome (tame_nameAt (by decide) (by decide) _), hsome (tame_boolName _),
    hsome (tame_boolName _), hsome (tame_boolName _), hsome (tame_kbdValue c),
    hsome (tame_boolName _), hsome ?_, hsome (hint _), hifn _ (tame_path hc.rom),
    hifn _ (tame_path hc.stboxTos), hsome (hint _), hif _ (hint _), hifn _ ?_, by simp⟩
  · cases c.card <;> cases c.driver <;> decide
  · have hlt := c.networkIrqLevel.toNat_lt
    exact tame_mono (tame_unsigned (by lia)) (by decide)
  · have hmhz : Tame 3 "mhz".toList := by decide
    exact tame_mono (tame_append (tame_decimal _) hmhz) (by decide)

theorem tame_flags {flags : List Text} (h : forall f, f ∈ flags -> Tame 19 f) :
    Tame (20 * flags.length) (flags.intersperse [',']).flatten := by
  induction flags with
  | nil => decide
  | cons f flags ih =>
      have hf := h f (by simp)
      have htail := ih (fun f' hf' => h f' (by simp [hf']))
      cases flags with
      | nil => simpa using tame_mono hf (show 19 ≤ 20 by decide)
      | cons g flags =>
          have hcomma : Tame 1 [','] := by decide
          have hline := tame_append hf (tame_append hcomma htail)
          rw [List.intersperse_cons_cons, List.flatten_cons, List.flatten_cons]
          exact tame_mono hline (by simp only [List.length_cons]; lia)

theorem tame_dbgFlag {s : PsState} {d : Text × Tunable} {f : Text} (hd : d ∈ gDbg)
    (h : dbgFlag s d = some f) : Tame 19 f := by
  have htag : Tame 7 d.1 := by
    have hall : forall e, e ∈ gDbg -> Tame 7 e.1 := by decide +kernel
    exact hall d hd
  have heq : Tame 1 ['='] := by decide
  have hval := tame_append htag (tame_append heq (tame_decimal (s.tun d.2)))
  unfold dbgFlag at h
  dsimp only at h
  split at h
  · cases h
  · cases h
    exact tame_ite _ hval (tame_mono htag (by decide))

theorem tame_renderDebug (s : PsState) : Tame 300 (renderDebug s) := by
  have hflags : forall f, f ∈ gDbg.filterMap (dbgFlag s) -> Tame 19 f := by
    intro f hf
    rcases List.mem_filterMap.mp hf with ⟨d, hd, hfd⟩
    exact tame_dbgFlag hd hfd
  have hlen : (gDbg.filterMap (dbgFlag s)).length ≤ 13 := List.length_filterMap_le _ _
  have hdebug : Tame 6 "debug ".toList := by decide
  unfold renderDebug
  split
  · decide
  · exact tame_mono (tame_append hdebug (tame_flags hflags)) (by lia)

theorem tame_renderItem {it : PsItem} (hit : it ∈ cfgTunables) (s : PsState) :
    Tame 300 (renderItem it s) := by
  have hname : Tame 23 it.name := by
    have hall : forall k, k ∈ cfgTunables.map (·.name) -> Tame 23 k := by
      rw [cfgTunables_names]
      decide +kernel
    exact hall _ (List.mem_map.mpr ⟨it, hit, rfl⟩)
  have hlabels : forall t, t ∈ it.labels -> Tame 23 t := by
    have hall : forall ts, ts ∈ cfgTunables.map (·.labels) -> forall t, t ∈ ts -> Tame 23 t := by
      decide +kernel
    exact hall _ (List.mem_map.mpr ⟨it, hit, rfl⟩)
  have hblank : Tame 1 [' '] := by decide
  have hlabel : Tame 23 (labelAt it.labels (it.value s)) := tame_getD hlabels (by decide) _
  unfold renderItem
  refine tame_ite _ ?_ ?_
  · exact tame_mono (tame_append hname (tame_append hblank hlabel)) (by decide)
  · exact tame_mono (tame_append hname (tame_append hblank (tame_decimal _))) (by decide)

theorem tame_renderKey {key line : Text} {c : EmulatorConfig} {s : PsState}
    (hc : PlainPaths c) (h : renderKey c s key = some line) : Tame 300 line := by
  have hplain := plainKey_of_managed (renderKey_eq h).1
  unfold renderKey at h
  split at h
  · rename_i line' hboot
    cases h
    rcases renderBootKey_eq hboot with ⟨v, hv, rfl⟩
    have hkey : Tame 23 key := by
      simp only [plainKey, Bool.and_eq_true, List.all_eq_true, decide_eq_true_eq] at hplain
      refine ⟨by lia, ?_, ?_⟩
      · intro hmem
        exact absurd (hplain.1.1 _ hmem) (by decide)
      · intro hmem
        exact absurd (hplain.1.1 _ hmem) (by decide)
    have hblank : Tame 1 [' '] := by decide
    have hval := tame_bootValues hc _ hv v rfl
    exact tame_mono (tame_append hkey (tame_append hblank hval)) (by decide)
  · rcases settingsRenderKey_eq h with ⟨rfl, rfl⟩ | ⟨it, hit, rfl, rfl⟩
    · exact tame_renderDebug s
    · exact tame_renderItem hit s

/-!
## Reading a rendered line back
-/

theorem isspace_eq_false_of_plain {c : Char}
    (h : (c.isLower || c.isDigit || c == '_') = true) : isspace c = false := by
  simp only [Char.isLower, Char.isDigit, Bool.or_eq_true, Bool.and_eq_true, decide_eq_true_eq,
    beq_iff_eq, ge_iff_le] at h
  have h1 : forall d : Char, c.val ≥ d.val -> d.toNat ≤ c.toNat := fun d hd => hd
  have hge : 48 ≤ c.toNat := by
    rcases h with (⟨hlo, _⟩ | ⟨hlo, _⟩) | rfl
    · exact le_trans (by decide) (h1 'a' hlo)
    · exact h1 '0' hlo
    · decide
  have hne : c ≠ ' ' := by
    rintro rfl
    exact absurd hge (by decide)
  simp only [isspace, Bool.or_eq_false_iff, beq_eq_false_iff_ne, ne_eq, hne, not_false_eq_true,
    Bool.and_eq_false_iff, decide_eq_false_iff_not, true_and]
  right
  lia

theorem tolower_of_plain {c : Char} (h : (c.isLower || c.isDigit || c == '_') = true) :
    tolower c = c := by
  unfold tolower Char.toLower
  split
  · rename_i hup
    exfalso
    simp only [Char.isLower, Char.isDigit, Bool.or_eq_true, Bool.and_eq_true,
      decide_eq_true_eq, beq_iff_eq, ge_iff_le] at h
    have hlo : 65 ≤ c.toNat := hup.1
    have hhi : c.toNat ≤ 90 := hup.2
    rcases h with (⟨h97, _⟩ | ⟨_, h57⟩) | rfl
    · have : 97 ≤ c.toNat := h97
      lia
    · have : c.toNat ≤ 57 := h57
      lia
    · exact absurd hhi (by decide)
  · rfl

theorem plainKey_chars (h : plainKey key = true) :
    forall c, c ∈ key -> (c.isLower || c.isDigit || c == '_') = true := by
  simp only [plainKey, Bool.and_eq_true, List.all_eq_true] at h
  exact h.1.1

theorem plainKey_length (h : plainKey key = true) : key.length < 24 := by
  simp only [plainKey, Bool.and_eq_true, decide_eq_true_eq] at h
  exact h.1.2

theorem plainKey_ne_nil (h : plainKey key = true) : key ≠ [] := by
  rintro rfl
  cases h

theorem isBlank_eq_false_of_plain {c : Char}
    (h : (c.isLower || c.isDigit || c == '_') = true) : isBlank c = false := by
  have hspace := isspace_eq_false_of_plain h
  unfold isBlank
  rw [Bool.or_eq_false_iff]
  constructor
  · rw [beq_eq_false_iff_ne]
    rintro rfl
    exact absurd hspace (by decide)
  · rw [beq_eq_false_iff_ne]
    rintro rfl
    exact absurd hspace (by decide)

section

variable (h : plainKey key = true)

include h

theorem skipBlanks_plain (t : Text) :
    skipBlanks (key ++ t) = key ++ t := by
  rcases List.exists_cons_of_ne_nil (plainKey_ne_nil h) with ⟨c, cs, rfl⟩
  have hc := isBlank_eq_false_of_plain (plainKey_chars h c (by simp))
  simp [skipBlanks, hc]

theorem takeWhile_plain (v : Text) :
    (key ++ ' ' :: v).takeWhile (fun c => !isspace c) = key := by
  have hkey : forall c, c ∈ key -> (!isspace c) = true := by
    intro c hc
    simp [isspace_eq_false_of_plain (plainKey_chars h c hc)]
  rw [List.takeWhile_append_of_pos hkey]
  have hspace : isspace ' ' = true := by decide
  simp [hspace]

theorem lowercase_plain : lowercase key = key := by
  refine (List.map_congr_left ?_).trans (List.map_id key)
  intro c hc
  exact tolower_of_plain (plainKey_chars h c hc)

theorem lineKey_rendered (v : Text) :
    lineKey (key ++ ' ' :: v) = some key := by
  have hkey : ((key ++ ' ' :: v).takeWhile (fun c => !isspace c)).take 63 = key := by
    rw [takeWhile_plain h v]
    exact List.take_of_length_le (by have := plainKey_length h; lia)
  unfold lineKey
  rw [skipBlanks_plain h]
  have hlow := lowercase_plain h
  rcases List.exists_cons_of_ne_nil (plainKey_ne_nil h) with ⟨c, cs, rfl⟩
  have hc := plainKey_chars h c (by simp)
  have hno : ¬ (c = '#' ∨ c = '/' ∨ c = '\r' ∨ c = '\n') := by
    rintro (rfl | rfl | rfl | rfl) <;> exact absurd hc (by decide)
  rw [List.cons_append] at hkey ⊢
  simp only [if_neg hno, hkey]
  rw [hlow]

theorem saveSectionHeader_rendered (v : Text) :
    saveSectionHeader (key ++ ' ' :: v) = none := by
  unfold saveSectionHeader
  rw [skipBlanks_plain h]
  rcases List.exists_cons_of_ne_nil (plainKey_ne_nil h) with ⟨c, cs, rfl⟩
  have hc := plainKey_chars h c (by simp)
  rw [List.cons_append]
  split
  · rename_i rest heq
    cases heq
    exact absurd hc (by decide)
  · rfl

end

end Config
end PistormAtari
