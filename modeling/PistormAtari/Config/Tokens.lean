import Mathlib
import PistormAtari.Foundation.TextLines

/-!
# The loader's tokens

`get_next_string` copies a word into a buffer whose size it is not told.  The loader's
line loop calls it for the keyword of every line, for the command of the lines of its
section, and for the arguments of some keys.
-/

namespace PistormAtari
namespace Config

open Foundation

def quote : Char := Char.ofNat 34

/-!
## One word
-/

/-- What a call of `get_next_string` does: its stores into the caller's buffer, and the
position it leaves. -/
structure Token where
  stores : List (Nat × Char)
  strpos : Nat

def copyToken (ends : Char -> Bool) : Nat -> Nat -> Text -> Token
  | i, _, [] => { stores := [], strpos := i }
  | i, k, c :: cs =>
      if ends c then { stores := [(k, c), (k, nul)], strpos := i + 1 }
      else if cs = [] then { stores := [(k, c), (k + 1, nul)], strpos := i + 1 }
      else
        let t := copyToken ends (i + 1) (k + 1) cs
        { t with stores := (k, c) :: t.stores }

/-- `get_next_string`; where nothing is left to copy it stores nothing. -/
def getNextString (str : Text) (strpos : Nat) (separator : Char) : Token :=
  let start := strpos + ((str.drop strpos).takeWhile isBlank).length
  let quoted : Bool := (str.drop start).head? = some quote
  let start := if quoted then start + 1 else start
  let ends (c : Char) : Bool :=
    if quoted then c = quote else (separator = ' ' ∧ isBlank c) ∨ c = separator
  if str.drop start = [] then { stores := [], strpos := strpos }
  else copyToken ends start 0 (str.drop start)

/-- The string that a buffer holds after the stores, when it held `buf` before. -/
def Token.held (t : Token) (buf : Text) : Text :=
  match t.stores.getLast? with
  | none => buf
  | some (n, _) => (t.stores.take n).map Prod.snd

def Token.Within (t : Token) (n : Nat) : Prop := forall st, st ∈ t.stores -> st.1 < n

instance (t : Token) (n : Nat) : Decidable (t.Within n) :=
  inferInstanceAs (Decidable (forall st, st ∈ t.stores -> st.1 < n))

/-- The next word of a text and what follows it: up to a blank, or, after a quote, up to
the next quote. -/
def cutWord (s : Text) : Option (Text × Text) :=
  let r := skipBlanks s
  let quoted : Bool := r.head? = some quote
  let r := if quoted then r.drop 1 else r
  let inside (c : Char) : Bool := !(if quoted then c = quote else isBlank c)
  if r = [] then none else some (r.takeWhile inside, (r.dropWhile inside).drop 1)

structure Copies (ends : Char -> Bool) (i k : Nat) (s : Text) (t : Token) : Prop where
  within : forall n, t.Within n <-> k + (s.takeWhile (fun c => !ends c)).length < n
  last : t.stores.getLast? = some (k + (s.takeWhile (fun c => !ends c)).length, nul)
  word : (t.stores.take (s.takeWhile (fun c => !ends c)).length).map Prod.snd =
    s.takeWhile (fun c => !ends c)
  rest : i ≤ t.strpos ∧ s.drop (t.strpos - i) = (s.dropWhile (fun c => !ends c)).drop 1

theorem copyToken_copies (ends : Char -> Bool) (i k : Nat) {s : Text} (hs : s ≠ []) :
    Copies ends i k s (copyToken ends i k s) := by
  induction s generalizing i k with
  | nil => exact absurd rfl hs
  | cons c cs ih =>
      unfold copyToken
      cases hends : ends c with
      | true =>
          have htake : (c :: cs).takeWhile (fun c => !ends c) = [] :=
            List.takeWhile_cons_of_neg (by rw [hends]; decide)
          have hdrop : (c :: cs).dropWhile (fun c => !ends c) = c :: cs :=
            List.dropWhile_cons_of_neg (by rw [hends]; decide)
          rw [if_pos rfl]
          constructor
          · intro n
            rw [htake]
            refine ⟨fun h => h (k, c) List.mem_cons_self, fun h st hst => ?_⟩
            rcases List.mem_cons.mp hst with heq | htail
            · rw [heq]
              exact h
            · rw [List.mem_singleton.mp htail]
              exact h
          · rw [htake]
            rfl
          · rw [htake]
            rfl
          · rw [hdrop]
            refine ⟨Nat.le_succ i, ?_⟩
            rw [Nat.add_sub_cancel_left]
      | false =>
          have htake : (c :: cs).takeWhile (fun c => !ends c) =
              c :: cs.takeWhile (fun c => !ends c) :=
            List.takeWhile_cons_of_pos (by rw [hends]; rfl)
          have hdrop : (c :: cs).dropWhile (fun c => !ends c) =
              cs.dropWhile (fun c => !ends c) :=
            List.dropWhile_cons_of_pos (by rw [hends]; rfl)
          rw [if_neg (by decide)]
          cases cs with
          | nil =>
              rw [if_pos rfl]
              constructor
              · intro n
                rw [htake]
                refine ⟨fun h => h (k + 1, nul) (List.mem_cons_of_mem _ List.mem_cons_self),
                  fun h st hst => ?_⟩
                have hlt : k + 1 < n := h
                rcases List.mem_cons.mp hst with heq | htail
                · rw [heq]
                  exact Nat.lt_of_succ_lt hlt
                · rw [List.mem_singleton.mp htail]
                  exact hlt
              · rw [htake]
                rfl
              · rw [htake]
                rfl
              · rw [hdrop]
                refine ⟨Nat.le_succ i, ?_⟩
                rw [Nat.add_sub_cancel_left]
                rfl
          | cons d ds =>
              have hnext := ih (i + 1) (k + 1) (List.cons_ne_nil d ds)
              rw [if_neg (List.cons_ne_nil d ds)]
              generalize copyToken ends (i + 1) (k + 1) (d :: ds) = t at hnext
              constructor
              · intro n
                rw [htake, List.length_cons, ← Nat.add_assoc, Nat.add_right_comm, ← hnext.within]
                refine ⟨fun h st hst => h st (List.mem_cons_of_mem _ hst), fun h st hst => ?_⟩
                rcases List.mem_cons.mp hst with heq | htail
                · rw [heq]
                  have hlast := (hnext.within n).mp h
                  show k < n
                  lia
                · exact h st htail
              · have hsome := hnext.last
                rw [htake, List.length_cons]
                show ((k, c) :: t.stores).getLast? = _
                rw [List.getLast?_cons, hsome, Option.getD_some, Nat.add_assoc, Nat.add_comm 1]
              · rw [htake, List.length_cons]
                show ((((k, c) :: t.stores)).take _).map Prod.snd = _
                rw [List.take_succ_cons, List.map_cons, hnext.word]
              · rcases hnext.rest with ⟨hle, hrest⟩
                rw [hdrop, ← hrest]
                refine ⟨Nat.le_of_succ_le hle, ?_⟩
                have hsub : t.strpos - i = (t.strpos - (i + 1)) + 1 := by lia
                show (c :: d :: ds).drop (t.strpos - i) = _
                rw [hsub, List.drop_succ_cons]

theorem skipBlanks_drop (str : Text) (strpos : Nat) :
    str.drop (strpos + ((str.drop strpos).takeWhile isBlank).length) =
      skipBlanks (str.drop strpos) := by
  generalize hs : str.drop strpos = s
  have hsplit : s.takeWhile isBlank ++ s.dropWhile isBlank = s :=
    List.takeWhile_append_dropWhile
  have hdrop : (s.takeWhile isBlank ++ s.dropWhile isBlank).drop (s.takeWhile isBlank).length =
      s.dropWhile isBlank := List.drop_left
  rw [← List.drop_drop, hs]
  rw [hsplit] at hdrop
  exact hdrop

theorem Copies.word_rest {ends : Char -> Bool} {str s : Text} {i : Nat} {t : Token}
    (h : Copies ends i 0 s t) (hs : str.drop i = s) :
    (forall n, t.Within n <-> (s.takeWhile (fun c => !ends c)).length < n) ∧
      (forall buf, t.held buf = s.takeWhile (fun c => !ends c)) ∧
      str.drop t.strpos = (s.dropWhile (fun c => !ends c)).drop 1 := by
  rcases h with ⟨hwithin, hlast, hword, hle, hrest⟩
  rw [Nat.zero_add] at hlast
  refine ⟨fun n => ?_, fun buf => ?_, ?_⟩
  · rw [hwithin, Nat.zero_add]
  · unfold Token.held
    rw [hlast]
    exact hword
  · rw [← hrest, ← hs, List.drop_drop, Nat.add_sub_cancel' hle]

theorem getNextString_spec (str : Text) (strpos : Nat) :
    match cutWord (str.drop strpos) with
    | none => getNextString str strpos ' ' = { stores := [], strpos := strpos }
    | some (w, rest) =>
        (forall n, (getNextString str strpos ' ').Within n <-> w.length < n) ∧
        (forall buf, (getNextString str strpos ' ').held buf = w) ∧
        str.drop (getNextString str strpos ' ').strpos = rest := by
  have hspace : (fun c : Char => decide ((True ∧ isBlank c = true) ∨ c = ' ')) = isBlank := by
    funext c
    rw [Bool.eq_iff_iff]
    unfold isBlank
    simp only [decide_eq_true_eq, Bool.or_eq_true, beq_iff_eq]
    tauto
  have hstart := skipBlanks_drop str strpos
  unfold cutWord getNextString
  dsimp only
  rw [hstart]
  generalize hfrom : strpos + ((str.drop strpos).takeWhile isBlank).length = start at hstart ⊢
  generalize skipBlanks (str.drop strpos) = s at hstart ⊢
  cases hquoted : decide (s.head? = some quote) with
  | true =>
      have hnext : str.drop (start + 1) = s.drop 1 := by
        rw [← hstart, List.drop_drop]
      simp only [if_true]
      rw [hnext]
      by_cases hempty : s.drop 1 = []
      · rw [if_pos hempty, if_pos hempty]
      · rw [if_neg hempty, if_neg hempty]
        exact (copyToken_copies _ (start + 1) 0 hempty).word_rest hnext
  | false =>
      simp only [Bool.false_eq_true, if_false]
      rw [hstart]
      by_cases hempty : s = []
      · rw [if_pos hempty, if_pos hempty]
      · rw [if_neg hempty, if_neg hempty, hspace]
        exact (copyToken_copies isBlank start 0 hempty).word_rest hstart

theorem cutWord_le_of_isPrefix {a s w rest : Text} (h : a <+: s) (ha : cutWord a = some (w, rest)) :
    exists w' rest', cutWord s = some (w', rest') ∧ w.length ≤ w'.length := by
  rcases h with ⟨b, rfl⟩
  have hskip : skipBlanks a ≠ [] := by
    intro hnone
    unfold cutWord at ha
    rw [hnone] at ha
    cases ha
  have hfrom : skipBlanks (a ++ b) = skipBlanks a ++ b := by
    unfold skipBlanks at hskip ⊢
    rw [List.dropWhile_append, if_neg]
    rw [List.isEmpty_iff]
    exact hskip
  have hhead : (skipBlanks a ++ b).head? = (skipBlanks a).head? :=
    List.head?_append_of_ne_nil _ hskip
  have hdrop : (skipBlanks a ++ b).drop 1 = (skipBlanks a).drop 1 ++ b :=
    List.drop_append_of_le_length (List.length_pos_iff.mpr hskip)
  have hgrows : forall (p : Char -> Bool) (r : Text),
      (r.takeWhile p).length ≤ ((r ++ b).takeWhile p).length := by
    intro p r
    rw [List.takeWhile_append]
    split
    · rw [List.length_append]
      exact le_trans (List.takeWhile_sublist p).length_le (Nat.le_add_right _ _)
    · exact le_refl _
  unfold cutWord at ha ⊢
  dsimp only at ha ⊢
  rw [hfrom, hhead, hdrop]
  generalize skipBlanks a = r at ha hskip ⊢
  cases hquoted : decide (r.head? = some quote) with
  | true =>
      simp only [hquoted, if_true] at ha ⊢
      split at ha
      · cases ha
      · next hne =>
        rw [if_neg (fun hnil => hne (List.append_eq_nil_iff.mp hnil).1)]
        refine ⟨_, _, rfl, ?_⟩
        rw [← (Prod.mk.inj (Option.some.inj ha)).1]
        exact hgrows _ _
  | false =>
      simp only [hquoted, Bool.false_eq_true, if_false] at ha ⊢
      split at ha
      · cases ha
      · next hne =>
        rw [if_neg (fun hnil => hne (List.append_eq_nil_iff.mp hnil).1)]
        refine ⟨_, _, rfl, ?_⟩
        rw [← (Prod.mk.inj (Option.some.inj ha)).1]
        exact hgrows _ _

/-!
## The keys
-/

inductive ConfigItem
  | none | cpu | cpuCompatible | mmu | monitor | fpu | graphicsCard | fps | ttram | addr32 | rom
  | ide | ideByteorder | hddOrder | acsiOrder | cpuSpeed | hdd | fdd | acsi | dmaSound | ym2149
  | kbd | usb | blitter | shifter | machine | stramCache | stramDirect | nativeHdmi | hdmiOnly
  | psvidel | falconDsp | jitCache | network | networkBackend | networkTap | networkBase
  | networkMac | networkIrq | networkHostIp | networkAtariIp | networkNetmask | networkDebug
  | hostfs | stboxTos | stboxMachine | stboxPlane | stramSize | falconStram
deriving DecidableEq, Repr

def configSwitches : List (String × ConfigItem) :=
  [
    ("cpu", .cpu), ("cpu_compatible", .cpuCompatible), ("mmu", .mmu), ("monitor", .monitor),
    ("fpu", .fpu), ("vga", .graphicsCard), ("fps", .fps), ("ttram", .ttram),
    ("addr32", .addr32), ("rom", .rom), ("ide", .ide), ("ide_byteorder", .ideByteorder),
    ("hdd_order", .hddOrder), ("acsi_order", .acsiOrder), ("hdd", .hdd), ("fdd", .fdd),
    ("acsi", .acsi), ("dma_sound", .dmaSound), ("ym2149", .ym2149), ("kbd", .kbd),
    ("usb", .usb), ("blitter", .blitter), ("shifter", .shifter), ("machine", .machine),
    ("stram_cache", .stramCache), ("stram_direct", .stramDirect), ("native_hdmi", .nativeHdmi),
    ("hdmi_only", .hdmiOnly), ("psvidel", .psvidel), ("falcon_dsp", .falconDsp),
    ("cpu_speed", .cpuSpeed), ("jit_cache", .jitCache), ("network", .network),
    ("network_backend", .networkBackend), ("network_tap", .networkTap),
    ("network_base", .networkBase), ("network_mac", .networkMac), ("network_irq", .networkIrq),
    ("network_host_ip", .networkHostIp), ("network_atari_ip", .networkAtariIp),
    ("network_netmask", .networkNetmask), ("network_debug", .networkDebug), ("hostfs", .hostfs),
    ("stbox_tos", .stboxTos), ("stbox_machine", .stboxMachine), ("stbox_plane", .stboxPlane),
    ("stram_size", .stramSize), ("falcon_stram", .falconStram)]

def getConfigItemType (cmd : Text) : ConfigItem :=
  ((configSwitches.find? (fun d => d.1.toList == cmd)).map Prod.snd).getD .none

def graphicsCardTypes : List Text :=
  ["NONE".toList, "ET4000AX".toList, "ATI".toList, "MATROX".toList]

/-!
## The line loop

Of the loader's state the tokens depend on the section the loop is in and on the command,
which a line without a word leaves as it was.
-/

structure LoopState where
  curSection : Text := []
  curCmd : Text := []

/-- A call of `get_next_string` with a buffer of `size` characters. -/
structure Call where
  size : Nat
  token : Token

def skippedLine (line : Text) : Bool :=
  line.length ≤ 2 ∨ line.head? = some '#' ∨ line.head? = some '/'

def configSectionHeader (n : Nat) (line : Text) : Option Text :=
  match skipBlanks line with
  | '[' :: rest =>
      let name := (rest.takeWhile (· != ']')).take (n - 1)
      if (rest.drop name.length).head? = some ']' ∧ name ≠ [] then some (lowercase name) else none
  | _ => none

def trimWhitespace (str : Text) : Text :=
  str.rdropWhile (fun c => isBlank c || c == newline || c == '\r')

def isPathVariable (kw : Text) : Bool :=
  sameCase kw "rom_path".toList || sameCase kw "disk_path".toList ||
    sameCase kw "fdd_path".toList

def sectionWanted (wantSection : Option Text) (curSection : Text) : Bool :=
  wantSection.all (fun w => sameCase curSection w)

def argumentCalls (line : Text) (strpos : Nat) : ConfigItem -> List Call
  | .monitor => [⟨32, getNextString (line.drop strpos) 0 ' '⟩]
  | .graphicsCard =>
      let next := getNextString line strpos ' '
      if graphicsCardTypes.contains (next.held []) then
        [⟨128, next⟩, ⟨128, getNextString line next.strpos ' '⟩]
      else [⟨128, next⟩]
  | .networkBackend => [⟨16, getNextString line strpos ' '⟩]
  | .networkTap => [⟨64, getNextString line strpos ' '⟩]
  | .networkMac => [⟨32, getNextString line strpos ' '⟩]
  | .networkHostIp => [⟨32, getNextString line strpos ' '⟩]
  | .networkAtariIp => [⟨32, getNextString line strpos ' '⟩]
  | .networkNetmask => [⟨32, getNextString line strpos ' '⟩]
  | .hostfs => [⟨8, getNextString line strpos ' '⟩]
  | .stboxMachine => [⟨16, getNextString (line.drop strpos) 0 ' '⟩]
  | _ => []

/-- One turn of the loop of `load_config_file_section`, with its calls. -/
def loadLine (wantSection : Option Text) (s : LoopState) (raw : Text) : LoopState × List Call :=
  let line := cstr raw
  if skippedLine line then (s, [])
  else
    match configSectionHeader 32 line with
    | some name => ({ s with curSection := name }, [])
    | none =>
        let kw := getNextString line 0 ' '
        if isPathVariable (kw.held []) ∨ ¬ sectionWanted wantSection s.curSection then
          (s, [⟨32, kw⟩])
        else
          let line := trimWhitespace line
          let cmd := getNextString line 0 ' '
          let curCmd := cmd.held s.curCmd
          ({ s with curCmd := curCmd },
            ⟨32, kw⟩ :: ⟨128, cmd⟩ ::
              argumentCalls line cmd.strpos (getConfigItemType curCmd))

def loadLines (wantSection : Option Text) : LoopState -> List Text -> List Call
  | _, [] => []
  | s, raw :: rest =>
      let r := loadLine wantSection s raw
      r.2 ++ loadLines wantSection r.1 rest

/-- The calls of `load_config_file_section`; `curCmd` is what the command's buffer holds
before the first line. -/
def loadConfigFileSection (wantSection : Option Text) (curCmd file : Text) : List Call :=
  loadLines wantSection { curCmd := curCmd } (fgets 512 file)

/-!
## Words that fit
-/

/-- The next word leaves room for its end in a buffer of `n` characters. -/
def WordFits (n : Nat) (s : Text) : Prop :=
  forall w rest, cutWord s = some (w, rest) -> w.length < n

def ArgumentsFit (args : Text) : ConfigItem -> Prop
  | .monitor => WordFits 32 args
  | .graphicsCard =>
      WordFits 128 args ∧
        forall card rest, cutWord args = some (card, rest) -> card ∈ graphicsCardTypes ->
          WordFits 128 rest
  | .networkBackend => WordFits 16 args
  | .networkTap => WordFits 64 args
  | .networkMac => WordFits 32 args
  | .networkHostIp => WordFits 32 args
  | .networkAtariIp => WordFits 32 args
  | .networkNetmask => WordFits 32 args
  | .hostfs => WordFits 8 args
  | .stboxMachine => WordFits 16 args
  | _ => True

def sectionBehind (sec line : Text) : Text :=
  if skippedLine line then sec else (configSectionHeader 32 line).getD sec

def sectionAfter (sec : Text) (raws : List Text) : Text :=
  raws.foldl (fun sec raw => sectionBehind sec (cstr raw)) sec

def LineFits (wantSection : Option Text) (sec line : Text) : Prop :=
  skippedLine line = false -> configSectionHeader 32 line = none ->
    forall kw rest, cutWord line = some (kw, rest) ->
      kw.length < 32 ∧
        (isPathVariable kw = false -> sectionWanted wantSection sec = true ->
          forall cmd args, cutWord (trimWhitespace line) = some (cmd, args) ->
            ArgumentsFit args (getConfigItemType cmd))

def FileFits (wantSection : Option Text) (file : Text) : Prop :=
  forall before raw after, fgets 512 file = before ++ raw :: after ->
    LineFits wantSection (sectionAfter [] before) (cstr raw)

theorem getNextString_within (str : Text) (strpos n : Nat) :
    (getNextString str strpos ' ').Within n <-> WordFits n (str.drop strpos) := by
  have hspec := getNextString_spec str strpos
  unfold WordFits
  cases hcut : cutWord (str.drop strpos) with
  | none =>
      rw [hcut] at hspec
      dsimp only at hspec
      rw [hspec]
      exact ⟨fun _ w rest hw => (by cases hw), fun _ st hst => (by cases hst)⟩
  | some p =>
      rw [hcut] at hspec
      rw [hspec.1]
      constructor
      · intro h w rest hw
        rw [Option.some.inj hw] at h
        exact h
      · intro h
        exact h p.1 p.2 rfl

theorem call_within (n : Nat) (t : Token) :
    (forall call, call ∈ [(⟨n, t⟩ : Call)] -> call.token.Within call.size) <-> t.Within n :=
  List.forall_mem_singleton

theorem cardCalls_within (line : Text) (strpos : Nat) :
    (forall call, call ∈ argumentCalls line strpos .graphicsCard ->
      call.token.Within call.size) <-> ArgumentsFit (line.drop strpos) .graphicsCard := by
  have hspec := getNextString_spec line strpos
  have hwithin := getNextString_within line strpos 128
  have hnext := getNextString_within line (getNextString line strpos ' ').strpos 128
  have hempty : graphicsCardTypes.contains [] = false := rfl
  unfold argumentCalls ArgumentsFit
  dsimp only
  generalize graphicsCardTypes = types at hempty ⊢
  generalize getNextString line strpos ' ' = t at hspec hwithin hnext ⊢
  generalize getNextString line t.strpos ' ' = t' at hnext ⊢
  cases hcut : cutWord (line.drop strpos) with
  | none =>
      rw [hcut] at hspec
      dsimp only at hspec
      have hheld : t.held [] = [] := by
        rw [hspec]
        rfl
      rw [hheld, hempty, if_neg (by decide), call_within, hwithin]
      exact ⟨fun h => ⟨h, fun card rest hcard => (by cases hcard)⟩, fun h => h.1⟩
  | some p =>
      rw [hcut] at hspec
      dsimp only at hspec
      rw [hspec.2.2] at hnext
      rw [hspec.2.1]
      split
      · next hknown =>
        have hmem : p.1 ∈ types := List.contains_iff_mem.mp hknown
        rw [List.forall_mem_cons, call_within, hwithin, hnext]
        refine and_congr_right fun _ => ⟨fun h card rest hcard _ => ?_, fun h => h p.1 p.2 rfl hmem⟩
        rw [Option.some.inj hcard] at h
        exact h
      · next hunknown =>
        rw [call_within, hwithin]
        refine ⟨fun h => ⟨h, fun card rest hcard hmem => ?_⟩, fun h => h.1⟩
        rw [Option.some.inj hcard] at hunknown
        exact absurd (List.contains_iff_mem.mpr hmem) hunknown

theorem argumentCalls_within (line : Text) (strpos : Nat) (item : ConfigItem) :
    (forall call, call ∈ argumentCalls line strpos item -> call.token.Within call.size) <->
      ArgumentsFit (line.drop strpos) item := by
  cases item with
  | monitor => exact (call_within _ _).trans (getNextString_within (line.drop strpos) 0 32)
  | graphicsCard => exact cardCalls_within line strpos
  | networkBackend => exact (call_within _ _).trans (getNextString_within line strpos 16)
  | networkTap => exact (call_within _ _).trans (getNextString_within line strpos 64)
  | networkMac => exact (call_within _ _).trans (getNextString_within line strpos 32)
  | networkHostIp => exact (call_within _ _).trans (getNextString_within line strpos 32)
  | networkAtariIp => exact (call_within _ _).trans (getNextString_within line strpos 32)
  | networkNetmask => exact (call_within _ _).trans (getNextString_within line strpos 32)
  | hostfs => exact (call_within _ _).trans (getNextString_within line strpos 8)
  | stboxMachine => exact (call_within _ _).trans (getNextString_within (line.drop strpos) 0 16)
  | _ => exact ⟨fun _ => trivial, fun _ call hcall => (by cases hcall)⟩

theorem argumentCalls_nothing {line : Text} {strpos : Nat} (h : cutWord (line.drop strpos) = none)
    (item : ConfigItem) :
    forall call, call ∈ argumentCalls line strpos item -> call.token.Within call.size := by
  have hword : forall n, WordFits n (line.drop strpos) := by
    intro n w rest hw
    rw [h] at hw
    cases hw
  rw [argumentCalls_within]
  cases item with
  | graphicsCard =>
      refine ⟨hword 128, fun card rest hcard => ?_⟩
      rw [h] at hcard
      cases hcard
  | monitor => exact hword 32
  | networkBackend => exact hword 16
  | networkTap => exact hword 64
  | networkMac => exact hword 32
  | networkHostIp => exact hword 32
  | networkAtariIp => exact hword 32
  | networkNetmask => exact hword 32
  | hostfs => exact hword 8
  | stboxMachine => exact hword 16
  | _ => trivial

/-!
## The lines of a file
-/

variable (wantSection : Option Text)

theorem loadLine_curSection (s : LoopState) (raw : Text) :
    (loadLine wantSection s raw).1.curSection = sectionBehind s.curSection (cstr raw) := by
  unfold loadLine sectionBehind
  dsimp only
  split
  · rfl
  · cases configSectionHeader 32 (cstr raw) with
    | some name => rfl
    | none =>
        dsimp only
        split
        · rfl
        · rfl

theorem command_le {line cmd args : Text}
    (h : cutWord (trimWhitespace line) = some (cmd, args)) :
    exists kw rest, cutWord line = some (kw, rest) ∧ cmd.length ≤ kw.length :=
  cutWord_le_of_isPrefix (List.rdropWhile_prefix _ _) h

theorem command_within (line curCmd : Text) :
    (forall call, call ∈ (⟨128, getNextString line 0 ' '⟩ : Call) ::
        argumentCalls line (getNextString line 0 ' ').strpos
          (getConfigItemType ((getNextString line 0 ' ').held curCmd)) ->
      call.token.Within call.size) <->
      WordFits 128 line ∧
        forall cmd args, cutWord line = some (cmd, args) ->
          ArgumentsFit args (getConfigItemType cmd) := by
  have hspec := getNextString_spec line 0
  have hwithin := getNextString_within line 0 128
  rw [List.drop_zero] at hspec hwithin
  rw [List.forall_mem_cons, hwithin]
  refine and_congr_right fun _ => ?_
  cases hcut : cutWord line with
  | none =>
      rw [hcut] at hspec
      dsimp only at hspec
      refine ⟨fun _ cmd args hword => (by cases hword), fun _ => ?_⟩
      rw [hspec]
      exact argumentCalls_nothing (show cutWord (line.drop 0) = none from hcut) _
  | some p =>
      rw [hcut] at hspec
      dsimp only at hspec
      rw [argumentCalls_within, hspec.2.2, hspec.2.1]
      constructor
      · intro h cmd args hword
        rw [Option.some.inj hword] at h
        exact h
      · intro h
        exact h p.1 p.2 rfl

theorem loadLine_within (s : LoopState) (raw : Text) :
    (forall call, call ∈ (loadLine wantSection s raw).2 -> call.token.Within call.size) <->
      LineFits wantSection s.curSection (cstr raw) := by
  generalize hline : cstr raw = line
  unfold loadLine LineFits
  dsimp only
  rw [hline]
  cases hskipped : skippedLine line with
  | true =>
      rw [if_pos rfl]
      exact ⟨fun _ h => (by cases h), fun _ call hcall => (by cases hcall)⟩
  | false =>
      rw [if_neg (by decide)]
      cases hheader : configSectionHeader 32 line with
      | some name => exact ⟨fun _ _ h => (by cases h), fun _ call hcall => (by cases hcall)⟩
      | none =>
          have hspec := getNextString_spec line 0
          have hkw := getNextString_within line 0 32
          have hcommand := command_within (trimWhitespace line) s.curCmd
          rw [List.drop_zero] at hspec hkw
          generalize getNextString line 0 ' ' = kw at hspec hkw ⊢
          dsimp only
          cases hcut : cutWord line with
          | none =>
              have hnone : cutWord (trimWhitespace line) = none := by
                cases htrim : cutWord (trimWhitespace line) with
                | none => rfl
                | some p =>
                    rcases command_le htrim with ⟨w, rest, hw, _⟩
                    rw [hcut] at hw
                    cases hw
              have hwithin : kw.Within 32 := by
                rw [hkw]
                intro w rest hw
                rw [hcut] at hw
                cases hw
              refine ⟨fun _ _ _ w rest hw => (by cases hw), fun _ => ?_⟩
              split
              · exact (call_within 32 kw).mpr hwithin
              · rw [List.forall_mem_cons]
                refine ⟨hwithin, hcommand.mpr ⟨fun w rest hw => ?_, fun cmd args hw => ?_⟩⟩
                · rw [hnone] at hw
                  cases hw
                · rw [hnone] at hw
                  cases hw
          | some p =>
              rw [hcut] at hspec
              dsimp only at hspec
              have hfirst : kw.Within 32 <-> p.1.length < 32 := hspec.1 32
              rw [hspec.2.1]
              split
              · next hother =>
                rw [call_within, hfirst]
                constructor
                · intro h _ _ w rest hw
                  rw [Option.some.inj hw] at h hother
                  refine ⟨h, fun hpath hwanted => ?_⟩
                  rw [hpath, hwanted] at hother
                  rcases hother with hno | hno
                  · cases hno
                  · exact absurd rfl hno
                · intro h
                  exact (h rfl rfl p.1 p.2 rfl).1
              · next hown =>
                rw [not_or, not_not, Bool.not_eq_true] at hown
                rw [List.forall_mem_cons, hcommand, hfirst]
                constructor
                · rintro ⟨hshort, _, hargs⟩ _ _ w rest hw
                  rw [Option.some.inj hw] at hshort
                  exact ⟨hshort, fun _ _ => hargs⟩
                · intro h
                  rcases h rfl rfl p.1 p.2 rfl with ⟨hshort, hargs⟩
                  refine ⟨hshort, fun cmd args hw => ?_, hargs hown.1 hown.2⟩
                  rcases command_le hw with ⟨w, rest, hcut', hle⟩
                  rw [hcut] at hcut'
                  rw [Option.some.inj hcut'] at hshort
                  exact Nat.lt_of_le_of_lt hle (Nat.lt_trans hshort (by decide))

theorem loadLines_within (s : LoopState) (raws : List Text) :
    (forall call, call ∈ loadLines wantSection s raws -> call.token.Within call.size) <->
      forall before raw after, raws = before ++ raw :: after ->
        LineFits wantSection (sectionAfter s.curSection before) (cstr raw) := by
  induction raws generalizing s with
  | nil =>
      refine ⟨fun _ before raw after h => ?_, fun _ call hcall => (by cases hcall)⟩
      exact absurd h (List.append_ne_nil_of_right_ne_nil _ (List.cons_ne_nil _ _)).symm
  | cons first raws ih =>
      have hsection := loadLine_curSection wantSection s first
      have hnext := ih (loadLine wantSection s first).1
      rw [hsection] at hnext
      have hsplit : (forall call, call ∈ loadLines wantSection s (first :: raws) ->
          call.token.Within call.size) <->
          (forall call, call ∈ (loadLine wantSection s first).2 -> call.token.Within call.size) ∧
            (forall call, call ∈ loadLines wantSection (loadLine wantSection s first).1 raws ->
              call.token.Within call.size) := List.forall_mem_append
      rw [hsplit, loadLine_within, hnext]
      constructor
      · rintro ⟨hfirst, hrest⟩ before raw after heq
        cases before with
        | nil =>
            rw [← (List.cons.inj heq).1]
            exact hfirst
        | cons b bs =>
            rcases List.cons.inj heq with ⟨hb, hbs⟩
            rw [← hb]
            exact hrest bs raw after hbs
      · intro hall
        refine ⟨hall [] first raws rfl, fun before raw after heq => ?_⟩
        exact hall (first :: before) raw after (congrArg (List.cons first) heq)

/-- The loader's tokens stay within their buffers exactly when the words of every line
fit. -/
theorem tokens_within_iff (wantSection : Option Text) (curCmd file : Text) :
    (forall call, call ∈ loadConfigFileSection wantSection curCmd file ->
      call.token.Within call.size) <-> FileFits wantSection file :=
  loadLines_within wantSection { curCmd := curCmd } (fgets 512 file)

/-- The drive of a `hostfs` line that has a name and not a letter runs over its buffer. -/
theorem hostfs_word_overruns :
    ¬ (forall call, call ∈ loadConfigFileSection (some "gem".toList) []
        "[gem]\nhostfs Documents /home/pi/st\n".toList -> call.token.Within call.size) := by
  decide

end Config
end PistormAtari
