import PistormAtari.Foundation.StrideCounter
import PistormAtari.Stbox.Beam
import PistormAtari.Stbox.RamMap

/-!
# The video address of the STBOX

The guest reads the video counter at `$FF8205`, `$FF8207` and `$FF8209`, and
{lit}`cap_line` fetches each line for the renderer.  The counter follows the live base and the
opened top border, the renderer the base of the last blank and the resolution.
-/

namespace PistormAtari
namespace Stbox

open Foundation

/-- The registers of the shifter: `vidBase` is the one that the guest writes, `dispBase` its
value at the last vertical blank. -/
structure Shifter where
  ste : Bool
  res : BitVec 2
  lineWidth : BitVec 8
  hscroll : BitVec 4
  vidBase : BitVec 24
  dispBase : BitVec 24
  topOpen : Bool
  bottomOpen : Bool
  ram : RamSize
deriving DecidableEq, Repr

def deStartCyc : Nat := 56
def deBytes : Nat := 160
def capRows : Nat := 248

def Shifter.firstLine (s : Shifter) : Nat := if s.topOpen then deFirstLine60 else deFirstLine

/-!
## The counter that the guest reads
-/

def Shifter.counterStride (s : Shifter) : Nat :=
  deBytes + if s.ste then s.lineWidth.toNat * 2 + (if s.hscroll ≠ 0 then 8 else 0) else 0

def videoCounter (s : Shifter) (line cyc : Nat) : Nat :=
  let off :=
    if line < s.firstLine then 0
    else if deEndLine ≤ line then (deEndLine - s.firstLine) * s.counterStride
    else
      let inLine := if deStartCyc < cyc then min ((cyc - deStartCyc) / 2) deBytes else 0
      (line - s.firstLine) * s.counterStride + inLine / 2 * 2
  (s.vidBase.toNat + off) % 2 ^ 24

def counterByte (s : Shifter) (line cyc a : Nat) : Nat :=
  if a = 0xFF8205 then videoCounter s line cyc / 2 ^ 16 % 256
  else if a = 0xFF8207 then videoCounter s line cyc / 2 ^ 8 % 256
  else videoCounter s line cyc % 256

/-- The address that the guest puts together from the three bytes at the start of a line. -/
def guestAddress (s : Shifter) (line : Nat) : Nat :=
  counterByte s line 0 0xFF8205 * 2 ^ 16 + counterByte s line 0 0xFF8207 * 2 ^ 8 +
    counterByte s line 0 0xFF8209

/-!
## The address that the renderer fetches from
-/

def Shifter.scroll (s : Shifter) : Nat := if s.ste then s.hscroll.toNat else 0

def Shifter.fetchLen (s : Shifter) : Nat :=
  160 + if s.scroll ≠ 0 then (if s.res = 0 then 8 else 4) else 0

def Shifter.fetchStride (s : Shifter) : Nat :=
  s.fetchLen + if s.ste then s.lineWidth.toNat * 2 else 0

/-- A line as `cap_line` fetches it: its row in the picture, its address and its length. -/
structure Fetch where
  row : Nat
  addr : Nat
  len : Nat
deriving DecidableEq, Repr

def capLine (s : Shifter) (line : Nat) : Option Fetch :=
  if line < deFirstLine ∨ deFirstLine + capRows ≤ line then none
  else
    some
      { row := line - deFirstLine
        addr := (s.dispBase.toNat + (line - deFirstLine) * s.fetchStride) &&& (s.ram.bytes - 1)
        len := s.fetchLen }

def Shifter.visLines (s : Shifter) : Nat := if s.bottomOpen then 232 else 200

/-- On each line that is shown the guest reads the address the line is fetched from. -/
def CounterFollows (s : Shifter) : Prop :=
  forall line f, capLine s line = some f -> f.row < s.visLines -> guestAddress s line = f.addr

/-- The two agree on the strides, on the first line, and stay below the end of the RAM. -/
structure SameModel (s : Shifter) : Prop where
  scrolls : s.ste = false ∨ s.hscroll = 0 ∨ s.res = 0
  border : s.bottomOpen = false
  starts : (s.vidBase.toNat + (deFirstLine - s.firstLine) * s.counterStride) % 2 ^ 24 =
    s.dispBase.toNat % s.ram.bytes
  inRam : s.dispBase.toNat % s.ram.bytes + 199 * s.counterStride < s.ram.bytes

/-!
## Both as counters
-/

section
variable (s : Shifter)

theorem guestAddress_eq (line : Nat) : guestAddress s line = videoCounter s line 0 := by
  have hlt : videoCounter s line 0 < 2 ^ 24 := Nat.mod_lt _ (by decide)
  have h05 : counterByte s line 0 0xFF8205 = videoCounter s line 0 / 2 ^ 16 % 256 := rfl
  have h07 : counterByte s line 0 0xFF8207 = videoCounter s line 0 / 2 ^ 8 % 256 := rfl
  have h09 : counterByte s line 0 0xFF8209 = videoCounter s line 0 % 256 := rfl
  unfold guestAddress
  rw [h05, h07, h09]
  lia

theorem bytes_eq_pow : exists k, s.ram.bytes = 2 ^ k := by
  cases s.ram with
  | k512 => exact ⟨19, by norm_num [RamSize.bytes]⟩
  | m1 => exact ⟨20, by norm_num [RamSize.bytes]⟩
  | m2 => exact ⟨21, by norm_num [RamSize.bytes]⟩
  | m4 => exact ⟨22, by norm_num [RamSize.bytes]⟩

theorem bytes_bounds : 2 ^ 19 ≤ s.ram.bytes ∧ s.ram.bytes ≤ 2 ^ 22 := by
  cases s.ram with
  | k512 => norm_num [RamSize.bytes]
  | m1 => norm_num [RamSize.bytes]
  | m2 => norm_num [RamSize.bytes]
  | m4 => norm_num [RamSize.bytes]

theorem capLine_row {r : Nat} (hr : r < capRows) :
    capLine s (deFirstLine + r) =
      some
        { row := r
          addr := (s.dispBase.toNat + r * s.fetchStride) % s.ram.bytes
          len := s.fetchLen } := by
  rcases bytes_eq_pow s with ⟨k, hk⟩
  unfold capLine
  rw [if_neg (by lia), Nat.add_sub_cancel_left, hk, Nat.and_two_pow_sub_one_eq_mod]

theorem capLine_eq_some {line : Nat} {f : Fetch} (h : capLine s line = some f) :
    f.row < capRows ∧ line = deFirstLine + f.row := by
  unfold capLine at h
  split at h
  · cases h
  · next hin =>
    cases h
    dsimp only
    lia

theorem firstLine_le : s.firstLine ≤ deFirstLine := by
  unfold Shifter.firstLine
  split
  · decide
  · exact le_refl _

theorem videoCounter_row (r : Nat) :
    videoCounter s (deFirstLine + r) 0 =
      (s.vidBase.toNat + (deFirstLine - s.firstLine) * s.counterStride +
        min r 200 * s.counterStride) % 2 ^ 24 := by
  have hle := firstLine_le s
  have hend : deEndLine = deFirstLine + 200 := rfl
  unfold videoCounter
  rw [if_neg (by lia), Nat.add_assoc, ← Nat.add_mul]
  by_cases hin : r < 200
  · have hrow : deFirstLine + r - s.firstLine = deFirstLine - s.firstLine + r := by lia
    rw [if_neg (by lia), if_neg (by decide), Nat.min_eq_left (Nat.le_of_lt hin), hrow]
    rfl
  · have hlast : deEndLine - s.firstLine = deFirstLine - s.firstLine + 200 := by lia
    rw [if_pos (by lia), Nat.min_eq_right (Nat.le_of_not_lt hin), hlast]

theorem counterStride_eq_iff :
    s.counterStride = s.fetchStride <-> s.ste = false ∨ s.hscroll = 0 ∨ s.res = 0 := by
  unfold Shifter.counterStride Shifter.fetchStride Shifter.fetchLen Shifter.scroll deBytes
  cases s.ste with
  | false => simp
  | true =>
      by_cases hscroll : s.hscroll = 0
      · simp [hscroll]
      · have hne : s.hscroll.toNat ≠ 0 := fun hzero => hscroll (BitVec.eq_of_toNat_eq hzero)
        by_cases hres : s.res = 0
        · simp [hne, hres]
          lia
        · simp [hne]
          lia

theorem stride_bounds : 0 < s.counterStride ∧ s.counterStride ≤ 678 ∧ s.fetchStride ≤ 678 := by
  have hwidth := s.lineWidth.isLt
  unfold Shifter.counterStride Shifter.fetchStride Shifter.fetchLen deBytes
  refine ⟨by lia, ?_, ?_⟩
  · split
    · split
      · lia
      · lia
    · lia
  · split
    · split
      · split
        · lia
        · lia
      · split
        · lia
        · lia
    · split
      · lia
      · lia

theorem rows_agree_iff (n : Nat) (hn : n + 1 ≤ 200) :
    (forall r, r ≤ n + 1 -> guestAddress s (deFirstLine + r) =
        (s.dispBase.toNat + r * s.fetchStride) % s.ram.bytes) <->
      (s.vidBase.toNat + (deFirstLine - s.firstLine) * s.counterStride) % 2 ^ 24 =
          s.dispBase.toNat % s.ram.bytes ∧
        s.counterStride = s.fetchStride ∧
        (s.vidBase.toNat + (deFirstLine - s.firstLine) * s.counterStride) % 2 ^ 24 +
          (n + 1) * s.counterStride < s.ram.bytes := by
  have hbytes := bytes_bounds s
  have hstride := stride_bounds s
  rw [← strides_agree_iff (by lia) (by lia) n]
  refine forall_congr' fun r => imp_congr_right fun hr => ?_
  rw [guestAddress_eq, videoCounter_row, Nat.min_eq_left (by lia)]

theorem follows_iff_rows :
    CounterFollows s <-> forall r, r < s.visLines ->
      guestAddress s (deFirstLine + r) =
        (s.dispBase.toNat + r * s.fetchStride) % s.ram.bytes := by
  have hrows : s.visLines ≤ capRows := by
    unfold Shifter.visLines
    split
    · decide
    · decide
  constructor
  · intro h r hr
    exact h _ _ (capLine_row s (Nat.lt_of_lt_of_le hr hrows)) hr
  · intro h line f hf hshown
    rcases capLine_eq_some s hf with ⟨hrow, hline⟩
    have hfetch := capLine_row s hrow
    rw [← hline, hf] at hfetch
    rw [hline, h f.row hshown]
    exact (congrArg Fetch.addr (Option.some.inj hfetch)).symm

theorem not_follows_bottom (hbottom : s.bottomOpen = true) : ¬ CounterFollows s := by
  have hvis : s.visLines = 232 := by
    unfold Shifter.visLines
    rw [if_pos hbottom]
  rw [follows_iff_rows, hvis]
  intro h
  have hbytes := bytes_bounds s
  have hstride := stride_bounds s
  rcases (rows_agree_iff s 199 (le_refl _)).mp (fun r hr => h r (by lia)) with
    ⟨hstart, hsame, hbelow⟩
  have hlast := h 200 (by decide)
  have hnext := h 201 (by decide)
  rw [guestAddress_eq, videoCounter_row] at hlast hnext
  rw [show min 201 200 = min 200 200 from rfl, hlast, ← hsame] at hnext
  rw [hstart] at hbelow
  have hrow : (s.dispBase.toNat + 200 * s.counterStride) % s.ram.bytes =
      s.dispBase.toNat % s.ram.bytes + 200 * s.counterStride := by
    rw [Nat.add_mod, Nat.add_mod_mod, Nat.mod_eq_of_lt hbelow]
  have hrow' : (s.dispBase.toNat + 201 * s.counterStride) % s.ram.bytes =
      (s.dispBase.toNat % s.ram.bytes + 200 * s.counterStride + s.counterStride) % s.ram.bytes := by
    rw [Nat.succ_mul 200, ← Nat.add_assoc, Nat.add_mod, hrow, Nat.add_mod_mod]
  rw [hrow, hrow'] at hnext
  have hroom : s.dispBase.toNat % s.ram.bytes + 200 * s.counterStride < s.ram.bytes := hbelow
  have hshort : s.counterStride < s.ram.bytes := by lia
  have hstill := (@stride_step s.ram.bytes 0 _ _ hroom hshort hnext).1
  exact Nat.ne_of_lt hstride.1 hstill

end

/-- The counter shows the address of each line that is fetched for the picture in exactly
these states of the shifter. -/
theorem counterFollows_iff (s : Shifter) : CounterFollows s <-> SameModel s := by
  by_cases hbottom : s.bottomOpen = true
  · constructor
    · intro h
      exact absurd h (not_follows_bottom s hbottom)
    · intro h
      rw [h.border] at hbottom
      cases hbottom
  · have hclosed : s.bottomOpen = false := Bool.not_eq_true _ ▸ hbottom
    have hvis : s.visLines = 200 := by
      unfold Shifter.visLines
      rw [if_neg hbottom]
    have hrows := rows_agree_iff s 198 (by decide)
    rw [follows_iff_rows, hvis]
    constructor
    · intro h
      rcases hrows.mp (fun r hr => h r (by lia)) with ⟨hstart, hsame, hbelow⟩
      rw [hstart] at hbelow
      exact ⟨(counterStride_eq_iff s).mp hsame, hclosed, hstart, hbelow⟩
    · intro h r hr
      refine hrows.mpr ⟨h.starts, (counterStride_eq_iff s).mpr h.scrolls, ?_⟩ r (by lia)
      rw [h.starts]
      exact h.inRam

def scrolledMedium : Shifter where
  ste := true
  res := 1
  lineWidth := 0
  hscroll := 1
  vidBase := 0x100000
  dispBase := 0x100000
  topOpen := false
  bottomOpen := false
  ram := .m4

theorem scrolled_medium_apart : ¬ CounterFollows scrolledMedium := by
  intro h
  have hline := h 64 _ (capLine_row scrolledMedium (by decide : 1 < capRows)) (by decide)
  exact absurd hline (by decide +kernel)

end Stbox
end PistormAtari
