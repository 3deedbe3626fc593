import Mathlib
import PistormAtari.Foundation.BoundingBox
import PistormAtari.Foundation.Run

/-!
# The dirty rectangle of the fVDI frame buffer

The CPU thread notes every write to the frame buffer in a rectangle, the render thread
takes the rectangle and resets it.  The whole rectangle is one 64-bit word, merged
with a compare-and-swap and taken with an exchange.
-/

namespace PistormAtari
namespace Natmem

open Foundation

/-!
## One word
-/

def fvdiDirtyPack (b : Box) : Nat :=
  (b.rmin <<< 48) ||| (b.rmax <<< 32) ||| (b.xmin <<< 16) ||| b.xmax

def dirtyFields (e : Nat) : Box where
  rmin := e >>> 48
  rmax := (e >>> 32) % 2 ^ 32 &&& 0xFFFF
  xmin := (e >>> 16) % 2 ^ 32 &&& 0xFFFF
  xmax := e % 2 ^ 32 &&& 0xFFFF

def fvdiDirtyEmpty : Nat := 0xFFFF0000FFFF0000

def emptyBox : Box where
  rmin := 0xFFFF
  rmax := 0
  xmin := 0xFFFF
  xmax := 0

structure Fits (b : Box) : Prop where
  rmin : b.rmin < 2 ^ 16
  rmax : b.rmax < 2 ^ 16
  xmin : b.xmin < 2 ^ 16
  xmax : b.xmax < 2 ^ 16

theorem emptyBox_fits : Fits emptyBox := ⟨by decide, by decide, by decide, by decide⟩

theorem fvdiDirtyPack_empty : fvdiDirtyPack emptyBox = fvdiDirtyEmpty := by decide

theorem fvdiDirtyPack_eq {b : Box} (h : Fits b) :
    fvdiDirtyPack b = b.rmin * 2 ^ 48 + b.rmax * 2 ^ 32 + b.xmin * 2 ^ 16 + b.xmax := by
  have hxmin := h.xmin
  have hrmax := h.rmax
  have hlow : b.xmin <<< 16 ||| b.xmax = b.xmin * 2 ^ 16 + b.xmax := by
    rw [← Nat.shiftLeft_add_eq_or_of_lt h.xmax, Nat.shiftLeft_eq]
  have hmid : b.rmax <<< 32 ||| (b.xmin * 2 ^ 16 + b.xmax) =
      b.rmax * 2 ^ 32 + (b.xmin * 2 ^ 16 + b.xmax) := by
    rw [← Nat.shiftLeft_add_eq_or_of_lt (by have := h.xmax; lia), Nat.shiftLeft_eq]
  have hhigh : b.rmin <<< 48 ||| (b.rmax * 2 ^ 32 + (b.xmin * 2 ^ 16 + b.xmax)) =
      b.rmin * 2 ^ 48 + (b.rmax * 2 ^ 32 + (b.xmin * 2 ^ 16 + b.xmax)) := by
    rw [← Nat.shiftLeft_add_eq_or_of_lt (by have := h.xmax; lia), Nat.shiftLeft_eq]
  unfold fvdiDirtyPack
  rw [Nat.lor_assoc, Nat.lor_assoc, hlow, hmid, hhigh]
  lia

theorem field_of_word (high : Nat) {f low k : Nat} (hf : f < 2 ^ 16) (hlow : low < 2 ^ k) :
    (((high * 2 ^ 16 + f) * 2 ^ k + low) >>> k) % 2 ^ 32 &&& 0xFFFF = f := by
  have hmask := Nat.and_two_pow_sub_one_eq_mod
    ((((high * 2 ^ 16 + f) * 2 ^ k + low) >>> k) % 2 ^ 32) 16
  have hshift : ((high * 2 ^ 16 + f) * 2 ^ k + low) >>> k = high * 2 ^ 16 + f := by
    rw [Nat.shiftRight_eq_div_pow, Nat.add_comm, Nat.add_mul_div_right _ _ (Nat.two_pow_pos k),
      Nat.div_eq_of_lt hlow, Nat.zero_add]
  have hdvd : 2 ^ 16 ∣ 2 ^ 32 := by decide
  rw [hshift] at hmask ⊢
  refine hmask.trans ?_
  rw [Nat.mod_mod_of_dvd _ hdvd, Nat.mul_comm, Nat.mul_add_mod, Nat.mod_eq_of_lt hf]

theorem dirtyFields_pack {b : Box} (h : Fits b) : dirtyFields (fvdiDirtyPack b) = b := by
  have hrmax := h.rmax
  have hxmin := h.xmin
  have hxmax := h.xmax
  rw [fvdiDirtyPack_eq h]
  unfold dirtyFields
  apply Box.ext
  · dsimp only
    rw [Nat.shiftRight_eq_div_pow]
    lia
  · have hfield := field_of_word b.rmin h.rmax
      (show b.xmin * 2 ^ 16 + b.xmax < 2 ^ 32 by lia)
    rw [show (b.rmin * 2 ^ 16 + b.rmax) * 2 ^ 32 + (b.xmin * 2 ^ 16 + b.xmax) =
      b.rmin * 2 ^ 48 + b.rmax * 2 ^ 32 + b.xmin * 2 ^ 16 + b.xmax by lia] at hfield
    exact hfield
  · have hfield := field_of_word (b.rmin * 2 ^ 16 + b.rmax) h.xmin h.xmax
    rw [show ((b.rmin * 2 ^ 16 + b.rmax) * 2 ^ 16 + b.xmin) * 2 ^ 16 + b.xmax =
      b.rmin * 2 ^ 48 + b.rmax * 2 ^ 32 + b.xmin * 2 ^ 16 + b.xmax by lia] at hfield
    exact hfield
  · have hfield := field_of_word (b.rmin * 2 ^ 32 + b.rmax * 2 ^ 16 + b.xmin) h.xmax
      (show 0 < 2 ^ 0 by decide)
    rw [show ((b.rmin * 2 ^ 32 + b.rmax * 2 ^ 16 + b.xmin) * 2 ^ 16 + b.xmax) * 2 ^ 0 + 0 =
      b.rmin * 2 ^ 48 + b.rmax * 2 ^ 32 + b.xmin * 2 ^ 16 + b.xmax by lia] at hfield
    exact hfield

theorem fvdiDirtyPack_inj {b c : Box} (hb : Fits b) (hc : Fits c)
    (h : fvdiDirtyPack b = fvdiDirtyPack c) : b = c := by
  rw [← dirtyFields_pack hb, h, dirtyFields_pack hc]

theorem Fits.join {b c : Box} (hb : Fits b) (hc : Fits c) : Fits (b.join c) :=
  ⟨lt_of_le_of_lt (min_le_left _ _) hb.rmin, max_lt hb.rmax hc.rmax,
    lt_of_le_of_lt (min_le_left _ _) hb.xmin, max_lt hb.xmax hc.xmax⟩

/-!
## Notes
-/

/-- The rectangle of a note of `bytes` bytes at `o`, in a mode with rows of `rb`
bytes. -/
def noteBox (rb o bytes : Nat) : Box :=
  let r0 := o / rb
  let r1 := (o + bytes - 1) / rb
  let x := if r0 = r1 then (o - r0 * rb, o - r0 * rb + bytes) else (0, rb)
  let r1 := if 0xFFFE < r1 then 0xFFFE else r1
  let r0 := if r1 < r0 then r1 else r0
  let x := if 0xFFFF < x.2 then (0, 0xFFFF) else x
  { rmin := r0, rmax := r1, xmin := x.1, xmax := x.2 }

def noteWord (b : Box) (old : Nat) : Nat := fvdiDirtyPack ((dirtyFields old).join b)

/-- The byte extents the renderer makes of a word: of the rows, and within a row. -/
def fvdiDirtyUnpack (rb e : Nat) : (Nat × Nat) × (Nat × Nat) :=
  let b := dirtyFields e
  let rows := if b.rmax < b.rmin ∨ rb = 0 then (0xFFFFFFFF, 0) else
    (b.rmin * rb % 2 ^ 32, (b.rmax + 1) * rb % 2 ^ 32)
  (rows, (b.xmin, b.xmax))

/-- The byte `a` of the frame buffer lies inside the row and column extent of a
word. -/
def Covers (rb e a : Nat) : Prop :=
  (fvdiDirtyUnpack rb e).1.1 ≤ a ∧ a < (fvdiDirtyUnpack rb e).1.2 ∧
    (fvdiDirtyUnpack rb e).2.1 ≤ a % rb ∧ a % rb < (fvdiDirtyUnpack rb e).2.2

instance (rb e a : Nat) : Decidable (Covers rb e a) :=
  inferInstanceAs (Decidable (_ ∧ _ ∧ _ ∧ _))

structure InRows (rb o bytes : Nat) : Prop where
  some : 0 < bytes
  room : o + bytes ≤ 0xFFFF * rb

section
variable {rb o bytes : Nat}

theorem noteBox_eq (hrb : 0 < rb) (hfit : rb ≤ 0xFFFF) (h : InRows rb o bytes) :
    noteBox rb o bytes =
      if o / rb = (o + bytes - 1) / rb then
        { rmin := o / rb, rmax := o / rb, xmin := o - o / rb * rb,
          xmax := o - o / rb * rb + bytes }
      else { rmin := o / rb, rmax := (o + bytes - 1) / rb, xmin := 0, xmax := rb } := by
  have hsome := h.some
  have hroom := h.room
  have hlast : (o + bytes - 1) / rb < 0xFFFF := (Nat.div_lt_iff_lt_mul hrb).mpr (by lia)
  have hrow : o / rb ≤ (o + bytes - 1) / rb := Nat.div_le_div_right (by lia)
  unfold noteBox
  dsimp only
  rw [if_neg (show ¬ 0xFFFE < (o + bytes - 1) / rb by lia), if_neg (Nat.not_lt.mpr hrow)]
  split
  · next hsame =>
    have hmod := Nat.mod_add_div (o + bytes - 1) rb
    have hlt := Nat.mod_lt (o + bytes - 1) hrb
    have hle := Nat.div_mul_le_self o rb
    rw [← hsame, Nat.mul_comm] at hmod
    rw [if_neg (show ¬ 0xFFFF < o - o / rb * rb + bytes by lia), ← hsame]
  · rw [if_neg (show ¬ 0xFFFF < rb by lia)]

theorem noteBox_fits (hrb : 0 < rb) (hfit : rb ≤ 0xFFFF) (h : InRows rb o bytes) :
    Fits (noteBox rb o bytes) := by
  have hsome := h.some
  have hroom := h.room
  have hlast : (o + bytes - 1) / rb < 0xFFFF := (Nat.div_lt_iff_lt_mul hrb).mpr (by lia)
  rw [noteBox_eq hrb hfit h]
  split
  · next hsame =>
    have hmod := Nat.mod_add_div (o + bytes - 1) rb
    have hlt := Nat.mod_lt (o + bytes - 1) hrb
    have hle := Nat.div_mul_le_self o rb
    rw [← hsame, Nat.mul_comm] at hmod
    exact ⟨by dsimp only; lia, by dsimp only; lia, by dsimp only; lia, by dsimp only; lia⟩
  · have hrow : o / rb ≤ (o + bytes - 1) / rb := Nat.div_le_div_right (by lia)
    exact ⟨by dsimp only; lia, by dsimp only; lia, by dsimp only; lia, by dsimp only; lia⟩

theorem noteBox_byte (hrb : 0 < rb) (hfit : rb ≤ 0xFFFF) (h : InRows rb o bytes) {a : Nat}
    (hlo : o ≤ a) (hhi : a < o + bytes) :
    (noteBox rb o bytes).rmin ≤ a / rb ∧ a / rb ≤ (noteBox rb o bytes).rmax ∧
      (noteBox rb o bytes).xmin ≤ a % rb ∧ a % rb < (noteBox rb o bytes).xmax := by
  have hfirst : o / rb ≤ a / rb := Nat.div_le_div_right hlo
  have hlast : a / rb ≤ (o + bytes - 1) / rb := Nat.div_le_div_right (by lia)
  rw [noteBox_eq hrb hfit h]
  split
  · next hsame =>
    have hrow : a / rb = o / rb := by lia
    have hmod := Nat.mod_add_div a rb
    have hle := Nat.div_mul_le_self o rb
    rw [hrow, Nat.mul_comm] at hmod
    exact ⟨hfirst, le_of_eq hrow, by dsimp only; lia, by dsimp only; lia⟩
  · exact ⟨hfirst, hlast, Nat.zero_le _, Nat.mod_lt a hrb⟩

theorem covers_pack_iff (hrb : 0 < rb) (hfit : rb ≤ 0xFFFF) {c : Box} (hc : Fits c) {a : Nat} :
    Covers rb (fvdiDirtyPack c) a <->
      c.rmin ≤ a / rb ∧ a / rb ≤ c.rmax ∧ c.xmin ≤ a % rb ∧ a % rb < c.xmax := by
  have hbound : (c.rmax + 1) * rb < 2 ^ 32 :=
    lt_of_le_of_lt (Nat.mul_le_mul (Nat.succ_le_of_lt hc.rmax) hfit) (by decide)
  have hbound' : c.rmin * rb < 2 ^ 32 :=
    lt_of_le_of_lt (Nat.mul_le_mul (Nat.le_of_lt hc.rmin) hfit) (by decide)
  unfold Covers fvdiDirtyUnpack
  rw [dirtyFields_pack hc]
  dsimp only
  rcases Nat.lt_or_ge c.rmax c.rmin with hempty | hrows
  · rw [if_pos (Or.inl hempty)]
    exact ⟨fun h => absurd h.2.1 (Nat.not_lt_zero a), fun h => by lia⟩
  · rw [if_neg (by lia), Nat.mod_eq_of_lt hbound, Nat.mod_eq_of_lt hbound']
    dsimp only
    rw [← Nat.le_div_iff_mul_le hrb, ← Nat.div_lt_iff_lt_mul hrb, Nat.lt_succ_iff]

theorem covers_mono (hrb : 0 < rb) (hfit : rb ≤ 0xFFFF) {c d : Box} (hc : Fits c) (hd : Fits d)
    (hwithin : c.Within d) {a : Nat} (h : Covers rb (fvdiDirtyPack c) a) :
    Covers rb (fvdiDirtyPack d) a := by
  rcases (covers_pack_iff hrb hfit hc).mp h with ⟨hrmin, hrmax, hxmin, hxmax⟩
  exact (covers_pack_iff hrb hfit hd).mpr ⟨le_trans hwithin.rmin hrmin,
    le_trans hrmax hwithin.rmax, le_trans hwithin.xmin hxmin, lt_of_lt_of_le hxmax hwithin.xmax⟩

theorem covers_of_within (hrb : 0 < rb) (hfit : rb ≤ 0xFFFF) (h : InRows rb o bytes) {c : Box}
    (hc : Fits c) (hwithin : (noteBox rb o bytes).Within c) {a : Nat} (hlo : o ≤ a)
    (hhi : a < o + bytes) : Covers rb (fvdiDirtyPack c) a := by
  have hnote : Covers rb (fvdiDirtyPack (noteBox rb o bytes)) a :=
    (covers_pack_iff hrb hfit (noteBox_fits hrb hfit h)).mpr (noteBox_byte hrb hfit h hlo hhi)
  exact covers_mono hrb hfit (noteBox_fits hrb hfit h) hc hwithin hnote

end

/-!
## The two threads
-/

/-- Where the CPU thread is: between notes, before the load of a note whose bytes are
written, or with the word it read. -/
inductive NotePoint where
  | idle
  | noting (o bytes : Nat)
  | holds (o bytes old : Nat)
deriving DecidableEq, Repr

/-- What happened, for the record: bytes were written, a word was fetched. -/
inductive DirtyEvent where
  | wrote (o bytes : Nat)
  | fetched (e : Nat)
deriving DecidableEq, Repr

/-- The shared word, the CPU thread's point, the record with the latest event first, and
the rectangles of the notes not yet fetched.  A note counts from the moment it is
swapped in, or from the load that finds it covered. -/
structure DirtyState where
  pistorm_fvdi_dirty_rect : Nat
  point : NotePoint
  record : List DirtyEvent
  unfetched : List Box

def DirtyState.start : DirtyState where
  pistorm_fvdi_dirty_rect := fvdiDirtyEmpty
  point := .idle
  record := []
  unfetched := []

/-- The steps of the threads.  A weak swap may fail without a reason. -/
inductive DirtyOp where
  | write (o bytes : Nat)
  | load
  | swap (spurious : Bool)
  | fetch

def DirtyOp.InRoom (rb : Nat) : DirtyOp -> Prop
  | .write o bytes => o + bytes ≤ 0xFFFF * rb
  | _ => True

namespace DirtyState

def read (rb : Nat) (s : DirtyState) (o bytes : Nat) : DirtyState :=
  { s with
    point := .holds o bytes s.pistorm_fvdi_dirty_rect
    unfetched :=
      if noteWord (noteBox rb o bytes) s.pistorm_fvdi_dirty_rect = s.pistorm_fvdi_dirty_rect then
        noteBox rb o bytes :: s.unfetched
      else s.unfetched }

/-- One step; a step that the CPU thread is not at changes nothing. -/
def step (rb : Nat) (s : DirtyState) : DirtyOp -> DirtyState
  | .write o bytes =>
      match s.point with
      | .idle =>
          { s with
            point := if rb = 0 ∨ bytes = 0 then .idle else .noting o bytes
            record := .wrote o bytes :: s.record }
      | _ => s
  | .load =>
      match s.point with
      | .noting o bytes => s.read rb o bytes
      | _ => s
  | .swap spurious =>
      match s.point with
      | .holds o bytes old =>
          if noteWord (noteBox rb o bytes) old = old then { s with point := .idle }
          else if s.pistorm_fvdi_dirty_rect = old ∧ spurious = false then
            { s with
              pistorm_fvdi_dirty_rect := noteWord (noteBox rb o bytes) old
              point := .idle
              unfetched := noteBox rb o bytes :: s.unfetched }
          else s.read rb o bytes
      | _ => s
  | .fetch =>
      { s with
        pistorm_fvdi_dirty_rect := fvdiDirtyEmpty
        record := .fetched s.pistorm_fvdi_dirty_rect :: s.record
        unfetched := [] }

/-- A byte lies inside a word fetched since, or inside the pending one. -/
def Damaged (rb : Nat) (s : DirtyState) (newer : List DirtyEvent) (a : Nat) : Prop :=
  (exists e, DirtyEvent.fetched e ∈ newer ∧ Covers rb e a) ∨ Covers rb s.pistorm_fvdi_dirty_rect a

def UnderWay (s : DirtyState) (newer : List DirtyEvent) : Prop :=
  s.point ≠ .idle ∧ forall o bytes, DirtyEvent.wrote o bytes ∉ newer

end DirtyState

/-!
## What holds in every state
-/

def LastWrite (record newer : List DirtyEvent) (o bytes : Nat) : Prop :=
  (exists older, record = newer ++ .wrote o bytes :: older) ∧
    forall o' bytes', DirtyEvent.wrote o' bytes' ∉ newer

theorem lastWrite_fetched {record newer : List DirtyEvent} {e o bytes : Nat}
    (h : LastWrite (.fetched e :: record) newer o bytes) :
    exists newer', newer = .fetched e :: newer' ∧ LastWrite record newer' o bytes := by
  rcases h with ⟨⟨older, heq⟩, hnone⟩
  cases newer with
  | nil => cases heq
  | cons ev newer' =>
      rw [List.cons_append] at heq
      rcases List.cons.inj heq with ⟨hev, htail⟩
      refine ⟨newer', by rw [hev], ⟨older, htail⟩, ?_⟩
      intro o' bytes' hmem
      exact hnone o' bytes' (List.mem_cons_of_mem _ hmem)

theorem lastWrite_wrote {record newer : List DirtyEvent} {o bytes o' bytes' : Nat}
    (h : LastWrite (.wrote o bytes :: record) newer o' bytes') :
    newer = [] ∧ o' = o ∧ bytes' = bytes := by
  rcases h with ⟨⟨older, heq⟩, hnone⟩
  cases newer with
  | nil =>
      rcases List.cons.inj heq with ⟨hev, _⟩
      cases hev
      exact ⟨rfl, rfl, rfl⟩
  | cons ev newer' =>
      rw [List.cons_append] at heq
      rcases List.cons.inj heq with ⟨hev, _⟩
      exact absurd (hev ▸ List.mem_cons_self) (hnone o bytes)

namespace DirtyState

variable {rb : Nat} {s : DirtyState}

/-- The point agrees with the record.  A word that is held and covers the note already
has been fetched since, or is pending. -/
def PointOk (rb : Nat) (s : DirtyState) : Prop :=
  match s.point with
  | .idle => True
  | .noting o bytes => InRows rb o bytes ∧
      forall newer o' bytes', LastWrite s.record newer o' bytes' -> o' = o ∧ bytes' = bytes
  | .holds o bytes old => InRows rb o bytes ∧ exists c, Fits c ∧ old = fvdiDirtyPack c ∧
      forall newer o' bytes', LastWrite s.record newer o' bytes' -> o' = o ∧ bytes' = bytes ∧
        ((noteBox rb o bytes).Within c -> forall a, o ≤ a -> a < o + bytes -> s.Damaged rb newer a)

/-- The pending rectangle is the bounding box of the notes not yet fetched, and the
bytes of every write but one under way were fetched since or are pending. -/
structure Ok (rb : Nat) (s : DirtyState) : Prop where
  word : s.pistorm_fvdi_dirty_rect = fvdiDirtyPack (Box.bounding emptyBox s.unfetched)
  fits : forall b, b ∈ s.unfetched -> Fits b
  seen : forall newer older o bytes, s.record = newer ++ .wrote o bytes :: older ->
    s.UnderWay newer ∨ forall a, o ≤ a -> a < o + bytes -> s.Damaged rb newer a
  point : s.PointOk rb

theorem fits_bounding {bs : List Box} (h : forall b, b ∈ bs -> Fits b) :
    Fits (Box.bounding emptyBox bs) := by
  induction bs with
  | nil => exact emptyBox_fits
  | cons b bs ih =>
      rw [Box.bounding_cons]
      have hrest := ih fun b' hb' => h b' (List.mem_cons_of_mem _ hb')
      exact hrest.join (h b List.mem_cons_self)

theorem ok_start (rb : Nat) : start.Ok rb where
  word := fvdiDirtyPack_empty.symm
  fits := fun b hb => by cases hb
  seen := by
    intro newer older o bytes heq
    cases newer with
    | nil => cases heq
    | cons ev newer' => cases heq
  point := trivial

theorem noteWord_pack {b c : Box} (hc : Fits c) :
    noteWord b (fvdiDirtyPack c) = fvdiDirtyPack (c.join b) := by
  unfold noteWord
  rw [dirtyFields_pack hc]

theorem noteWord_same_iff {b c : Box} (hb : Fits b) (hc : Fits c) :
    noteWord b (fvdiDirtyPack c) = fvdiDirtyPack c <-> b.Within c := by
  rw [noteWord_pack hc, ← Box.join_eq_left_iff]
  exact ⟨fun h => fvdiDirtyPack_inj (hc.join hb) hc h, fun h => by rw [h]⟩

theorem Damaged.mono {s' : DirtyState} {newer : List DirtyEvent} {a : Nat}
    (h : s.Damaged rb newer a)
    (hgrow : Covers rb s.pistorm_fvdi_dirty_rect a -> Covers rb s'.pistorm_fvdi_dirty_rect a) :
    s'.Damaged rb newer a :=
  Or.imp_right hgrow h

theorem Damaged.fetched {newer : List DirtyEvent} {a : Nat} (h : s.Damaged rb newer a) :
    (s.step rb .fetch).Damaged rb (.fetched s.pistorm_fvdi_dirty_rect :: newer) a := by
  left
  rcases h with ⟨e, hmem, hcovers⟩ | hcovers
  · exact ⟨e, List.mem_cons_of_mem _ hmem, hcovers⟩
  · exact ⟨_, List.mem_cons_self, hcovers⟩

theorem Ok.fetch (h : s.Ok rb) : (s.step rb .fetch).Ok rb := by
  refine ⟨fvdiDirtyPack_empty.symm, fun b hb => (by cases hb), ?_, ?_⟩
  · intro newer older o bytes heq
    cases newer with
    | nil => cases heq
    | cons ev newer' =>
        rcases List.cons.inj heq with ⟨hev, htail⟩
        rw [← hev]
        rcases h.seen newer' older o bytes htail with ⟨hbusy, hnone⟩ | hseen
        · left
          refine ⟨hbusy, ?_⟩
          intro o' bytes' hmem
          rcases List.mem_cons.mp hmem with hhead | hmem
          · cases hhead
          · exact hnone o' bytes' hmem
        · right
          intro a hlo hhi
          exact (hseen a hlo hhi).fetched
  · have hpoint := h.point
    unfold PointOk at hpoint ⊢
    have hsame : (s.step rb .fetch).point = s.point := rfl
    rw [hsame]
    cases hat : s.point with
    | idle => trivial
    | noting o bytes =>
        rw [hat] at hpoint
        refine ⟨hpoint.1, ?_⟩
        intro newer o' bytes' hlast
        rcases lastWrite_fetched hlast with ⟨newer', _, hlast'⟩
        exact hpoint.2 newer' o' bytes' hlast'
    | holds o bytes old =>
        rw [hat] at hpoint
        rcases hpoint with ⟨hrows, c, hfits, hold, hrecord⟩
        refine ⟨hrows, c, hfits, hold, ?_⟩
        intro newer o' bytes' hlast
        rcases lastWrite_fetched hlast with ⟨newer', hnewer, hlast'⟩
        rcases hrecord newer' o' bytes' hlast' with ⟨ho, hbytes, hcovered⟩
        refine ⟨ho, hbytes, ?_⟩
        intro hwithin a hlo hhi
        rw [hnewer]
        exact (hcovered hwithin a hlo hhi).fetched

theorem Ok.write (h : s.Ok rb) {o bytes : Nat} (hroom : o + bytes ≤ 0xFFFF * rb) :
    (s.step rb (.write o bytes)).Ok rb := by
  unfold step
  dsimp only
  cases hat : s.point with
  | noting o' bytes' => exact h
  | holds o' bytes' old => exact h
  | idle =>
      refine ⟨h.word, h.fits, ?_, ?_⟩
      · intro newer older o' bytes' heq
        cases newer with
        | nil =>
            rcases List.cons.inj heq with ⟨hev, _⟩
            cases hev
            rcases Nat.eq_zero_or_pos bytes with hnone | hsome
            · right
              intro a hlo hhi
              lia
            · have hrb : rb ≠ 0 := by
                rintro rfl
                lia
              left
              refine ⟨?_, fun o' bytes' hmem => by cases hmem⟩
              dsimp only
              rw [if_neg (by lia)]
              intro hidle
              cases hidle
        | cons ev newer' =>
            rcases List.cons.inj heq with ⟨hev, htail⟩
            right
            rcases h.seen newer' older o' bytes' htail with ⟨hbusy, _⟩ | hseen
            · exact absurd hat hbusy
            · intro a hlo hhi
              rcases hseen a hlo hhi with ⟨e, hmem, hcovers⟩ | hcovers
              · exact Or.inl ⟨e, List.mem_cons_of_mem _ hmem, hcovers⟩
              · exact Or.inr hcovers
      · rcases Classical.em (rb = 0 ∨ bytes = 0) with hnothing | hnote
        · rw [if_pos hnothing]
          trivial
        · rw [if_neg hnote]
          refine ⟨⟨by lia, hroom⟩, ?_⟩
          intro newer o' bytes' hlast
          rcases lastWrite_wrote hlast with ⟨_, ho, hbytes⟩
          exact ⟨ho, hbytes⟩

theorem Ok.ended (h : s.Ok rb) {s' : DirtyState} (o bytes : Nat) (hidle : s'.point = .idle)
    (hrecord : s'.record = s.record)
    (hword : s'.pistorm_fvdi_dirty_rect = fvdiDirtyPack (Box.bounding emptyBox s'.unfetched))
    (hfits : forall b, b ∈ s'.unfetched -> Fits b)
    (hlast : forall newer o' bytes', LastWrite s.record newer o' bytes' -> o' = o ∧
      bytes' = bytes ∧ forall a, o ≤ a -> a < o + bytes -> s'.Damaged rb newer a)
    (hgrow : forall a, Covers rb s.pistorm_fvdi_dirty_rect a ->
      Covers rb s'.pistorm_fvdi_dirty_rect a) : s'.Ok rb := by
  refine ⟨hword, hfits, ?_, ?_⟩
  · intro newer older o' bytes' heq
    rw [hrecord] at heq
    right
    intro a hlo hhi
    rcases h.seen newer older o' bytes' heq with ⟨_, hnone⟩ | hseen
    · rcases hlast newer o' bytes' ⟨⟨older, heq⟩, hnone⟩ with ⟨ho, hbytes, hdamaged⟩
      rw [ho] at hlo
      rw [ho, hbytes] at hhi
      exact hdamaged a hlo hhi
    · exact (hseen a hlo hhi).mono (hgrow a)
  · unfold PointOk
    rw [hidle]
    trivial

theorem Ok.idle (h : s.Ok rb) {o bytes old : Nat} (hrb : 0 < rb) (hfit : rb ≤ 0xFFFF)
    (hat : s.point = .holds o bytes old)
    (hsame : noteWord (noteBox rb o bytes) old = old) : ({ s with point := .idle } :
      DirtyState).Ok rb := by
  have hpoint := h.point
  unfold PointOk at hpoint
  rw [hat] at hpoint
  rcases hpoint with ⟨hrows, c, hc, hold, hrecord⟩
  rw [hold] at hsame
  have hwithin := (noteWord_same_iff (noteBox_fits hrb hfit hrows) hc).mp hsame
  refine h.ended o bytes rfl rfl h.word h.fits ?_ (fun a hcovers => hcovers)
  intro newer o' bytes' hlast
  rcases hrecord newer o' bytes' hlast with ⟨ho, hbytes, hcovered⟩
  exact ⟨ho, hbytes, hcovered hwithin⟩

theorem Ok.swapped (h : s.Ok rb) {o bytes old : Nat} (hrb : 0 < rb) (hfit : rb ≤ 0xFFFF)
    (hat : s.point = .holds o bytes old) (hcurrent : s.pistorm_fvdi_dirty_rect = old) :
    ({ s with
      pistorm_fvdi_dirty_rect := noteWord (noteBox rb o bytes) old
      point := .idle
      unfetched := noteBox rb o bytes :: s.unfetched } : DirtyState).Ok rb := by
  have hpoint := h.point
  unfold PointOk at hpoint
  rw [hat] at hpoint
  rcases hpoint with ⟨hrows, _, _, _, hrecord⟩
  have hbox := noteBox_fits hrb hfit hrows
  have hall := fits_bounding h.fits
  have hnew : noteWord (noteBox rb o bytes) old =
      fvdiDirtyPack ((Box.bounding emptyBox s.unfetched).join (noteBox rb o bytes)) := by
    rw [← hcurrent, h.word, noteWord_pack hall]
  refine h.ended o bytes rfl rfl ?_ ?_ ?_ ?_
  · rw [Box.bounding_cons]
    exact hnew
  · intro b hb
    rcases List.mem_cons.mp hb with heq | htail
    · rw [heq]
      exact hbox
    · exact h.fits b htail
  · intro newer o' bytes' hlast
    rcases hrecord newer o' bytes' hlast with ⟨ho, hbytes, _⟩
    refine ⟨ho, hbytes, ?_⟩
    intro a hlo hhi
    right
    dsimp only
    rw [hnew]
    exact covers_of_within hrb hfit hrows (hall.join hbox) (Box.within_join_right _ _) hlo hhi
  · intro a hcovers
    rw [h.word] at hcovers
    dsimp only
    rw [hnew]
    exact covers_mono hrb hfit hall (hall.join hbox) (Box.within_join_left _ _) hcovers

theorem Ok.read (h : s.Ok rb) {o bytes : Nat} (hrb : 0 < rb) (hfit : rb ≤ 0xFFFF)
    (hrows : InRows rb o bytes)
    (hrecord : forall newer o' bytes', LastWrite s.record newer o' bytes' ->
      o' = o ∧ bytes' = bytes) : (s.read rb o bytes).Ok rb := by
  have hbox := noteBox_fits hrb hfit hrows
  have hall := fits_bounding h.fits
  have hcase : noteWord (noteBox rb o bytes) s.pistorm_fvdi_dirty_rect =
      s.pistorm_fvdi_dirty_rect <->
        (noteBox rb o bytes).Within (Box.bounding emptyBox s.unfetched) := by
    rw [h.word]
    exact noteWord_same_iff hbox hall
  unfold DirtyState.read
  refine ⟨?_, ?_, ?_, ?_⟩
  · dsimp only
    split
    · next hsame =>
      rw [Box.bounding_cons, Box.join_eq_left_iff.mpr (hcase.mp hsame)]
      exact h.word
    · exact h.word
  · intro b hb
    dsimp only at hb
    split at hb
    · rcases List.mem_cons.mp hb with heq | htail
      · rw [heq]
        exact hbox
      · exact h.fits b htail
    · exact h.fits b hb
  · intro newer older o' bytes' heq
    rcases h.seen newer older o' bytes' heq with ⟨_, hnone⟩ | hseen
    · left
      exact ⟨fun hidle => (by cases hidle), hnone⟩
    · exact Or.inr hseen
  · refine ⟨hrows, _, hall, h.word, ?_⟩
    intro newer o' bytes' hlast
    rcases hrecord newer o' bytes' hlast with ⟨ho, hbytes⟩
    refine ⟨ho, hbytes, ?_⟩
    intro hwithin a hlo hhi
    right
    dsimp only
    rw [h.word]
    exact covers_of_within hrb hfit hrows hall hwithin hlo hhi

theorem Ok.step (h : s.Ok rb) (hrb : 0 < rb) (hfit : rb ≤ 0xFFFF) {op : DirtyOp}
    (hop : op.InRoom rb) : (s.step rb op).Ok rb := by
  have hpoint := h.point
  unfold PointOk at hpoint
  cases op with
  | write o bytes => exact h.write hop
  | load =>
      unfold DirtyState.step
      dsimp only
      cases hat : s.point with
      | idle => exact h
      | holds o bytes old => exact h
      | noting o bytes =>
          rw [hat] at hpoint
          exact h.read hrb hfit hpoint.1 hpoint.2
  | swap spurious =>
      unfold DirtyState.step
      dsimp only
      cases hat : s.point with
      | idle => exact h
      | noting o bytes => exact h
      | holds o bytes old =>
          rw [hat] at hpoint
          dsimp only
          split
          · next hsame => exact h.idle hrb hfit hat hsame
          · split
            · next hcurrent => exact h.swapped hrb hfit hat hcurrent.1
            · rcases hpoint with ⟨hrows, c, _, _, hrecord⟩
              apply h.read hrb hfit hrows
              intro newer o' bytes' hlast
              rcases hrecord newer o' bytes' hlast with ⟨ho, hbytes, _⟩
              exact ⟨ho, hbytes⟩
  | fetch => exact h.fetch

/-- In every run of the two threads, with rows of at most 65535 bytes and writes in the
first 65535 rows: each byte of a write whose note has returned lies inside a word
fetched after the write or inside the pending one, and the pending word is the empty
one or the exact bounding box of the notes not yet fetched. -/
theorem fvdi_damage_kept (rb : Nat) (hrb : 0 < rb) (hfit : rb ≤ 0xFFFF) (ops : List DirtyOp)
    (hrows : Steps (step rb) (fun _ => DirtyOp.InRoom rb) start ops) :
    let s := run (step rb) start ops
    (forall newer older o bytes, s.record = newer ++ .wrote o bytes :: older ->
      s.UnderWay newer ∨ forall a, o ≤ a -> a < o + bytes -> s.Damaged rb newer a) ∧
    s.pistorm_fvdi_dirty_rect = fvdiDirtyPack (Box.bounding emptyBox s.unfetched) ∧
    (s.unfetched = [] -> s.pistorm_fvdi_dirty_rect = fvdiDirtyEmpty) := by
  have hstep : forall s op, Ok rb s -> DirtyOp.InRoom rb op -> Ok rb (step rb s op) :=
    fun s op hok hop => hok.step hrb hfit hop
  have hend : (run (step rb) start ops).Ok rb := hrows.invariant hstep (ok_start rb)
  refine ⟨hend.seen, hend.word, ?_⟩
  intro hnone
  rw [hend.word, hnone]
  exact fvdiDirtyPack_empty

def takenBetween : List DirtyOp :=
  [.write 0 4, .load, .swap false, .write 0 4, .load, .fetch, .swap false]

theorem fvdi_damage_kept_between :
    Covers 2560 (fvdiDirtyPack (noteBox 2560 0 4)) 3 ∧
      (run (step 2560) start takenBetween).pistorm_fvdi_dirty_rect = fvdiDirtyEmpty ∧
      (run (step 2560) start takenBetween).Damaged 2560
        [.fetched (fvdiDirtyPack (noteBox 2560 0 4))] 3 := by
  have hroom : 0 + 4 ≤ 0xFFFF * 2560 := by decide
  have hkept := fvdi_damage_kept 2560 (by decide) (by decide) takenBetween
    ⟨hroom, trivial, trivial, hroom, trivial, trivial, trivial, trivial⟩
  refine ⟨by decide, hkept.2.2 rfl, ?_⟩
  rcases hkept.1 [.fetched (fvdiDirtyPack (noteBox 2560 0 4))] [.wrote 0 4] 0 4 rfl with
    hbusy | hseen
  · exact absurd rfl hbusy.1
  · exact hseen 3 (by decide) (by decide)

/-- A byte past the first 65535 rows, in a mode of 64 by 64 pixels: the last row of its
note is cut to its field. -/
theorem far_byte_lost :
    let s := run (step 64) start [.write 4194240 1, .load, .swap false]
    s.record = [.wrote 4194240 1] ∧ ¬ s.UnderWay [] ∧ ¬ s.Damaged 64 [] 4194240 := by
  refine ⟨rfl, fun hbusy => hbusy.1 rfl, ?_⟩
  rintro (⟨e, hmem, _⟩ | hcovers)
  · cases hmem
  · exact absurd hcovers (by decide)

end DirtyState

end Natmem
end PistormAtari
