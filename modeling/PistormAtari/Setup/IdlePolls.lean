import PistormAtari.Setup.PageLoop

/-!
# Polls without a key

A poll that returns no key goes through the chain of modes like any other.  It leaves
the page alone except in two modes: the question before a build is deleted takes it for
an answer, and a picker that has opened on a file below its last line scrolls to it.
-/

namespace PistormAtari
namespace Setup

open Foundation

variable {chosenLen : Nat}

/-!
## The rows settle
-/

theorem length_tabKeys_le (tab : Tab) : (tabKeys tab).length ≤ listRoom := by
  cases tab <;> decide

theorem length_keyRows_le (c : Cfg) (sec : Text) (tab : Tab) :
    (keyRows c sec tab).length ≤ listRoom := by
  refine le_trans ?_ (length_tabKeys_le tab)
  unfold keyRows
  rw [List.length_take, List.length_map]
  exact le_trans (min_le_right _ _) (List.length_filter_le _ _)

theorem editorRows_ne_nil (c : Cfg) (sec : Text) (tab : Tab) : editorRows c sec tab ≠ [] := by
  unfold editorRows footerRows
  simp

/-- The list of a tab fits the screen, so it is never scrolled. -/
theorem scrolled_eq_zero {nk room : Nat} (h : nk ≤ room) (sel top : Nat) :
    scrolled nk room sel top = 0 := by
  unfold scrolled
  dsimp only
  rw [Nat.sub_eq_zero_of_le h]
  exact Nat.min_zero _

variable {rows : List Row}

theorem moveDown_lt {sel : Nat} (h : sel < rows.length) :
    moveDown rows sel < rows.length := by
  unfold moveDown
  cases hfind : (rows.drop (sel + 1)).findIdx? Row.usable with
  | none => exact h
  | some i =>
      rcases List.findIdx?_eq_some_iff_getElem.mp hfind with ⟨hi, -, -⟩
      rw [List.length_drop] at hi
      dsimp only
      lia

theorem usable_moveDown {sel last : Nat} (hsel : sel < last)
    (hlast : last < rows.length) (husable : (rows.getD last {}).usable = true) :
    moveDown rows sel ≠ sel ∧ (rows.getD (moveDown rows sel) {}).usable = true := by
  unfold moveDown
  cases hfind : (rows.drop (sel + 1)).findIdx? Row.usable with
  | none =>
      exfalso
      rw [List.findIdx?_eq_none_iff] at hfind
      have hmem : rows.getD last {} ∈ rows.drop (sel + 1) := by
        rw [List.getD_eq_getElem _ _ hlast]
        apply List.mem_drop_iff_getElem.mpr
        have hindex : last - (sel + 1) + (sel + 1) < rows.length := by lia
        refine ⟨last - (sel + 1), by lia, ?_⟩
        congr 1
        lia
      exact absurd (hfind _ hmem) (by rw [husable]; decide)
  | some i =>
      rcases List.findIdx?_eq_some_iff_getElem.mp hfind with ⟨hi, hok, -⟩
      rw [List.getElem_drop] at hok
      constructor
      · dsimp only
        lia
      · dsimp only
        rw [List.getD_eq_getElem _ _ (by rw [List.length_drop] at hi; lia)]
        exact hok

theorem usable_footer (c : Cfg) (sec : Text) (tab : Tab) :
    ((editorRows c sec tab).getD ((editorRows c sec tab).length - 1) {}).usable = true := by
  have hlen : (editorRows c sec tab).length - 1 =
      (if tab = .drives then driveRows c sec else keyRows c sec tab).length + 1 := by
    unfold editorRows
    rw [List.length_append]
    rfl
  rw [hlen]
  unfold editorRows
  rw [List.getD_append_right _ _ _ _ (Nat.le_add_right _ 1), Nat.add_sub_cancel_left]
  rfl

theorem settle_spec {sel : Nat} (hsel : sel < rows.length)
    (hlast : (rows.getD (rows.length - 1) {}).usable = true) :
    settle rows sel < rows.length ∧ (rows.getD (settle rows sel) {}).usable = true := by
  unfold settle
  cases hhere : (rows.getD sel {}).usable with
  | true =>
      rw [if_pos rfl]
      exact ⟨hsel, hhere⟩
  | false =>
      have hne : sel ≠ rows.length - 1 := by
        rintro rfl
        exact absurd (hhere.symm.trans hlast) Bool.false_ne_true
      have hbelow : sel < rows.length - 1 := by lia
      rcases usable_moveDown hbelow (by lia) hlast with ⟨hmoved, husable⟩
      rw [if_neg Bool.false_ne_true, if_neg hmoved]
      exact ⟨moveDown_lt hsel, husable⟩

theorem settle_of_usable {sel : Nat} (h : (rows.getD sel {}).usable = true) :
    settle rows sel = sel := by
  unfold settle
  rw [if_pos h]

theorem buildRows_buildRows (p : Page) : p.buildRows.buildRows = p.buildRows := by
  have hlast := usable_footer p.cfg p.sec p.tab
  have hpos : 0 < (editorRows p.cfg p.sec p.tab).length :=
    List.length_pos_iff.mpr (editorRows_ne_nil _ _ _)
  have hmin : min p.sel ((editorRows p.cfg p.sec p.tab).length - 1) <
      (editorRows p.cfg p.sec p.tab).length := by lia
  rcases settle_spec hmin hlast with ⟨hlt, husable⟩
  have hsel : min (settle (editorRows p.cfg p.sec p.tab)
      (min p.sel ((editorRows p.cfg p.sec p.tab).length - 1)))
      ((editorRows p.cfg p.sec p.tab).length - 1) = settle (editorRows p.cfg p.sec p.tab)
      (min p.sel ((editorRows p.cfg p.sec p.tab).length - 1)) := by lia
  have htop (sel top : Nat) (htab : p.tab ≠ .drives) :
      scrolled ((editorRows p.cfg p.sec p.tab).length - 2) listRoom sel top = 0 := by
    apply scrolled_eq_zero
    unfold editorRows footerRows
    rw [if_neg htab, List.length_append]
    exact length_keyRows_le _ _ _
  unfold Page.buildRows
  dsimp only
  rw [hsel, settle_of_usable husable]
  congr 1
  rcases Decidable.em (p.tab = .drives) with hdrives | hother
  · rw [if_pos hdrives, if_pos hdrives]
  · rw [if_neg hother, if_neg hother, htop _ _ hother, htop _ _ hother]

theorem redrawn_redrawn (p : Page) : p.redrawn.redrawn = p.redrawn := by
  cases hscreen : p.screen with
  | builds =>
      have hsame : p.redrawn = p := by
        unfold Page.redrawn
        rw [hscreen]
      rw [hsame, hsame]
  | edit =>
      have hbuilt : p.redrawn = p.buildRows := by
        unfold Page.redrawn
        rw [hscreen]
      have hagain : p.buildRows.redrawn = p.buildRows.buildRows := by
        unfold Page.redrawn
        rw [show p.buildRows.screen = .edit from hscreen]
      rw [hbuilt, hagain, buildRows_buildRows]

/-!
## What holds before every poll
-/

/-- The rows are those of the file, and while the countdown runs no key has come. -/
structure Drawn (l : Loop) : Prop where
  redrawn : l.page.redrawn = l.page
  counting : 0 < l.secs -> l.page.screen = .builds ∧ l.page.asking = false

def Ready : Except Outcome Loop -> Prop
  | .ok l => Drawn l
  | .error _ => True

def OnPage (ok : Loop -> Poll -> Prop) (s : Except Outcome Loop) (q : Poll) : Prop :=
  forall l, s = .ok l -> ok l q

/-- A poll without a key leaves the page as it is, unless it ends the countdown. -/
def IdleUnchanged (chosenLen : Nat) (l : Loop) (q : Poll) : Prop :=
  q.event.key = .none ->
    match turn chosenLen l q with
    | .ok l' => l'.page = l.page
    | .error o => 0 < l.secs ∧ o = l.page.bootNow chosenLen q.world

def Page.Calm (p : Page) : Prop :=
  match p.screen with
  | .builds => p.naming = true ∨ p.copying = true ∨ p.asking = false
  | .edit => p.picking = true -> p.ptop ≤ p.pick ∧ p.pick < p.ptop + (p.listRows - 1)

def IdleCalm (l : Loop) (q : Poll) : Prop :=
  q.event.key = .none -> l.page.Calm

theorem drawn_start (cfg : Cfg) (now : Nat) : Drawn (Loop.start cfg now) :=
  ⟨rfl, fun _ => ⟨rfl, rfl⟩⟩

variable {l : Loop}

theorem Drawn.listRows (h : Drawn l) (hscreen : l.page.screen = .edit) :
    l.page.listRows = listRoom := by
  have hrows := h.redrawn
  unfold Page.redrawn at hrows
  rw [hscreen] at hrows
  rw [← hrows]
  rfl

/-!
## What a poll without a key does
-/

theorem scrollPick_of_shown {p : Page} (h : p.ptop ≤ p.pick ∧ p.pick < p.ptop + (p.listRows - 1)) :
    p.scrollPick = p := by
  unfold Page.scrollPick
  dsimp only
  rw [if_neg (by lia), if_neg (by lia)]

theorem ptop_scrollPick_ne {p : Page} (hrows : 1 < p.listRows)
    (h : ¬ (p.ptop ≤ p.pick ∧ p.pick < p.ptop + (p.listRows - 1))) :
    p.scrollPick.ptop ≠ p.ptop := by
  unfold Page.scrollPick
  dsimp only
  rcases Nat.lt_or_ge p.pick p.ptop with hbelow | habove
  · rw [if_pos hbelow]
    dsimp only
    rw [if_neg (by lia)]
    exact Nat.ne_of_lt hbelow
  · rw [if_neg (not_lt.mpr habove), if_pos (by lia)]
    dsimp only
    lia

theorem handle_idle_of_calm {p : Page} (h : p.Calm) (w : World) (ch : Char) :
    p.handle chosenLen w { key := .none, ch := ch } = .ok p := by
  unfold Page.Calm at h
  unfold Page.handle
  cases hscreen : p.screen with
  | builds =>
      rw [hscreen] at h
      dsimp only at h ⊢
      split
      · rfl
      · split
        · rfl
        · next hnaming hcopying =>
          have hasking : p.asking = false := by
            rcases h with h | h | h
            · exact absurd h hnaming
            · exact absurd h hcopying
            · exact h
          rw [if_neg (by rw [hasking]; exact Bool.false_ne_true)]
          rfl
  | edit =>
      rw [hscreen] at h
      dsimp only at h ⊢
      split
      · next hpicking =>
        show Except.ok p.scrollPick = _
        rw [scrollPick_of_shown (h hpicking)]
      · split
        · rfl
        · split
          · rfl
          · rfl

theorem handle_idle_of_not_calm (chosenLen : Nat) {p : Page} (h : ¬ p.Calm)
    (hrows : p.screen = .edit -> 1 < p.listRows) (w : World) (ch : Char) :
    exists p', p.handle chosenLen w { key := .none, ch := ch } = .ok p' ∧ p'.redrawn ≠ p := by
  unfold Page.Calm at h
  unfold Page.handle
  cases hscreen : p.screen with
  | builds =>
      rw [hscreen] at h
      dsimp only at h ⊢
      rw [not_or, not_or] at h
      rcases h with ⟨hnaming, hcopying, hasking⟩
      rw [if_neg hnaming, if_neg hcopying, if_pos (Bool.of_not_eq_false hasking)]
      refine ⟨_, rfl, ?_⟩
      intro heq
      have hfield : (p.askKey { key := .none, ch := ch }).redrawn.asking = false := by
        unfold Page.redrawn
        rw [show (p.askKey { key := .none, ch := ch }).screen = .builds from hscreen]
        rfl
      rw [heq] at hfield
      exact hasking hfield
  | edit =>
      rw [hscreen] at h
      dsimp only at h ⊢
      rw [Classical.not_imp] at h
      rcases h with ⟨hpicking, hshown⟩
      rw [if_pos hpicking]
      refine ⟨p.scrollPick, rfl, ?_⟩
      intro heq
      have hfield : p.scrollPick.redrawn.ptop = p.scrollPick.ptop := by
        unfold Page.redrawn
        split
        · rfl
        · rfl
      rw [heq] at hfield
      exact ptop_scrollPick_ne (hrows hscreen) hshown hfield.symm

theorem pressed_idle (w : World) (p : Page) {e : Event} (h : e.key = .none) :
    p.pressed chosenLen w e = p.handle chosenLen w { key := .none, ch := e.ch } := by
  cases e with
  | mk key ch =>
      dsimp only at h
      rw [h]
      rfl

theorem countdown_stopped (h : l.secs ≤ 0) (w : World) (now : Nat) :
    countdown chosenLen l w now = .ok l := by
  unfold countdown
  rw [if_neg (by lia)]

theorem countdown_cases (chosenLen : Nat) (l : Loop) (w : World) (now : Nat) :
    (exists l', countdown chosenLen l w now = .ok l' ∧ l'.page = l.page ∧ l'.secs ≤ l.secs) ∨
      (0 < l.secs ∧ countdown chosenLen l w now = .error (l.page.bootNow chosenLen w)) := by
  unfold countdown
  split
  · next hdue =>
    split
    · exact Or.inr ⟨hdue.1, rfl⟩
    · exact Or.inl ⟨_, rfl, rfl, by dsimp only; lia⟩
  · exact Or.inl ⟨l, rfl, rfl, le_refl _⟩

/-- A turn without a key on a calm page. -/
theorem turn_idle_of_calm (hdrawn : Drawn l) {q : Poll} (hkey : q.event.key = .none)
    (hcalm : l.page.Calm) :
    turn chosenLen l q = countdown chosenLen l q.world q.now := by
  unfold turn
  dsimp only
  rw [pressed_idle _ _ hkey, handle_idle_of_calm hcalm, if_neg (by rw [hkey]; simp)]
  dsimp only
  rcases countdown_cases chosenLen l q.world q.now with
    ⟨l', hok, hpage, -⟩ | ⟨-, herror⟩
  · rw [hok]
    dsimp only
    rw [hpage, hdrawn.redrawn, ← hpage]
  · rw [herror]

theorem calm_of_counting (hdrawn : Drawn l) (h : 0 < l.secs) : l.page.Calm := by
  rcases hdrawn.counting h with ⟨hscreen, hasking⟩
  unfold Page.Calm
  rw [hscreen]
  exact Or.inr (Or.inr hasking)

theorem idleUnchanged_iff_calm (hdrawn : Drawn l) (q : Poll) :
    IdleUnchanged chosenLen l q <-> IdleCalm l q := by
  constructor
  · intro h hkey
    apply Classical.byContradiction
    intro hcalm
    have hstopped : l.secs ≤ 0 := by
      have hnot := mt (calm_of_counting hdrawn) hcalm
      lia
    have hrows : l.page.screen = .edit -> 1 < l.page.listRows := by
      intro hscreen
      rw [hdrawn.listRows hscreen]
      decide
    rcases handle_idle_of_not_calm chosenLen hcalm hrows q.world q.event.ch with
      ⟨p', hok, hchanged⟩
    have hturn := h hkey
    unfold turn at hturn
    dsimp only at hturn
    rw [pressed_idle _ _ hkey, hok, if_neg (by rw [hkey]; simp)] at hturn
    dsimp only at hturn
    rw [countdown_stopped (l := { l with page := p' }) hstopped] at hturn
    exact hchanged hturn
  · intro h hkey
    rw [turn_idle_of_calm hdrawn hkey (h hkey)]
    rcases countdown_cases chosenLen l q.world q.now with
      ⟨l', hok, hpage, -⟩ | ⟨hcounting, herror⟩
    · rw [hok]
      exact hpage
    · rw [herror]
      exact ⟨hcounting, rfl⟩

/-!
## Runs
-/

theorem Drawn.turn (hdrawn : Drawn l) (q : Poll) (hcalm : IdleCalm l q) :
    Ready (turn chosenLen l q) := by
  rcases Decidable.em (q.event.key = .none) with hidle | hkey
  · rw [turn_idle_of_calm hdrawn hidle (hcalm hidle)]
    rcases countdown_cases chosenLen l q.world q.now with
      ⟨l', hok, hpage, hsecs⟩ | ⟨-, herror⟩
    · rw [hok]
      constructor
      · rw [hpage]
        exact hdrawn.redrawn
      · intro hcounting
        rw [hpage]
        exact hdrawn.counting (lt_of_lt_of_le hcounting hsecs)
    · rw [herror]
      trivial
  · unfold Setup.turn
    dsimp only
    have hstopped : (if q.event.key ≠ .none ∧ 0 < l.secs then -1 else l.secs) ≤ 0 := by
      split
      · decide
      · next hnot =>
        rcases not_and_or.mp hnot with hnone | hzero
        · exact absurd hkey hnone
        · lia
    cases l.page.pressed chosenLen q.world q.event with
    | error o => trivial
    | ok p =>
        dsimp only
        rw [countdown_stopped hstopped]
        constructor
        · exact redrawn_redrawn p
        · intro hcounting
          exact absurd hcounting (not_lt.mpr hstopped)

variable {s : Except Outcome Loop}

theorem Ready.step (hs : Ready s) (q : Poll)
    (hcalm : OnPage IdleCalm s q) : Ready (step chosenLen s q) := by
  cases s with
  | ok l => exact Drawn.turn hs q (hcalm l rfl)
  | error o => trivial

theorem onPage_unchanged_iff (hs : Ready s) (q : Poll) :
    OnPage (IdleUnchanged chosenLen) s q <-> OnPage IdleCalm s q := by
  unfold OnPage
  apply forall_congr'
  intro l
  apply imp_congr_right
  rintro rfl
  exact idleUnchanged_iff_calm hs q

def Poll.busy (q : Poll) : Bool :=
  q.event.key ≠ .none

def Stopped : Except Outcome Loop -> Prop
  | .ok l => Drawn l ∧ l.secs ≤ 0
  | .error _ => True

theorem Stopped.step_idle (hs : Stopped s) (q : Poll)
    (hcalm : OnPage IdleCalm s q) (hidle : q.busy = false) : step chosenLen s q = s := by
  cases s with
  | ok l =>
      have hkey : q.event.key = .none := by
        unfold Poll.busy at hidle
        simpa using hidle
      show Setup.turn chosenLen l q = _
      rw [turn_idle_of_calm hs.1 hkey (hcalm l rfl hkey), countdown_stopped hs.2]
  | error o => rfl

theorem Stopped.step (hs : Stopped s) (q : Poll)
    (hcalm : OnPage IdleCalm s q) : Stopped (step chosenLen s q) := by
  cases s with
  | error o => trivial
  | ok l =>
      have hready : Ready (Setup.turn chosenLen l q) := Drawn.turn hs.1 q (hcalm l rfl)
      show Stopped (Setup.turn chosenLen l q)
      cases hturn : Setup.turn chosenLen l q with
      | error o => trivial
      | ok l' =>
          rw [hturn] at hready
          refine ⟨hready, ?_⟩
          unfold Setup.turn at hturn
          dsimp only at hturn
          have hstopped : (if q.event.key ≠ .none ∧ 0 < l.secs then -1 else l.secs) ≤ 0 := by
            split
            · decide
            · exact hs.2
          cases hpressed : l.page.pressed chosenLen q.world q.event with
          | error o =>
              rw [hpressed] at hturn
              cases hturn
          | ok p =>
              rw [hpressed] at hturn
              dsimp only at hturn
              rw [countdown_stopped hstopped] at hturn
              cases hturn
              exact hstopped

/-- In a run of the page, every poll without a key leaves the page as it is exactly when
none comes while a question waits for its answer or the picker has to scroll.  Then, once
the countdown has stopped, such polls make no difference to how the run goes on. -/
theorem idle_polls_iff_calm (chosenLen : Nat) (cfg : Cfg) (now : Nat) (polls : List Poll) :
    (Steps (step chosenLen) (OnPage (IdleUnchanged chosenLen)) (.ok (Loop.start cfg now)) polls <->
      Steps (step chosenLen) (OnPage IdleCalm) (.ok (Loop.start cfg now)) polls) ∧
    forall (l : Loop) (later : List Poll),
      Steps (step chosenLen) (OnPage IdleCalm) (.ok (Loop.start cfg now)) (polls ++ later) ->
      run (step chosenLen) (.ok (Loop.start cfg now)) polls = .ok l -> l.secs ≤ 0 ->
      run (step chosenLen) (.ok l) later =
        run (step chosenLen) (.ok l) (later.filter Poll.busy) := by
  have hstart : Ready (.ok (Loop.start cfg now)) := drawn_start cfg now
  have hkeeps (s : Except Outcome Loop) (q : Poll) (hs : Ready s)
      (hcalm : OnPage IdleCalm s q) : Ready (step chosenLen s q) := Ready.step hs q hcalm
  constructor
  · have hiff (s : Except Outcome Loop) (q : Poll) (hs : Ready s) :
        OnPage (IdleUnchanged chosenLen) s q <-> OnPage IdleCalm s q := onPage_unchanged_iff hs q
    exact Steps.iff_of_invariant hkeeps hiff hstart
  · intro l later hcalm hrun hsecs
    rcases Steps.append_iff.mp hcalm with ⟨hbefore, hafter⟩
    have hready := Steps.invariant hkeeps hstart hbefore
    rw [hrun] at hready hafter
    have hstopped : Stopped (.ok l) := ⟨hready, hsecs⟩
    have hstays (s : Except Outcome Loop) (q : Poll) (hs : Stopped s)
        (hcalm : OnPage IdleCalm s q) : Stopped (step chosenLen s q) := hs.step q hcalm
    have hidle (s : Except Outcome Loop) (q : Poll) (hs : Stopped s)
        (hcalm : OnPage IdleCalm s q) (hbusy : q.busy = false) : step chosenLen s q = s :=
      hs.step_idle q hcalm hbusy
    exact Steps.run_filter Poll.busy hstays hidle hstopped hafter

/-- Two builds, D, and a tenth of a second without a key. -/
theorem idle_poll_answers_question :
    ¬ forall (chosenLen : Nat) (cfg : Cfg) (now : Nat) (polls : List Poll),
      Steps (step chosenLen) (OnPage (IdleUnchanged chosenLen)) (.ok (Loop.start cfg now))
        polls := by
  intro hall
  let cfg : Cfg := { line := loadLines [] (texts ["[a]", "[b]"]) }
  let letter : Poll := { event := { key := .char, ch := 'd' }, world := {}, now := 0 }
  let idle : Poll := { event := { key := .none }, world := {}, now := 0 }
  have hsteps := hall 16 cfg 0 [letter, idle]
  have hasked : (match step 16 (.ok (Loop.start cfg 0)) letter with
      | .ok l => (l.page.screen, l.page.naming, l.page.copying, l.page.asking)
      | .error _ => (.edit, true, true, false)) = (.builds, false, false, true) := by decide
  have hkey : OnPage IdleCalm (.ok (Loop.start cfg 0)) letter := fun _ _ hnone => nomatch hnone
  have hready : Ready (.ok (Loop.start cfg 0)) := drawn_start cfg 0
  have hdrawn : Ready (step 16 (.ok (Loop.start cfg 0)) letter) := hready.step letter hkey
  have hunchanged := hsteps.2.1
  cases hstep : step 16 (.ok (Loop.start cfg 0)) letter with
  | error o =>
      rw [hstep] at hasked
      cases hasked
  | ok l =>
      rw [hstep] at hasked hdrawn hunchanged
      dsimp only at hasked
      rcases Prod.mk.inj hasked with ⟨hscreen, hrest⟩
      rcases Prod.mk.inj hrest with ⟨hnaming, hrest⟩
      rcases Prod.mk.inj hrest with ⟨hcopying, hasking⟩
      have hcalm := (idleUnchanged_iff_calm hdrawn idle).mp (hunchanged l rfl) rfl
      unfold Page.Calm at hcalm
      rw [hscreen] at hcalm
      rcases hcalm with h | h | h
      · exact absurd (hnaming.symm.trans h) Bool.false_ne_true
      · exact absurd (hcopying.symm.trans h) Bool.false_ne_true
      · exact absurd (h.symm.trans hasking) Bool.false_ne_true

end Setup
end PistormAtari
