import PistormAtari.Services.DosClient

/-!
# What a session is sent

A call that has seen a session may put its command into the ring after that session is over.
The next session finds it there.
-/

namespace PistormAtari
namespace Services

open Foundation

theorem psdosRingN_lt : psdosRingN < 2 ^ 32 := by decide
theorem psdosRingN_dvd : psdosRingN ∣ 2 ^ 32 := by decide
theorem pswebRingN_lt : pswebRingN < 2 ^ 32 := by decide
theorem pswebRingN_dvd : pswebRingN ∣ 2 ^ 32 := by decide

/-!
## The DOS client
-/

def DosHelloClear (s : DosClient) (op : DosStep) : Prop :=
  op = .hello -> s.connector = .session -> s.link.connected = false ->
    s.link.ring.tail = s.link.ring.head

instance (s : DosClient) (op : DosStep) : Decidable (DosHelloClear s op) :=
  inferInstanceAs (Decidable (_ -> _ -> _ -> _))

structure DosOrderly (s : DosClient) : Prop where
  link : s.link.Orderly psdosRingN
  closed : s.connector ≠ .session -> s.link.connected = false

structure DosApart (s : DosClient) : Prop extends DosOrderly s where
  apart : s.link.Apart

inductive Pushes (size : Nat) {ε : Type} (l : SessionRing ε) : SessionRing ε -> Prop where
  | same : Pushes size l l
  | push (v : ε) : Pushes size l (l.push size v)

theorem Pushes.connected {size : Nat} {ε : Type} {l l' : SessionRing ε} (h : Pushes size l l') :
    l'.connected = l.connected := by
  cases h with
  | same => rfl
  | push v =>
      unfold SessionRing.push
      split
      · rfl
      · rfl

theorem Pushes.orderly {size : Nat} {ε : Type} {l l' : SessionRing ε} (h : Pushes size l l')
    (hsize : size < 2 ^ 32) (hdvd : size ∣ 2 ^ 32) (hl : l.Orderly size) : l'.Orderly size := by
  cases h with
  | same => exact hl
  | push v => exact hl.push hsize hdvd v

theorem Pushes.apart {size : Nat} {ε : Type} {l l' : SessionRing ε} (h : Pushes size l l')
    (hl : l.Apart) : l'.Apart := by
  cases h with
  | same => exact hl
  | push v => exact hl.push v

theorem finish_pushes (s : DosClient) (call : DosCall) :
    Pushes psdosRingN s.link (s.finish call).link ∧ (s.finish call).connector = s.connector := by
  cases call with
  | push cmd => exact ⟨.push cmd, rfl⟩
  | pushInput cmd =>
      unfold DosClient.finish
      dsimp only
      split
      · exact ⟨.push cmd, rfl⟩
      · exact ⟨.same, rfl⟩
  | pushPad cmd =>
      unfold DosClient.finish
      dsimp only
      split
      · exact ⟨.push cmd, rfl⟩
      · exact ⟨.same, rfl⟩
  | setCapture on =>
      unfold DosClient.finish DosClient.psdosSetCapture
      dsimp only
      split
      · exact ⟨.same, rfl⟩
      · split
        · exact ⟨.push keysUpCmd, rfl⟩
        · exact ⟨.same, rfl⟩
  | setFocus focused =>
      unfold DosClient.finish DosClient.psdosSetFocus
      dsimp only
      split
      · split
        · exact ⟨.push keysUpCmd, rfl⟩
        · exact ⟨.same, rfl⟩
      · split
        · exact ⟨.push keysUpCmd, rfl⟩
        · exact ⟨.same, rfl⟩

theorem locked_pushes (s : DosClient) (i : Nat) :
    Pushes psdosRingN s.link (s.locked i).link ∧ (s.locked i).connector = s.connector := by
  unfold DosClient.locked
  split
  · exact ⟨.same, rfl⟩
  · exact finish_pushes { s with calls := s.calls.eraseIdx i } _

theorem begin_link (s : DosClient) (call : DosCall) :
    (s.begin call).link = s.link ∧ (s.begin call).connector = s.connector := by
  cases call with
  | setCapture on => exact ⟨rfl, rfl⟩
  | setFocus focused => exact ⟨rfl, rfl⟩
  | push cmd | pushInput cmd | pushPad cmd =>
      unfold DosClient.begin
      dsimp only
      split
      · exact ⟨rfl, rfl⟩
      · exact ⟨rfl, rfl⟩

theorem dosStep_orderly {s : DosClient} (op : DosStep) (h : DosOrderly s) :
    DosOrderly (dosStep s op) := by
  have hsize := psdosRingN_lt
  have hdvd := psdosRingN_dvd
  cases op with
  | begin call =>
      have hbegin := begin_link s call
      constructor
      · change (s.begin call).link.Orderly psdosRingN
        rw [hbegin.1]
        exact h.link
      · change (s.begin call).connector ≠ .session -> (s.begin call).link.connected = false
        rw [hbegin.1, hbegin.2]
        exact h.closed
  | locked i =>
      have hlocked := locked_pushes s i
      constructor
      · exact hlocked.1.orderly hsize hdvd h.link
      · change (s.locked i).connector ≠ .session -> (s.locked i).link.connected = false
        rw [hlocked.1.connected, hlocked.2]
        exact h.closed
  | freeView => exact { link := h.link, closed := h.closed }
  | connect =>
      unfold dosStep
      dsimp only
      split
      · exact { link := h.link, closed := fun hne => absurd rfl hne }
      · exact h
  | hello =>
      unfold dosStep
      dsimp only
      split
      · next hsession =>
        exact { link := h.link.accept, closed := fun hne => absurd hsession hne }
      · exact h
  | view ready =>
      unfold dosStep
      dsimp only
      split
      · exact { link := h.link, closed := h.closed }
      · exact h
  | drain =>
      unfold dosStep
      dsimp only
      split
      · next hsession =>
        exact { link := h.link.send hsize hdvd, closed := fun hne => absurd hsession hne }
      · exact h
  | disconnect =>
      unfold dosStep
      dsimp only
      split
      · exact { link := h.link.close, closed := fun _ => rfl }
      · exact h
  | dropCapture =>
      unfold dosStep
      dsimp only
      split
      · next hended =>
        refine { link := h.link, closed := fun _ => h.closed ?_ }
        rw [hended]
        exact ConnectorAt.noConfusion
      · exact h
  | clearRing =>
      unfold dosStep
      dsimp only
      split
      · next hreleased =>
        refine { link := h.link.clear, closed := fun _ => h.closed ?_ }
        rw [hreleased]
        exact ConnectorAt.noConfusion
      · exact h

theorem dosStep_link_apart {s : DosClient} {op : DosStep} (horderly : DosOrderly s)
    (h : s.link.Apart) (hok : DosHelloClear s op) : (dosStep s op).link.Apart := by
  cases op with
  | begin call =>
      change (s.begin call).link.Apart
      rw [(begin_link s call).1]
      exact h
  | locked i => exact (locked_pushes s i).1.apart h
  | freeView => exact h
  | connect | view ready | dropCapture =>
      unfold dosStep
      dsimp only
      split
      · exact h
      · exact h
  | hello =>
      unfold dosStep
      dsimp only
      split
      · next hsession => exact h.accept horderly.link psdosRingN_lt (hok rfl hsession)
      · exact h
  | drain =>
      unfold dosStep
      dsimp only
      split
      · exact h.send
      · exact h
  | disconnect =>
      unfold dosStep
      dsimp only
      split
      · exact h.close
      · exact h
  | clearRing =>
      unfold dosStep
      dsimp only
      split
      · next hreleased =>
        refine h.clear (horderly.closed ?_)
        rw [hreleased]
        exact ConnectorAt.noConfusion
      · exact h

theorem dosStep_apart (s : DosClient) (op : DosStep) (h : DosApart s) (hok : DosHelloClear s op) :
    DosApart (dosStep s op) :=
  { dosStep_orderly op h.toDosOrderly with
    apart := dosStep_link_apart h.toDosOrderly h.apart hok }

theorem dosApart_start (w : Nat -> PsdosCmd) : DosApart (DosClient.start w) :=
  { link := SessionRing.orderly_empty psdosRingN w
    closed := fun _ => rfl
    apart := SessionRing.apart_empty w }

theorem dos_leftover_sent {s : DosClient} {op : DosStep} (h : DosOrderly s)
    (hbad : ¬ DosHelloClear s op) : ¬ (dosStep (dosStep s op) .drain).link.Separate := by
  unfold DosHelloClear at hbad
  simp only [Classical.not_imp] at hbad
  rcases hbad with ⟨rfl, hsession, hclosed, hleft⟩
  have hnext : (dosStep (dosStep s .hello) .drain).link = s.link.accept.send psdosRingN := by
    unfold dosStep
    dsimp only
    rw [if_pos hsession, if_pos hsession]
    rfl
  rw [hnext]
  exact SessionRing.not_separate_of_leftover h.link psdosRingN_lt hclosed hleft

theorem dos_separate_of_helloClear {s : DosClient} (h : DosApart s) {ops : List DosStep}
    (hsteps : Steps dosStep DosHelloClear s ops) : (run dosStep s ops).link.Separate := by
  have hinv := Steps.invariant dosStep_apart h hsteps
  exact SessionRing.separate_of_apart hinv.link hinv.apart

/-!
## The web client
-/

def WebHelloClear (s : WebClient) (op : WebStep) : Prop :=
  op = .hello -> s.connector = .session -> s.link.connected = false ->
    s.link.ring.tail = s.link.ring.head

instance (s : WebClient) (op : WebStep) : Decidable (WebHelloClear s op) :=
  inferInstanceAs (Decidable (_ -> _ -> _ -> _))

def WebOrderly (s : WebClient) : Prop := s.link.Orderly pswebRingN

structure WebApart (s : WebClient) : Prop where
  link : WebOrderly s
  apart : s.link.Apart

theorem webStep_orderly {s : WebClient} (op : WebStep) (h : WebOrderly s) :
    WebOrderly (webStep s op) := by
  cases op with
  | begin cmd | connect | view ready =>
      unfold webStep
      dsimp only
      split
      · exact h
      · exact h
  | finish i =>
      unfold webStep
      dsimp only
      split
      · exact h
      · exact SessionRing.Orderly.push h pswebRingN_lt pswebRingN_dvd _
  | hello =>
      unfold webStep
      dsimp only
      split
      · exact SessionRing.Orderly.accept h
      · exact h
  | drain =>
      unfold webStep
      dsimp only
      split
      · exact SessionRing.Orderly.send h pswebRingN_lt pswebRingN_dvd
      · exact h
  | disconnect =>
      unfold webStep
      dsimp only
      split
      · exact SessionRing.Orderly.close h
      · exact h

theorem webStep_link_apart {s : WebClient} {op : WebStep} (horderly : WebOrderly s)
    (h : s.link.Apart) (hok : WebHelloClear s op) : (webStep s op).link.Apart := by
  cases op with
  | begin cmd | connect | view ready =>
      unfold webStep
      dsimp only
      split
      · exact h
      · exact h
  | finish i =>
      unfold webStep
      dsimp only
      split
      · exact h
      · exact h.push _
  | hello =>
      unfold webStep
      dsimp only
      split
      · next hsession => exact h.accept horderly pswebRingN_lt (hok rfl hsession)
      · exact h
  | drain =>
      unfold webStep
      dsimp only
      split
      · exact h.send
      · exact h
  | disconnect =>
      unfold webStep
      dsimp only
      split
      · exact h.close
      · exact h

theorem webStep_apart (s : WebClient) (op : WebStep) (h : WebApart s) (hok : WebHelloClear s op) :
    WebApart (webStep s op) :=
  { link := webStep_orderly op h.link, apart := webStep_link_apart h.link h.apart hok }

theorem webApart_start (w : Nat -> PswebCmd) : WebApart (WebClient.start w) :=
  { link := SessionRing.orderly_empty pswebRingN w, apart := SessionRing.apart_empty w }

theorem web_leftover_sent {s : WebClient} {op : WebStep} (h : WebOrderly s)
    (hbad : ¬ WebHelloClear s op) : ¬ (webStep (webStep s op) .drain).link.Separate := by
  unfold WebHelloClear at hbad
  simp only [Classical.not_imp] at hbad
  rcases hbad with ⟨rfl, hsession, hclosed, hleft⟩
  have hnext : (webStep (webStep s .hello) .drain).link = s.link.accept.send pswebRingN := by
    unfold webStep
    dsimp only
    rw [if_pos hsession, if_pos hsession]
  rw [hnext]
  exact SessionRing.not_separate_of_leftover h pswebRingN_lt hclosed hleft

theorem web_separate_of_helloClear {s : WebClient} (h : WebApart s) {ops : List WebStep}
    (hsteps : Steps webStep WebHelloClear s ops) : (run webStep s ops).link.Separate := by
  have hinv := Steps.invariant webStep_apart h hsteps
  exact SessionRing.separate_of_apart hinv.link hinv.apart

/-!
## Both clients
-/

/-- No session is sent another's command, along a run of either client and wherever the
connector goes on, exactly when every session is accepted with an empty ring. -/
theorem sessions_apart_iff_helloClear (wd : Nat -> PsdosCmd) (ww : Nat -> PswebCmd) :
    (forall ops,
        (forall pre, pre <+: ops ->
            (run dosStep (DosClient.start wd) (pre ++ [.drain])).link.Separate) <->
          Steps dosStep DosHelloClear (DosClient.start wd) ops) ∧
      (forall ops,
        (forall pre, pre <+: ops ->
            (run webStep (WebClient.start ww) (pre ++ [.drain])).link.Separate) <->
          Steps webStep WebHelloClear (WebClient.start ww) ops) := by
  constructor
  · intro ops
    constructor
    · intro h
      have hstep : forall (s : DosClient) op, DosOrderly s -> DosOrderly (dosStep s op) :=
        fun s op hs => dosStep_orderly op hs
      exact Steps.of_continued (fun s => s.link.Separate) .drain hstep
        (fun s op hs hbad => dos_leftover_sent hs hbad) (dosApart_start wd).toDosOrderly h
    · intro h pre hpre
      rcases hpre with ⟨post, rfl⟩
      have hdrain : Steps dosStep DosHelloClear (run dosStep (DosClient.start wd) pre) [.drain] :=
        ⟨fun heq => DosStep.noConfusion heq, trivial⟩
      exact dos_separate_of_helloClear (dosApart_start wd)
        (Steps.append_iff.mpr ⟨(Steps.append_iff.mp h).1, hdrain⟩)
  · intro ops
    constructor
    · intro h
      have hstep : forall (s : WebClient) op, WebOrderly s -> WebOrderly (webStep s op) :=
        fun s op hs => webStep_orderly op hs
      exact Steps.of_continued (fun s => s.link.Separate) .drain hstep
        (fun s op hs hbad => web_leftover_sent hs hbad) (webApart_start ww).link h
    · intro h pre hpre
      rcases hpre with ⟨post, rfl⟩
      have hdrain : Steps webStep WebHelloClear (run webStep (WebClient.start ww) pre) [.drain] :=
        ⟨fun heq => WebStep.noConfusion heq, trivial⟩
      exact web_separate_of_helloClear (webApart_start ww)
        (Steps.append_iff.mpr ⟨(Steps.append_iff.mp h).1, hdrain⟩)

/-- A key press that was looked at in the first session, and a page asked for in it, reach the
second. -/
theorem command_crosses :
    ¬ (run dosStep (DosClient.start fun _ => keysUpCmd)
          [.connect, .hello, .begin (.push (pushEntry .key 1 97 0 0 0 [])), .disconnect,
            .dropCapture, .clearRing, .locked 0, .connect, .hello, .drain]).link.Separate ∧
      ¬ (run webStep
          (WebClient.start fun _ =>
            { type := 0, a := 0, b := 0, c := 0, d := 0, e := 0, f := 0, str := [] })
          [.connect, .hello,
            .begin { type := 6, a := 0, b := 0, c := 0, d := 0, e := 0, f := 0, str := [97] },
            .finish 0, .disconnect, .connect, .hello, .drain]).link.Separate := by
  constructor
  · intro h
    have hsent := h.entered
      { number := 0, opened := 1, value := pushEntry .key 1 97 0 0 0 [] } (by decide)
    exact absurd hsent.2 (by decide)
  · intro h
    have hsent := h.entered
      { number := 0
        opened := 1
        value := { type := 6, a := 0, b := 0, c := 0, d := 0, e := 0, f := 0, str := [97] } }
      (by decide)
    exact absurd hsent.2 (by decide)

end Services
end PistormAtari
