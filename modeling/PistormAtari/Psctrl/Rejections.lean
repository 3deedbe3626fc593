import PistormAtari.Psctrl.SettingsCall

/-!
# Rejected calls

A call that answers REJECT or BUSY should change nothing.  Two do: the translation
cache is written to the shadow before the queue is asked, and a floppy image is closed
before the next one is opened.
-/

namespace PistormAtari
namespace Psctrl

open Foundation
open Config
open Floppy

variable {host : PsHost} {s s' : PsState}

/-- What can be read through the calls, the shadow, the queue and the drives.  A shadow
that is not seeded stands for the running configuration. -/
structure Unchanged (s s' : PsState) : Prop where
  values : forall it, it ∈ gItems -> it.value s' = it.value s
  records : forall it, it ∈ gItems -> describe it s' = describe it s
  strings : forall it, it ∈ gItems -> itemStr it s' = itemStr it s
  boot : seeded s' = seeded s
  bootDirty : s'.bootDirty = s.bootDirty
  pending : s'.pending = s.pending
  armed : s'.armed = s.armed
  driveA : s'.driveA = s.driveA
  driveB : s'.driveB = s.driveB

def PsCall.writes : PsCall -> Bool
  | .setstr _ _ => true
  | .setint _ _ => true
  | .action _ => true
  | _ => false

def Rejected (host : PsHost) (c : PsCall) (s : PsState) : Prop :=
  c.writes = true ∧ ((settingsCall host c s).1 = .result .reject ∨
    (settingsCall host c s).1 = .result .busy)

/-- The calls that change nothing when they are rejected: the cache size is in the shadow
already, or the drive has no image open. -/
def Harmless (host : PsHost) (s : PsState) : PsCall -> Prop
  | .setint p0 v =>
      p0.toNat = cacheIdx -> 0 ≤ v -> v ≤ 4 ->
        (seeded s).jitCache = Int32.ofNat (rung cacheKb v) ∧ (seeded s).jitCacheSet = true
  | .setstr p0 (some str) =>
      forall it b, rowAt p0 = some it -> floppyDrive it.name = some b -> s.fdcBusy = false ->
        (floppyPath host str.chars s).1.isSome = true -> (s.drive b).fd = none
  | _ => True

/-!
## States that read the same
-/

def hiddenTunable : Tunable -> Bool
  | .compConstjump | .compnf | .compfpu | .pissoffMult => true
  | _ => false

structure Alike (s s' : PsState) : Prop where
  boot : seeded s' = seeded s
  bootDirty : s'.bootDirty = s.bootDirty
  pending : s'.pending = s.pending
  armed : s'.armed = s.armed
  driveA : s'.driveA = s.driveA
  driveB : s'.driveB = s.driveB
  currprefs : s'.currprefs = s.currprefs
  readouts : s'.readouts = s.readouts
  mult : s'.tun .pissoffMult = s.tun .pissoffMult
  tun : forall t, hiddenTunable t = false -> s'.tun t = s.tun t

theorem Alike.refl (s : PsState) : Alike s s :=
  ⟨rfl, rfl, rfl, rfl, rfl, rfl, rfl, rfl, rfl, fun _ _ => rfl⟩

theorem Alike.trans {s'' : PsState} (h : Alike s s') (h' : Alike s' s'') : Alike s s'' :=
  ⟨h'.boot.trans h.boot, h'.bootDirty.trans h.bootDirty, h'.pending.trans h.pending,
    h'.armed.trans h.armed, h'.driveA.trans h.driveA, h'.driveB.trans h.driveB,
    h'.currprefs.trans h.currprefs, h'.readouts.trans h.readouts, h'.mult.trans h.mult,
    fun t ht => (h'.tun t ht).trans (h.tun t ht)⟩

theorem alike_bootSeed (s : PsState) : Alike s (bootSeed s) :=
  ⟨rfl, rfl, rfl, rfl, rfl, rfl, rfl, rfl, rfl, fun _ _ => rfl⟩

theorem value_alike (h : Alike s s') : forall it, it ∈ gItems -> it.value s' = it.value s := by
  have htun := h.tun
  simp only [gItems, jitItems, cpuItems, videoItems, audioItems, inputItems, stboxItems,
    floppyItems, netItems, debugItems, advItems, List.cons_append, List.nil_append,
    List.forall_mem_cons]
  simp only [PsItem.value, liveInt, liveBool, enumItem, bootB, roInt, compItem, strItem, actionItem,
    wpItem, genGet, bootIntGet, bootBoolGet, getPower, getCache, getFrames, getHostfs, getZero,
    h.boot, h.currprefs, h.readouts, h.bootDirty, h.driveA, h.driveB, h.mult, true_and]
  simp (disch := decide) only [htun]
  simp

theorem unchanged_of_alike (h : Alike s s') : Unchanged s s' := by
  have hvalue := value_alike h
  refine ⟨hvalue, ?_, ?_, h.boot, h.bootDirty, h.pending, h.armed, h.driveA, h.driveB⟩
  · intro it hit
    simp only [describe, hvalue it hit]
  · intro it _
    simp only [itemStr, PsState.drive, h.boot, h.driveA, h.driveB]

/-!
## Setters
-/

def refused (r : PsResult) : Prop :=
  r = .reject ∨ r = .busy

def Mild (f : Setter) : Prop :=
  forall v s, refused (f false v s).1 -> Alike s (f false v s).2

theorem alike_defer {idx : Nat} {v : Int32} (h : refused (defer idx v s).1) :
    Alike s (defer idx v s).2 := by
  unfold defer at h ⊢
  split
  · exact Alike.refl s
  · rename_i hroom
    rw [if_neg hroom] at h
    rcases h with h | h <;> cases h

theorem mild_ranged {lo hi : Int32} {r : PsResult} {refuse accept : Int32 -> PsState -> PsState}
    (hr : ¬ refused r) (hrefuse : forall v s, Alike s (refuse v s)) :
    Mild (fun _ v s => if v < lo ∨ hi < v then (.reject, refuse v s) else (r, accept v s)) := by
  intro v s h
  dsimp only at h ⊢
  split
  · exact hrefuse v s
  · rename_i hin
    rw [if_neg hin] at h
    exact absurd h hr

theorem mild_genSet (lo hi : Int32) (t : Tunable) : Mild (genSet lo hi t) :=
  mild_ranged (by simp [refused]) (fun _ s => Alike.refl s)

theorem mild_bootBoolSet (f : Bool -> EmulatorConfig -> EmulatorConfig) : Mild (bootBoolSet f) := by
  intro v s h
  rcases h with h | h <;> cases h

theorem mild_bootIntSet (lo hi : Int32) (f : Int32 -> EmulatorConfig -> EmulatorConfig) :
    Mild (bootIntSet lo hi f) :=
  mild_ranged (by simp [refused]) (fun _ s => alike_bootSeed s)

theorem mild_rangedBootSet (lo hi : Int32) (f : Int32 -> EmulatorConfig -> EmulatorConfig) :
    Mild (rangedBootSet lo hi f) :=
  mild_ranged (by simp [refused]) (fun _ s => Alike.refl s)

theorem mild_setFrames : Mild setFrames :=
  mild_ranged (by simp [refused]) (fun _ s => Alike.refl s)

theorem mild_setHostfs : Mild setHostfs :=
  mild_ranged (by simp [refused]) (fun _ s => Alike.refl s)

theorem mild_setFlush : Mild setFlush :=
  fun _ _ h => alike_defer h

theorem mild_setPower : Mild setPower := by
  intro v s h
  unfold setPower at h ⊢
  split
  · exact Alike.refl s
  · rename_i hrange
    rw [if_neg hrange] at h
    simp only [Bool.false_eq_true, if_false] at h ⊢
    split
    · rename_i hzero
      rw [if_pos hzero] at h
      exact alike_defer h
    · rename_i hzero
      rw [if_neg hzero] at h
      split
      · rename_i hoff
        rw [if_pos hoff] at h
        exact alike_defer h
      · rename_i hoff
        rw [if_neg hoff] at h
        rcases h with h | h <;> cases h

/-- The tunable of a translator switch is written even when the queue is full, but no row
shows it. -/
theorem mild_setComp {t : Tunable} (ht : hiddenTunable t = true) (hm : t ≠ .pissoffMult)
    (idx : Nat) : Mild (setComp t idx) := by
  intro v s h
  have hd := alike_defer (s := setTunable t (ofBool (v != 0)) s) h
  have hset : Alike s (setTunable t (ofBool (v != 0)) s) := by
    refine ⟨rfl, rfl, rfl, rfl, rfl, rfl, rfl, rfl, ?_, ?_⟩
    · exact Function.update_of_ne hm.symm _ _
    · intro t' ht'
      refine Function.update_of_ne ?_ _ _
      rintro rfl
      rw [ht] at ht'
      cases ht'
  exact hset.trans hd

theorem mild_of_eq {o : Option Setter} {f : Setter} (h : Mild f) (ho : o = some f) :
    forall g, o = some g -> Mild g := by
  intro g hg
  cases ho.symm.trans hg
  exact h

theorem mild_of_none {o : Option Setter} (ho : o = none) : forall g, o = some g -> Mild g := by
  intro g hg
  cases ho.symm.trans hg

theorem mild_wpItem (name title : String) (get : PsState -> Bool)
    (set : Bool -> PsState -> PsState) :
    forall f, (wpItem name title get set).set = some f -> Mild f := by
  intro f hf v s h
  cases hf
  rcases h with h | h <;> cases h

theorem mild_rows : forall it, it ∈ gItems.drop 2 -> forall f, it.set = some f -> Mild f := by
  simp only [gItems, jitItems, cpuItems, videoItems, audioItems, inputItems, stboxItems,
    floppyItems, netItems, debugItems, advItems, List.cons_append, List.nil_append,
    List.drop_succ_cons, List.drop_zero, List.forall_mem_cons]
  and_intros
  all_goals first
    | exact mild_of_none rfl
    | exact mild_of_eq (mild_genSet _ _ _) rfl
    | exact mild_of_eq (mild_bootBoolSet _) rfl
    | exact mild_of_eq (mild_bootIntSet _ _ _) rfl
    | exact mild_of_eq (mild_rangedBootSet _ _ _) rfl
    | exact mild_of_eq mild_setFrames rfl
    | exact mild_of_eq mild_setHostfs rfl
    | exact mild_of_eq mild_setFlush rfl
    | exact mild_of_eq (mild_setComp rfl (by decide) _) rfl
    | exact mild_wpItem _ _ _ _
    | simp

theorem mild_row {p0 : UInt32} {it : PsItem} {f : Setter} (hp : p0.toNat ≠ cacheIdx)
    (hrow : rowAt p0 = some it) (hf : it.set = some f) : Mild f := by
  unfold rowAt at hrow
  cases hn : p0.toNat with
  | zero =>
      rw [hn] at hrow
      cases hrow
      cases hf
      exact mild_setPower
  | succ n =>
      cases n with
      | zero => exact absurd hn hp
      | succ n =>
          have hmem : it ∈ gItems.drop 2 := by
            have hget : (gItems.drop 2)[n]? = some it := by
              rw [List.getElem?_drop, ← hrow, hn, Nat.add_comm]
            exact List.mem_of_getElem? hget
          exact mild_rows it hmem f hf

/-!
## Each call
-/

theorem rowAt_cache {p0 : UInt32} (h : p0.toNat = cacheIdx) :
    (rowAt p0).bind (·.set) = some setCache := by
  unfold rowAt
  rw [h]
  rfl

/-- The translation cache with a full queue: the shadow has changed, unless it said the
same before. -/
theorem setCache_unchanged_iff {v : Int32} (h : refused (setCache false v s).1) :
    Unchanged s (setCache false v s).2 <->
      (0 ≤ v -> v ≤ 4 ->
        (seeded s).jitCache = Int32.ofNat (rung cacheKb v) ∧ (seeded s).jitCacheSet = true) := by
  rcases Decidable.em (v < 0 ∨ 4 < v) with hrange | hrange
  · have hsame : (setCache false v s).2 = s := by simp [setCache, hrange]
    rw [hsame]
    refine ⟨fun _ hlo hhi => ?_, fun _ => unchanged_of_alike (Alike.refl s)⟩
    rcases hrange with hlt | hgt
    · exact absurd hlo (Int32.not_le.mpr hlt)
    · exact absurd hhi (Int32.not_le.mpr hgt)
  · have hno := hrange
    rw [not_or, Int32.not_lt, Int32.not_lt] at hrange
    -- the queue is full, and the shadow is written
    have hboot : (setCache false v s).2 = { s with
        boot := { seeded s with jitCache := Int32.ofNat (rung cacheKb v), jitCacheSet := true }
        bootReady := true } := by
      unfold setCache defer at h ⊢
      rw [if_neg hno] at h ⊢
      dsimp only at h ⊢
      split
      · rfl
      · rename_i hroom
        rw [if_neg hroom] at h
        rcases h with h | h <;> cases h
    rw [hboot]
    constructor
    · intro hun _ _
      have heq := hun.boot
      have hcfg : { seeded s with
          jitCache := Int32.ofNat (rung cacheKb v), jitCacheSet := true } = seeded s := heq
      constructor
      · rw [← hcfg]
      · rw [← hcfg]
    · intro hsame
      rcases hsame hrange.1 hrange.2 with ⟨hsize, hset⟩
      refine unchanged_of_alike ⟨?_, rfl, rfl, rfl, rfl, rfl, rfl, rfl, rfl, fun _ _ => rfl⟩
      have hcfg : { seeded s with
          jitCache := Int32.ofNat (rung cacheKb v), jitCacheSet := true } = seeded s := by
        rw [← hsize, ← hset]
      exact hcfg

theorem alike_fddirDefault (s : PsState) : Alike s (fddirDefault s) := by
  unfold fddirDefault
  split
  · exact Alike.refl s
  · exact ⟨rfl, rfl, rfl, rfl, rfl, rfl, rfl, rfl, rfl, fun _ _ => rfl⟩

theorem alike_floppyPath (str : Text) (s : PsState) : Alike s (floppyPath host str s).2 := by
  unfold floppyPath
  split
  · exact Alike.refl s
  · split
    · exact Alike.refl s
    · dsimp only
      split <;> exact alike_fddirDefault s

theorem insertDisk_failed {files : HostFiles} {path : Text} {wp : Bool} {d : Drive}
    (h : (insertDisk files path wp d).1 = false) :
    (insertDisk files path wp d).2 = { d with fd := none } := by
  unfold insertDisk at h ⊢
  cases hopen : openImage files path wp with
  | none => rfl
  | some e =>
      rw [hopen] at h
      cases h

@[simp] theorem setDrive_drive (b : Bool) : (s.setDrive b (s.drive b)) = s := by
  cases b <;> rfl

/-- A drive without an open image is as it was, one with an image has lost it. -/
theorem setFloppy_unchanged_iff {b : Bool} {str : Text} (h : refused (setFloppy host b str s).1) :
    Unchanged s (setFloppy host b str s).2 <->
      (s.fdcBusy = false -> (floppyPath host str s).1.isSome = true -> (s.drive b).fd = none) := by
  have halike : Alike s (floppyPath host str s).2 := alike_floppyPath str s
  unfold setFloppy at h ⊢
  cases hbusy : s.fdcBusy with
  | true => simpa using unchanged_of_alike (Alike.refl s)
  | false =>
      simp only [hbusy, Bool.false_eq_true, if_false] at h ⊢
      generalize hpath : floppyPath host str s = r at h halike ⊢
      rcases r with ⟨_ | path, s1⟩
      · simpa using unchanged_of_alike halike
      · dsimp only at h halike ⊢
        have hdrive : s1.drive b = s.drive b := by
          cases b
          · exact halike.driveA
          · exact halike.driveB
        generalize hins : insertDisk host.files path false (s1.drive b) = r at h ⊢
        rcases r with ⟨_ | _, d⟩
        · have hd : d = { s.drive b with fd := none } := by
            have hfail := insertDisk_failed (by rw [hins] : (insertDisk host.files path false
              (s1.drive b)).1 = false)
            rw [hins, hdrive] at hfail
            exact hfail
          dsimp only
          constructor
          · intro hun _ _
            have heq : (s1.setDrive b d).drive b = s.drive b := by
              cases b
              · exact hun.driveA
              · exact hun.driveB
            have hfd : d = s.drive b := by
              rw [← heq]
              cases b <;> rfl
            rw [← hfd, hd]
          · intro hclosed
            have hsame : d = s1.drive b := by
              rw [hd, hdrive]
              have hnone := hclosed trivial rfl
              cases hdr : s.drive b
              rw [hdr] at hnone
              dsimp only at hnone
              rw [hnone]
            rw [hsame, setDrive_drive]
            exact unchanged_of_alike halike
        · rcases h with h | h <;> cases h

theorem refused_of_reply {r : PsResult} (h : PsReply.result r = .result .reject ∨
    PsReply.result r = .result .busy) : refused r := by
  rcases h with h | h
  · cases h
    exact Or.inl rfl
  · cases h
    exact Or.inr rfl

theorem itemSetstr_unchanged_iff {it : PsItem} {str : Text}
    (h : refused (itemSetstr host it str s).1) :
    Unchanged s (itemSetstr host it str s).2 <->
      (forall b, floppyDrive it.name = some b -> s.fdcBusy = false ->
        (floppyPath host str s).1.isSome = true -> (s.drive b).fd = none) := by
  unfold itemSetstr at h ⊢
  split
  · rename_i hrom
    rw [if_pos hrom] at h
    rcases h with h | h <;> cases h
  · rename_i hrom
    rw [if_neg hrom] at h
    split
    · rename_i hbox
      rw [if_pos hbox] at h
      rcases h with h | h <;> cases h
    · rename_i hbox
      rw [if_neg hbox] at h
      cases hdrive : floppyDrive it.name with
      | none => simpa using unchanged_of_alike (Alike.refl s)
      | some b =>
          rw [hdrive] at h
          dsimp only at h ⊢
          rw [setFloppy_unchanged_iff h]
          simp

theorem alike_saveCfg (h : refused (saveCfg host s).1) : Alike s (saveCfg host s).2 := by
  unfold saveCfg at h ⊢
  cases hsaved : savedText host s with
  | none => exact alike_bootSeed s
  | some t =>
      rw [hsaved] at h
      rcases h with h | h <;> cases h

theorem alike_doAction {it : PsItem} (h : refused (doAction host it s).1) :
    Alike s (doAction host it s).2 := by
  have hok : forall s' : PsState, ¬ refused (PsResult.ok, s').1 := by
    intro s' hr
    rcases hr with hr | hr <;> cases hr
  unfold doAction at h ⊢
  split
  · rename_i hflush
    rw [if_pos hflush] at h
    exact alike_defer h
  · rename_i hflush
    rw [if_neg hflush] at h
    cases hdrive : ejectDrive it.name with
    | some b =>
        rw [hdrive] at h
        dsimp only at h ⊢
        split
        · exact Alike.refl s
        · rename_i hbusy
          rw [if_neg hbusy] at h
          exact absurd h (hok _)
    | none =>
        rw [hdrive] at h
        dsimp only at h ⊢
        split
        · rename_i hswap
          rw [if_pos hswap] at h
          split
          · exact Alike.refl s
          · rename_i hbusy
            rw [if_neg hbusy] at h
            exact absurd h (hok _)
        · rename_i hswap
          rw [if_neg hswap] at h
          split
          · rename_i hsave
            rw [if_pos hsave] at h
            exact alike_saveCfg h
          · exact Alike.refl s

theorem rejected_unchanged_iff {c : PsCall} (h : Rejected host c s) :
    Unchanged s (settingsCall host c s).2 <-> Harmless host s c := by
  rcases h with ⟨hwrites, h⟩
  have hsame : Unchanged s s := unchanged_of_alike (Alike.refl s)
  cases c with
  | setint p0 v =>
      simp only [settingsCall] at h ⊢
      rcases Decidable.em (p0.toNat = cacheIdx) with hp | hp
      · rw [rowAt_cache hp] at h ⊢
        dsimp only at h ⊢
        rw [setCache_unchanged_iff (refused_of_reply h)]
        simp [Harmless, hp]
      · have hharm : Harmless host s (.setint p0 v) := fun heq => absurd heq hp
        refine iff_of_true ?_ hharm
        cases hset : (rowAt p0).bind (·.set) with
        | none => exact hsame
        | some f =>
            rw [hset] at h
            rcases Option.bind_eq_some_iff.mp hset with ⟨it, hrow, hf⟩
            exact unchanged_of_alike (mild_row hp hrow hf v s (refused_of_reply h))
  | setstr p0 str =>
      simp only [settingsCall] at h ⊢
      cases str with
      | none =>
          exact iff_of_true (by simpa using hsame) trivial
      | some str =>
          cases hrow : rowAt p0 with
          | none =>
              refine iff_of_true (by simpa using hsame) ?_
              intro it b hit
              rw [hrow] at hit
              cases hit
          | some it =>
              rw [hrow] at h
              dsimp only at h ⊢
              rw [itemSetstr_unchanged_iff (refused_of_reply h)]
              constructor
              · intro hfree it' b hit
                rw [hrow] at hit
                cases hit
                exact hfree b
              · intro hfree b
                exact hfree it b hrow
  | action p0 =>
      simp only [settingsCall] at h ⊢
      refine iff_of_true ?_ trivial
      cases hrow : rowAt p0 with
      | none => exact hsame
      | some it =>
          rw [hrow] at h
          exact unchanged_of_alike (alike_doAction (refused_of_reply h))
  | _ => cases hwrites

/-!
## Runs
-/

def RejectsCleanly (s : PsState) (op : PsOp) : Prop :=
  forall host c, op = .call host c -> Rejected host c s -> Unchanged s (psStep s op)

def RejectsHarmless (s : PsState) (op : PsOp) : Prop :=
  forall host c, op = .call host c -> Rejected host c s -> Harmless host s c

/-- In every run, the rejected calls change nothing just when all of them are harmless
where they are made. -/
theorem run_rejects_cleanly_iff (s : PsState) (ops : List PsOp) :
    Steps psStep RejectsCleanly s ops <-> Steps psStep RejectsHarmless s ops := by
  have hagree (s : PsState) (op : PsOp) : RejectsCleanly s op <-> RejectsHarmless s op := by
    constructor
    · rintro h host c rfl hrej
      exact (rejected_unchanged_iff hrej).mp (h host c rfl hrej)
    · rintro h host c rfl hrej
      exact (rejected_unchanged_iff hrej).mpr (h host c rfl hrej)
  exact @Steps.iff_of_invariant _ _ psStep RejectsCleanly RejectsHarmless (fun _ => True)
    (fun _ _ _ _ => trivial) (fun s op _ => hagree s op) s trivial ops

def imageFile : Text -> Option (List UInt8)
  | ['/', 'a', '.', 's', 't'] => some []
  | _ => none

def oneImage : PsHost where
  files := ⟨imageFile, fun _ => true⟩
  gemdosToHost := fun _ => none
  cfgPath := []
  cfgText := none
  cfgWritable := false
  booted := sectionBuf []

def floppyRow : UInt32 := 50

def setFloppyA (path : String) : PsOp :=
  .call oneImage (.setstr floppyRow (some (CBuf.print pathMax (by decide) path.toList)))

/-- After an image that is there, one that is not: the call is rejected, and the drive has
lost its image. -/
theorem rejected_insert_closes_image :
    ¬ Steps psStep RejectsCleanly PsState.startup [setFloppyA "/a.st", setFloppyA "/b.st"] := by
  rintro ⟨_, h, _⟩
  have hrej : Rejected oneImage
      (.setstr floppyRow (some (CBuf.print pathMax (by decide) "/b.st".toList)))
      (psStep PsState.startup (setFloppyA "/a.st")) := by
    refine ⟨rfl, Or.inl ?_⟩
    rfl
  have hun := h oneImage _ rfl hrej
  have hfd := congrArg Drive.fd hun.driveA
  have hlost : (psStep (psStep PsState.startup (setFloppyA "/a.st")) (setFloppyA "/b.st")).driveA.fd ≠
      (psStep PsState.startup (setFloppyA "/a.st")).driveA.fd := by decide +kernel
  exact hlost hfd

end Psctrl
end PistormAtari
