import PistormAtari.Ide.Transfer

/-!
# Byte order of the data port

Words go through the data port, the sector buffer and the image file, and each
of the three may exchange the bytes of a word.  A sector is followed word by
word on its way in and on its way out.
-/

namespace PistormAtari
namespace Ide

open Foundation

/-!
## The bytes of a datum
-/

def datumBytes (falconTos : Bool) (d : Drive) (v : Word) : List Byte :=
  let low : Byte := v.setWidth 8
  let high : Byte := (v >>> 8).setWidth 8
  if d.eightbit then [low]
  else if ideNativeOrder falconTos d then [high, low]
  else [low, high]

/-- What a data access hands on of a word: in 8-bit mode its low byte. -/
def conveyed (d : Drive) (v : Word) : Word :=
  if d.eightbit then (v.setWidth 8).setWidth 16 else v

variable (falconTos : Bool) (d : Drive)

variable (v : Word)

theorem length_datumBytes :
    (datumBytes falconTos d v).length = d.width := by
  unfold datumBytes Drive.width
  dsimp only
  split
  · rfl
  · split <;> rfl

theorem length_flatMap_datumBytes (vs : List Word) :
    (vs.flatMap (datumBytes falconTos d)).length = vs.length * d.width := by
  induction vs with
  | nil => simp
  | cons v vs ih =>
      rw [List.flatMap_cons, List.length_append, length_datumBytes, ih, List.length_cons,
        Nat.succ_mul, Nat.add_comm]

theorem orders_eq {d d' : Drive} (h : d'.orders = d.orders) :
    d'.twisted = d.twisted ∧ d'.imgSwapped = d.imgSwapped := by
  unfold Drive.orders at h
  injection h with htwisted hswapped
  exact ⟨htwisted, hswapped⟩

theorem datumBytes_congr {d d' : Drive} (h8 : d'.eightbit = d.eightbit)
    (horders : d'.orders = d.orders) : datumBytes falconTos d' = datumBytes falconTos d := by
  funext v
  unfold datumBytes ideNativeOrder
  rw [h8, (orders_eq horders).1]

theorem inFileOrder_congr {d d' : Drive} (horders : d'.orders = d.orders) :
    d'.inFileOrder = d.inFileOrder := by
  funext buf
  unfold Drive.inFileOrder
  rw [(orders_eq horders).2]

theorem take_set_pair {buf : List Byte} {p : Nat} (hp : p + 2 ≤ buf.length) (x y : Byte) :
    ((buf.set p x).set (p + 1) y).take (p + 2) = buf.take p ++ [x, y] := by
  have hp0 : p < buf.length := by lia
  have hp1 : p + 1 < buf.length := by lia
  apply List.ext_getElem?
  intro i
  grind

theorem take_set_one {buf : List Byte} {p : Nat} (hp : p + 1 ≤ buf.length) (x : Byte) :
    (buf.set p x).take (p + 1) = buf.take p ++ [x] := by
  have hp0 : p < buf.length := by lia
  apply List.ext_getElem?
  intro i
  grind

theorem putDatum_buffer (hfits : d.dptr + d.width ≤ d.data.length) :
    (d.putDatum falconTos v).data.take (d.dptr + d.width) =
      d.data.take d.dptr ++ datumBytes falconTos d v := by
  unfold Drive.width at hfits
  unfold Drive.putDatum datumBytes Drive.width
  dsimp only
  cases h8 : d.eightbit with
  | true =>
      rw [h8] at hfits
      exact take_set_one hfits _
  | false =>
      rw [h8] at hfits
      cases hnative : ideNativeOrder falconTos d with
      | true => exact take_set_pair hfits _ _
      | false => exact take_set_pair hfits _ _

theorem word_of_halves :
    ((v >>> 8).setWidth 8).setWidth 16 <<< 8 ||| (v.setWidth 8).setWidth 16 = v := by
  ext i hi
  simp
  grind

theorem takeDatum_data (rest : List Byte)
    (h : d.data.drop d.dptr = datumBytes falconTos d v ++ rest) :
    (d.takeDatum falconTos 2).taskfile.data = conveyed d v := by
  have hget : forall k, d.data.getD (d.dptr + k) 0 = (d.data.drop d.dptr).getD k 0 := by
    intro k
    rw [List.getD_eq_getElem?_getD, List.getD_eq_getElem?_getD, List.getElem?_drop]
  have hfirst := hget 0
  have hsecond := hget 1
  rw [Nat.add_zero] at hfirst
  rw [h] at hfirst hsecond
  unfold Drive.takeDatum conveyed
  dsimp only
  rw [hfirst, hsecond]
  unfold datumBytes
  cases h8 : d.eightbit with
  | true => simp
  | false =>
      cases hnative : ideNativeOrder falconTos d with
      | true => simpa using word_of_halves v
      | false =>
          have hword := word_of_halves v
          rw [BitVec.or_comm] at hword
          simpa using hword

/-!
## A sector on its way in
-/

/-- A drive in its data-out phase with `acc` in its buffer; `d0` is the drive at
the start of the sector. -/
structure Filling (d0 d : Drive) (acc : List Byte) : Prop where
  state : d.state = .dataOut
  busy : d.busy = false
  dptr : d.dptr = acc.length
  acc_eq : d.data.take acc.length = acc
  buffer : d.data.length = 512
  length : d.length = d0.length
  fd : d.fd = d0.fd
  eightbit : d.eightbit = d0.eightbit
  orders : d.orders = d0.orders

structure Written (d0 d : Drive) (bytes : List Byte) : Prop where
  fd : d.fd = d0.fd.write (d0.inFileOrder bytes)
  busy : d.busy = false
  buffer : d.data.length = 512
  eightbit : d.eightbit = d0.eightbit
  orders : d.orders = d0.orders
  last : d0.length ≤ 1 -> d.state = .idle
  more : 1 < d0.length -> d.state = .dataOut ∧ d.dptr = 0 ∧ d.length = d0.length - 1

theorem putDatum_busy :
    (d.putDatum falconTos v).busy = d.busy := by
  unfold Drive.putDatum
  dsimp only
  split
  · rfl
  · split <;> rfl

theorem completed_busy : (completed d).busy = false := by
  have hclear : forall s : Byte,
      ((s &&& ~~~(ST_BSY ||| ST_DRQ) ||| (ST_DRDY ||| ST_DSC)) &&& ST_BSY != 0) = false := by
    decide +kernel
  exact hclear d.taskfile.status

theorem sectorWritten_busy {d : Drive} (h : d.busy = false) :
    d.sectorWritten.busy = false := by
  unfold Drive.sectorWritten
  dsimp only
  split
  · exact completed_busy _
  · exact h

theorem sectorWritten_eightbit : d.sectorWritten.eightbit = d.eightbit := by
  unfold Drive.sectorWritten
  dsimp only
  split <;> rfl

theorem Filling.width_eq {d0 d : Drive} {acc : List Byte} (h : Filling d0 d acc) :
    d.width = d0.width := by
  unfold Drive.width
  rw [h.eightbit]

theorem Filling.datumBytes_eq {d0 d : Drive} {acc : List Byte} (h : Filling d0 d acc)
    (falconTos : Bool) : datumBytes falconTos d = datumBytes falconTos d0 :=
  datumBytes_congr falconTos h.eightbit h.orders

theorem Filling.take_put {d0 d : Drive} {acc : List Byte} (h : Filling d0 d acc)
    (falconTos : Bool) (v : Word) (hfits : acc.length + d0.width ≤ 512) :
    (d.putDatum falconTos v).data.take (acc ++ datumBytes falconTos d0 v).length =
      acc ++ datumBytes falconTos d0 v := by
  have hput := putDatum_buffer falconTos d v
    (by rw [h.dptr, h.width_eq, h.buffer]; exact hfits)
  rw [h.dptr, h.width_eq, h.acc_eq, h.datumBytes_eq] at hput
  rw [List.length_append, length_datumBytes, hput]

theorem Filling.put {d0 d : Drive} {acc : List Byte} (h : Filling d0 d acc)
    (falconTos : Bool) (v : Word) (hroom : acc.length + d0.width < 512) :
    Filling d0 (d.dataOut falconTos v .works).1 (acc ++ datumBytes falconTos d0 v) := by
  have hbuf := putDatum_bufferOnly falconTos d v
  have hdptr : (d.putDatum falconTos v).dptr = acc.length + d0.width := by
    rw [putDatum_dptr, h.dptr, h.width_eq]
  have hout : (d.dataOut falconTos v .works).1 = d.putDatum falconTos v := by
    unfold Drive.dataOut
    dsimp only
    rw [if_neg (by rw [hdptr]; exact Nat.ne_of_lt hroom)]
  rw [hout]
  constructor
  · rw [hbuf.state, h.state]
  · rw [putDatum_busy, h.busy]
  · rw [hdptr, List.length_append, length_datumBytes]
  · exact h.take_put falconTos v (Nat.le_of_lt hroom)
  · rw [hbuf.data, h.buffer]
  · rw [hbuf.length, h.length]
  · rw [hbuf.fd, h.fd]
  · rw [hbuf.eightbit, h.eightbit]
  · rw [hbuf.orders, h.orders]

theorem Filling.finish {d0 d : Drive} {acc : List Byte} (h : Filling d0 d acc)
    (falconTos : Bool) (v : Word) (hfull : acc.length + d0.width = 512) :
    Written d0 (d.dataOut falconTos v .works).1 (acc ++ datumBytes falconTos d0 v) := by
  have hbuf := putDatum_bufferOnly falconTos d v
  have hdptr : (d.putDatum falconTos v).dptr = 512 := by
    rw [putDatum_dptr, h.dptr, h.width_eq, hfull]
  have hout : (d.dataOut falconTos v .works).1 =
      (d.putDatum falconTos v).sectorStored.sectorWritten := by
    unfold Drive.dataOut
    dsimp only
    rw [if_pos hdptr]
    rfl
  have hdata : (d.putDatum falconTos v).data = acc ++ datumBytes falconTos d0 v := by
    have htake := h.take_put falconTos v (Nat.le_of_eq hfull)
    rw [List.length_append, length_datumBytes, hfull,
      List.take_of_length_le (by rw [hbuf.data, h.buffer])] at htake
    exact htake
  have hstored : (d.putDatum falconTos v).sectorStored.fd =
      d0.fd.write (d0.inFileOrder (acc ++ datumBytes falconTos d0 v)) := by
    change (d.putDatum falconTos v).fd.write
      ((d.putDatum falconTos v).inFileOrder (d.putDatum falconTos v).data) = _
    rw [hdata, hbuf.fd, h.fd, inFileOrder_congr (hbuf.orders.trans h.orders)]
  have hlength : (d.putDatum falconTos v).sectorStored.length = d0.length :=
    hbuf.length.trans h.length
  have hbusy : (d.putDatum falconTos v).sectorStored.busy = false :=
    (putDatum_busy falconTos d v).trans h.busy
  have horders : (d.putDatum falconTos v).sectorStored.orders = d0.orders :=
    hbuf.orders.trans h.orders
  have hbuffer : (d.putDatum falconTos v).sectorStored.data.length = 512 :=
    hbuf.data.trans h.buffer
  rw [hout]
  rcases Nat.lt_or_ge 1 d0.length with hmore | hlast
  · have hwritten := (sectorWritten_more (hlength ▸ hmore)).2
    constructor
    · rw [hwritten.fd]
      exact hstored
    · exact sectorWritten_busy hbusy
    · rw [hwritten.data]
      exact hbuffer
    · rw [sectorWritten_eightbit]
      exact hbuf.eightbit.trans h.eightbit
    · rw [hwritten.orders]
      exact horders
    · intro hle
      lia
    · intro _
      refine ⟨hwritten.state.trans (hbuf.state.trans h.state), hwritten.dptr, ?_⟩
      rw [hwritten.length]
      change (d.putDatum falconTos v).sectorStored.length - 1 = _
      rw [hlength]
  · have hstop := sectorWritten_stopped (hlength ▸ hlast)
    constructor
    · rw [← hstored]
      exact sectorWritten_fd _
    · exact sectorWritten_busy hbusy
    · exact hstop.data hbuffer
    · rw [sectorWritten_eightbit]
      exact hbuf.eightbit.trans h.eightbit
    · rw [hstop.orders]
      exact horders
    · intro _
      exact hstop.state
    · intro hlt
      lia

/-!
## Whole transfers
-/

def wordOut (v : Word) : Access := .write16 .data v .works
def wordIn : Access := .read16 .data .works

theorem put_selected (c : Controller) (i : Fin 2) (d : Drive) :
    (c.put i d).selected = c.selected := rfl

theorem put_put (c : Controller) (i : Fin 2) (d d' : Drive) :
    (c.put i d).put i d' = c.put i d' := by
  unfold Controller.put
  rw [Function.update_idem]

theorem dataOut_works :
    (d.dataOut falconTos v .works).2 = true := by
  unfold Drive.dataOut
  dsimp only
  split <;> rfl

theorem ideStep_wordOut (c : Controller) (v : Word)
    (hstate : (c.drive c.selected).state = .dataOut)
    (hbusy : (c.drive c.selected).busy = false) :
    ideStep falconTos c (wordOut v) =
      c.put c.selected ((c.drive c.selected).dataOut falconTos v .works).1 := by
  have hok := dataOut_works falconTos (c.drive c.selected) v
  change ideWrite16 falconTos c .data v .works = _
  unfold ideWrite16
  rw [if_neg (by rw [hbusy]; simp), if_pos rfl]
  unfold ideDataOut
  dsimp only
  rw [if_neg (not_not.mpr hstate), hok, if_pos rfl]

variable {c : Controller}

theorem run_fill {d0 : Drive} {acc : List Byte}
    (h : Filling d0 (c.drive c.selected) acc) {vs : List Word} (hne : vs ≠ [])
    (hfull : acc.length + vs.length * d0.width = 512) :
    exists d', run (ideStep falconTos) c (vs.map wordOut) = c.put c.selected d' ∧
      Written d0 d' (acc ++ vs.flatMap (datumBytes falconTos d0)) := by
  induction vs generalizing c acc with
  | nil => exact absurd rfl hne
  | cons v vs ih =>
      have hwidth := d0.width_le
      rw [List.map_cons, run_cons, ideStep_wordOut falconTos c v h.state h.busy]
      rw [List.length_cons, Nat.succ_mul] at hfull
      cases vs with
      | nil =>
          rw [List.length_nil, Nat.zero_mul, Nat.zero_add] at hfull
          rw [List.flatMap_cons, List.flatMap_nil, List.append_nil]
          exact ⟨_, rfl, h.finish falconTos v hfull⟩
      | cons v' vs =>
          have hroom : acc.length + d0.width < 512 := by
            rw [List.length_cons, Nat.succ_mul] at hfull
            lia
          have hnext := h.put falconTos v hroom
          have hrest := @ih
            (c.put c.selected ((c.drive c.selected).dataOut falconTos v .works).1)
            (acc ++ datumBytes falconTos d0 v) (by rw [put_selected, put_drive_self]; exact hnext)
            (List.cons_ne_nil _ _)
            (by rw [List.length_append, length_datumBytes]; lia)
          rcases hrest with ⟨d', hrun, hwritten⟩
          refine ⟨d', ?_, ?_⟩
          · rw [hrun]
            exact put_put _ _ _ _
          · rw [List.flatMap_cons, ← List.append_assoc]
            exact hwritten

structure AwaitsSector (d : Drive) : Prop where
  state : d.state = .dataOut
  busy : d.busy = false
  dptr : d.dptr = 0
  buffer : d.data.length = 512

theorem AwaitsSector.filling {d : Drive} (h : AwaitsSector d) : Filling d d [] :=
  ⟨h.state, h.busy, h.dptr, rfl, h.buffer, rfl, rfl, rfl, rfl⟩

theorem Written.awaits {d0 d : Drive} {bytes : List Byte} (h : Written d0 d bytes)
    (hmore : 1 < d0.length) : AwaitsSector d :=
  ⟨(h.more hmore).1, h.busy, (h.more hmore).2.1, h.buffer⟩

def storedBytes (falconTos : Bool) (d : Drive) (ss : List (List Word)) : List Byte :=
  ss.flatMap fun vs => d.inFileOrder (vs.flatMap (datumBytes falconTos d))

theorem storedBytes_congr {d d' : Drive} (h8 : d'.eightbit = d.eightbit)
    (horders : d'.orders = d.orders) (ss : List (List Word)) :
    storedBytes falconTos d' ss = storedBytes falconTos d ss := by
  unfold storedBytes
  rw [datumBytes_congr falconTos h8 horders, inFileOrder_congr horders]

def SectorSized (d : Drive) (ss : List (List Word)) : Prop :=
  forall vs, vs ∈ ss -> vs.length * d.width = 512

theorem run_store (h : AwaitsSector (c.drive c.selected)) {ss : List (List Word)} (hne : ss ≠ [])
    (hcount : (c.drive c.selected).length = ss.length)
    (hsized : SectorSized (c.drive c.selected) ss) :
    exists d', run (ideStep falconTos) c (ss.flatten.map wordOut) = c.put c.selected d' ∧
      d'.fd = (c.drive c.selected).fd.write (storedBytes falconTos (c.drive c.selected) ss) ∧
        d'.eightbit = (c.drive c.selected).eightbit ∧
          d'.orders = (c.drive c.selected).orders ∧ d'.state = .idle := by
  induction ss generalizing c with
  | nil => exact absurd rfl hne
  | cons vs ss ih =>
      have hfull := hsized vs (List.mem_cons_self ..)
      have hvs : vs ≠ [] := by
        intro hnil
        rw [hnil] at hfull
        simp at hfull
      rcases run_fill falconTos h.filling hvs (by rw [List.length_nil, Nat.zero_add]; exact hfull)
        with ⟨d1, hrun1, hwritten⟩
      rw [List.nil_append] at hwritten
      rw [List.flatten_cons, List.map_append, run_append, hrun1]
      rw [List.length_cons] at hcount
      cases ss with
      | nil =>
          refine ⟨d1, rfl, ?_, hwritten.eightbit, hwritten.orders, hwritten.last ?_⟩
          · rw [hwritten.fd]
            unfold storedBytes
            rw [List.flatMap_cons, List.flatMap_nil, List.append_nil]
          · rw [hcount]
            exact le_refl _
      | cons vs' ss =>
          have hmore : 1 < (c.drive c.selected).length := by
            rw [hcount, List.length_cons]
            lia
          have hself : (c.put c.selected d1).drive (c.put c.selected d1).selected = d1 :=
            put_drive_self c c.selected d1
          have hwidth : d1.width = (c.drive c.selected).width := by
            unfold Drive.width
            rw [hwritten.eightbit]
          have hrest := @ih (c.put c.selected d1) (by rw [hself]; exact hwritten.awaits hmore)
            (List.cons_ne_nil _ _)
            (by rw [hself, (hwritten.more hmore).2.2, hcount]; rfl)
            (by
              rw [hself]
              intro us hus
              rw [hwidth]
              exact hsized us (List.mem_cons_of_mem _ hus))
          rw [hself] at hrest
          rcases hrest with ⟨d', hrun, hfd, h8, horders, hidle⟩
          refine ⟨d', ?_, ?_, h8.trans hwritten.eightbit, horders.trans hwritten.orders, hidle⟩
          · rw [hrun]
            exact put_put _ _ _ _
          · rw [hfd, hwritten.fd, OpenFile.write_write,
              storedBytes_congr falconTos hwritten.eightbit hwritten.orders]
            rfl

/-!
## A sector on its way out
-/

/-- A drive in its data-in phase with the data `vs` left in its buffer. -/
structure Emptying (falconTos : Bool) (d : Drive) (vs : List Word) : Prop where
  state : d.state = .dataIn
  left : d.data.drop d.dptr = vs.flatMap (datumBytes falconTos d)
  ends : d.dptr + vs.length * d.width = 512

/-- A drive whose buffer has been taken; `d0` is the drive before the sector. -/
structure Taken (d0 d : Drive) : Prop where
  byte : d.fd.byte = d0.fd.byte
  eightbit : d.eightbit = d0.eightbit
  orders : d.orders = d0.orders
  more : 1 < d0.length -> d.state = .dataIn ∧ d.dptr = 512 ∧ d.length = d0.length - 1 ∧
    d.fd = d0.fd ∧ d.data = d0.data

def replies (falconTos : Bool) : Controller -> List Access -> List Word
  | _, [] => []
  | c, a :: ops => (access falconTos c a).2 :: replies falconTos (ideStep falconTos c a) ops

theorem replies_append (c : Controller) (ops ops' : List Access) :
    replies falconTos c (ops ++ ops') =
      replies falconTos c ops ++ replies falconTos (run (ideStep falconTos) c ops) ops' := by
  induction ops generalizing c with
  | nil => rfl
  | cons a ops ih =>
      rw [List.cons_append, replies, replies, ih, run_cons, List.cons_append]

theorem access_wordIn (c : Controller) (hstate : (c.drive c.selected).state = .dataIn)
    {d : Drive} (hin : (c.drive c.selected).dataIn falconTos 2 .works = (d, true)) :
    access falconTos c wordIn = (c.put c.selected d, d.taskfile.data) := by
  change ideDataIn falconTos c 2 .works = _
  unfold ideDataIn
  dsimp only
  rw [if_pos hstate, hin, if_pos rfl, put_drive_self, if_neg (by decide)]

theorem sectorTaken_data : d.sectorTaken.taskfile.data = d.taskfile.data := by
  unfold Drive.sectorTaken
  dsimp only
  split <;> rfl

theorem sectorTaken_eightbit : d.sectorTaken.eightbit = d.eightbit := by
  unfold Drive.sectorTaken
  dsimp only
  split <;> rfl

theorem dataIn_buffer {d : Drive} (h : d.dptr ≠ 512) (io : HostIo) :
    d.dataIn falconTos 2 io =
      (if (d.takeDatum falconTos 2).dptr = 512 then (d.takeDatum falconTos 2).sectorTaken
        else d.takeDatum falconTos 2, true) := by
  unfold Drive.dataIn
  rw [if_neg h]
  rfl

theorem Emptying.next {falconTos : Bool} {d : Drive} {v : Word} {vs : List Word}
    (h : Emptying falconTos d (v :: vs)) (hne : vs ≠ []) :
    d.dataIn falconTos 2 .works = (d.takeDatum falconTos 2, true) ∧
      (d.takeDatum falconTos 2).taskfile.data = conveyed d v ∧
        Emptying falconTos (d.takeDatum falconTos 2) vs := by
  have hwidth := d.width_le
  have hpos : 0 < vs.length := List.length_pos_iff.mpr hne
  have hends := h.ends
  rw [List.length_cons, Nat.succ_mul] at hends
  have hless : 0 < vs.length * d.width := Nat.mul_pos hpos hwidth.1
  have hleft := h.left
  rw [List.flatMap_cons] at hleft
  refine ⟨?_, takeDatum_data falconTos d v _ hleft, ?_⟩
  · rw [dataIn_buffer falconTos (by lia), takeDatum_dptr, if_neg (by lia)]
  · constructor
    · exact h.state
    · rw [takeDatum_dptr]
      change d.data.drop (d.dptr + d.width) = _
      rw [← List.drop_drop, hleft, ← length_datumBytes falconTos d v, List.drop_left]
      rfl
    · rw [takeDatum_dptr]
      change d.dptr + d.width + vs.length * d.width = 512
      lia

theorem Emptying.finish {falconTos : Bool} {d : Drive} {v : Word}
    (h : Emptying falconTos d [v]) :
    d.dataIn falconTos 2 .works = ((d.takeDatum falconTos 2).sectorTaken, true) ∧
      (d.takeDatum falconTos 2).sectorTaken.taskfile.data = conveyed d v ∧
        Taken d (d.takeDatum falconTos 2).sectorTaken := by
  have hwidth := d.width_le
  have hends := h.ends
  rw [List.length_singleton, Nat.one_mul] at hends
  have hdptr : (d.takeDatum falconTos 2).dptr = 512 := by
    rw [takeDatum_dptr, hends]
  have hleft := h.left
  rw [List.flatMap_cons] at hleft
  refine ⟨?_, ?_, ?_⟩
  · rw [dataIn_buffer falconTos (by lia), if_pos hdptr]
  · rw [sectorTaken_data]
    exact takeDatum_data falconTos d v _ hleft
  · rcases Nat.lt_or_ge 1 d.length with hmore | hlast
    · have htaken := @sectorTaken_more (d.takeDatum falconTos 2) hmore
      rw [htaken]
      exact ⟨rfl, rfl, rfl, fun _ => ⟨h.state, hdptr, rfl, rfl, rfl⟩⟩
    · have hstop := @sectorTaken_stopped (d.takeDatum falconTos 2) hlast
      refine ⟨hstop.byte, sectorTaken_eightbit _, hstop.orders, ?_⟩
      intro hlt
      lia

theorem ideStep_eq (c : Controller) (a : Access) :
    ideStep falconTos c a = (access falconTos c a).1 := rfl

theorem conveyed_congr {d d' : Drive} (h8 : d'.eightbit = d.eightbit) :
    conveyed d' = conveyed d := by
  funext v
  unfold conveyed
  rw [h8]

theorem run_empty {vs : List Word} (hne : vs ≠ [])
    (h : Emptying falconTos (c.drive c.selected) vs) :
    replies falconTos c (List.replicate vs.length wordIn) =
        vs.map (conveyed (c.drive c.selected)) ∧
      exists d', run (ideStep falconTos) c (List.replicate vs.length wordIn) =
          c.put c.selected d' ∧ Taken (c.drive c.selected) d' := by
  induction vs generalizing c with
  | nil => exact absurd rfl hne
  | cons v vs ih =>
      rw [List.length_cons, List.replicate_succ, replies, run_cons, ideStep_eq, List.map_cons]
      cases vs with
      | nil =>
          rcases h.finish with ⟨hin, hdata, htaken⟩
          rw [access_wordIn falconTos c h.state hin, hdata]
          exact ⟨rfl, _, rfl, htaken⟩
      | cons v' vs =>
          rcases h.next (List.cons_ne_nil v' vs) with ⟨hin, hdata, hnext⟩
          rw [access_wordIn falconTos c h.state hin, hdata]
          have hrest := @ih
            (c.put c.selected ((c.drive c.selected).takeDatum falconTos 2))
            (List.cons_ne_nil _ _) (by rw [put_selected, put_drive_self]; exact hnext)
          rw [put_selected, put_drive_self] at hrest
          rcases hrest with ⟨hreplies, d', hrun, htaken⟩
          constructor
          · rw [hreplies]
            rfl
          · refine ⟨d', ?_, ?_⟩
            · rw [hrun]
              exact put_put _ _ _ _
            · exact ⟨htaken.byte, htaken.eightbit, htaken.orders, htaken.more⟩

structure FetchesSector (d : Drive) : Prop where
  state : d.state = .dataIn
  dptr : d.dptr = 512
  buffer : d.data.length = 512
  inside : d.fd.pos + 512 ≤ d.fd.size

theorem dataIn_fetch {d : Drive} (h : FetchesSector d) :
    d.dataIn falconTos 2 .works = d.sectorRead.dataIn falconTos 2 .works := by
  have hzero : ¬ d.sectorRead.dptr = 512 := by
    change ¬ 0 = 512
    decide
  unfold Drive.dataIn
  rw [if_pos h.dptr, ideReadSector_of_inside h.inside h.buffer, if_neg hzero]

theorem access_fetch (h : FetchesSector (c.drive c.selected)) :
    access falconTos c wordIn =
      access falconTos (c.put c.selected (c.drive c.selected).sectorRead) wordIn := by
  have hfetch := dataIn_fetch falconTos h
  have hzero : (c.drive c.selected).sectorRead.dptr ≠ 512 := by
    change 0 ≠ 512
    decide
  have hin := dataIn_buffer falconTos hzero .works
  have hstate : ((c.put c.selected (c.drive c.selected).sectorRead).drive
      (c.put c.selected (c.drive c.selected).sectorRead).selected).state = .dataIn := by
    rw [put_selected, put_drive_self]
    exact h.state
  rw [access_wordIn falconTos c h.state (hfetch.trans hin),
    access_wordIn falconTos _ hstate (by rw [put_selected, put_drive_self]; exact hin),
    put_selected, put_put]

@[simp] theorem diskSwap512_diskSwap512 (buf : List Byte) :
    diskSwap512 (diskSwap512 buf) = buf := by
  induction buf using diskSwap512.induct with
  | case1 a b rest ih => rw [diskSwap512, diskSwap512, ih]
  | case2 rest hrest => rw [diskSwap512.eq_2 rest hrest, diskSwap512.eq_2 rest hrest]

theorem Drive.inFileOrder_inFileOrder (buf : List Byte) :
    d.inFileOrder (d.inFileOrder buf) = buf := by
  unfold Drive.inFileOrder
  split
  · exact diskSwap512_diskSwap512 buf
  · rfl

theorem run_fetch {vs : List Word} (h : FetchesSector (c.drive c.selected))
    (hfull : vs.length * (c.drive c.selected).width = 512)
    (hstored : readBlock (c.drive c.selected).fd.byte (c.drive c.selected).fd.pos 512 =
      (c.drive c.selected).inFileOrder
        (vs.flatMap (datumBytes falconTos (c.drive c.selected)))) :
    replies falconTos c (List.replicate vs.length wordIn) =
        vs.map (conveyed (c.drive c.selected)) ∧
      exists d', run (ideStep falconTos) c (List.replicate vs.length wordIn) =
          c.put c.selected d' ∧ Taken (c.drive c.selected).sectorRead d' := by
  have hne : vs ≠ [] := by
    intro hnil
    rw [hnil, List.length_nil, Nat.zero_mul] at hfull
    cases hfull
  have hemptying : Emptying falconTos (c.drive c.selected).sectorRead vs := by
    constructor
    · exact h.state
    · change (c.drive c.selected).inFileOrder _ = _
      rw [hstored, Drive.inFileOrder_inFileOrder]
      rfl
    · change 0 + vs.length * (c.drive c.selected).width = 512
      rw [Nat.zero_add, hfull]
  have hrun := @run_empty falconTos (c.put c.selected (c.drive c.selected).sectorRead) vs hne
    (by rw [put_selected, put_drive_self]; exact hemptying)
  rw [put_selected, put_drive_self] at hrun
  cases vs with
  | nil => exact absurd rfl hne
  | cons v vs =>
      rw [List.length_cons, List.replicate_succ, replies, run_cons, ideStep_eq] at hrun ⊢
      rw [access_fetch falconTos h]
      rcases hrun with ⟨hreplies, d', hd', htaken⟩
      refine ⟨hreplies, d', ?_, htaken⟩
      rw [hd']
      exact put_put _ _ _ _

theorem run_fetchAll {ss : List (List Word)}
    (hstate : (c.drive c.selected).state = .dataIn) (hdptr : (c.drive c.selected).dptr = 512)
    (hbuffer : (c.drive c.selected).data.length = 512)
    (hcount : (c.drive c.selected).length = ss.length)
    (hinside : (c.drive c.selected).fd.pos + 512 * ss.length ≤ (c.drive c.selected).fd.size)
    (hsized : SectorSized (c.drive c.selected) ss)
    (hstored : readBlock (c.drive c.selected).fd.byte (c.drive c.selected).fd.pos
        (512 * ss.length) = storedBytes falconTos (c.drive c.selected) ss) :
    replies falconTos c (List.replicate ss.flatten.length wordIn) =
      ss.flatten.map (conveyed (c.drive c.selected)) := by
  induction ss generalizing c with
  | nil => rfl
  | cons vs ss ih =>
      have hfull := hsized vs (List.mem_cons_self ..)
      rw [List.length_cons, Nat.mul_succ] at hinside
      have hfetches : FetchesSector (c.drive c.selected) :=
        ⟨hstate, hdptr, hbuffer, by lia⟩
      rw [List.length_cons, Nat.mul_succ, Nat.add_comm, readBlock_append] at hstored
      have hsplit := List.append_inj hstored
        (by rw [length_readBlock, Drive.length_inFileOrder, length_flatMap_datumBytes, hfull])
      rcases run_fetch falconTos hfetches hfull hsplit.1 with ⟨hreplies, d1, hrun, htaken⟩
      rw [List.flatten_cons, List.length_append, List.replicate_add, replies_append, hreplies,
        hrun, List.map_append, List.append_cancel_left_eq]
      cases ss with
      | nil => rfl
      | cons vs' ss =>
          have hmore : 1 < (c.drive c.selected).sectorRead.length := by
            change 1 < (c.drive c.selected).length
            rw [hcount, List.length_cons, List.length_cons]
            lia
          rcases htaken.more hmore with ⟨hstate1, hdptr1, hlength1, hfd1, hdata1⟩
          have hself : (c.put c.selected d1).drive (c.put c.selected d1).selected = d1 :=
            put_drive_self c c.selected d1
          have h8 : d1.eightbit = (c.drive c.selected).eightbit := htaken.eightbit
          have horders : d1.orders = (c.drive c.selected).orders := htaken.orders
          have hpos : d1.fd.pos = (c.drive c.selected).fd.pos + 512 := by
            rw [hfd1]
            exact OpenFile.advance_pos_of_inside hfetches.inside
          have hsize : d1.fd.size = (c.drive c.selected).fd.size := by
            rw [hfd1]
            rfl
          have hbyte : d1.fd.byte = (c.drive c.selected).fd.byte := htaken.byte
          have hwidth : d1.width = (c.drive c.selected).width := by
            unfold Drive.width
            rw [h8]
          have hrest := @ih (c.put c.selected d1)
          rw [hself, conveyed_congr h8, storedBytes_congr falconTos h8 horders, hbyte, hpos,
            hsize, hlength1] at hrest
          apply hrest hstate1 hdptr1
          · rw [hdata1]
            exact (Drive.length_inFileOrder _ _).trans (length_readBlock _ _ _)
          · change (c.drive c.selected).length - 1 = _
            rw [hcount]
            rfl
          · rw [Nat.add_assoc, Nat.add_comm 512]
            exact hinside
          · intro us hus
            rw [hwidth]
            exact hsized us (List.mem_cons_of_mem _ hus)
          · exact hsplit.2

/-!
## The bytes in the file
-/

def wordBytes (bigEndian : Bool) (v : Word) : List Byte :=
  let low : Byte := v.setWidth 8
  let high : Byte := (v >>> 8).setWidth 8
  if bigEndian then [high, low] else [low, high]

/-- The order of the words in the image file: that of the port, turned round once
more for a byte-swapped image. -/
def Drive.bigEndian (falconTos : Bool) (d : Drive) : Bool :=
  ideNativeOrder falconTos d != d.imgSwapped

/-- The bytes in the image file after the words `ws` have gone through the port. -/
def fileBytes (falconTos : Bool) (d : Drive) (ws : List Word) : List Byte :=
  if d.eightbit then d.inFileOrder (ws.map fun (v : Word) => v.setWidth 8)
  else ws.flatMap (wordBytes (d.bigEndian falconTos))

theorem diskSwap512_append {xs : List Byte} (h : xs.length % 2 = 0) (ys : List Byte) :
    diskSwap512 (xs ++ ys) = diskSwap512 xs ++ diskSwap512 ys := by
  induction xs using diskSwap512.induct with
  | case1 a b rest ih =>
      have hrest : rest.length % 2 = 0 := by
        rw [List.length_cons, List.length_cons] at h
        lia
      rw [List.cons_append, List.cons_append, diskSwap512, diskSwap512, ih hrest,
        List.cons_append, List.cons_append]
  | case2 rest hrest =>
      cases rest with
      | nil => rfl
      | cons a rest =>
          cases rest with
          | nil => cases h
          | cons b rest => exact absurd rfl (hrest a b rest)

theorem Drive.inFileOrder_append {xs : List Byte} (h : xs.length % 2 = 0)
    (ys : List Byte) : d.inFileOrder (xs ++ ys) = d.inFileOrder xs ++ d.inFileOrder ys := by
  unfold Drive.inFileOrder
  split
  · exact diskSwap512_append h ys
  · rfl

theorem diskSwap512_flatMap_wordBytes (bigEndian : Bool) (ws : List Word) :
    diskSwap512 (ws.flatMap (wordBytes bigEndian)) = ws.flatMap (wordBytes (!bigEndian)) := by
  induction ws with
  | nil => rfl
  | cons v ws ih =>
      have heven : (wordBytes bigEndian v).length % 2 = 0 := by
        cases bigEndian <;> simp [wordBytes]
      have hword : diskSwap512 (wordBytes bigEndian v) = wordBytes (!bigEndian) v := by
        cases bigEndian <;> rfl
      rw [List.flatMap_cons, List.flatMap_cons, diskSwap512_append heven, ih, hword]

theorem flatMap_singleton_byte (ws : List Word) :
    (ws.flatMap fun (v : Word) => [(v.setWidth 8 : Byte)]) =
      ws.map fun (v : Word) => v.setWidth 8 := by
  induction ws with
  | nil => rfl
  | cons v ws ih =>
      rw [List.flatMap_cons, ih]
      rfl

theorem inFileOrder_datumBytes (ws : List Word) :
    d.inFileOrder (ws.flatMap (datumBytes falconTos d)) = fileBytes falconTos d ws := by
  unfold fileBytes
  cases h8 : d.eightbit with
  | true =>
      have hbytes : datumBytes falconTos d = fun (v : Word) => [(v.setWidth 8 : Byte)] := by
        funext v
        unfold datumBytes
        rw [h8]
        rfl
      rw [hbytes, flatMap_singleton_byte]
      rfl
  | false =>
      have hbytes : datumBytes falconTos d = wordBytes (ideNativeOrder falconTos d) := by
        funext v
        unfold datumBytes
        rw [h8]
        rfl
      rw [hbytes]
      unfold Drive.inFileOrder Drive.bigEndian
      cases himg : d.imgSwapped with
      | true =>
          rw [if_pos rfl, diskSwap512_flatMap_wordBytes]
          simp
      | false => simp

theorem storedBytes_eq {d : Drive} {ss : List (List Word)}
    (h : SectorSized d ss) : storedBytes falconTos d ss = fileBytes falconTos d ss.flatten := by
  rw [← inFileOrder_datumBytes]
  unfold storedBytes
  induction ss with
  | nil =>
      unfold Drive.inFileOrder
      split <;> rfl
  | cons vs ss ih =>
      have heven : (vs.flatMap (datumBytes falconTos d)).length % 2 = 0 := by
        rw [length_flatMap_datumBytes, h vs (List.mem_cons_self ..)]
      rw [List.flatMap_cons, List.flatten_cons, List.flatMap_append,
        d.inFileOrder_append heven, ih]
      intro us hus
      exact h us (List.mem_cons_of_mem _ hus)

theorem length_fileBytes (ws : List Word) :
    (fileBytes falconTos d ws).length = ws.length * d.width := by
  rw [← inFileOrder_datumBytes, Drive.length_inFileOrder, length_flatMap_datumBytes]

theorem fileBytes_congr {d d' : Drive} (h8 : d'.eightbit = d.eightbit)
    (horders : d'.orders = d.orders) : fileBytes falconTos d' = fileBytes falconTos d := by
  funext ws
  rw [← inFileOrder_datumBytes, ← inFileOrder_datumBytes, inFileOrder_congr horders,
    datumBytes_congr falconTos h8 horders]

theorem fileBytes_append {us : List Word} (h : us.length * d.width % 2 = 0) (ws : List Word) :
    fileBytes falconTos d (us ++ ws) = fileBytes falconTos d us ++ fileBytes falconTos d ws := by
  rw [← inFileOrder_datumBytes, ← inFileOrder_datumBytes, ← inFileOrder_datumBytes,
    List.flatMap_append, d.inFileOrder_append (by rw [length_flatMap_datumBytes]; exact h)]

theorem exists_sectors {n : Nat} {ws : List Word} (h : ws.length * d.width = 512 * n) :
    exists ss : List (List Word), ss.flatten = ws ∧ ss.length = n ∧ SectorSized d ss := by
  induction n generalizing ws with
  | zero =>
      have hwidth := d.width_le
      have hzero : ws.length = 0 := by
        rcases Nat.mul_eq_zero.mp h with hlen | hw
        · exact hlen
        · lia
      refine ⟨[], ?_, rfl, ?_⟩
      · rw [List.flatten_nil, List.length_eq_zero_iff.mp hzero]
      · intro vs hvs
        cases hvs
  | succ n ih =>
      have hper : 512 / d.width * d.width = 512 := by
        unfold Drive.width
        split <;> rfl
      have hle : 512 / d.width ≤ ws.length := by
        apply Nat.le_of_mul_le_mul_right _ (Nat.lt_of_lt_of_le Nat.zero_lt_one d.width_le.1)
        rw [hper, h]
        lia
      have hdrop : (ws.drop (512 / d.width)).length * d.width = 512 * n := by
        rw [List.length_drop, Nat.sub_mul, h, hper]
        lia
      rcases ih hdrop with ⟨ss, hflatten, hlength, hsized⟩
      refine ⟨ws.take (512 / d.width) :: ss, ?_, ?_, ?_⟩
      · rw [List.flatten_cons, hflatten, List.take_append_drop]
      · rw [List.length_cons, hlength]
      · intro vs hvs
        rcases List.mem_cons.mp hvs with rfl | hvs
        · rw [List.length_take_of_le hle, hper]
        · exact hsized vs hvs

/-!
## Requests and port accesses
-/

def writeRequest (c : Controller) (a : Access) : Option Request :=
  (issued c a).bind fun v => if decodeCommand v = .write then commandRequest c .write else none

def readRequest (c : Controller) (a : Access) : Option Request :=
  (issued c a).bind fun v => if decodeCommand v = .read then commandRequest c .read else none

variable {a : Access} {r : Request}

theorem writeRequest_some (h : writeRequest c a = some r) :
    exists v, issued c a = some v ∧ decodeCommand v = .write ∧
      r = ⟨xlateBlock c (c.drive c.selected), requestCount (c.drive c.selected)⟩ := by
  unfold writeRequest at h
  rcases Option.bind_eq_some_iff.mp h with ⟨v, hissued, hif⟩
  split at hif
  · injection hif with hr
    exact ⟨v, hissued, ‹_›, hr.symm⟩
  · cases hif

theorem readRequest_some (h : readRequest c a = some r) :
    exists v, issued c a = some v ∧ decodeCommand v = .read ∧
      r = ⟨xlateBlock c (c.drive c.selected), requestCount (c.drive c.selected)⟩ := by
  unfold readRequest at h
  rcases Option.bind_eq_some_iff.mp h with ⟨v, hissued, hif⟩
  split at hif
  · injection hif with hr
    exact ⟨v, hissued, ‹_›, hr.symm⟩
  · cases hif

/-- A drive a transfer has been begun on; `d0` is the drive before. -/
structure Begun (d0 : Drive) (r : Request) (d : Drive) : Prop where
  buffer : d.data.length = 512
  length : d.length = r.count
  fd : d.fd = d0.fd.seek r.start
  eightbit : d.eightbit = d0.eightbit
  orders : d.orders = d0.orders

theorem write_begun (hpaced : Paced (c.drive c.selected)) (h : writeRequest c a = some r) :
    exists d, ideStep falconTos c a = c.put c.selected d ∧ AwaitsSector d ∧
      Begun (c.drive c.selected) r d := by
  rcases writeRequest_some h with ⟨v, hissued, hcmd, rfl⟩
  have hbegun : ((c.drive c.selected).begun v).failed = false := hpaced.unfailed
  have hbusy : forall s : Byte, ((s &&& ~~~(ST_BSY ||| ST_DRDY) ||| ST_DRQ) &&& ST_BSY != 0) =
      false := by
    decide +kernel
  refine ⟨cmdWritesectorsComplete c ((c.drive c.selected).begun v), ?_, ?_, ?_⟩
  · rw [ideStep_issued falconTos hissued]
    unfold ideIssueCommand
    dsimp only
    rw [hcmd]
  · unfold cmdWritesectorsComplete
    rw [hbegun]
    exact ⟨rfl, hbusy _, rfl, hpaced.buffer⟩
  · unfold cmdWritesectorsComplete
    rw [hbegun]
    exact ⟨hpaced.buffer, rfl, rfl, rfl, rfl⟩

theorem read_begun (hpaced : Paced (c.drive c.selected)) (h : readRequest c a = some r) :
    exists d, ideStep falconTos c a = c.put c.selected d ∧ d.state = .dataIn ∧ d.dptr = 512 ∧
      Begun (c.drive c.selected) r d := by
  rcases readRequest_some h with ⟨v, hissued, hcmd, rfl⟩
  have hbegun : ((c.drive c.selected).begun v).failed = false := hpaced.unfailed
  refine ⟨cmdReadsectorsComplete c ((c.drive c.selected).begun v), ?_, ?_, ?_, ?_⟩
  · rw [ideStep_issued falconTos hissued]
    unfold ideIssueCommand
    dsimp only
    rw [hcmd]
  · unfold cmdReadsectorsComplete
    rw [hbegun]
    rfl
  · unfold cmdReadsectorsComplete
    rw [hbegun]
    rfl
  · unfold cmdReadsectorsComplete
    rw [hbegun]
    exact ⟨hpaced.buffer, rfl, rfl, rfl, rfl⟩

/-- What the bus moves in one data access: `writeIDEW` or `writeIDEL` and their
reading counterparts. -/
inductive PortDatum where
  | word (v : Word)
  | long (v : BitVec 32)
deriving DecidableEq, Repr

def PortDatum.words : PortDatum -> List Word
  | .word v => [v]
  | .long v => [(v >>> 16).setWidth 16, v.setWidth 16]

inductive PortSize where
  | word
  | long
deriving DecidableEq, Repr

def PortSize.words : PortSize -> Nat
  | .word => 1
  | .long => 2

/-- `writeIDEW`, `writeIDEL`: a long goes out as two words, the high one first. -/
def writeIde (falconTos : Bool) (c : Controller) : PortDatum -> Controller
  | .word v => ideWrite16 falconTos c .data v .works
  | .long v =>
      let c := ideWrite16 falconTos c .data ((v >>> 16).setWidth 16) .works
      ideWrite16 falconTos c .data (v.setWidth 16) .works

def readIde (falconTos : Bool) (c : Controller) : PortSize -> Controller × PortDatum
  | .word =>
      let (c, v) := ideRead16 falconTos c .data .works
      (c, .word v)
  | .long =>
      let (c, high) := ideRead16 falconTos c .data .works
      let (c, low) := ideRead16 falconTos c .data .works
      (c, .long (high.setWidth 32 <<< 16 ||| low.setWidth 32))

def wordsRead (falconTos : Bool) : Controller -> List PortSize -> List Word
  | _, [] => []
  | c, size :: sizes =>
      (readIde falconTos c size).2.words ++ wordsRead falconTos (readIde falconTos c size).1 sizes

theorem writeIde_eq (c : Controller) (datum : PortDatum) :
    writeIde falconTos c datum = run (ideStep falconTos) c (datum.words.map wordOut) := by
  cases datum <;> rfl

theorem run_writeIde (c : Controller) (data : List PortDatum) :
    run (writeIde falconTos) c data =
      run (ideStep falconTos) c ((data.flatMap PortDatum.words).map wordOut) := by
  induction data generalizing c with
  | nil => rfl
  | cons datum data ih =>
      rw [run_cons, ih, writeIde_eq, List.flatMap_cons, List.map_append, run_append]

theorem words_of_halves (high low : Word) :
    (PortDatum.long (high.setWidth 32 <<< 16 ||| low.setWidth 32)).words = [high, low] := by
  have hhigh : ((high.setWidth 32 <<< 16 ||| low.setWidth 32) >>> 16).setWidth 16 = high := by
    ext i hi
    simp
    grind
  have hlow : (high.setWidth 32 <<< 16 ||| low.setWidth 32).setWidth 16 = low := by
    ext i hi
    simp
  change [_, _] = [high, low]
  rw [hhigh, hlow]

theorem readIde_eq (c : Controller) (size : PortSize) :
    (readIde falconTos c size).1 =
        run (ideStep falconTos) c (List.replicate size.words wordIn) ∧
      (readIde falconTos c size).2.words =
        replies falconTos c (List.replicate size.words wordIn) := by
  cases size with
  | word => exact ⟨rfl, rfl⟩
  | long => exact ⟨rfl, words_of_halves _ _⟩

theorem wordsRead_eq (c : Controller) (sizes : List PortSize) :
    wordsRead falconTos c sizes =
      replies falconTos c (List.replicate (sizes.map PortSize.words).sum wordIn) := by
  induction sizes generalizing c with
  | nil => rfl
  | cons size sizes ih =>
      have hsize := readIde_eq falconTos c size
      rw [List.map_cons, List.sum_cons, List.replicate_add, replies_append, ← hsize.1, ← hsize.2,
        wordsRead, ih]

/-!
## Written and read back
-/

theorem run_write (hpaced : Paced (c.drive c.selected)) (ha : writeRequest c a = some r)
    {data : List PortDatum}
    (hlength : (data.flatMap PortDatum.words).length * (c.drive c.selected).width =
      512 * r.count) :
    exists d, run (writeIde falconTos) (ideStep falconTos c a) data = c.put c.selected d ∧
      d.fd = ((c.drive c.selected).fd.seek r.start).write
        (fileBytes falconTos (c.drive c.selected) (data.flatMap PortDatum.words)) ∧
      d.eightbit = (c.drive c.selected).eightbit ∧
      d.orders = (c.drive c.selected).orders := by
  rcases write_begun falconTos hpaced ha with ⟨d1, hstep, hawaits, hbegun⟩
  have hwidth : d1.width = (c.drive c.selected).width := by
    unfold Drive.width
    rw [hbegun.eightbit]
  have hself : (c.put c.selected d1).drive (c.put c.selected d1).selected = d1 :=
    put_drive_self c c.selected d1
  rcases exists_sectors d1 (by rw [hwidth]; exact hlength) with ⟨ss, hflatten, hcount, hsized⟩
  have hne : ss ≠ [] := by
    intro hnil
    rcases writeRequest_some ha with ⟨_, _, _, rfl⟩
    have hpos := one_le_requestCount (c.drive c.selected)
    rw [hnil, List.length_nil] at hcount
    change 0 = requestCount (c.drive c.selected) at hcount
    lia
  have hstore := @run_store falconTos (c.put c.selected d1) (by rw [hself]; exact hawaits) ss hne
    (by rw [hself, hbegun.length, hcount]) (by rw [hself]; exact hsized)
  rw [hself, hflatten, put_selected, storedBytes_eq falconTos hsized, hflatten,
    fileBytes_congr falconTos hbegun.eightbit hbegun.orders] at hstore
  rcases hstore with ⟨d, hrun, hfd, h8, horders, _⟩
  refine ⟨d, ?_, ?_, ?_, ?_⟩
  · rw [run_writeIde, hstep, hrun, put_put]
  · rw [hfd, hbegun.fd]
  · rw [h8, hbegun.eightbit]
  · rw [horders, hbegun.orders]

theorem run_read (hpaced : Paced (c.drive c.selected)) (ha : readRequest c a = some r)
    (hinside : r.start + 512 * r.count ≤ (c.drive c.selected).fd.size) {ws : List Word}
    (hlength : ws.length * (c.drive c.selected).width = 512 * r.count)
    (hstored : readBlock (c.drive c.selected).fd.byte r.start (512 * r.count) =
      fileBytes falconTos (c.drive c.selected) ws)
    {sizes : List PortSize} (hsizes : (sizes.map PortSize.words).sum = ws.length) :
    wordsRead falconTos (ideStep falconTos c a) sizes =
      ws.map (conveyed (c.drive c.selected)) := by
  rcases read_begun falconTos hpaced ha with ⟨d1, hstep, hstate, hdptr, hbegun⟩
  have hwidth : d1.width = (c.drive c.selected).width := by
    unfold Drive.width
    rw [hbegun.eightbit]
  have hself : (c.put c.selected d1).drive (c.put c.selected d1).selected = d1 :=
    put_drive_self c c.selected d1
  rcases exists_sectors d1 (by rw [hwidth]; exact hlength) with ⟨ss, hflatten, hcount, hsized⟩
  have hfetch := @run_fetchAll falconTos (c.put c.selected d1) ss
  rw [hself, hflatten, conveyed_congr hbegun.eightbit] at hfetch
  rw [wordsRead_eq, hsizes, hstep]
  apply hfetch hstate hdptr hbegun.buffer
  · rw [hbegun.length, hcount]
  · rw [hbegun.fd, hcount]
    exact hinside
  · exact hsized
  · rw [storedBytes_eq falconTos hsized, hflatten,
      fileBytes_congr falconTos hbegun.eightbit hbegun.orders, hbegun.fd, hcount]
    exact hstored

theorem fileBytes_part {ws : List Word} {j n total : Nat}
    (hlength : ws.length * d.width = 512 * total) (hle : j + n ≤ total) :
    fileBytes falconTos d ((ws.drop (j * (512 / d.width))).take (n * (512 / d.width))) =
        ((fileBytes falconTos d ws).drop (512 * j)).take (512 * n) ∧
      ((ws.drop (j * (512 / d.width))).take (n * (512 / d.width))).length * d.width =
        512 * n := by
  have hper : 512 / d.width * d.width = 512 := by
    unfold Drive.width
    split <;> rfl
  have hpos : 0 < d.width := Nat.lt_of_lt_of_le Nat.zero_lt_one d.width_le.1
  have hlen : ws.length = total * (512 / d.width) := by
    apply Nat.eq_of_mul_eq_mul_right hpos
    rw [Nat.mul_assoc, hper, hlength, Nat.mul_comm]
  generalize hp : 512 / d.width = p at hper hlen ⊢
  have hjn : j * p + n * p ≤ ws.length := by
    rw [hlen, ← Nat.add_mul]
    exact Nat.mul_le_mul_right p hle
  have hfirst : (ws.take (j * p)).length * d.width = 512 * j := by
    rw [List.length_take_of_le (by lia), Nat.mul_assoc, hper, Nat.mul_comm]
  have hmiddle : ((ws.drop (j * p)).take (n * p)).length * d.width = 512 * n := by
    rw [List.length_take_of_le (by rw [List.length_drop]; lia), Nat.mul_assoc, hper, Nat.mul_comm]
  have hsplit : ws = ws.take (j * p) ++ ((ws.drop (j * p)).take (n * p) ++
      (ws.drop (j * p)).drop (n * p)) := by
    rw [List.take_append_drop, List.take_append_drop]
  have hbytes : fileBytes falconTos d ws = fileBytes falconTos d (ws.take (j * p)) ++
      (fileBytes falconTos d ((ws.drop (j * p)).take (n * p)) ++
        fileBytes falconTos d ((ws.drop (j * p)).drop (n * p))) := by
    rw [← fileBytes_append falconTos d (by rw [hmiddle]; lia),
      ← fileBytes_append falconTos d (by rw [hfirst]; lia), ← hsplit]
  constructor
  · rw [hbytes, List.drop_left' (by rw [length_fileBytes, hfirst]),
      List.take_left' (by rw [length_fileBytes, hmiddle])]
  · exact hmiddle

theorem written_bytes (falconTos : Bool) {c : Controller} {a : Access} {r : Request}
    (hpaced : Paced (c.drive c.selected)) (ha : writeRequest c a = some r)
    {data : List PortDatum}
    (hlength : (data.flatMap PortDatum.words).length * (c.drive c.selected).width =
      512 * r.count) :
    let d := (run (writeIde falconTos) (ideStep falconTos c a) data).drive c.selected
    readBlock d.fd.byte r.start (512 * r.count) =
        fileBytes falconTos (c.drive c.selected) (data.flatMap PortDatum.words) ∧
      r.start + 512 * r.count ≤ d.fd.size ∧ d.orders = (c.drive c.selected).orders := by
  rcases run_write falconTos hpaced ha hlength with ⟨d, hrun, hfd, _, horders⟩
  have hbytes := length_fileBytes falconTos (c.drive c.selected) (data.flatMap PortDatum.words)
  rw [hlength] at hbytes
  have hcount : 1 ≤ r.count := by
    rcases writeRequest_some ha with ⟨_, _, _, rfl⟩
    exact one_le_requestCount _
  dsimp only
  rw [hrun, put_drive_self]
  refine ⟨?_, ?_, horders⟩
  · rw [hfd, ← hbytes]
    exact readBlock_writeBlock_self _ _ _
  · rw [hfd, ← hbytes]
    apply OpenFile.end_le_write_size ((c.drive c.selected).fd.seek r.start)
    intro hnil
    rw [hnil, List.length_nil] at hbytes
    lia

theorem written_reads_back {c c2 c3 : Controller} {r r' : Request}
    {a' : Access} {j : Nat} {ws : List Word} {sizes : List PortSize} {mid : List Access}
    (hlength : ws.length * (c.drive c.selected).width = 512 * r.count)
    (hpaced : forall i, Paced (c2.drive i))
    (hstored : readBlock (c2.drive c.selected).fd.byte r.start (512 * r.count) =
      fileBytes falconTos (c.drive c.selected) ws)
    (hsize : r.start + 512 * r.count ≤ (c2.drive c.selected).fd.size)
    (horders : (c2.drive c.selected).orders = (c.drive c.selected).orders)
    (hc3 : c3 = run (ideStep falconTos) c2 mid) (hselected : c3.selected = c.selected)
    (h8 : (c3.drive c.selected).eightbit = (c.drive c.selected).eightbit)
    (hkept : readBlock (c3.drive c.selected).fd.byte r.start (512 * r.count) =
      readBlock (c2.drive c.selected).fd.byte r.start (512 * r.count))
    (ha' : readRequest c3 a' = some r') (hstart : r'.start = r.start + 512 * j)
    (hinside : j + r'.count ≤ r.count)
    (hsizes : (sizes.map PortSize.words).sum = r'.count * (512 / (c.drive c.selected).width)) :
    wordsRead falconTos (ideStep falconTos c3 a') sizes =
      ((ws.drop (j * (512 / (c.drive c.selected).width))).take
        (r'.count * (512 / (c.drive c.selected).width))).map (conveyed (c.drive c.selected)) := by
  have hkeeps := run_keeps falconTos hpaced mid c.selected
  have hpaced3 : Paced (c3.drive c3.selected) := by
    rw [hc3]
    exact paced_run falconTos hpaced mid _
  rw [← hc3] at hkeeps
  have horders3 := hkeeps.1.trans horders
  have hwidth : (c3.drive c.selected).width = (c.drive c.selected).width := by
    unfold Drive.width
    rw [h8]
  have hpart := fileBytes_part falconTos (c.drive c.selected) hlength hinside
  have hread := @run_read falconTos c3 a' r' hpaced3 ha'
  rw [hselected, hwidth, conveyed_congr h8, fileBytes_congr falconTos h8 horders3] at hread
  have hrest : r'.start + 512 * r'.count ≤ (c3.drive c.selected).fd.size := by
    have hlarge := hkeeps.2
    lia
  have hbytes : readBlock (c3.drive c.selected).fd.byte r'.start (512 * r'.count) =
      fileBytes falconTos (c.drive c.selected)
        ((ws.drop (j * (512 / (c.drive c.selected).width))).take
          (r'.count * (512 / (c.drive c.selected).width))) := by
    have hle : 512 * j + 512 * r'.count ≤ 512 * r.count := by lia
    rw [hpart.1, hstart, readBlock_part _ r.start hle, hkept, hstored]
  apply hread hrest hpart.2 hbytes
  rw [hsizes]
  have hper : 512 / (c.drive c.selected).width * (c.drive c.selected).width = 512 := by
    unfold Drive.width
    split <;> rfl
  apply Nat.eq_of_mul_eq_mul_right
    (Nat.lt_of_lt_of_le Nat.zero_lt_one (c.drive c.selected).width_le.1)
  rw [hpart.2, Nat.mul_assoc, hper, Nat.mul_comm]

end Ide
end PistormAtari
