import CppTango.Polling.AttrHistory
import Mathlib.Algebra.Ring.Nat
import Mathlib.Data.List.Forall2

namespace CppTango.Polling.AttrRoundTrip
open Lib

/-- One insertion in an attribute ring: a reading or an exception, with its polling date. -/
inductive AttrRecord
  | value (v : AttributeValue) (t : Nat)
  | failed (errs : DevErrorList) (t : Nat)
deriving DecidableEq

namespace AttrRecord

/-- The date of a reading is the one stored with the value. -/
def date : AttrRecord → TimeVal
  | .value v _ => v.time
  | .failed _ t => makeTimeVal t

def quality : AttrRecord → AttrQuality
  | .value v _ => v.quality
  | .failed _ _ => .invalid

def rDim : AttrRecord → AttributeDim
  | .value v _ => v.rDim
  | .failed _ _ => .zero

def wDim : AttrRecord → AttributeDim
  | .value v _ => v.wDim
  | .failed _ _ => .zero

def errs : AttrRecord → Option DevErrorList
  | .value _ _ => none
  | .failed e _ => some e

def data (type : CmdArgType) (k : SeqKind) : AttrRecord → Option (List (Elt k))
  | .value v _ => if v.quality = .invalid then none else (unionData type k v.value).toOption
  | .failed _ _ => none

/-- A reading that is not invalid holds as many elements as its dimensions say. -/
def Sized (type : CmdArgType) (k : SeqKind) : AttrRecord → Prop
  | .value v _ => v.quality ≠ .invalid →
    ∃ xs, unionData type k v.value = .ok xs ∧ xs.length = dataLength v.rDim v.wDim
  | .failed _ _ => True

/-- What the reader of the history should find for a record. -/
def expected (type : CmdArgType) (k : SeqKind) (name : String) (r : AttrRecord) :
    DeviceAttributeHistory where
  name := name
  time := r.date
  quality := r.quality
  rDim := r.rDim
  wDim := r.wDim
  fail := r.errs.isSome
  errList := r.errs.getD []
  seq := (r.data type k).map (Seq.mk k)

/-- The date the history keeps of a record. -/
def shortDate (r : AttrRecord) : TimeVal := { r.date with tvNsec := 0 }

/-- A record without data: failed, or of invalid quality. -/
def empty (r : AttrRecord) : Bool := r.quality = .invalid

end AttrRecord

open AttrRecord

def insertRecord (idl5 : Bool) : AttrRecord → RingElt → RingElt
  | .value v t => insertAttrData (if idl5 then .v5 else .v4) v t
  | .failed e t => insertExcept e t

/-- The ring after a sequence of insertions, oldest first. -/
def attrRing (idl5 : Bool) (depth : Nat) (hd : 0 < depth) (log : List AttrRecord) : PollRing :=
  Ring.run (insertRecord idl5) (pollRing depth hd) log

/-- How a slot holds the record last inserted in it. The value of the other version is
never set. -/
def Holds (idl5 : Bool) (e : RingElt) : AttrRecord → Prop
  | .value v _ => e.except = none ∧ e.attrVal idl5 = .ok v ∧ e.attrVal (!idl5) = .error .nullPointer
  | .failed errs t => e.except = some errs ∧ e.when = t

theorem insert_record_other (idl5 : Bool) (r : AttrRecord) (e : RingElt)
    (h : e.attrVal (!idl5) = .error .nullPointer) :
    (insertRecord idl5 r e).attrVal (!idl5) = .error .nullPointer := by
  cases idl5 <;> cases r <;> exact h

theorem insert_record_holds (idl5 : Bool) (r : AttrRecord) (e : RingElt)
    (h : e.attrVal (!idl5) = .error .nullPointer) : Holds idl5 (insertRecord idl5 r e) r := by
  cases r with
  | value v t => exact ⟨by cases idl5 <;> rfl,by cases idl5 <;> rfl,insert_record_other idl5 _ e h⟩
  | failed errs t => exact ⟨rfl,rfl⟩

/-- Whatever each insertion makes of its slot holds of the slots read back. -/
theorem recent_records {R : RingElt → AttrRecord → Prop} (idl5 : Bool)
    (hw : ∀ r e, e.attrVal (!idl5) = .error .nullPointer → R (insertRecord idl5 r e) r)
    (depth : Nat) (hd : 0 < depth) (log : List AttrRecord)
    (n : Nat) (hn : n ≤ getNbElt (attrRing idl5 depth hd log)) :
    List.Forall₂ R ((attrRing idl5 depth hd log).recent n) (log.reverse.take n) := by
  have hnb : getNbElt (attrRing idl5 depth hd log) = min log.length depth := by
    rw [getNbElt,attrRing,Ring.run_nbElt _ rfl]
    simp [pollRing,Ring.make]
  apply Ring.run_recent (insert_record_other idl5) hw
  · intro c hc
    have : c = {} := List.eq_of_mem_replicate hc
    subst c
    cases idl5 <;> rfl
  · omega
  · simp only [pollRing,Ring.make,List.length_replicate]
    omega

section Loop
variable (type : CmdArgType) {k : SeqKind} (size : Nat) (fill : Elt k)

/-- The main loop of the encoder, on records in place of the slots that hold them. -/
def addRecord (start : Nat) (r : AttrRecord) (s : AttrHistState k) :
    Except Fault (AttrHistState k) :=
  match r with
  | .value v _ => addValue type size fill start v s
  | .failed errs t => addExcept start errs t s

def addRecords : List AttrRecord → AttrHistState k → Except Fault (AttrHistState k)
  | [],s => .ok s
  | r::rs,s => do
    let s ← addRecord type size fill rs.length r s
    addRecords rs s

def recordSize : AttrRecord → Nat
  | .value v _ => dataLength v.rDim v.wDim
  | .failed _ _ => 0

variable {type size fill}

theorem add_elts_records (h : List.Forall₂ (Holds idl5) es rs) (s : AttrHistState k) :
    addElts type idl5 size fill es s = addRecords type size fill rs s := by
  induction h generalizing s with
  | nil => rfl
  | @cons e r es rs hr hrs ih =>
    have he : addElt type idl5 size fill es.length e s =
        addRecord type size fill rs.length r s := by
      rw [hrs.length_eq]
      cases r with
      | value v t => simp [addElt,addRecord,hr.1,hr.2.1,bind,Except.bind]
      | failed errs t => simp [addElt,addRecord,hr.1,hr.2]
    simp only [addElts,addRecords,he,ih]

theorem seq_size_records (h : List.Forall₂ (Holds idl5) es rs) :
    seqSize idl5 es = .ok (rs.map recordSize).sum := by
  induction h with
  | nil => rfl
  | @cons e r es rs hr hrs ih =>
    cases r with
    | value v t =>
      simp [seqSize,hr.1,hr.2.1,ih,bind,Except.bind,pure,Except.pure,recordSize]
    | failed errs t => simp [seqSize,hr.1,ih,recordSize]

/-- With the wrong version the first pass already stops at the first reading. -/
theorem seq_size_wrong (h : List.Forall₂ (Holds idl5) es rs)
    (hv : ∃ r ∈ rs, r.errs = none) : seqSize (!idl5) es = .error .nullPointer := by
  induction h with
  | nil => simp at hv
  | @cons e r es rs hr hrs ih =>
    cases r with
    | value v t => simp [seqSize,hr.1,hr.2.2,bind,Except.bind]
    | failed errs t =>
      obtain ⟨q,hq,hn⟩ := hv
      rcases List.mem_cons.mp hq with rfl | hq
      · cases hn
      · simpa [seqSize,hr.1] using ih ⟨q,hq,hn⟩

/-- Records that all failed are read without looking at either version. -/
theorem holds_of_failed (h : List.Forall₂ (Holds idl5) es rs) (hf : ∀ r ∈ rs, r.errs ≠ none) :
    List.Forall₂ (Holds idl5') es rs := by
  induction h with
  | nil => exact .nil
  | @cons e r es rs hr hrs ih =>
    refine .cons ?_ (ih (fun q hq => hf q (List.mem_cons_of_mem _ hq)))
    cases r with
    | value v t => exact absurd rfl (hf _ List.mem_cons_self)
    | failed errs t => exact hr

/-- What the loop has built after the records `done`, newest first, of `n` in all. The
error table is left out: it alone can go wrong. -/
structure Built (type : CmdArgType) (size : Nat) (fill : Elt k) (n : Nat)
    (done : List AttrRecord) (s : AttrHistState k) : Prop where
  dates : s.dates = done.reverse.map shortDate
  quals : Encodes n ((done.map quality).map some) s.quals
  lastQuality : ∀ us q, done.map quality = us ++ [q] → s.lastQuality = q
  rDims : Encodes n ((done.map rDim).map some) s.rDims
  firstRead : done.map rDim = [] → s.lastDimRead = (-1,-1)
  lastRead : ∀ us d, done.map rDim = us ++ [d] → s.lastDimRead = AttributeDim.pair d
  wDims : Encodes n ((done.map wDim).map some) s.wDims
  firstWrite : done.map wDim = [] → s.lastDimWrite = (-1,-1)
  lastWrite : ∀ us d, done.map wDim = us ++ [d] → s.lastDimWrite = AttributeDim.pair d
  noData : s.noData = (done.getLast?.map AttrRecord.empty).getD true
  buffer : s.newTmp.getD (List.replicate size fill) = stack (data type k) done.reverse ++
    List.replicate (size - (stack (data type k) done.reverse).length) fill
  unused : s.newTmp = none ↔ ∀ r ∈ done, r.data type k = none
  indInSeq : s.indInSeq = (stack (data type k) done.reverse).length

theorem Built.start : Built type size fill n [] ({} : AttrHistState k) where
  dates := rfl
  quals := .nil n
  lastQuality := by intro us q h; simp at h
  rDims := .nil n
  firstRead := fun _ => rfl
  lastRead := by intro us q h; simp at h
  wDims := .nil n
  firstWrite := fun _ => rfl
  lastWrite := by intro us q h; simp at h
  noData := rfl
  buffer := by simp [stack]
  unused := by simp
  indInSeq := rfl

/-- The error table's part of one step. -/
def noteRecord (s : AttrHistState k) (r : AttrRecord) (start : Nat) :
    Except Fault (RunTable DevErrorList) :=
  match r with
  | .value _ _ => .ok s.errors
  | .failed e _ => noteErrors s.errors s.noData s.lastErrList e start

/-- Adding the data of a reading extends what has been gathered; the sequence was sized
for it. -/
theorem add_data_ok (fill : Elt k) (s : AttrHistState k) (xs stk : List (Elt k))
    (hroom : (stk ++ xs).length ≤ size)
    (hb : s.newTmp.getD (List.replicate size fill) =
      stk ++ List.replicate (size - stk.length) fill)
    (hi : s.indInSeq = stk.length) :
    addData size fill s xs = .ok { s with
      newTmp := some (stk ++ xs ++ List.replicate (size - (stk ++ xs).length) fill)
      indInSeq := (stk ++ xs).length } := by
  rw [addData,hb,hi,blit_padded _ _ _ _ hroom,List.length_append]

/-- The state after a record whose notes have been taken. -/
def advance (r : AttrRecord) (quals : RunTable AttrQuality) (rDims wDims : RunTable AttributeDim)
    (s : AttrHistState k) : AttrHistState k :=
  { s with
    dates := shortDate r :: s.dates
    quals := quals
    lastQuality := r.quality
    rDims := rDims
    lastDimRead := AttributeDim.pair r.rDim
    wDims := wDims
    lastDimWrite := AttributeDim.pair r.wDim
    noData := r.empty
    lastErrList := r.errs.getD s.lastErrList }

theorem built_advance (newTmp : Option (List (Elt k))) (ind : Nat)
    {quals : RunTable AttrQuality} {rDims wDims : RunTable AttributeDim}
    (h : Built type size fill n done s)
    (eq : Encodes n ((done.map quality ++ [r.quality]).map some) quals)
    (er : Encodes n ((done.map rDim ++ [r.rDim]).map some) rDims)
    (ew : Encodes n ((done.map wDim ++ [r.wDim]).map some) wDims)
    (hb : newTmp.getD (List.replicate size fill) = stack (data type k) (done ++ [r]).reverse ++
      List.replicate (size - (stack (data type k) (done ++ [r]).reverse).length) fill)
    (hu : newTmp = none ↔ ∀ q ∈ done ++ [r], q.data type k = none)
    (hi : ind = (stack (data type k) (done ++ [r]).reverse).length) :
    Built type size fill n (done ++ [r])
      { advance r quals rDims wDims s with newTmp := newTmp, indInSeq := ind } := by
  refine ⟨?_,by simpa [advance] using eq,?_,by simpa [advance] using er,?_,?_,
    by simpa [advance] using ew,?_,?_,?_,hb,hu,hi⟩
  · simp [advance,h.dates]
  · intro us q he
    rw [List.map_append] at he
    exact snoc_inj he
  · intro he
    simp at he
  · intro us d he
    exact congrArg AttributeDim.pair (snoc_inj (by simpa using he))
  · intro he
    simp at he
  · intro us d he
    exact congrArg AttributeDim.pair (snoc_inj (by simpa using he))
  · simp [advance]

theorem Sized.data_value (hz : Sized type k (.value v t)) (hq : v.quality ≠ .invalid) :
    ∃ xs, unionData type k v.value = .ok xs ∧ data type k (.value v t) = some xs := by
  obtain ⟨xs,hx,-⟩ := hz hq
  exact ⟨xs,hx,by simp [data,hq,hx,Except.toOption]⟩

theorem add_except_eq {s : AttrHistState k}
    (hq : noteQuality s.quals s.lastQuality (failed e t).quality start = .ok quals)
    (hr : noteDim s.rDims s.lastDimRead (failed e t).rDim start = .ok rDims)
    (hw : noteDim s.wDims s.lastDimWrite (failed e t).wDim start = .ok wDims) :
    addExcept start e t s = (noteErrors s.errors s.noData s.lastErrList e start).map
      (fun table => { advance (failed e t) quals rDims wDims s with errors := table }) := by
  simp only [quality,rDim,wDim] at hq hr hw
  cases hne : noteErrors s.errors s.noData s.lastErrList e start with
  | error f => simp only [addExcept,hne,bind,Except.bind,Except.map]
  | ok table =>
    simp only [addExcept,hne,hq,hr,hw,bind,Except.bind,pure,Except.pure,Except.map]
    rfl

theorem add_value_eq {s : AttrHistState k}
    (hq : noteQuality s.quals s.lastQuality (value v t).quality start = .ok quals)
    (hr : noteDim s.rDims s.lastDimRead (value v t).rDim start = .ok rDims)
    (hw : noteDim s.wDims s.lastDimWrite (value v t).wDim start = .ok wDims) :
    addValue type size fill start v s =
      if v.quality = .invalid then .ok (advance (value v t) quals rDims wDims s)
      else (unionData type k v.value).bind
        (addData size fill (advance (value v t) quals rDims wDims s)) := by
  simp only [quality,rDim,wDim] at hq hr hw
  simp only [addValue,hq,hr,hw,bind,Except.bind,pure,Except.pure]
  rfl

/-- One step of the loop never fails outside the error table. -/
theorem add_record_built (h : Built type size fill n done s) (hn : done.length < n)
    (hz : r.Sized type k)
    (hroom : (stack (data type k) (done ++ [r]).reverse).length ≤ size) :
    ∃ s', Built type size fill n (done ++ [r]) s' ∧
      s'.lastErrList = r.errs.getD s.lastErrList ∧
      addRecord type size fill (n - (done.length+1)) r s =
        (noteRecord s r (n - (done.length+1))).map (fun t => { s' with errors := t }) := by
  obtain ⟨quals,hq,eq⟩ := note_quality h.quals h.lastQuality (by simpa using hn) r.quality
  obtain ⟨rDims,hr,er⟩ := note_dim h.rDims h.firstRead h.lastRead (by simpa using hn) r.rDim
  obtain ⟨wDims,hw,ew⟩ := note_dim h.wDims h.firstWrite h.lastWrite (by simpa using hn) r.wDim
  simp only [List.length_map] at hq hr hw
  have hstk : stack (data type k) (done ++ [r]).reverse =
      stack (data type k) done.reverse ++ (r.data type k).getD [] := by simp [stack]
  have hempty (hd : r.data type k = none) : Built type size fill n (done ++ [r])
      (advance r quals rDims wDims s) := by
    rw [hd,Option.getD_none,List.append_nil] at hstk
    apply built_advance s.newTmp s.indInSeq h eq er ew (by rw [hstk]; exact h.buffer) _
      (by rw [hstk]; exact h.indInSeq)
    rw [h.unused]
    constructor
    · intro ha q hm
      rcases List.mem_append.mp hm with hm | hm
      · exact ha q hm
      · rw [List.mem_singleton.mp hm,hd]
    · exact fun ha q hm => ha q (List.mem_append_left _ hm)
  cases r with
  | failed e t =>
    refine ⟨_,hempty rfl,rfl,?_⟩
    exact add_except_eq hq hr hw
  | value v t =>
    by_cases hinv : v.quality = .invalid
    · refine ⟨_,hempty (by simp [data,hinv]),rfl,?_⟩
      rw [addRecord,add_value_eq hq hr hw,if_pos hinv]
      rfl
    · obtain ⟨xs,hx,hd⟩ := Sized.data_value hz hinv
      rw [hd,Option.getD_some] at hstk
      rw [hstk] at hroom
      refine ⟨_,built_advance (some _) _ h eq er ew (by rw [hstk]; rfl) ?_ (by rw [hstk]),rfl,?_⟩
      · simp only [reduceCtorEq,false_iff]
        intro ha
        simpa [hd] using ha (.value v t) (by simp)
      · rw [addRecord,add_value_eq hq hr hw,if_neg hinv,hx]
        exact add_data_ok fill _ xs _ hroom h.buffer h.indInSeq

/-- Error list of the newest failed record among `done`, where the newest come first. -/
def lastErrors (done : List AttrRecord) : DevErrorList := ((done.filterMap errs).getLast?).getD []

/-- The record just noted had no data without being a failure; so has the start. -/
def gapAfter (done : List AttrRecord) : Bool :=
  (done.getLast?.map (fun r => r.empty && r.errs.isNone)).getD true

/-- After such a gap no failed record repeats the error list noted last. -/
def errorsSeparated : DevErrorList → Bool → List AttrRecord → Prop
  | _,_,[] => True
  | last,_,r@(.value _ _)::rs => errorsSeparated last r.empty rs
  | last,gap,.failed e _::rs => (gap = true → e ≠ last) ∧ errorsSeparated e false rs

theorem last_errors_value (done : List AttrRecord) (v : AttributeValue) (t : Nat) :
    lastErrors (done ++ [.value v t]) = lastErrors done := by
  simp [lastErrors,errs]

theorem last_errors_failed (done : List AttrRecord) (e : DevErrorList) (t : Nat) :
    lastErrors (done ++ [.failed e t]) = e := by
  simp [lastErrors,errs]

theorem last_errors_snoc (done : List AttrRecord) (r : AttrRecord) :
    lastErrors (done ++ [r]) = r.errs.getD (lastErrors done) := by
  cases r with
  | value v t => rw [last_errors_value]; rfl
  | failed e t => rw [last_errors_failed]; rfl

theorem gap_after_value (done : List AttrRecord) (v : AttributeValue) (t : Nat) :
    gapAfter (done ++ [.value v t]) = (AttrRecord.value v t).empty := by
  simp [gapAfter,errs]

theorem gap_after_failed (done : List AttrRecord) (e : DevErrorList) (t : Nat) :
    gapAfter (done ++ [.failed e t]) = false := by
  simp [gapAfter,errs]

/-- A record without data that leaves no gap is a failure. -/
theorem failed_of_no_gap (h : Built type size fill n done s) (hd : s.noData = true)
    (hg : gapAfter done = false) : ∃ us e t, done = us ++ [.failed e t] := by
  rcases List.eq_nil_or_concat done with rfl | ⟨us,r,rfl⟩
  · simp [gapAfter] at hg
  · rw [List.concat_eq_append] at *
    have hn := h.noData
    cases r with
    | value v t =>
      simp [hd] at hn
      rw [gap_after_value,hn] at hg
      cases hg
    | failed e t => exact ⟨us,e,t,rfl⟩

theorem note_errors_good (h : Built type size fill n done s)
    (he : Encodes n (done.map errs) s.errors) (hl : s.lastErrList = lastErrors done)
    (hn : done.length < n) (hs : gapAfter done = true → e ≠ lastErrors done) :
    ∃ t, noteErrors s.errors s.noData s.lastErrList e (n - (done.length+1)) = .ok t ∧
      Encodes n (done.map errs ++ [some e]) t := by
  have hlast : s.noData = true → e = s.lastErrList → ∃ us, done.map errs = us ++ [some e] := by
    intro hd heq
    have hg : gapAfter done = false := by
      cases hg : gapAfter done with
      | false => rfl
      | true => exact absurd (heq.trans hl) (hs hg)
    obtain ⟨us,e',t',rfl⟩ := failed_of_no_gap h hd hg
    rw [hl,last_errors_failed] at heq
    exact ⟨us.map errs,by simp [errs,heq]⟩
  have hnote := note_errors he (by simpa using hn) hlast
  rwa [List.length_map] at hnote

/-- Repeating the last list after a gap lengthens a run over the gap, or lengthens the
last run of an empty table. -/
theorem note_errors_bad (h : Built type size fill n done s)
    (he : Encodes n (done.map errs) s.errors) (hl : s.lastErrList = lastErrors done)
    (hn : done.length < n) (hg : gapAfter done = true) (hs : e = lastErrors done) :
    noteErrors s.errors s.noData s.lastErrList e (n - (done.length+1)) = .error .outOfBounds ∨
    ∃ t p r, noteErrors s.errors s.noData s.lastErrList e (n - (done.length+1)) = .ok t ∧
      Smudged n (done.length+1) p t ∧ p < n ∧ done[n-1-p]? = some r ∧ r.errs = none := by
  have hd : s.noData = true := by
    rw [h.noData]
    rcases List.eq_nil_or_concat done with rfl | ⟨us,r,rfl⟩
    · rfl
    · simp [gapAfter] at hg
      simpa using hg.1
  have hsame : errorsDiffer e s.lastErrList = false := by
    simpa [hs,hl] using (errors_differ_iff e s.lastErrList).not
  have hnote : noteErrors s.errors s.noData s.lastErrList e (n - (done.length+1)) =
      growLast s.errors := by
    simp [noteErrors,hd,hsame]
  rw [hnote]
  rcases all_none_or_last (done.map errs) with hall | ⟨us,v,m,hv⟩
  · left
    rw [he.blank hall]
    rfl
  · right
    have hlen : done.length = us.length + (m + 1) := by simpa using congrArg List.length hv
    have hm : m ≠ 0 := by
      rintro rfl
      rcases List.eq_nil_or_concat done with rfl | ⟨ds,r,rfl⟩
      · simp at hv
      · rw [List.concat_eq_append,List.map_append] at hv
        have hr : r.errs = some v := snoc_inj (by simpa using hv)
        simp [gapAfter,hr] at hg
    rw [hv] at he
    obtain ⟨t,hgrow,hsm⟩ := he.grow_gap (by omega)
    have hidx : us.length + 1 < done.length := by omega
    refine ⟨t,n - 2 - us.length,done.get ⟨us.length+1,hidx⟩,by simp [growLast,hgrow],?_,by omega,?_,?_⟩
    · have : us.length + m + 2 = done.length + 1 := by omega
      rwa [this] at hsm
    · have : n - 1 - (n - 2 - us.length) = us.length + 1 := by omega
      rw [this,List.getElem?_eq_getElem hidx]
      rfl
    · have hmap : (done.map errs)[us.length+1]? = some none := by
        rw [hv,List.getElem?_append_right (by simp),List.length_append,List.length_singleton,
          Nat.sub_self,List.getElem?_replicate_of_lt (by omega)]
      rw [List.getElem?_map,List.getElem?_eq_getElem hidx] at hmap
      simpa using hmap

/-- Once a run covers a wrong position the rest of the loop cannot take it back. -/
theorem add_records_smudged (h : Built type size fill n done s)
    (hs : Smudged n done.length p s.errors) (hn : done.length + rs.length = n)
    (hz : ∀ r ∈ rs, r.Sized type k)
    (hroom : (stack (data type k) (done ++ rs).reverse).length ≤ size) :
    ∃ s', addRecords type size fill rs s = .ok s' ∧ Built type size fill n (done ++ rs) s' ∧
      Smudged n n p s'.errors := by
  induction rs generalizing done s with
  | nil =>
    simp only [List.length_nil,Nat.add_zero] at hn
    subst n
    exact ⟨s,rfl,by simpa using h,hs⟩
  | cons r rs ih =>
    simp only [List.length_cons] at hn
    obtain ⟨s',hb,-,hadd⟩ := add_record_built h (by omega) (hz r List.mem_cons_self)
      (stack_room done r rs hroom)
    have hstart : n - (done.length+1) = rs.length := by omega
    have hnote : ∃ t, noteRecord s r (n - (done.length+1)) = .ok t ∧
        Smudged n (done.length+1) p t := by
      cases r with
      | value v t => exact ⟨_,rfl,hs.skip⟩
      | failed e t =>
        simp only [noteRecord,noteErrors]
        cases hnew : (if s.noData = true then errorsDiffer e s.lastErrList else true) with
        | true => exact ⟨_,rfl,hs.push (by omega) e⟩
        | false =>
          obtain ⟨t',hg,ht⟩ := hs.grow
          exact ⟨t',by simp [growLast,hg],ht⟩
    obtain ⟨t,ht,hsm⟩ := hnote
    rw [hstart] at hadd ht
    rw [ht] at hadd
    have hb' : Built type size fill n (done ++ [r]) { s' with errors := t } := { hb with }
    obtain ⟨s'',hrun,hb'',hsm'⟩ := ih hb' (by simpa using hsm) (by simp; omega)
      (fun q hq => hz q (List.mem_cons_of_mem _ hq)) (by simpa using hroom)
    refine ⟨s'',?_,by simpa using hb'',hsm'⟩
    simp only [addRecords,hadd,Except.map,bind,Except.bind]
    exact hrun

/-- How the loop over the `n` records `all` can end: with an error table that encodes
their error lists, or not, and then with a fault or with a reading marked as failed. -/
def Outcome (type : CmdArgType) (size : Nat) (fill : Elt k) (n : Nat) (separated : Prop)
    (all : List AttrRecord) (res : Except Fault (AttrHistState k)) : Prop :=
  (separated ∧ ∃ s, res = .ok s ∧ Built type size fill n all s ∧
    Encodes n (all.map errs) s.errors) ∨
  (¬ separated ∧ ((∃ f, res = .error f) ∨
    ∃ s p r, res = .ok s ∧ Built type size fill n all s ∧ Smudged n n p s.errors ∧ p < n ∧
      all[n-1-p]? = some r ∧ r.errs = none))

theorem add_records_run (h : Built type size fill n done s)
    (he : Encodes n (done.map errs) s.errors) (hl : s.lastErrList = lastErrors done)
    (hn : done.length + rs.length = n) (hz : ∀ r ∈ rs, r.Sized type k)
    (hroom : (stack (data type k) (done ++ rs).reverse).length ≤ size) :
    Outcome type size fill n (errorsSeparated (lastErrors done) (gapAfter done) rs) (done ++ rs)
      (addRecords type size fill rs s) := by
  induction rs generalizing done s with
  | nil => exact Or.inl ⟨trivial,s,rfl,by simpa using h,by simpa using he⟩
  | cons r rs ih =>
    simp only [List.length_cons] at hn
    have hlt : done.length < n := by omega
    obtain ⟨s',hb,hlast,hadd⟩ := add_record_built h hlt (hz r List.mem_cons_self)
      (stack_room done r rs hroom)
    have hstart : n - (done.length+1) = rs.length := by omega
    have hz' : ∀ q ∈ rs, q.Sized type k := fun q hq => hz q (List.mem_cons_of_mem _ hq)
    have hl' : s'.lastErrList = lastErrors (done ++ [r]) := by
      rw [hlast,last_errors_snoc,hl]
    have hstep : ∀ t, noteRecord s r (n - (done.length+1)) = .ok t →
        addRecords type size fill (r :: rs) s = addRecords type size fill rs { s' with errors := t } := by
      intro t ht
      rw [hstart] at hadd ht
      rw [ht] at hadd
      simp only [addRecords,hadd,Except.map,bind,Except.bind]
    have hgo : ∀ t, Encodes n ((done ++ [r]).map errs) t →
        noteRecord s r (n - (done.length+1)) = .ok t →
        (errorsSeparated (lastErrors done) (gapAfter done) (r :: rs) ↔
          errorsSeparated (lastErrors (done ++ [r])) (gapAfter (done ++ [r])) rs) →
        Outcome type size fill n (errorsSeparated (lastErrors done) (gapAfter done) (r :: rs))
          (done ++ r :: rs) (addRecords type size fill (r :: rs) s) := by
      intro t ht hnote hiff
      have hb' : Built type size fill n (done ++ [r]) { s' with errors := t } := { hb with }
      have hih := ih hb' ht hl' (by simp; omega) hz' (by simpa using hroom)
      rw [← hiff,← hstep t hnote] at hih
      simpa using hih
    cases r with
    | value v t =>
      apply hgo s.errors (by simpa [errs] using he.skip) rfl
      rw [last_errors_value,gap_after_value]
      rfl
    | failed e t =>
      by_cases hsep : gapAfter done = true → e ≠ lastErrors done
      · obtain ⟨tab,hnote,henc⟩ := note_errors_good h he hl hlt hsep
        apply hgo tab (by simpa [errs] using henc) hnote
        rw [last_errors_failed,gap_after_failed]
        simp only [errorsSeparated,and_iff_right_iff_imp]
        exact fun _ => hsep
      · right
        refine ⟨fun hc => hsep hc.1,?_⟩
        push Not at hsep
        rcases note_errors_bad h he hl hlt hsep.1 hsep.2 with herr | ⟨tab,p,q,hnote,hsm,hp,hq,hqe⟩
        · left
          rw [hstart] at hadd herr
          rw [noteRecord,herr] at hadd
          exact ⟨.outOfBounds,by simp only [addRecords,hadd,Except.map,bind,Except.bind]⟩
        · right
          have hb' : Built type size fill n (done ++ [.failed e t]) { s' with errors := tab } :=
            { hb with }
          obtain ⟨s'',hrun,hb'',hsm'⟩ := add_records_smudged hb' (by simpa using hsm)
            (by simp; omega) hz' (by simpa using hroom)
          have hidx : n - 1 - p < done.length := (List.getElem?_eq_some_iff.mp hq).1
          refine ⟨s'',p,q,(hstep tab hnote).trans hrun,by simpa using hb'',hsm',hp,?_,hqe⟩
          rw [List.getElem?_append_left hidx,hq]

end Loop

end CppTango.Polling.AttrRoundTrip
