import CppTango.Polling.CmdHistory
import Mathlib.Data.List.Forall2

namespace CppTango.Polling.CmdRoundTrip
open Lib

/-- One insertion in a command ring, with its polling date. -/
inductive CmdRecord
  | result (any : CmdAny) (t : Nat)
  | failed (errs : DevErrorList) (t : Nat)
deriving DecidableEq

namespace CmdRecord

def date : CmdRecord → TimeVal
  | .result _ t => makeTimeVal t
  | .failed _ t => makeTimeVal t

def errs : CmdRecord → Option DevErrorList
  | .result _ _ => none
  | .failed e _ => some e

def any : CmdRecord → Option CmdAny
  | .result a _ => some a
  | .failed _ _ => none

/-- The `Any` of a successful record holds the output type of the command. -/
def Typed (form : CmdForm) (k : SeqKind) : CmdRecord → Prop
  | .result a _ => ∃ data, a.read form k = .ok data
  | .failed _ _ => True

def data (form : CmdForm) (k : SeqKind) (r : CmdRecord) : Option (List (Elt k) × List String) :=
  r.any.bind (fun a => (a.read form k).toOption)

def elts (form : CmdForm) (k : SeqKind) (r : CmdRecord) : Option (List (Elt k)) :=
  (r.data form k).map Prod.fst

def texts (form : CmdForm) (k : SeqKind) (r : CmdRecord) : Option (List String) :=
  (r.data form k).map Prod.snd

def dataDim (form : CmdForm) (data : List (Elt k) × List String) : AttributeDim :=
  match form with
  | .strings => ⟨data.2.length,data.1.length⟩
  | _ => ⟨data.1.length,0⟩

/-- Dimensions noted for a record; a failed one counts as empty. -/
def dim (form : CmdForm) (k : SeqKind) (r : CmdRecord) : AttributeDim :=
  ((r.data form k).map (dataDim form)).getD .zero

/-- What the reader of the history should find for a record. -/
def expected (r : CmdRecord) : DeviceDataHistory where
  time := r.date
  fail := r.errs.isSome
  errList := r.errs.getD []
  any := r.any

end CmdRecord

open CmdRecord

def insertRecord : CmdRecord → RingElt → RingElt
  | .result a t => insertCmdData a t
  | .failed e t => insertExcept e t

/-- The ring after a sequence of insertions, oldest first. -/
def cmdRing (depth : Nat) (hd : 0 < depth) (log : List CmdRecord) : PollRing :=
  Ring.run insertRecord (pollRing depth hd) log

def Holds (e : RingElt) : CmdRecord → Prop
  | .result a t => e.except = none ∧ e.cmdResult = some a ∧ e.when = t
  | .failed errs t => e.except = some errs ∧ e.when = t

theorem nb_elt_ring (depth : Nat) (hd : 0 < depth) (log : List CmdRecord) :
    getNbElt (cmdRing depth hd log) = min log.length depth := by
  rw [getNbElt,cmdRing,Ring.run_nbElt _ rfl]
  simp [pollRing,Ring.make]

theorem recent_holds (depth : Nat) (hd : 0 < depth) (log : List CmdRecord) (n : Nat)
    (hn : n ≤ getNbElt (cmdRing depth hd log)) :
    List.Forall₂ Holds ((cmdRing depth hd log).recent n) (log.reverse.take n) := by
  rw [nb_elt_ring] at hn
  have hw : ∀ r e, True → Holds (insertRecord r e) r := by
    intro r e _
    cases r with
    | result a t => exact ⟨rfl,rfl,rfl⟩
    | failed errs t => exact ⟨rfl,rfl⟩
  refine Ring.run_recent (P := fun _ => True) (R := Holds) (fun _ _ h => h) hw _
    (fun _ _ => trivial) log n (by omega) ?_
  · simp only [pollRing,Ring.make,List.length_replicate]
    omega

section Encode
variable {form : CmdForm} {k : SeqKind} {size : Nat × Nat} {fill : Elt k}

theorem data_of_typed (h : Typed form k (.result a t)) :
    ∃ data, a.read form k = .ok data ∧ CmdRecord.data form k (.result a t) = some data := by
  obtain ⟨data,hd⟩ := h
  exact ⟨data,hd,by simp [CmdRecord.data,any,hd,Except.toOption]⟩

/-- What an `Any` that has been extracted was. -/
theorem read_cases {a : CmdAny} {d : List (Elt k) × List String} (h : a.read form k = .ok d) :
    (form = .simple ∧ ∃ x, a = .scalar k x ∧ d = ([x],[])) ∨
    (form = .array ∧ a = .array ⟨k,d.1⟩ ∧ d.2 = []) ∨
    (form = .strings ∧ a = .strings ⟨k,d.1⟩ d.2) := by
  unfold CmdAny.read at h
  split at h
  · cases h
  · split at h
    · rename_i hk
      subst hk
      cases h
      exact Or.inl ⟨rfl,_,rfl,rfl⟩
    · cases h
  · split at h
    · rename_i hk
      subst hk
      cases h
      exact Or.inr (Or.inl ⟨rfl,rfl,rfl⟩)
    · cases h
  · split at h
    · rename_i hk
      subst hk
      cases h
      exact Or.inr (Or.inr ⟨rfl,rfl⟩)
    · cases h
  · cases h

theorem read_no_text {a : CmdAny} {d : List (Elt k) × List String} (h : a.read form k = .ok d)
    (hf : form ≠ .strings) : d.2 = [] := by
  rcases read_cases h with ⟨-,x,-,rfl⟩ | ⟨-,-,hd⟩ | ⟨hs,-⟩
  · rfl
  · exact hd
  · exact absurd hs hf

/-- What the loop has built after the records `done`, newest first, of `n` in all. -/
structure Built (form : CmdForm) (k : SeqKind) (size : Nat × Nat) (fill : Elt k) (n : Nat)
    (done : List CmdRecord) (s : CmdHistState k) : Prop where
  dates : s.dates = done.reverse.map date
  errors : Encodes n (done.map errs) s.errors
  noData : s.noData = true → (done = [] ∧ s.lastErrList = []) ∨
    ∃ us t, done = us ++ [.failed s.lastErrList t]
  dims : Encodes n ((done.map (dim form k)).map some) s.dims
  firstDim : done.map (dim form k) = [] → s.lastDim = (-1,-1)
  lastDim : ∀ us d, done.map (dim form k) = us ++ [d] → s.lastDim = AttributeDim.pair d
  nums : s.nums.getD (List.replicate size.1 fill) = stack (elts form k) done.reverse ++
    List.replicate (size.1 - (stack (elts form k) done.reverse).length) fill
  indNum : s.indNum = (stack (elts form k) done.reverse).length
  strs : s.strs.getD (List.replicate size.2 "") = stack (texts form k) done.reverse ++
    List.replicate (size.2 - (stack (texts form k) done.reverse).length) ""
  indStr : s.indStr = (stack (texts form k) done.reverse).length
  unused : s.nums = none ↔ ∀ r ∈ done, r.errs ≠ none
  both : form = .strings → (s.strs = none ↔ s.nums = none)

theorem Built.start : Built form k size fill n [] ({} : CmdHistState k) where
  dates := rfl
  errors := .nil n
  noData := fun _ => Or.inl ⟨rfl,rfl⟩
  dims := .nil n
  firstDim := fun _ => rfl
  lastDim := by intro us d h; simp at h
  nums := by simp [stack]
  indNum := rfl
  strs := by simp [stack]
  indStr := rfl
  unused := by simp
  both := fun _ => by simp

/-- With one dimension in use comparing it alone is comparing both. -/
theorem note_length_eq (t : RunTable AttributeDim) (last : Int × Int) (length start : Nat)
    (hl : last.2 = 0 ∨ last = (-1,-1)) :
    noteLength t last length start = noteDim t last ⟨length,0⟩ start := by
  unfold noteLength noteDim
  have hiff : last.1 = length ↔ AttributeDim.pair ⟨length,0⟩ = last := by
    obtain ⟨x,y⟩ := last
    simp only [AttributeDim.pair,Prod.mk.injEq] at hl ⊢
    omega
  by_cases hc : last.1 = length
  · rw [if_pos hc,if_pos (hiff.mp hc)]
  · rw [if_neg hc,if_neg (fun hd => hc (hiff.mpr hd))]

/-- Outside the form with strings the second dimension stays 0. -/
theorem Built.flat (h : Built form k size fill n done s) (hf : form ≠ .strings) :
    s.lastDim.2 = 0 ∨ s.lastDim = (-1,-1) := by
  rcases List.eq_nil_or_concat done with rfl | ⟨us,r,rfl⟩
  · exact Or.inr (h.firstDim rfl)
  · left
    rw [h.lastDim (us.map (dim form k)) (r.dim form k) (by simp)]
    have hy : (r.dim form k).dimY = 0 := by
      cases hd : r.data form k with
      | none => simp [dim,hd,AttributeDim.zero]
      | some d => cases form <;> simp_all [dim,dataDim]
    simp [AttributeDim.pair,hy]

theorem errors_end (h : Built form k size fill n done s) (hf : done = [] → e ≠ [])
    (hd : s.noData = true) (he : e = s.lastErrList) : ∃ us, done.map errs = us ++ [some e] := by
  rcases h.noData hd with ⟨rfl,hl⟩ | ⟨us,t,rfl⟩
  · exact absurd (he.trans hl) (hf rfl)
  · exact ⟨us.map errs,by simp [errs,he]⟩

/-- A record is added rightly when its own date, errors, dimensions and data are. -/
theorem Built.snoc {s' : CmdHistState k} (h : Built form k size fill n done s) (r : CmdRecord)
    (hdate : s'.dates = r.date :: s.dates) (herrs : Encodes n (done.map errs ++ [r.errs]) s'.errors)
    (hno : s'.noData = true → ∃ t, r = .failed s'.lastErrList t)
    (hdim : Encodes n ((done.map (dim form k) ++ [r.dim form k]).map some) s'.dims)
    (hlast : s'.lastDim = AttributeDim.pair (r.dim form k))
    (hnums : s'.nums.getD (List.replicate size.1 fill) =
      stack (elts form k) done.reverse ++ (r.elts form k).getD [] ++ List.replicate
        (size.1 - (stack (elts form k) done.reverse ++ (r.elts form k).getD []).length) fill)
    (hin : s'.indNum = (stack (elts form k) done.reverse ++
      (r.elts form k).getD []).length)
    (hstrs : s'.strs.getD (List.replicate size.2 "") =
      stack (texts form k) done.reverse ++ (r.texts form k).getD [] ++ List.replicate
        (size.2 - (stack (texts form k) done.reverse ++ (r.texts form k).getD []).length) "")
    (his : s'.indStr = (stack (texts form k) done.reverse ++
      (r.texts form k).getD []).length)
    (hu : s'.nums = none ↔ s.nums = none ∧ r.errs ≠ none)
    (hboth : form = .strings → (s'.strs = none ↔ s'.nums = none)) :
    Built form k size fill n (done ++ [r]) s' where
  dates := by simp [hdate,h.dates]
  errors := by simpa using herrs
  noData := fun hd => by
    obtain ⟨t,ht⟩ := hno hd
    exact Or.inr ⟨done,t,by rw [← ht]⟩
  dims := by simpa using hdim
  firstDim := by intro hc; simp at hc
  lastDim := by
    intro us d hc
    rw [List.map_append] at hc
    rw [hlast,snoc_inj hc]
  nums := by simpa [stack] using hnums
  indNum := by simpa [stack] using hin
  strs := by simpa [stack] using hstrs
  indStr := by simpa [stack] using his
  unused := by
    rw [hu,h.unused]
    simp only [List.mem_append,List.mem_singleton,or_imp,forall_and,forall_eq]
  both := hboth

theorem add_except_built (h : Built form k size fill n done s) (hn : done.length < n)
    (hf : done = [] → ex ≠ []) (he : e.except = some ex) (hw : e.when = t) :
    ∃ s', addCmdElt form size fill (n - (done.length+1)) e s = .ok s' ∧
      Built form k size fill n (done ++ [.failed ex t]) s' := by
  obtain ⟨errors,hne,henc⟩ := note_errors h.errors (by simpa using hn) (errors_end h hf)
  obtain ⟨dims,hnd,hdim⟩ := note_dim h.dims h.firstDim h.lastDim (by simpa using hn) .zero
  rw [List.length_map] at hne hnd
  refine ⟨_,by simp only [addCmdElt,he,addCmdExcept,hne,hnd,bind,Except.bind,pure,Except.pure]; rfl,?_⟩
  apply h.snoc (.failed ex t)
  · rw [hw]
    rfl
  · exact henc
  · exact fun _ => ⟨t,rfl⟩
  · exact hdim
  · rfl
  · simpa [elts,data,any] using h.nums
  · simpa [elts,data,any] using h.indNum
  · simpa [texts,data,any] using h.strs
  · simpa [texts,data,any] using h.indStr
  · simp [errs]
  · exact h.both

/-- Every form but the one with strings goes through the same case. -/
theorem add_cmd_data_flat (hf : form ≠ .strings) (start : Nat) (e : RingElt) (s : CmdHistState k) :
    addCmdData form size fill start e s = (do
      let data ← e.cmdData form k
      let nums ← orFault .outOfBounds
        (blit (s.nums.getD (List.replicate size.1 fill)) s.indNum data.1)
      let dims ← noteLength s.dims s.lastDim data.1.length start
      pure { s with
        nums := some nums
        indNum := s.indNum + data.1.length
        dims := dims
        lastDim := (data.1.length,if s.lastDim.1 = data.1.length then s.lastDim.2 else 0) }) := by
  cases form with
  | strings => exact absurd rfl hf
  | void => rfl
  | simple => rfl
  | array => rfl

theorem add_data_built (h : Built form k size fill n done s) (hn : done.length < n)
    (he : e.except = none) (ha : e.cmdResult = some a) (hw : e.when = t)
    (ht : Typed form k (.result a t))
    (hroom : (stack (elts form k) (done ++ [CmdRecord.result a t]).reverse).length ≤ size.1 ∧
      (stack (texts form k) (done ++ [CmdRecord.result a t]).reverse).length ≤ size.2) :
    ∃ s', addCmdElt form size fill (n - (done.length+1)) e s = .ok s' ∧
      Built form k size fill n (done ++ [.result a t]) s' := by
  obtain ⟨d,hd,hdata⟩ := data_of_typed ht
  have hn' : elts form k (.result a t) = some d.1 := by simp [elts,hdata]
  have hs' : texts form k (.result a t) = some d.2 := by simp [texts,hdata]
  have hdim' : dim form k (.result a t) = dataDim form d := by simp [dim,hdata]
  simp only [List.reverse_append,List.reverse_cons,List.reverse_nil,List.nil_append,
    List.cons_append,stack,hn',hs',Option.getD_some] at hroom
  have hblit := blit_padded _ _ _ fill hroom.1
  rw [← h.nums,← h.indNum] at hblit
  obtain ⟨dims,hnd,hdim⟩ := note_dim h.dims h.firstDim h.lastDim (by simpa using hn) (dataDim form d)
  rw [List.length_map] at hnd
  have hskip : Encodes n (done.map errs ++ [none]) s.errors := h.errors.skip
  by_cases hf : form = .strings
  · subst hf
    have hblit' := blit_padded _ _ _ "" hroom.2
    rw [← h.strs,← h.indStr] at hblit'
    simp only [dataDim] at hnd
    refine ⟨_,by simp only [addCmdElt,he,addCmdData,RingElt.cmdData,ha,hd,hblit,hblit',hnd,orFault,
      bind,Except.bind,pure,Except.pure]; rfl,?_⟩
    apply h.snoc (.result a t)
    · rw [hw]
      rfl
    · exact hskip
    · intro hc
      cases hc
    · rw [hdim']
      exact hdim
    · rw [hdim']
      rfl
    · rw [hn']
      rfl
    · rw [hn',h.indNum]
      simp
    · rw [hs']
      rfl
    · rw [hs',h.indStr]
      simp
    · simp [errs]
    · simp
  · have hdd : dataDim form d = ⟨d.1.length,0⟩ := by cases form <;> first | rfl | exact absurd rfl hf
    have hnote := note_length_eq s.dims s.lastDim d.1.length (n - (done.length+1)) (h.flat hf)
    rw [← hdd,hnd] at hnote
    refine ⟨_,by simp only [addCmdElt,he,add_cmd_data_flat hf,RingElt.cmdData,ha,hd,hblit,hnote,orFault,
      bind,Except.bind,pure,Except.pure]; rfl,?_⟩
    have htext : d.2 = [] := read_no_text hd hf
    apply h.snoc (.result a t)
    · rw [hw]
      rfl
    · exact hskip
    · intro hc
      cases hc
    · rw [hdim']
      exact hdim
    · rw [hdim',hdd]
      have hflat := h.flat hf
      simp only [AttributeDim.pair,Prod.mk.injEq,true_and]
      split
      · rename_i hx
        rcases hflat with hy | hy
        · exact hy
        · rw [hy] at hx
          simp at hx
      · rfl
    · rw [hn']
      rfl
    · rw [hn',h.indNum]
      simp
    · rw [hs',htext]
      simpa using h.strs
    · rw [hs',htext]
      simpa using h.indStr
    · simp [errs]
    · exact fun hc => absurd hc hf

theorem add_elt_built (h : Built form k size fill n done s) (hn : done.length < n)
    (he : Holds e r) (ht : r.Typed form k) (hf : done = [] → r.errs ≠ some [])
    (hroom : (stack (elts form k) (done ++ [r]).reverse).length ≤ size.1 ∧
      (stack (texts form k) (done ++ [r]).reverse).length ≤ size.2) :
    ∃ s', addCmdElt form size fill (n - (done.length+1)) e s = .ok s' ∧
      Built form k size fill n (done ++ [r]) s' := by
  cases r with
  | failed ex t => exact add_except_built h hn (fun hd hc => hf hd (by rw [hc]; rfl)) he.1 he.2
  | result a t => exact add_data_built h hn he.1 he.2.1 he.2.2 ht hroom

theorem add_elts_built (hh : List.Forall₂ Holds es rs) (h : Built form k size fill n done s)
    (hn : done.length + rs.length = n) (ht : ∀ r ∈ rs, r.Typed form k)
    (hf : done = [] → rs.head?.bind errs ≠ some [])
    (hroom : (stack (elts form k) (done ++ rs).reverse).length ≤ size.1 ∧
      (stack (texts form k) (done ++ rs).reverse).length ≤ size.2) :
    ∃ s', addCmdElts form size fill es s = .ok s' ∧ Built form k size fill n (done ++ rs) s' := by
  induction hh generalizing done s with
  | nil => exact ⟨s,rfl,by simpa using h⟩
  | @cons e r es rs he hes ih =>
    simp only [List.length_cons] at hn
    obtain ⟨s₁,hadd,hb⟩ := add_elt_built h (by omega) he (ht r List.mem_cons_self) hf
      ⟨stack_room done r rs hroom.1,stack_room done r rs hroom.2⟩
    have hstart : n - (done.length+1) = es.length := by
      rw [hes.length_eq]
      omega
    obtain ⟨s₂,hrun,hb₂⟩ := ih hb (by simp; omega) (fun q hq => ht q (List.mem_cons_of_mem _ hq))
      (fun hc => by simp at hc) (by simpa using hroom)
    refine ⟨s₂,?_,by simpa using hb₂⟩
    rw [hstart] at hadd
    simp only [addCmdElts,hadd,bind,Except.bind]
    exact hrun

/-- A newest record that failed without any error lengthens the last run of an empty table. -/
theorem add_elts_first (hh : List.Forall₂ Holds es rs) (hf : rs.head?.bind errs = some []) :
    addCmdElts form size fill es {} = .error .outOfBounds := by
  cases hh with
  | nil => cases hf
  | @cons e r es rs he hes =>
    cases r with
    | result a t => cases hf
    | failed ex t =>
      cases hf
      simp only [addCmdElts,addCmdElt,he.1]
      rfl

theorem cmd_seq_size (hh : List.Forall₂ Holds es rs) (ht : ∀ r ∈ rs, r.Typed form k) :
    cmdSeqSize form k es =
      .ok ((stack (elts form k) rs).length,(stack (texts form k) rs).length) := by
  induction hh with
  | nil => rfl
  | @cons e r es rs he hes ih =>
    have hsize : cmdEltSize form k e =
        .ok (((r.elts form k).getD []).length,((r.texts form k).getD []).length) := by
      cases r with
      | failed ex t => simp [cmdEltSize,he.1,elts,texts,data,any]
      | result a t =>
        obtain ⟨d,hd,hdata⟩ := data_of_typed (ht _ List.mem_cons_self)
        rcases read_cases hd with ⟨rfl,x,rfl,rfl⟩ | ⟨rfl,-,-⟩ | ⟨rfl,-⟩
        · simp [cmdEltSize,he.1,elts,texts,hdata]
        · simp [cmdEltSize,he.1,RingElt.cmdData,he.2.1,hd,elts,texts,hdata,bind,Except.bind,pure,
            Except.pure]
        · simp [cmdEltSize,he.1,RingElt.cmdData,he.2.1,hd,elts,texts,hdata,bind,Except.bind,pure,
            Except.pure]
    rw [cmdSeqSize,hsize,ih (fun q hq => ht q (List.mem_cons_of_mem _ hq))]
    simp [stack,bind,Except.bind,pure,Except.pure,Nat.add_comm]

end Encode

end CppTango.Polling.CmdRoundTrip
