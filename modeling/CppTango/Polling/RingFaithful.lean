import CppTango.Polling.RingReaders

namespace CppTango.Polling
open Lib

section Lists
variable {α β γ : Type}

/-- What a map that cannot fail on these elements gives. -/
theorem mapM_ok {ε : Type} {R : α → β → Prop} {f : α → Except ε γ} {g : β → γ}
    {as : List α} {bs : List β} (h : List.Forall₂ R as bs) (hf : ∀ a, ∀ b ∈ bs, R a b → f a = .ok (g b)) :
    as.mapM f = .ok (bs.map g) := by
  induction h with
  | nil => rfl
  | cons hr _ ih =>
    simp only [List.mapM_cons,hf _ _ List.mem_cons_self hr,
      ih (fun a b hb => hf a b (List.mem_cons_of_mem _ hb)),List.map_cons]
    rfl

theorem ok_of_mapM {ε : Type} {f : α → Except ε γ} {as : List α} {cs : List γ} (h : as.mapM f = .ok cs) {a : α}
    (ha : a ∈ as) : ∃ c, f a = .ok c := by
  induction as generalizing cs with
  | nil => cases ha
  | cons b as ih =>
    rw [List.mapM_cons] at h
    cases hb : f b with
    | error e => rw [hb] at h; cases h
    | ok c =>
      rcases List.mem_cons.mp ha with rfl | ha
      · exact ⟨c,hb⟩
      · cases htail : as.mapM f with
        | error e => rw [hb,htail] at h; cases h
        | ok ds => exact ih htail ha

theorem map_eq_of_forall₂ {R : α → β → Prop} {f : α → γ} {g : β → γ} (hf : ∀ a b, R a b → f a = g b)
    {as : List α} {bs : List β} (h : List.Forall₂ R as bs) : as.map f = bs.map g := by
  induction h with
  | nil => rfl
  | cons hr _ ih => rw [List.map_cons,List.map_cons,hf _ _ hr,ih]

theorem exists_of_forall₂ {R : α → β → Prop} {as : List α} {bs : List β} (h : List.Forall₂ R as bs) {b : β}
    (hb : b ∈ bs) : ∃ a ∈ as, R a b := by
  induction h with
  | nil => cases hb
  | @cons a c as bs hr _ ih =>
    rcases List.mem_cons.mp hb with rfl | hb
    · exact ⟨a,List.mem_cons_self,hr⟩
    · obtain ⟨a',ha,hr'⟩ := ih hb
      exact ⟨a',List.mem_cons_of_mem _ ha,hr'⟩

/-- The last `n` elements. -/
def lastN (n : Nat) (l : List α) : List α := l.drop (l.length - n)

theorem lastN_eq (n : Nat) (l : List α) : (l.reverse.take n).reverse = lastN n l := by
  rw [List.take_reverse,List.reverse_reverse,lastN]

theorem lastN_subset {m n : Nat} (h : m ≤ n) (l : List α) : lastN m l ⊆ lastN n l :=
  fun _ ha => List.mem_of_mem_drop (by
    have hsplit : l.drop (l.length - m) = (l.drop (l.length - n)).drop (l.length - m - (l.length - n)) := by
      rw [List.drop_drop]
      congr 1
      omega
    rwa [lastN,hsplit] at ha)

/-- The differences of each element to the one behind it. -/
def differences (l : List Int) : List Int := List.zipWith (· - ·) l l.tail

theorem differences_take (l : List Int) (n : Nat) : differences (l.take (n + 1)) = (differences l).take n := by
  induction n generalizing l with
  | zero => cases l <;> rfl
  | succ n ih =>
    match l with
    | [] => rfl
    | [_] => rfl
    | a::b::l => exact congrArg ((a - b) :: ·) (ih (b :: l))

end Lists

section Last
variable {k : Kind} (depth : Nat) (hd : 0 < depth) (log : List (Record k))

theorem lastIndex_eq (r : PollRing) : lastIndex r = prevIndex r.cells.length r.insertElt := by
  unfold prevIndex lastIndex
  split <;> rfl

theorem recent_one (r : PollRing) : r.recent 1 = [lastElt r] := by
  have hc : r.cells[lastIndex r]? = some (lastElt r) := List.getElem?_eq_getElem (lastIndex_lt r)
  rw [Lib.Ring.recent,← lastIndex_eq,Lib.Ring.walk,hc]
  rfl

theorem holds_last {o : Record k} (h : log.getLast? = some o) : Holds (lastElt (kindRing k depth hd log)) o := by
  obtain ⟨init,rfl⟩ := List.getLast?_eq_some_iff.mp h
  have hrecent := kindRing_recent depth hd (init ++ [o]) 1 (by
    rw [kindRing_nbElt,List.length_append,List.length_singleton]
    omega)
  rw [recent_one,List.reverse_append] at hrecent
  exact (List.forall₂_cons.mp hrecent).1

/-- What the readers of the last insertion say of it. -/
structure LastRead (r : PollRing) (o : Record k) : Prop where
  error : isLastAnError r = o.errs.isSome ∧ isLastCmdAnError r = o.errs.isSome
  date : getLastInsertDate r = o.date
  except : getLastExcept r = o.errs
  value : lastReader k r = o.answer

theorem lastRead {o : Record k} (h : log.getLast? = some o) : LastRead (kindRing k depth hd log) o := by
  obtain ⟨hwhen,hexcept,hdata⟩ := holds_last depth hd log h
  refine ⟨⟨congrArg Option.isSome hexcept,congrArg Option.isSome hexcept⟩,hwhen,hexcept,?_⟩
  rw [lastReader_eq,lastValue]
  cases o with
  | data x t => rw [hexcept,hdata x rfl]; rfl
  | failed errs t => rw [hexcept]; rfl

end Last

section Deltas
variable {k : Kind} (depth : Nat) (hd : 0 < depth) (log : List (Record k))

theorem deltaLoop_eq (cells : List RingElt) (n : Nat) {index : Nat} (h : index < cells.length) :
    deltaLoop cells index (prevIndex cells.length index) n =
      differences ((Lib.Ring.walk cells index (n + 1)).map (fun e => (e.when : Int))) := by
  have hcell : ∀ {i : Nat} (_ : i < cells.length) (m : Nat),
      (Lib.Ring.walk cells i (m + 1)).map (fun e => (e.when : Int)) =
        dateAt cells i :: (Lib.Ring.walk cells (prevIndex cells.length i) m).map (fun e => (e.when : Int)) := by
    intro i hi m
    rw [Lib.Ring.walk,dateAt,List.getD_eq_getElem?_getD,List.getElem?_eq_getElem hi]
    rfl
  induction n generalizing index with
  | zero => rw [hcell h]; rfl
  | succ n ih =>
    have hprev := Lib.Ring.prevIndex_lt h
    rw [deltaLoop,ih hprev,hcell h (n + 1),hcell hprev n]
    rfl

def dates (log : List (Record k)) : List Int := log.reverse.map (fun r => (r.date : Int))

/-- The second index starts one before the first one. -/
theorem getDeltaT_eq (r : PollRing) (nb : Nat) (h : 2 ≤ r.nbElt) :
    getDeltaT r nb = .ok (deltaLoop r.cells (lastIndex r) (prevIndex r.cells.length (lastIndex r))
      (min nb (r.nbElt - 1))) := by
  have hdepth := r.nb_le
  have hprev : (if r.insertElt = 0 then lastIndex r - 1
      else if lastIndex r = 0 then r.cells.length - 1 else lastIndex r - 1) =
      prevIndex r.cells.length (lastIndex r) := by
    unfold lastIndex prevIndex
    split <;> split <;> omega
  have hnb : (if r.nbElt ≤ nb then r.nbElt - 1 else nb) = min nb (r.nbElt - 1) := by
    split <;> omega
  unfold getDeltaT
  rw [if_neg (by omega)]
  show Except.ok (deltaLoop r.cells (lastIndex r) (if r.insertElt = 0 then lastIndex r - 1
    else if lastIndex r = 0 then r.cells.length - 1 else lastIndex r - 1) _) = _
  rw [hprev,hnb]

/-- Thrown for fewer than two insertions, else the successive differences of the newest ones. -/
theorem getDeltaT_spec (nb : Nat) :
    getDeltaT (kindRing k depth hd log) nb =
      if (kindRing k depth hd log).nbElt < 2 then .error (.devFailed [notEnoughData])
      else .ok ((differences (dates log)).take (min nb ((kindRing k depth hd log).nbElt - 1))) := by
  split
  next h => rw [getDeltaT,if_pos h]
  next h =>
    rw [getDeltaT_eq _ _ (by omega),deltaLoop_eq _ _ (lastIndex_lt _)]
    have hrecent := kindRing_recent depth hd log (min nb ((kindRing k depth hd log).nbElt - 1) + 1) (by omega)
    rw [Lib.Ring.recent,← lastIndex_eq] at hrecent
    have hwhen : (Lib.Ring.walk (kindRing k depth hd log).cells (lastIndex (kindRing k depth hd log))
        (min nb ((kindRing k depth hd log).nbElt - 1) + 1)).map (fun e => (e.when : Int)) =
        (dates log).take (min nb ((kindRing k depth hd log).nbElt - 1) + 1) := by
      rw [dates,← List.map_take]
      exact map_eq_of_forall₂ (fun _ _ h => congrArg Int.ofNat h.when) hrecent
    rw [hwhen,differences_take]

end Deltas

section Histories
variable {k : Kind} (depth : Nat) (hd : 0 < depth) (log : List (Record k)) {β : Type}

theorem fillHistory_eq {entry : RingElt → Except Fault β} {g : Record k → β} {n : Nat} {P : Record k → Prop}
    (hl : ∀ o ∈ log, P o) (he : ∀ e o, Holds e o → P o → entry e = .ok (g o))
    (hn : n ≤ (kindRing k depth hd log).nbElt) :
    fillHistory entry (kindRing k depth hd log) n = .ok ((lastN n log).map g) := by
  have hmem : ∀ o ∈ log.reverse.take n, P o := fun o ho => hl o (List.mem_reverse.mp (List.mem_of_mem_take ho))
  rw [fillHistory,mapM_ok (kindRing_recent depth hd log n hn) (fun e o ho h => he e o h (hmem o ho)),
    ← lastN_eq,List.map_reverse]
  rfl

def Record.cmdHistory : Record .cmd → DevCmdHistory
  | .data x t => ⟨makeTimeVal t,false,some x,[]⟩
  | .failed errs t => ⟨makeTimeVal t,true,none,errs⟩

theorem cmdEntry_holds {e : RingElt} {o : Record .cmd} (h : Holds e o) : cmdEntry e = .ok o.cmdHistory := by
  unfold cmdEntry
  cases o with
  | data x t => rw [h.except,show e.cmdResult = some x from h.data x rfl,h.when]; rfl
  | failed errs t => rw [h.except,h.when]; rfl

/-- The entry for an insertion, with that much of its value. -/
def Record.attrHistory (ver : ValueList) (copied : AttributeValue → AttrValUnion) :
    Record (.attr ver) → DevAttrHistory3
  | .data v t =>
    let v := { v with time := makeTimeVal t, value := copied v }
    ⟨false,if ver = .v2 then { v with wDim := .zero, errList := [] } else v,[]⟩
  | .failed errs t =>
    if ver = .v2 then ⟨true,noValue t,errs⟩ else ⟨true,{ noValue t with errList := errs },[]⟩

/-- A value that is not invalid is there, and of the data type of the attribute. -/
def Typed (ver : ValueList) (type : CmdArgType) (v : AttributeValue) : Prop :=
  v.quality ≠ .invalid →
    match v.value with
    | .seq s => attrSeqKind type = some s.kind
    | .devStateAtt _ => type = .devState ∧ ver ≠ .v2
    | .unionNoData => False

def Record.Typed {ver : ValueList} (type : CmdArgType) : Record (.attr ver) → Prop
  | .data v _ => Polling.Typed ver type v
  | .failed _ _ => True

/-- The value of an insertion; an invalid one has none. -/
def validValue (v : AttributeValue) : AttrValUnion := if v.quality ≠ .invalid then v.value else .unionNoData

/-- The value that the readers with one case for each type copy. -/
def copiedValue (type : CmdArgType) (v : AttributeValue) : AttrValUnion :=
  if plainKind type = none then .unionNoData else validValue v

theorem plainKind_eq {type : CmdArgType} {kind : SeqKind} (h : attrSeqKind type = some kind)
    (ht : plainKind type ≠ none) : plainKind type = some kind := by
  unfold plainKind at ht ⊢
  split
  next he => rw [if_pos he] at ht; exact absurd rfl ht
  next => exact h

theorem plainValue_typed {ver : ValueList} {type : CmdArgType} {v : AttributeValue} (h : Typed ver type v)
    (hq : v.quality ≠ .invalid) : plainValue ver type v.value = .ok (copiedValue type v) := by
  have hv := h hq
  unfold plainValue copiedValue validValue
  rw [if_pos hq]
  cases hp : plainKind type with
  | none => rfl
  | some kind =>
    have hne : plainKind type ≠ none := by rw [hp]; exact Option.some_ne_none kind
    cases hval : v.value with
    | seq s =>
      rw [hval] at hv
      have hk : s.kind = kind := Option.some.inj ((plainKind_eq hv hne).symm.trans hp)
      simp [hk]
    | devStateAtt st =>
      rw [hval] at hv
      simp [hv.1,hv.2]
    | unionNoData =>
      rw [hval] at hv
      exact hv.elim

theorem attrEntry_holds {ver : ValueList} {type : CmdArgType} {e : RingElt} {o : Record (.attr ver)}
    (h : Holds e o) (ht : o.Typed type) :
    attrEntry ver type (member (.attr ver)) e = .ok (o.attrHistory ver (copiedValue type)) := by
  unfold attrEntry
  cases o with
  | failed errs t =>
    rw [h.except,h.when]
    show (if ver = .v2 then _ else _) = Except.ok (if ver = .v2 then _ else _)
    split <;> rfl
  | data v t =>
    rw [h.except,h.data v rfl,h.when]
    by_cases hq : v.quality = .invalid
    · have hcopied : copiedValue type v = .unionNoData := by simp [copiedValue,validValue,hq]
      simp [Record.errs,Record.date,Record.attrHistory,hq,hcopied]
      rfl
    · simp only [Record.errs,Record.date,Record.attrHistory,ne_eq,hq,not_false_eq_true,if_true,
        plainValue_typed ht hq]
      rfl

/-- The plain history reader called for a kind gives these insertions. IDL 5 has none of its own, and
the one of IDL 4 is called. -/
def HistoryRead (type : CmdArgType) (r : PollRing) (n : Nat) : (k : Kind) → List (Record k) → Prop
  | .cmd,os => getCmdHistoryList r n = .ok (os.map Record.cmdHistory)
  | .attr .v2,os => getAttrHistoryList type r n = .ok (os.map (Record.attrHistory .v2 validValue))
  | .attr .v3,os => getAttrHistoryList3 type r n = .ok (os.map (Record.attrHistory .v3 validValue))
  | .attr .v4,os => getAttrHistory43 type r n = .ok (os.map (Record.attrHistory .v4 validValue))
  | .attr .v5,os => getAttrHistory43 type r n = .ok (os.map (Record.attrHistory .v5 validValue))

/-- The attribute types, with what a ring of a kind may be given for one. -/
def TypedRecord (type : CmdArgType) : (k : Kind) → Record k → Prop
  | .cmd,_ => True
  | .attr _,o => o.Typed type ∧ type ≠ .devVoid

/-- An insertion that a plain history loses: a reading of IDL 5, which is looked for where those of
IDL 4 are, and a `DevEncoded` value, for which there is no case. -/
def NotReadBack (type : CmdArgType) : (k : Kind) → Record k → Prop
  | .cmd,_ => False
  | .attr _,.failed _ _ => False
  | .attr ver,.data v _ => ver = .v5 ∨ type = .devEncoded ∧ v.quality ≠ .invalid

theorem copied_valid_iff {ver : ValueList} {type : CmdArgType} {o : Record (.attr ver)} (hv : ver ≠ .v5)
    (ht : TypedRecord type (.attr ver) o) :
    o.attrHistory ver (copiedValue type) = o.attrHistory ver validValue ↔ ¬NotReadBack type (.attr ver) o := by
  cases o with
  | failed errs t => exact iff_of_true rfl id
  | data v t =>
    have hvalue : (Record.data v t : Record (.attr ver)).attrHistory ver (copiedValue type) =
        (Record.data v t : Record (.attr ver)).attrHistory ver validValue ↔ copiedValue type v = validValue v := by
      simp only [Record.attrHistory]
      split <;> simp
    rw [hvalue]
    by_cases hq : v.quality = .invalid
    · refine iff_of_true ?_ (fun h => h.elim hv (fun h => h.2 hq))
      simp [copiedValue,validValue,hq]
    by_cases he : type = .devEncoded
    · refine iff_of_false (fun h => ?_) (fun h => h (.inr ⟨he,hq⟩))
      have hdata := ht.1 hq
      have hnone : v.value = .unionNoData := by
        simpa [copiedValue,validValue,hq,plainKind,he] using h.symm
      rw [hnone] at hdata
      exact hdata
    · refine iff_of_true ?_ (fun h => h.elim hv (fun h => he h.1))
      unfold copiedValue
      split
      next hnone =>
        have hdata := ht.1 hq
        have hkind : attrSeqKind type = none := by
          unfold plainKind at hnone
          rwa [if_neg (not_or.mpr ⟨he,ht.2⟩)] at hnone
        cases hval : v.value with
        | seq s => rw [hval,hkind] at hdata; cases hdata
        | devStateAtt st => rw [hval] at hdata; rw [hdata.1] at hkind; cases hkind
        | unionNoData => rw [hval] at hdata; exact hdata.elim
      next => rfl

/-- A member that is null at first and that no insertion of the kind sets is null in every slot. -/
theorem recent_other {other : RingElt → Option AttributeValue} (h0 : other {} = none)
    (hkeep : ∀ (o : Record k) (e : RingElt), other e = none → other (insert k o e) = none) (n : Nat)
    (hn : n ≤ (kindRing k depth hd log).nbElt) :
    List.Forall₂ (fun e o => Holds e o ∧ other e = none) ((kindRing k depth hd log).recent n)
      (log.reverse.take n) := by
  rw [kindRing_nbElt] at hn
  refine Ring.run_recent (P := fun e => other e = none) hkeep (fun o e h => ⟨insert_holds o e,hkeep o e h⟩) _
    (fun c hc => ?_) log n (by omega) ?_
  · rw [List.eq_of_mem_replicate hc]
    exact h0
  · simp only [pollRing,Ring.make,List.length_replicate]
    omega

theorem historyRead_v5_iff (log : List (Record (.attr .v5))) (type : CmdArgType) (n : Nat)
    (hn : n ≤ (kindRing (.attr .v5) depth hd log).nbElt) :
    getAttrHistory43 type (kindRing (.attr .v5) depth hd log) n =
        .ok ((lastN n log).map (Record.attrHistory .v5 validValue)) ↔
      ∀ o ∈ lastN n log, ¬NotReadBack type (.attr .v5) o := by
  have hrecent := @recent_other _ depth hd log RingElt.attrValue4 rfl
    (fun o _ h => by cases o <;> exact h) n hn
  have hmem : ∀ o, o ∈ log.reverse.take n ↔ o ∈ lastN n log := fun o => by rw [← lastN_eq,List.mem_reverse]
  constructor
  · intro h o ho
    cases o with
    | failed errs t => exact id
    | data v t =>
      obtain ⟨e,he,hh⟩ := exists_of_forall₂ hrecent ((hmem _).mpr ho)
      unfold getAttrHistory43 fillHistory at h
      cases hm : ((kindRing (.attr .v5) depth hd log).recent n).mapM (attrEntry .v4 type RingElt.attrValue4) with
      | error f => rw [hm] at h; cases h
      | ok cs =>
        obtain ⟨c,hc⟩ := ok_of_mapM hm he
        rw [attrEntry,hh.1.except,hh.2] at hc
        cases hc
  · intro h
    have hentry : ∀ e, ∀ o ∈ log.reverse.take n, Holds e o ∧ e.attrValue4 = none →
        attrEntry .v4 type RingElt.attrValue4 e = .ok (o.attrHistory .v5 validValue) := by
      intro e o ho hh
      cases o with
      | data v t => exact absurd (.inl rfl) (h _ ((hmem _).mp ho))
      | failed errs t =>
        rw [attrEntry,hh.1.except,hh.1.when]
        rfl
    rw [getAttrHistory43,fillHistory,mapM_ok hrecent hentry,← lastN_eq,List.map_reverse]
    rfl

theorem historyRead_iff (type : CmdArgType) (ht : ∀ o ∈ log, TypedRecord type k o) (n : Nat)
    (hn : n ≤ (kindRing k depth hd log).nbElt) :
    HistoryRead type (kindRing k depth hd log) n k (lastN n log) ↔ ∀ o ∈ lastN n log, ¬NotReadBack type k o := by
  have hsub : ∀ o ∈ lastN n log, o ∈ log := fun o ho => List.mem_of_mem_drop ho
  cases k with
  | cmd =>
    refine iff_of_true ?_ (fun _ _ => id)
    exact fillHistory_eq depth hd log (P := fun _ => True) (fun _ _ => trivial)
      (fun e o h _ => cmdEntry_holds h) hn
  | attr ver =>
    have hread := fillHistory_eq depth hd log (fun o ho => (ht o ho).1)
      (fun e o h hp => (attrEntry_holds h hp : attrEntry ver type _ e = _)) hn
    have hiff : ver ≠ .v5 → (fillHistory (attrEntry ver type (member (.attr ver)))
        (kindRing (.attr ver) depth hd log) n = .ok ((lastN n log).map (Record.attrHistory ver validValue)) ↔
          ∀ o ∈ lastN n log, ¬NotReadBack type (.attr ver) o) := by
      intro hv
      rw [hread,Except.ok.injEq,List.map_inj_left]
      exact forall₂_congr fun o ho => copied_valid_iff hv (ht o (hsub o ho))
    cases ver with
    | v2 => exact hiff (by decide)
    | v3 => exact hiff (by decide)
    | v4 => exact hiff (by decide)
    | v5 => exact historyRead_v5_iff depth hd log type n hn

end Histories

section Faithful
variable (k : Kind) (type : CmdArgType) (depth : Nat) (hd : 0 < depth) (log : List (Record k))

/-- A ring with these insertions behaves as a bounded history of them. -/
structure Faithful (r : PollRing) : Prop where
  nbElt : r.nbElt = min log.length depth
  insertElt : r.insertElt = log.length % depth
  last : ∀ o, log.getLast? = some o → LastRead r o
  tooFew : ∀ m, (∃ errs, getDeltaT r m = .error (.devFailed errs)) ↔ r.nbElt < 2
  deltas : ∀ m, 2 ≤ r.nbElt → getDeltaT r m = .ok ((differences (dates log)).take (min m (r.nbElt - 1)))
  history : ∀ n, 1 ≤ n → n ≤ r.nbElt → HistoryRead type r n k (lastN n log)

/-- The ring is a bounded history of its insertions, whatever the depth and the number of laps, but
for the readings that the plain histories lose. -/
theorem ring_faithful (ht : ∀ o ∈ log, TypedRecord type k o) :
    Faithful k type depth log (kindRing k depth hd log) ↔
      ∀ o ∈ lastN depth log, ¬NotReadBack type k o := by
  have hnb := kindRing_nbElt depth hd log
  have hwindow : lastN (kindRing k depth hd log).nbElt log = lastN depth log := by
    rw [hnb,lastN,lastN]
    congr 1
    omega
  constructor
  · intro h o ho
    by_cases hzero : (kindRing k depth hd log).nbElt = 0
    · have hempty : log = [] := List.length_eq_zero_iff.mp (by omega)
      exact absurd (List.mem_of_mem_drop ho) (hempty ▸ List.not_mem_nil)
    · have hall := (historyRead_iff depth hd log type ht _ (Nat.le_refl _)).mp
        (h.history _ (Nat.pos_of_ne_zero hzero) (Nat.le_refl _))
      exact hall o (hwindow ▸ ho)
  · intro h
    refine ⟨hnb,kindRing_insertElt depth hd log,fun o => lastRead depth hd log,fun m => ?_,fun m hm => ?_,
      fun n _ hn => ?_⟩
    · rw [getDeltaT_spec]
      split
      next hlt => exact iff_of_true ⟨_,rfl⟩ hlt
      next hge => exact iff_of_false (fun ⟨_,he⟩ => by cases he) hge
    · rw [getDeltaT_spec,if_neg (by omega)]
    · rw [historyRead_iff depth hd log type ht n hn]
      intro o ho
      have hlast : o ∈ lastN (kindRing k depth hd log).nbElt log := lastN_subset hn log ho
      exact h o (hwindow ▸ hlast)

end Faithful

section Examples

def sample (value : AttrValUnion) : AttributeValue :=
  ⟨"Image",value,.valid,⟨1,250,0⟩,⟨1,0⟩,.zero,[]⟩

/-- Three polls of a `DevLong` attribute in a ring of depth two, one of them failed. -/
def polledLongs : List (Record (.attr .v4)) :=
  [.data (sample (.seq ⟨.long,[7]⟩)) 1000,.failed [notEnoughData] 2000,.data (sample (.seq ⟨.long,[9]⟩)) 3000]

theorem ring_faithful_longs :
    Faithful (.attr .v4) .devLong 2 polledLongs (kindRing (.attr .v4) 2 (by decide) polledLongs) := by
  refine (ring_faithful (.attr .v4) .devLong 2 (by decide) polledLongs ?_).mpr ?_
  · intro o ho
    simp only [polledLongs,List.mem_cons,List.not_mem_nil,or_false] at ho
    rcases ho with rfl | rfl | rfl
    · exact ⟨fun _ => rfl,by decide⟩
    · exact ⟨trivial,by decide⟩
    · exact ⟨fun _ => rfl,by decide⟩
  · intro o _
    cases o with
    | failed errs t => exact id
    | data v t => exact fun h => h.elim (by decide) (fun h => absurd h.1 (by decide))

def polledImage : List (Record (.attr .v4)) :=
  [.data (sample (.seq ⟨.encoded,[⟨"JPEG",[255,216]⟩]⟩)) 1000]

/-- The history says the reading succeeded, is valid and has one element, and has no value. -/
theorem encoded_value_lost :
    let r := kindRing (.attr .v4) 1 (by decide) polledImage
    (∀ o ∈ polledImage, TypedRecord .devEncoded (.attr .v4) o) ∧
      getAttrHistory43 .devEncoded r 1 =
        .ok [⟨false,{ sample .unionNoData with time := makeTimeVal 1000 },[]⟩] ∧
      ¬Faithful (.attr .v4) .devEncoded 1 polledImage r := by
  have ht : ∀ o ∈ polledImage, TypedRecord .devEncoded (.attr .v4) o := by
    intro o ho
    rw [List.mem_singleton.mp ho]
    exact ⟨fun _ => rfl,by decide⟩
  refine ⟨ht,rfl,fun h => ?_⟩
  have hread := h.history 1 (Nat.le_refl _) (Nat.le_refl _)
  have hiff := historyRead_iff 1 (by decide) polledImage .devEncoded ht 1 (Nat.le_refl _)
  exact hiff.mp hread _ (List.mem_singleton.mpr rfl) (.inr ⟨rfl,by decide⟩)

end Examples

end CppTango.Polling
