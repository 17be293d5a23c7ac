import CppTango.Data
import CppTango.Lib.Maps
import CppTango.Lib.Loops
import Mathlib.Data.List.Sort

namespace CppTango.Client.Asyn

open CppTango.Lib

inductive ReqType
  | cmdInout | readAttr | writeAttrSingle | writeAttr
deriving DecidableEq, Repr

/-- The part of a request that polling mode uses. -/
structure TgRequest (ρ : Type) where
  request : ρ
  reqType : ReqType

abbrev Table (ρ : Type) := AList (fun _ : Int => TgRequest ρ)

/-- The requests of polling mode, and the last identifier given out. -/
structure AsynReq (ρ : Type) where
  asynPollReqTable : Table ρ
  cancelledRequest : List Int
  ctr : Int
  distinct : cancelledRequest.Nodup
  tableIssued : ∀ id ∈ asynPollReqTable, id ≤ ctr
  cancelledIssued : ∀ id ∈ cancelledRequest, id ≤ ctr

section Store
variable {ρ : Type} (pollResponse : ρ → Option Bool)

/-- None where the poll of the response throws. -/
def removeCancelledRequest (reqId : Int) (t : Table ρ) : Option (Bool × Table ρ) :=
  match t.lookup reqId with
  | none => some (true,t)
  | some r =>
    match pollResponse r.request with
    | none => none
    | some false => some (false,t)
    | some true => some (true,t.erase reqId)

/-- The loop over the cancelled requests: the one behind an erased one is stepped over. -/
def removeCancelled : List Int → Table ρ → List Int × Table ρ
  | [],t => ([],t)
  | reqId::reqIds,t =>
    match removeCancelledRequest pollResponse reqId t with
    | some (true,t) =>
      match reqIds with
      | [] => ([],t)
      | next::reqIds => (removeCancelled reqIds t).map (next :: ·) id
    | some (false,t) => (removeCancelled reqIds t).map (reqId :: ·) id
    -- what the poll throws is caught, and the request stays
    | none => (removeCancelled reqIds t).map (reqId :: ·) id

/-- The reply of a request has arrived. -/
def arrived (t : Table ρ) (reqId : Int) : Bool :=
  match t.lookup reqId with
  | none => false
  | some r => pollResponse r.request = some true

/-- A request that `remove_cancelled_request` says is done with. -/
def removable (t : Table ρ) (reqId : Int) : Bool := reqId ∉ t || arrived pollResponse t reqId

end Store

section Steps
variable {ρ : Type} {pollResponse : ρ → Option Bool} {t : Table ρ} {reqId : Int}

theorem removable_none (h : t.lookup reqId = none) : removable pollResponse t reqId = true := by
  have hm : reqId ∉ t := AList.lookup_eq_none.mp h
  simp [removable,hm]

theorem removable_some {r : TgRequest ρ} (h : t.lookup reqId = some r) :
    removable pollResponse t reqId = decide (pollResponse r.request = some true) := by
  have hm : reqId ∈ t := mem_of_lookup h
  simp [removable,arrived,h,hm]

theorem removable_erase {other : Int} (hne : other ≠ reqId) :
    removable pollResponse (t.erase reqId) other = removable pollResponse t other := by
  simp [removable,arrived,AList.lookup_erase_ne hne,AList.mem_erase,hne]

/-- Whether a cancelled request goes, with the table left. -/
theorem removeCancelledRequest_spec (pollResponse : ρ → Option Bool) (reqId : Int) (t : Table ρ) :
    (removable pollResponse t reqId = true ∧
      removeCancelledRequest pollResponse reqId t = some (true,t.erase reqId)) ∨
    (removable pollResponse t reqId = false ∧ (removeCancelledRequest pollResponse reqId t = some (false,t) ∨
      removeCancelledRequest pollResponse reqId t = none)) := by
  unfold removeCancelledRequest
  cases h : t.lookup reqId with
  | none =>
    refine .inl ⟨removable_none h,?_⟩
    rw [erase_of_notMem (AList.lookup_eq_none.mp h)]
  | some r =>
    rw [removable_some h]
    rcases hp : pollResponse r.request with _ | _ | _
    · exact .inr ⟨by simp,.inr (by simp only [hp])⟩
    · exact .inr ⟨by simp,.inl (by simp only [hp])⟩
    · exact .inl ⟨by simp,by simp only [hp]⟩

theorem of_removed {t' : Table ρ} (h : removeCancelledRequest pollResponse reqId t = some (true,t')) :
    removable pollResponse t reqId = true ∧ t' = t.erase reqId := by
  rcases removeCancelledRequest_spec pollResponse reqId t with ⟨hr,he⟩ | ⟨_,he | he⟩
  · rw [he] at h
    cases h
    exact ⟨hr,rfl⟩
  · rw [he] at h
    cases h
  · rw [he] at h
    cases h

theorem of_pending {t' : Table ρ} (h : removeCancelledRequest pollResponse reqId t = some (false,t')) :
    removable pollResponse t reqId = false ∧ t' = t := by
  rcases removeCancelledRequest_spec pollResponse reqId t with ⟨_,he⟩ | ⟨hr,he | he⟩
  · rw [he] at h
    cases h
  · rw [he] at h
    cases h
    exact ⟨hr,rfl⟩
  · rw [he] at h
    cases h

theorem of_threw (h : removeCancelledRequest pollResponse reqId t = none) :
    removable pollResponse t reqId = false := by
  rcases removeCancelledRequest_spec pollResponse reqId t with ⟨_,he⟩ | ⟨hr,_⟩
  · rw [he] at h
    cases h
  · exact hr

theorem lookup_erase_if (t : Table ρ) (reqId other : Int) (gone : List Int) :
    (if other ∈ gone then none else (t.erase reqId).lookup other) =
      if other ∈ reqId :: gone then none else t.lookup other := by
  by_cases he : other = reqId
  · subst he
    simp [AList.lookup_erase]
  · simp only [List.mem_cons,he,false_or,AList.lookup_erase_ne he]

/-- The loop is a sweep of the requests that can go, which are taken out of the table. -/
theorem removeCancelled_spec (pollResponse : ρ → Option Bool) {reqIds : List Int} (hn : reqIds.Nodup) (t : Table ρ) :
    (removeCancelled pollResponse reqIds t).1 = (sweep (removable pollResponse t) reqIds).1 ∧
    ∀ other, (removeCancelled pollResponse reqIds t).2.lookup other =
      if other ∈ (sweep (removable pollResponse t) reqIds).2 then none else t.lookup other := by
  fun_induction removeCancelled pollResponse reqIds t with
  | case1 => simp [sweep]
  | case2 reqId t t' h =>
    obtain ⟨hr,rfl⟩ := of_removed h
    rw [sweep_last hr]
    refine ⟨rfl,fun other => ?_⟩
    have he := lookup_erase_if t reqId other []
    simpa using he
  | case3 reqId t t' h next reqIds ih =>
    obtain ⟨hr,rfl⟩ := of_removed h
    obtain ⟨hout,hrest⟩ := List.nodup_cons.mp hn
    obtain ⟨hlist,htable⟩ := ih (List.nodup_cons.mp hrest).2
    have hne : ∀ other ∈ reqIds, other ≠ reqId := by
      rintro other ho rfl
      exact hout (List.mem_cons_of_mem _ ho)
    rw [sweep_congr (fun other ho => removable_erase (hne other ho))] at hlist
    simp only [sweep_congr (fun other ho => removable_erase (hne other ho))] at htable
    rw [sweep_erased hr]
    refine ⟨?_,fun other => ?_⟩
    · rw [Prod.map_fst,Prod.map_fst,hlist]
    · exact (htable other).trans (lookup_erase_if _ _ other _)
  | case4 reqId reqIds t t' h ih =>
    obtain ⟨hr,rfl⟩ := of_pending h
    obtain ⟨hlist,htable⟩ := ih (List.nodup_cons.mp hn).2
    rw [sweep_kept hr]
    refine ⟨?_,htable⟩
    rw [Prod.map_fst,Prod.map_fst,hlist]
  | case5 reqId reqIds t h ih =>
    obtain ⟨hlist,htable⟩ := ih (List.nodup_cons.mp hn).2
    rw [sweep_kept (of_threw h)]
    refine ⟨?_,htable⟩
    rw [Prod.map_fst,Prod.map_fst,hlist]

end Steps

section Calls
variable {ρ : Type} (pollResponse : ρ → Option Bool)

theorem mem_removed {s : AsynReq ρ} {reqId : Int}
    (h : reqId ∈ (removeCancelled pollResponse s.cancelledRequest s.asynPollReqTable).2) :
    reqId ∈ s.asynPollReqTable := by
  rw [← AList.lookup_isSome,(removeCancelled_spec pollResponse s.distinct s.asynPollReqTable).2] at h
  split at h
  · cases h
  · exact AList.lookup_isSome.mp h

theorem kept_cancelled (s : AsynReq ρ) :
    ((removeCancelled pollResponse s.cancelledRequest s.asynPollReqTable).1).Sublist s.cancelledRequest := by
  rw [(removeCancelled_spec pollResponse s.distinct s.asynPollReqTable).1]
  exact sublist_sweep _ _

/-- `store_request` of polling mode, with the identifier it gives out. -/
def storeRequest (req : ρ) (type : ReqType) (s : AsynReq ρ) : Int × AsynReq ρ :=
  (s.ctr + 1,
   { asynPollReqTable := insertNew (s.ctr + 1) ⟨req,type⟩
       (removeCancelled pollResponse s.cancelledRequest s.asynPollReqTable).2
     cancelledRequest := (removeCancelled pollResponse s.cancelledRequest s.asynPollReqTable).1
     ctr := s.ctr + 1
     distinct := s.distinct.sublist (kept_cancelled pollResponse s)
     tableIssued := by
       intro reqId hr
       rcases mem_insertNew.mp hr with rfl | hr
       · exact Int.le_refl _
       · have := s.tableIssued reqId (mem_removed pollResponse hr)
         omega
     cancelledIssued := by
       intro reqId hr
       have := s.cancelledIssued reqId ((kept_cancelled pollResponse s).subset hr)
       omega })

/-- `push_back` of an identifier that is not in the list yet. -/
def addCancelled (l : List Int) (reqId : Int) : List Int := if reqId ∈ l then l else l ++ [reqId]

theorem nodup_addCancelled {l : List Int} (hn : l.Nodup) (reqId : Int) : (addCancelled l reqId).Nodup := by
  unfold addCancelled
  split
  · exact hn
  · rename_i hout
    refine hn.append (List.nodup_singleton _) ?_
    rw [List.disjoint_singleton]
    exact hout

theorem mem_addCancelled {l : List Int} {reqId other : Int} :
    other ∈ addCancelled l reqId ↔ other ∈ l ∨ other = reqId := by
  unfold addCancelled
  split
  · rename_i hin
    refine ⟨.inl,?_⟩
    rintro (h | rfl)
    · exact h
    · exact hin
  · simp

def badAsynPollId (reqId : Int) (origin : String) : DevErrorList :=
  [⟨"API_BadAsynPollId",.err,"Failed to find a asynchronous polling request with id = " ++ toString reqId,origin⟩]

def removeRequest (reqId : Int) (s : AsynReq ρ) : Except DevErrorList (AsynReq ρ) :=
  if reqId ∈ s.asynPollReqTable then
    .ok
      { s with
        asynPollReqTable := s.asynPollReqTable.erase reqId
        tableIssued := fun other ho => s.tableIssued other (AList.mem_erase.mp ho).2 }
  else .error (badAsynPollId reqId "AsynReq::remove_request")

def markAsCancelled (reqId : Int) (s : AsynReq ρ) : Except DevErrorList (AsynReq ρ) :=
  if h : reqId ∈ s.asynPollReqTable then
    .ok
      { s with
        cancelledRequest := addCancelled s.cancelledRequest reqId
        distinct := nodup_addCancelled s.distinct reqId
        cancelledIssued := by
          intro other ho
          rcases mem_addCancelled.mp ho with ho | rfl
          · exact s.cancelledIssued other ho
          · exact s.tableIssued other h }
  else .error (badAsynPollId reqId "AsynReq::mark_as_cancelled")

theorem nodup_addAll {l : List Int} (hn : l.Nodup) (reqIds : List Int) : (reqIds.foldl addCancelled l).Nodup := by
  induction reqIds generalizing l with
  | nil => exact hn
  | cons reqId reqIds ih => exact ih (nodup_addCancelled hn reqId)

theorem mem_addAll {l reqIds : List Int} {other : Int} :
    other ∈ reqIds.foldl addCancelled l ↔ other ∈ l ∨ other ∈ reqIds := by
  induction reqIds generalizing l with
  | nil => simp
  | cons reqId reqIds ih => rw [List.foldl_cons,ih,mem_addCancelled,List.mem_cons,or_assoc]

/-- The identifiers of the table, in the order of the map. -/
def reqIds (t : Table ρ) : List Int := t.keys.insertionSort (· ≤ ·)

theorem mem_reqIds {t : Table ρ} {reqId : Int} : reqId ∈ reqIds t ↔ reqId ∈ t :=
  List.mem_insertionSort _

def markAllPollingAsCancelled (s : AsynReq ρ) : AsynReq ρ :=
  { s with
    cancelledRequest := (reqIds s.asynPollReqTable).foldl addCancelled s.cancelledRequest
    distinct := nodup_addAll s.distinct _
    cancelledIssued := by
      intro reqId hr
      rcases mem_addAll.mp hr with hr | hr
      · exact s.cancelledIssued reqId hr
      · exact s.tableIssued reqId (mem_reqIds.mp hr) }

end Calls

section Collect
variable {ρ : Type} (pollResponse : ρ → Option Bool)

/-- The cancelled requests that can go have gone, the others stay, and the new request has an identifier of its own. -/
structure Collected (s : AsynReq ρ) (req : TgRequest ρ) (out : Int × AsynReq ρ) : Prop where
  cancelled : out.2.cancelledRequest =
    s.cancelledRequest.filter (fun reqId => reqId ∈ s.asynPollReqTable ∧ ¬arrived pollResponse s.asynPollReqTable reqId)
  table : ∀ reqId, out.2.asynPollReqTable.lookup reqId =
    if reqId = out.1 then some req
    else if reqId ∈ s.cancelledRequest ∧ arrived pollResponse s.asynPollReqTable reqId then none
    else s.asynPollReqTable.lookup reqId
  fresh : out.1 ∉ s.asynPollReqTable ∧ out.1 ∉ s.cancelledRequest
  none_left : ∀ reqId ∈ out.2.cancelledRequest, arrived pollResponse out.2.asynPollReqTable reqId = false

variable {pollResponse} in
/-- A request that can go without having arrived is not in the table. -/
theorem lookup_unless_removable (t : Table ρ) (c : Prop) [Decidable c] (reqId : Int) :
    (if c ∧ removable pollResponse t reqId = true then none else t.lookup reqId) =
      if c ∧ arrived pollResponse t reqId = true then none else t.lookup reqId := by
  by_cases hm : reqId ∈ t
  · simp [removable,hm]
  · rw [AList.lookup_eq_none.mpr hm]
    simp

/-- All cancelled requests are collected just where no two neighbours in their list can both go. -/
theorem storeRequest_collects_iff (req : ρ) (type : ReqType) (s : AsynReq ρ) :
    Collected pollResponse s ⟨req,type⟩ (storeRequest pollResponse req type s) ↔
      Apart (removable pollResponse s.asynPollReqTable) s.cancelledRequest := by
  obtain ⟨hlist,htable⟩ := removeCancelled_spec pollResponse s.distinct s.asynPollReqTable
  have hright := sweep_right_iff (removable pollResponse s.asynPollReqTable) s.cancelledRequest
  have hfilter : s.cancelledRequest.filter (fun reqId => !removable pollResponse s.asynPollReqTable reqId) =
      s.cancelledRequest.filter
        (fun reqId => reqId ∈ s.asynPollReqTable ∧ ¬arrived pollResponse s.asynPollReqTable reqId) := by
    apply List.filter_congr
    intro reqId _
    simp [removable]
  rw [hfilter,← hlist] at hright
  constructor
  · intro h
    exact hright.mp h.cancelled
  · intro hapart
    have hgone : ∀ reqId, reqId ∈ (sweep (removable pollResponse s.asynPollReqTable) s.cancelledRequest).2 ↔
        reqId ∈ s.cancelledRequest ∧ removable pollResponse s.asynPollReqTable reqId = true :=
      fun _ => mem_erased_iff hapart
    have hnew : s.ctr + 1 ∉ s.asynPollReqTable := by
      intro hm
      have := s.tableIssued _ hm
      omega
    have hnew' : s.ctr + 1 ∉ s.cancelledRequest := by
      intro hm
      have := s.cancelledIssued _ hm
      omega
    have hnot : s.ctr + 1 ∉ (removeCancelled pollResponse s.cancelledRequest s.asynPollReqTable).2 :=
      fun hm => hnew (mem_removed pollResponse hm)
    have hlookup : ∀ reqId, (storeRequest pollResponse req type s).2.asynPollReqTable.lookup reqId =
        if reqId = s.ctr + 1 then some ⟨req,type⟩
        else if reqId ∈ s.cancelledRequest ∧ arrived pollResponse s.asynPollReqTable reqId then none
        else s.asynPollReqTable.lookup reqId := by
      intro reqId
      change (insertNew (s.ctr + 1) _ _).lookup reqId = _
      rw [insertNew_of_notMem hnot]
      by_cases he : reqId = s.ctr + 1
      · rw [he,AList.lookup_insert,if_pos rfl]
      · rw [AList.lookup_insert_ne he,htable,if_neg he]
        simp only [hgone]
        exact lookup_unless_removable _ _ reqId
    refine ⟨hright.mpr hapart,hlookup,⟨hnew,hnew'⟩,?_⟩
    intro reqId hr
    have hkept : reqId ∈ s.cancelledRequest ∧ reqId ∈ s.asynPollReqTable ∧
        ¬arrived pollResponse s.asynPollReqTable reqId = true := by
      change reqId ∈ (removeCancelled pollResponse s.cancelledRequest s.asynPollReqTable).1 at hr
      rw [hright.mpr hapart] at hr
      simpa using hr
    have hne : reqId ≠ s.ctr + 1 := by
      rintro rfl
      exact hnew hkept.2.1
    have hsame := hlookup reqId
    rw [if_neg hne,if_neg (fun h => hkept.2.2 h.2)] at hsame
    have harrived := hkept.2.2
    unfold arrived at harrived ⊢
    rw [hsame]
    exact Bool.eq_false_iff.mpr harrived

/-- Two requests are cancelled and both replies are there. -/
def bothArrived : AsynReq Unit where
  asynPollReqTable := (AList.insert 1 ⟨(),.cmdInout⟩ ∅).insert 2 ⟨(),.cmdInout⟩
  cancelledRequest := [1,2]
  ctr := 2
  distinct := by decide
  tableIssued := by decide
  cancelledIssued := by decide

/-- The second of them stays in the list and in the table. -/
theorem second_left : ¬Collected (fun _ => some true) bothArrived ⟨(),.readAttr⟩
    (storeRequest (fun _ => some true) () .readAttr bothArrived) := by
  intro h
  exact absurd h.cancelled (by decide)

end Collect

end CppTango.Client.Asyn
