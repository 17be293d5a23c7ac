import CppTango.Client.AsynCallbacks

namespace CppTango.Client.AsynCallbacks

open CppTango.Lib CppTango.Device
open CppTango.Client.Asyn (ReqType)
open scoped List

section Ledger

/-- Where every request is accounted for: its callback has been called with its data, or it is in the two tables and
counted for its device. `now` is the request whose callback is running, which is still in the tables. The requests
without a mark are those that the ORB still has. -/
structure Balanced (now : List Issued) (s : CbState) : Prop where
  once : (s.called ++ s.cbDevTable.map (·.toIssued)).Perm (s.issued ++ now)
  numbers : s.issued.map (·.request) = List.range s.next
  keys : (s.cbDevTable.map (·.request)).Nodup
  known : ∀ q ∈ s.cbDevTable, q.toIssued ∈ s.issued
  tables : s.cbReqTable.Perm s.cbDevTable
  counters : ∀ dev, s.pasynCbCtr dev = (s.cbDevTable.countP (fun q => q.dev = dev) : Nat)
  orb : (s.outstanding ++ s.ready).Perm ((s.cbDevTable.filter (fun q => !q.arrived)).map (·.request))

variable {s : CbState} {now : List Issued}

theorem fresh_balanced : Balanced [] fresh :=
  ⟨.nil,rfl,.nil,fun _ hq => absurd hq List.not_mem_nil,.nil,fun _ => rfl,.nil⟩

theorem Balanced.below (h : Balanced now s) : ∀ q ∈ s.cbDevTable, q.request < s.next := by
  intro q hq
  have hm := List.mem_map_of_mem (f := fun r : Issued => r.request) (h.known q hq)
  rw [h.numbers] at hm
  exact List.mem_range.mp hm

theorem insertDev_perm (r : TgRequest) (l : List TgRequest) : (insertDev r l).Perm (r :: l) := by
  unfold insertDev
  refine List.perm_middle.trans ?_
  rw [List.takeWhile_append_dropWhile]

theorem Balanced.insertReq_new (h : Balanced now s) (r : Issued) (hr : r.request = s.next) :
    insertReq ⟨r,false⟩ s.cbReqTable = s.cbReqTable ++ [⟨r,false⟩] := by
  unfold insertReq
  rw [if_neg]
  intro ha
  obtain ⟨q,hq,he⟩ := List.any_eq_true.mp ha
  have hlt := h.below q (h.tables.mem_iff.mp hq)
  have he : q.request = r.request := of_decide_eq_true he
  omega

/-- A new request is in the tables, counted and sent. -/
theorem asynch_balanced (h : Balanced now s) (dev cbPtr : Nat) (reqType : ReqType) :
    Balanced now (asynch s dev cbPtr reqType) := by
  have htable : (asynch s dev cbPtr reqType).cbDevTable.Perm
      (⟨⟨s.next,dev,cbPtr,reqType⟩,false⟩ :: s.cbDevTable) := insertDev_perm _ _
  have hnew : s.next ∉ s.cbDevTable.map (·.request) := by
    intro hm
    obtain ⟨q,hq,he⟩ := List.mem_map.mp hm
    exact absurd (h.below q hq) (by rw [he]; exact Nat.lt_irrefl _)
  constructor
  case once =>
    calc s.called ++ (asynch s dev cbPtr reqType).cbDevTable.map (·.toIssued)
        ~ s.called ++ ⟨s.next,dev,cbPtr,reqType⟩ :: s.cbDevTable.map (·.toIssued) := (htable.map _).append_left _
      _ ~ ⟨s.next,dev,cbPtr,reqType⟩ :: (s.called ++ s.cbDevTable.map (·.toIssued)) := List.perm_middle
      _ ~ ⟨s.next,dev,cbPtr,reqType⟩ :: (s.issued ++ now) := h.once.cons _
      _ ~ s.issued ++ ⟨s.next,dev,cbPtr,reqType⟩ :: now := List.perm_middle.symm
      _ = (asynch s dev cbPtr reqType).issued ++ now := by simp [asynch,CbState.storeRequest,CbState.addToCtr]
  case numbers =>
    have hn : (s.issued ++ [(⟨s.next,dev,cbPtr,reqType⟩ : Issued)]).map (·.request) = List.range (s.next + 1) := by
      rw [List.map_append,h.numbers,List.range_succ]
      rfl
    exact hn
  case keys =>
    rw [(htable.map _).nodup_iff]
    exact List.nodup_cons.mpr ⟨hnew,h.keys⟩
  case known =>
    intro q hq
    rcases List.mem_cons.mp (htable.mem_iff.mp hq) with rfl | hq
    · exact List.mem_append_right _ List.mem_cons_self
    · exact List.mem_append_left _ (h.known q hq)
  case tables =>
    have hreq : (asynch s dev cbPtr reqType).cbReqTable =
        s.cbReqTable ++ [⟨⟨s.next,dev,cbPtr,reqType⟩,false⟩] := h.insertReq_new _ rfl
    rw [hreq]
    exact (List.perm_append_singleton _ _).trans ((h.tables.cons _).trans htable.symm)
  case counters =>
    intro d
    have hctr : (asynch s dev cbPtr reqType).pasynCbCtr d =
        s.pasynCbCtr d + (if d = dev then 1 else 0) := by
      by_cases hd : d = dev
      · subst hd
        simp [asynch,CbState.storeRequest,CbState.addToCtr]
      · simp [asynch,CbState.storeRequest,CbState.addToCtr,hd]
    rw [hctr,htable.countP_eq,List.countP_cons,h.counters]
    by_cases hd : d = dev
    · simp [hd]
    · simp [hd,Ne.symm hd]
  case orb =>
    have horb : (asynch s dev cbPtr reqType).outstanding ++ (asynch s dev cbPtr reqType).ready =
        s.outstanding ++ s.next :: s.ready := by simp [asynch,CbState.storeRequest,CbState.addToCtr]
    rw [horb]
    have hsent := (htable.filter (fun q => !q.arrived)).map (fun q => q.request)
    exact List.perm_middle.trans ((h.orb.cons _).trans hsent.symm)

theorem arriveOne_balanced (h : Balanced now s) (req : Nat) : Balanced now (arriveOne s req) := by
  unfold arriveOne
  split
  next hm =>
    refine ⟨h.once,h.numbers,h.keys,h.known,h.tables,h.counters,?_⟩
    refine List.Perm.trans ?_ h.orb
    calc s.outstanding.erase req ++ (s.ready ++ [req])
        ~ req :: (s.outstanding.erase req ++ s.ready) := by
          rw [← List.append_assoc]
          exact List.perm_append_singleton _ _
      _ ~ s.outstanding ++ s.ready := (List.perm_cons_erase hm).symm.append_right _
  next => exact h

theorem arrive_balanced (h : Balanced now s) (reqs : List Nat) : Balanced now (arrive s reqs) :=
  List.foldlRecOn reqs _ h (fun _ hs req _ => arriveOne_balanced hs req)

/-- The entry of a request, marked. -/
theorem marked_perm {l : List TgRequest} (hn : (l.map (·.request)).Nodup) {q : TgRequest} (hq : q ∈ l) :
    marked q.request l ~ { q with arrived := true } :: without (·.request) q.request l :=
  perm_updateFirst (fun _ _ => decide_eq_true_iff) hn hq rfl

theorem marked_issued (req : Nat) (l : List TgRequest) : (marked req l).map (·.toIssued) = l.map (·.toIssued) :=
  keys_updateFirst (fun _ => rfl)

/-- The ORB only has replies of requests that are in the tables without a mark. -/
theorem Balanced.ready_entry (h : Balanced now s) {req : Nat} (hr : req ∈ s.ready) :
    ∃ q ∈ s.cbDevTable, q.arrived = false ∧ q.request = req := by
  obtain ⟨q,hq,rfl⟩ := List.mem_map.mp (h.orb.mem_iff.mp (List.mem_append_right _ hr))
  obtain ⟨hq,ha⟩ := List.mem_filter.mp hq
  exact ⟨q,hq,by simpa using ha,rfl⟩

theorem Balanced.getRequest_entry (h : Balanced now s) {q : TgRequest} (hq : q ∈ s.cbDevTable) :
    s.getRequest q.request = some q := by
  have hn : (s.cbReqTable.map (·.request)).Nodup := (h.tables.map _).nodup_iff.mpr h.keys
  cases hf : s.getRequest q.request with
  | none =>
    exact absurd (decide_eq_true rfl) (List.find?_eq_none.mp hf q (h.tables.mem_iff.mpr hq))
  | some q' =>
    have hq' := List.mem_of_find?_eq_some hf
    have hr : q'.request = q.request := by simpa using List.find?_some hf
    rw [List.inj_on_of_nodup_map hn hq' (h.tables.mem_iff.mpr hq) hr]

/-- A reply that is taken from the ORB is marked in both tables. -/
theorem mark_balanced (h : Balanced [] s) {req : Nat} {rest : List Nat} (hr : s.ready = req :: rest)
    {q : TgRequest} (hq : q ∈ s.cbDevTable) (ha : q.arrived = false) (hk : q.request = req) :
    Balanced [] ({ s with ready := rest }.markAsArrived req) := by
  subst hk
  have hissued : (marked q.request s.cbDevTable).map (·.toIssued) = s.cbDevTable.map (·.toIssued) := marked_issued _ _
  have hdev := marked_perm h.keys hq
  have hreq := marked_perm ((h.tables.map _).nodup_iff.mpr h.keys) (h.tables.mem_iff.mpr hq)
  have hkeys : ∀ l : List TgRequest, l.map (·.request) = (l.map (·.toIssued)).map (·.request) := by
    intro l
    rw [List.map_map]
    rfl
  constructor
  case once =>
    change s.called ++ (marked q.request s.cbDevTable).map (·.toIssued) ~ s.issued ++ []
    rw [hissued]
    exact h.once
  case numbers => exact h.numbers
  case keys =>
    change ((marked q.request s.cbDevTable).map (·.request)).Nodup
    rw [hkeys,hissued,← hkeys]
    exact h.keys
  case known =>
    intro q' hq'
    have hm : q'.toIssued ∈ s.cbDevTable.map (·.toIssued) := hissued ▸ List.mem_map_of_mem hq'
    obtain ⟨q'',hq'',he⟩ := List.mem_map.mp hm
    exact he ▸ h.known q'' hq''
  case tables => exact hreq.trans (((h.tables.filter _).cons _).trans hdev.symm)
  case counters =>
    intro dev
    have hcount : ∀ l : List TgRequest, l.countP (fun q => q.dev = dev) =
        (l.map (·.toIssued)).countP (fun r => r.dev = dev) := by
      intro l
      rw [List.countP_map]
      rfl
    change s.pasynCbCtr dev = _
    rw [h.counters dev,hcount,← hissued,← hcount]
    rfl
  case orb =>
    have hold := (((perm_without h.keys hq).filter (fun q => !q.arrived)).map (·.request))
    rw [List.filter_cons_of_pos (by simp [ha])] at hold
    have hnew := ((hdev.filter (fun q => !q.arrived)).map (·.request))
    rw [List.filter_cons_of_neg (by simp)] at hnew
    have horb := h.orb.trans hold
    rw [hr] at horb
    exact (List.perm_middle.symm.trans horb).cons_inv.trans hnew.symm

end Ledger

section Serving
variable (callbacks : Callbacks) {s : CbState} {now : List Issued} {q : TgRequest}

/-- New requests come into the tables without a mark. -/
theorem asynchs_added (xs : List (Nat × Nat × ReqType)) (s : CbState) : ∃ new, (∀ q ∈ new, q.arrived = false) ∧
    (xs.foldl (fun s x => asynch s x.1 x.2.1 x.2.2) s).cbDevTable ~ new ++ s.cbDevTable := by
  induction xs generalizing s with
  | nil => exact ⟨[],fun _ hq => absurd hq List.not_mem_nil,.refl _⟩
  | cons x xs ih =>
    obtain ⟨new,hnew,htable⟩ := ih (asynch s x.1 x.2.1 x.2.2)
    have hone : (asynch s x.1 x.2.1 x.2.2).cbDevTable ~ ⟨⟨s.next,x.1,x.2.1,x.2.2⟩,false⟩ :: s.cbDevTable :=
      insertDev_perm _ _
    refine ⟨new ++ [⟨⟨s.next,x.1,x.2.1,x.2.2⟩,false⟩],?_,?_⟩
    · intro q hq
      rcases List.mem_append.mp hq with hq | hq
      · exact hnew q hq
      · rw [List.mem_singleton.mp hq]
    · rw [List.append_assoc]
      exact htable.trans (hone.append_left _)

theorem asynchs_balanced (xs : List (Nat × Nat × ReqType)) (h : Balanced now s) :
    Balanced now (xs.foldl (fun s x => asynch s x.1 x.2.1 x.2.2) s) :=
  List.foldlRecOn xs _ h (fun _ hs x _ => asynch_balanced hs x.1 x.2.1 x.2.2)

/-- While its callback runs, a request is both called and in the tables. -/
theorem fire_balanced (h : Balanced [] s) (r : Issued) : Balanced [r] (fire callbacks s r) := by
  apply asynchs_balanced
  refine ⟨?_,h.numbers,h.keys,h.known,h.tables,h.counters,h.orb⟩
  have honce := h.once
  rw [List.append_nil] at honce
  calc (s.called ++ [r]) ++ s.cbDevTable.map (·.toIssued)
      ~ [r] ++ (s.called ++ s.cbDevTable.map (·.toIssued)) := by
        rw [← List.append_assoc]
        exact List.perm_append_comm.append_right _
    _ ~ [r] ++ s.issued := honce.append_left _
    _ ~ s.issued ++ [r] := List.perm_append_comm

theorem fire_table (s : CbState) (r : Issued) : ∃ new, (∀ q ∈ new, q.arrived = false) ∧
    (fire callbacks s r).cbDevTable ~ new ++ s.cbDevTable :=
  asynchs_added (callbacks r.request) { s with called := s.called ++ [r] }

/-- `remove_request` finds the entry of the request, in both tables. -/
theorem served_tables (h : Balanced [] s) (hq : q ∈ s.cbDevTable) :
    (served callbacks s q.toIssued).cbDevTable =
        without (·.request) q.request (fire callbacks s q.toIssued).cbDevTable ∧
      (served callbacks s q.toIssued).cbReqTable =
        without (·.request) q.request (fire callbacks s q.toIssued).cbReqTable := by
  obtain ⟨new,hnew,htable⟩ := fire_table callbacks s q.toIssued
  have hf := fire_balanced callbacks h q.toIssued
  have hin := htable.mem_iff.mpr (List.mem_append_right _ hq)
  constructor
  · apply eraseP_of_picks _ hf.keys
    intro q' hq'
    constructor
    · intro hp
      exact of_decide_eq_true (Bool.and_eq_true_iff.mp hp).2
    · intro he
      have hsame := List.inj_on_of_nodup_map hf.keys hq' hin he
      subst hsame
      simp
  · exact eraseP_eq_without ((hf.tables.map _).nodup_iff.mpr hf.keys) _

/-- What is in the table after a request has been served: the others, and what its callback has asked for. -/
theorem served_table (h : Balanced [] s) (hq : q ∈ s.cbDevTable) :
    ∃ new, (∀ q' ∈ new, q'.arrived = false) ∧
      (served callbacks s q.toIssued).cbDevTable ~ new ++ without (·.request) q.request s.cbDevTable := by
  obtain ⟨new,hnew,htable⟩ := fire_table callbacks s q.toIssued
  refine ⟨without (·.request) q.request new,fun q' hq' => hnew q' (mem_without.mp hq').1,?_⟩
  rw [(served_tables callbacks h hq).1]
  exact (htable.filter _).trans (by rw [List.filter_append]; exact .refl _)

/-- A request that is marked is served: its callback has been called once and it is in the tables no more. -/
theorem served_balanced (h : Balanced [] s) (hq : q ∈ s.cbDevTable) (ha : q.arrived = true) :
    Balanced [] (served callbacks s q.toIssued) := by
  obtain ⟨new,hnew,htable⟩ := fire_table callbacks s q.toIssued
  have hf := fire_balanced callbacks h q.toIssued
  have hin : q ∈ (fire callbacks s q.toIssued).cbDevTable := htable.mem_iff.mpr (List.mem_append_right _ hq)
  have hsplit := perm_without hf.keys hin
  obtain ⟨hdev,hreq⟩ := served_tables callbacks h hq
  constructor
  case once =>
    have honce := (hsplit.map (·.toIssued)).symm.append_left _ |>.trans hf.once
    rw [List.map_cons] at honce
    have hsame := (List.perm_middle.symm.trans honce).trans (List.perm_append_singleton _ _)
    rw [hdev,List.append_nil]
    exact hsame.cons_inv
  case numbers => exact hf.numbers
  case keys =>
    rw [hdev]
    exact nodup_without _ hf.keys
  case known =>
    intro q' hq'
    rw [hdev] at hq'
    exact hf.known q' (mem_without.mp hq').1
  case tables =>
    rw [hdev,hreq]
    exact hf.tables.filter _
  case counters =>
    intro dev
    have hctr := hf.counters dev
    rw [hsplit.countP_eq,List.countP_cons] at hctr
    rw [hdev]
    by_cases hd : dev = q.dev
    · subst hd
      simp only [decide_true,if_true] at hctr
      simp only [served,CbState.addToCtr,CbState.removeRequest,Function.update_self]
      omega
    · simp only [decide_eq_false (Ne.symm hd),Bool.false_eq_true,if_false] at hctr
      simp only [served,CbState.addToCtr,CbState.removeRequest,Function.update_of_ne hd]
      omega
  case orb =>
    have hleft := ((hsplit.filter (fun q => !q.arrived)).map (·.request))
    rw [List.filter_cons_of_neg (by simp [ha])] at hleft
    rw [hdev]
    exact hf.orb.trans hleft

theorem asynchs_ready (xs : List (Nat × Nat × ReqType)) (s : CbState) :
    (xs.foldl (fun s x => asynch s x.1 x.2.1 x.2.2) s).ready = s.ready := by
  induction xs generalizing s with
  | nil => rfl
  | cons x xs ih => exact ih _

theorem served_ready (s : CbState) (r : Issued) : (served callbacks s r).ready = s.ready :=
  asynchs_ready _ _

/-- Whatever is asked for, the reply that is taken is of a request in the tables. It is marked, and then served if it
is one that is asked for. -/
theorem takeNext_entry (h : Balanced [] s) (this : Option Nat) {req : Nat} {rest : List Nat}
    (hr : s.ready = req :: rest) : ∃ q ∈ s.cbDevTable, q.arrived = false ∧ q.request = req ∧
      Balanced [] ({ s with ready := rest }.markAsArrived req) ∧
      { q with arrived := true } ∈ ({ s with ready := rest }.markAsArrived req).cbDevTable ∧
      takeNext callbacks this s req rest =
        (if this = none ∨ this = some q.dev then
          served callbacks ({ s with ready := rest }.markAsArrived req) q.toIssued
        else { s with ready := rest }.markAsArrived req,true) := by
  obtain ⟨q,hq,ha,hk⟩ := h.ready_entry (hr ▸ List.mem_cons_self)
  have hmark := mark_balanced h hr hq ha hk
  subst hk
  refine ⟨q,hq,ha,rfl,hmark,(marked_perm h.keys hq).mem_iff.mpr List.mem_cons_self,?_⟩
  simp only [takeNext,h.getRequest_entry hq]
  split
  next => rfl
  next => rfl

theorem takeNext_balanced (h : Balanced [] s) (this : Option Nat) {req : Nat} {rest : List Nat}
    (hr : s.ready = req :: rest) : ∃ s', takeNext callbacks this s req rest = (s',true) ∧ Balanced [] s' ∧
      s'.ready = rest := by
  obtain ⟨q,_,_,_,hmark,hin,htake⟩ := takeNext_entry callbacks h this hr
  refine ⟨_,htake,?_⟩
  split
  next => exact ⟨served_balanced callbacks (q := { q with arrived := true }) hmark hin rfl,served_ready callbacks _ _⟩
  next => exact ⟨hmark,rfl⟩

/-- When the replies of all devices are asked for, no mark stays behind. -/
theorem takeNext_marks (h : Balanced [] s) {req : Nat} {rest : List Nat} (hr : s.ready = req :: rest) :
    (takeNext callbacks none s req rest).1.cbDevTable.any (·.arrived) = s.cbDevTable.any (·.arrived) := by
  obtain ⟨q,hq,ha,hk,hmark,hin,htake⟩ := takeNext_entry callbacks h none hr
  obtain ⟨new,hnew,htable⟩ := served_table callbacks (q := { q with arrived := true }) hmark hin
  subst hk
  have hrest : without (·.request) q.request ({ s with ready := rest }.markAsArrived q.request).cbDevTable ~
      without (·.request) q.request s.cbDevTable := by
    refine ((marked_perm h.keys hq).filter _).trans ?_
    rw [List.filter_cons_of_neg (by simp)]
    simp [without]
  have hold := perm_without h.keys hq
  have hunmarked : new.any (·.arrived) = false := by
    rw [List.any_eq_false]
    intro q' hq'
    rw [hnew q' hq']
    exact Bool.false_ne_true
  rw [htake,if_pos (.inl rfl)]
  calc (served callbacks ({ s with ready := rest }.markAsArrived q.request) q.toIssued).cbDevTable.any (·.arrived)
      = (new ++ without (·.request) q.request s.cbDevTable).any (·.arrived) :=
        (htable.trans (hrest.append_left _)).any_eq
    _ = (q :: without (·.request) q.request s.cbDevTable).any (·.arrived) := by
        rw [List.any_append,hunmarked,List.any_cons,ha]
    _ = s.cbDevTable.any (·.arrived) := hold.symm.any_eq

end Serving

section Loops
variable (callbacks : Callbacks) {s : CbState}

theorem arriveOne_ready (s : CbState) (req : Nat) : (arriveOne s req).ready.length ≤ s.ready.length + 1 := by
  unfold arriveOne
  split
  next => simp
  next => omega

theorem arrive_ready (reqs : List Nat) (s : CbState) : (arrive s reqs).ready.length ≤ s.ready.length + reqs.length := by
  induction reqs generalizing s with
  | nil => exact Nat.le_refl _
  | cons req reqs ih =>
    have hone := arriveOne_ready s req
    have hrest := ih (arriveOne s req)
    simp only [List.length_cons]
    exact hrest.trans (by omega)

theorem arriveOne_table (s : CbState) (req : Nat) : (arriveOne s req).cbDevTable = s.cbDevTable := by
  unfold arriveOne
  split
  next => rfl
  next => rfl

theorem arrive_table (reqs : List Nat) (s : CbState) : (arrive s reqs).cbDevTable = s.cbDevTable := by
  induction reqs generalizing s with
  | nil => rfl
  | cons req reqs ih => exact (ih _).trans (arriveOne_table s req)

/-- The loop over what the ORB has: it throws nothing, and ends when there is no reply left. -/
theorem pollAll_balanced (this : Option Nat) (looks : List (List Nat)) (h : Balanced [] s) :
    Balanced [] (pollAll callbacks this looks s).2 ∧
      ((pollAll callbacks this looks s).1 = .waiting ∨
        (pollAll callbacks this looks s).1 = .returned ∧ (pollAll callbacks this looks s).2.ready = []) := by
  induction looks generalizing s with
  | nil => exact ⟨h,.inl rfl⟩
  | cons reqs looks ih =>
    have ha := arrive_balanced h reqs
    unfold pollAll
    split
    next hr => exact ⟨ha,.inr ⟨rfl,hr⟩⟩
    next req rest hr =>
      obtain ⟨s',htake,hs',_⟩ := takeNext_balanced callbacks ha this hr
      rw [htake]
      exact ih hs'

/-- It ends when it looks more often than there are replies. -/
theorem pollAll_ends (this : Option Nat) (looks : List (List Nat)) (h : Balanced [] s)
    (hlooks : s.ready.length + looks.flatten.length < looks.length) :
    (pollAll callbacks this looks s).1 = .returned := by
  induction looks generalizing s with
  | nil => simp at hlooks
  | cons reqs looks ih =>
    have ha := arrive_balanced h reqs
    have hlen := arrive_ready reqs s
    unfold pollAll
    split
    next => rfl
    next req rest hr =>
      obtain ⟨s',htake,hs',hrest⟩ := takeNext_balanced callbacks ha this hr
      rw [htake]
      apply ih hs'
      rw [hr] at hlen
      simp only [List.length_cons,List.flatten_cons,List.length_append] at hlen hlooks
      rw [hrest]
      omega

theorem pollAll_marks (looks : List (List Nat)) (h : Balanced [] s) :
    (pollAll callbacks none looks s).2.cbDevTable.any (·.arrived) = s.cbDevTable.any (·.arrived) := by
  induction looks generalizing s with
  | nil => rfl
  | cons reqs looks ih =>
    have ha := arrive_balanced h reqs
    unfold pollAll
    split
    next => rw [arrive_table]
    next req rest hr =>
      obtain ⟨s',htake,hs',_⟩ := takeNext_balanced callbacks ha none hr
      have hmarks := takeNext_marks callbacks ha hr
      rw [htake,arrive_table] at hmarks
      rw [htake]
      exact (ih hs').trans hmarks

/-- The marked requests of a device. -/
def marks (dev : Nat) (s : CbState) : Nat := s.cbDevTable.countP (fun q => q.dev = dev && q.arrived)

theorem served_marks (h : Balanced [] s) {q : TgRequest} (hq : q ∈ s.cbDevTable) (ha : q.arrived = true) :
    marks q.dev (served callbacks s q.toIssued) + 1 = marks q.dev s := by
  obtain ⟨new,hnew,htable⟩ := served_table callbacks h hq
  have hnone : new.countP (fun q' => q'.dev = q.dev && q'.arrived) = 0 := by
    rw [List.countP_eq_zero]
    intro q' hq'
    simp [hnew q' hq']
  unfold marks
  rw [htable.countP_eq,(perm_without h.keys hq).countP_eq,List.countP_append,hnone,
    List.countP_cons_of_pos (by simp [ha]),Nat.zero_add]

/-- The loop over the marked requests of a device serves them all. -/
theorem serveArrived_balanced (dev : Nat) (n : Nat) (h : Balanced [] s) (hn : marks dev s ≤ n) :
    Balanced [] (serveArrived callbacks dev n s) ∧ marks dev (serveArrived callbacks dev n s) = 0 ∧
      (serveArrived callbacks dev n s).ready = s.ready := by
  induction n generalizing s with
  | zero => exact ⟨h,Nat.le_zero.mp hn,rfl⟩
  | succ n ih =>
    unfold serveArrived
    split
    next hg =>
      refine ⟨h,?_,rfl⟩
      unfold marks
      rw [List.countP_eq_zero]
      exact List.find?_eq_none.mp hg
    next q hg =>
      have hq := List.mem_of_find?_eq_some hg
      have hp : q.dev = dev ∧ q.arrived = true := by simpa using List.find?_some hg
      obtain ⟨rfl,ha⟩ := hp
      have hless := served_marks callbacks h hq ha
      obtain ⟨hb,hm,hr⟩ := ih (served_balanced callbacks h hq ha) (by omega)
      exact ⟨hb,hm,hr.trans (served_ready callbacks _ _)⟩

theorem marks_le (dev : Nat) (s : CbState) : marks dev s ≤ s.cbDevTable.length := List.countP_le_length

/-- How a loop that waits ends: nothing is pending, or it is too late. -/
def Ends (pending : CbState → Bool) (late : Outcome) (r : Outcome × CbState) : Prop :=
  Balanced [] r.2 ∧ r.1 = if pending r.2 then late else .returned

theorem ends_returned {pending : CbState → Bool} {late : Outcome} (h : Balanced [] s) (hp : ¬ pending s = true) :
    Ends pending late (.returned,s) :=
  ⟨h,(if_neg hp).symm⟩

theorem ends_late {pending : CbState → Bool} {late : Outcome} (h : Balanced [] s) (hp : pending s = true) :
    Ends pending late (late,s) :=
  ⟨h,(if_pos hp).symm⟩

theorem waitFor_ends (this : Option Nat) (pending : CbState → Bool) (origin : String) (nb : Nat)
    (looks : List (List Nat)) (h : Balanced [] s) :
    Ends pending (.thrown (notArrived origin)) (waitFor callbacks this pending origin nb looks s) := by
  induction nb generalizing s looks with
  | zero =>
    unfold waitFor
    split
    next hp => exact ends_late h hp
    next hp => exact ends_returned h hp
  | succ nb ih =>
    have ha := arrive_balanced h (looks.headD [])
    unfold waitFor
    split
    next =>
      split
      next => exact ih _ ha
      next req rest hr =>
        obtain ⟨s',htake,hs',_⟩ := takeNext_balanced callbacks ha this hr
        rw [htake]
        exact ih _ hs'
    next hp => exact ends_returned h hp

/-- Without a time-out the loop goes on as long as something is pending. -/
theorem waitAll_ends (this : Option Nat) (pending : CbState → Bool) (looks : List (List Nat))
    (h : Balanced [] s) : Ends pending .waiting (waitAll callbacks this pending looks s) := by
  induction looks generalizing s with
  | nil =>
    unfold waitAll
    split
    next hp => exact ends_late h hp
    next hp => exact ends_returned h hp
  | cons reqs looks ih =>
    have ha := arrive_balanced h reqs
    unfold waitAll
    split
    next =>
      split
      next => exact ih ha
      next req rest hr =>
        obtain ⟨s',htake,hs',_⟩ := takeNext_balanced callbacks ha this hr
        rw [htake]
        exact ih hs'
    next hp => exact ends_returned h hp

/-- What a call with a time-out does when the replies are late. -/
def late (origin : String) (callTimeout : Int) : Outcome :=
  if callTimeout = 0 then .waiting else .thrown (notArrived origin)

/-- A time-out is a number of turns of twenty milliseconds, which is rounded towards zero. -/
theorem turns_negative (callTimeout : Int) : callTimeout.tdiv 20 < 0 ↔ callTimeout ≤ -20 := by
  rcases Int.le_total 0 callTimeout with h | h
  · rw [Int.tdiv_eq_ediv_of_nonneg h]
    omega
  · have hneg : callTimeout.tdiv 20 = -((-callTimeout).tdiv 20) := by rw [Int.neg_tdiv,Int.neg_neg]
    rw [hneg,Int.tdiv_eq_ediv_of_nonneg (by omega)]
    omega

/-- The second half of a call. A negative number of turns is none at all, and nothing is said about what is late. -/
theorem waitReplies_ends (this : Option Nat) (pending : CbState → Bool) (origin : String) (callTimeout : Int)
    (looks : List (List Nat)) (h : Balanced [] s) :
    if callTimeout ≤ -20 then waitReplies callbacks this pending origin callTimeout looks s = (.returned,s)
    else Ends pending (late origin callTimeout) (waitReplies callbacks this pending origin callTimeout looks s) := by
  by_cases hp : pending s = true
  · unfold waitReplies
    rw [if_pos hp]
    by_cases h0 : callTimeout = 0
    · have hl : late origin callTimeout = .waiting := if_pos h0
      rw [if_neg (not_not.mpr h0),if_neg (show ¬ callTimeout ≤ -20 by omega),hl]
      exact waitAll_ends callbacks this pending looks h
    · have hl : late origin callTimeout = .thrown (notArrived origin) := if_neg h0
      rw [if_pos h0,hl]
      by_cases hneg : callTimeout ≤ -20
      · rw [if_pos hneg,if_pos ((turns_negative callTimeout).mpr hneg)]
      · rw [if_neg hneg,if_neg (fun ht => hneg ((turns_negative callTimeout).mp ht))]
        exact waitFor_ends callbacks this pending origin _ looks h
  · have hback : waitReplies callbacks this pending origin callTimeout looks s = (.returned,s) := if_neg hp
    rw [hback]
    split
    next => rfl
    next => exact ends_returned h hp

end Loops

section Runs
variable (callbacks : Callbacks) {s : CbState}

theorem notArrived_ne (origin : String) : Outcome.thrown (notArrived origin) ≠ .thrown badAsyn := by
  intro he
  simp [notArrived,badAsyn,thrown] at he

theorem waitReplies_balanced (this : Option Nat) (pending : CbState → Bool) (origin : String) (callTimeout : Int)
    (looks : List (List Nat)) (h : Balanced [] s) :
    Balanced [] (waitReplies callbacks this pending origin callTimeout looks s).2 ∧
      (waitReplies callbacks this pending origin callTimeout looks s).1 ≠ .thrown badAsyn := by
  have hends := waitReplies_ends callbacks this pending origin callTimeout looks h
  split at hends
  next =>
    rw [hends]
    exact ⟨h,fun he => by cases he⟩
  next =>
    refine ⟨hends.1,?_⟩
    rw [hends.2]
    unfold late
    split
    · split
      · exact fun he => by cases he
      · exact notArrived_ne origin
    · exact fun he => by cases he

theorem serveTable_balanced (h : Balanced [] s) :
    Balanced [] (serveTable s).2 ∧ (serveTable s).1 ≠ .thrown badAsyn := by
  unfold serveTable
  split
  next => exact ⟨h,fun he => by cases he⟩
  next => exact ⟨h,fun he => by cases he⟩

/-- What one call, or the replies that come in, leave behind. -/
theorem step_balanced (h : Balanced [] s) (act : Act) :
    Balanced [] (step callbacks s act).2 ∧ (step callbacks s act).1 ≠ .thrown badAsyn := by
  cases act with
  | asynch dev cbPtr reqType => exact ⟨asynch_balanced h dev cbPtr reqType,fun he => by cases he⟩
  | arrive reqs => exact ⟨arrive_balanced h reqs,fun he => by cases he⟩
  | getAsynchReplies dev looks =>
    obtain ⟨hb,hout⟩ := pollAll_balanced callbacks (some dev) looks h
    simp only [step,getAsynchReplies]
    split
    next s' hp =>
      rw [hp] at hb
      exact ⟨(serveArrived_balanced callbacks dev _ hb (marks_le dev s')).1,fun he => by cases he⟩
    next hp =>
      rcases hout with hout | ⟨hout,_⟩
      · exact ⟨hb,fun he => by rw [hout] at he; cases he⟩
      · exact ⟨hb,fun he => by rw [hout] at he; cases he⟩
  | getAsynchRepliesTimeout dev callTimeout looks =>
    exact waitReplies_balanced callbacks _ _ _ callTimeout looks
      (serveArrived_balanced callbacks dev _ h (marks_le dev s)).1
  | getAllReplies looks =>
    obtain ⟨hb,hout⟩ := pollAll_balanced callbacks none looks h
    simp only [step,getAllReplies]
    split
    next s' hp =>
      rw [hp] at hb
      exact serveTable_balanced hb
    next hp =>
      rcases hout with hout | ⟨hout,_⟩
      · exact ⟨hb,fun he => by rw [hout] at he; cases he⟩
      · exact ⟨hb,fun he => by rw [hout] at he; cases he⟩
  | getAllRepliesTimeout callTimeout looks =>
    have hserve := serveTable_balanced h
    simp only [step,getAllRepliesTimeout]
    split
    next s' hp =>
      rw [hp] at hserve
      exact waitReplies_balanced callbacks _ _ _ callTimeout looks hserve.1
    next => exact hserve

theorem run_balanced (acts : List Act) (h : Balanced [] s) : Balanced [] (run callbacks acts s).2 := by
  induction acts generalizing s with
  | nil => exact h
  | cons act acts ih =>
    have hstep := (step_balanced callbacks h act).1
    unfold run
    split
    next hs =>
      rw [hs] at hstep
      exact ih hstep
    next hs =>
      rw [hs] at hstep
      exact ih hstep
    next => exact hstep

theorem Balanced.requests_nodup (h : Balanced [] s) :
    (s.called.map (·.request) ++ s.cbDevTable.map (·.request)).Nodup := by
  have honce := h.once.map (·.request)
  rw [List.append_nil,h.numbers,List.map_append,List.map_map] at honce
  exact honce.nodup_iff.mpr List.nodup_range

/-- No callback has been called before the reply. -/
theorem Balanced.called_answered (h : Balanced [] s) {r : Issued} (hr : r ∈ s.called) : r.request ∉ s.outstanding := by
  intro ho
  have hm := h.orb.mem_iff.mp (List.mem_append_left _ ho)
  obtain ⟨q,hq,he⟩ := List.mem_map.mp hm
  have hq' : q.request ∈ s.cbDevTable.map (·.request) := List.mem_map_of_mem (List.mem_filter.mp hq).1
  exact (List.nodup_append.mp h.requests_nodup).2.2 _ (List.mem_map_of_mem hr) _ hq' he.symm

/-- Whatever is asked for, in which order the replies come in and which calls take them: every request is in the two
tables, or its callback has been called, with its own data, once and after its reply. The counter of a device is the
number of its requests in the tables, the ORB has those that are not marked, and no reply is of a request that is not
found. -/
theorem called_once (acts : List Act) :
    Balanced [] (run callbacks acts fresh).2 ∧
      ((run callbacks acts fresh).2.called.map (·.request)).Nodup ∧
      (∀ r ∈ (run callbacks acts fresh).2.called, r.request ∉ (run callbacks acts fresh).2.outstanding) ∧
      ∀ act, (step callbacks (run callbacks acts fresh).2 act).1 ≠ .thrown badAsyn := by
  have h := run_balanced callbacks acts fresh_balanced
  exact ⟨h,(List.nodup_append.mp h.requests_nodup).1,fun r hr => h.called_answered hr,
    fun act => (step_balanced callbacks h act).2⟩

end Runs

section Settled
variable (callbacks : Callbacks) {s : CbState}

theorem Balanced.outstanding_of (h : Balanced [] s) (hr : s.ready = []) {q : TgRequest} (hq : q ∈ s.cbDevTable)
    (ha : q.arrived = false) : q.request ∈ s.outstanding := by
  have hm := h.orb.mem_iff.mpr (List.mem_map_of_mem (List.mem_filter.mpr ⟨hq,by simp [ha]⟩))
  rwa [hr,List.append_nil] at hm

/-- A call without time-out returns once it has looked more often than there are replies. What it has asked for and is
still in the tables is without reply. Over all devices it does so unless a call for one device has left a mark: the
loop over the table then goes on from what it has erased. -/
theorem replies_taken (acts : List Act) (looks : List (List Nat)) (s : CbState) (hs : (run callbacks acts fresh).2 = s)
    (hlooks : s.ready.length + looks.flatten.length < looks.length) :
    (∀ dev, (getAsynchReplies callbacks dev looks s).1 = .returned ∧
      ∀ q ∈ (getAsynchReplies callbacks dev looks s).2.cbDevTable, q.dev = dev →
        q.request ∈ (getAsynchReplies callbacks dev looks s).2.outstanding) ∧
    (getAllReplies callbacks looks s).1 = (if s.cbDevTable.any (·.arrived) then .undefined else .returned) ∧
    (s.cbDevTable.any (·.arrived) = false → ∀ q ∈ (getAllReplies callbacks looks s).2.cbDevTable,
      q.request ∈ (getAllReplies callbacks looks s).2.outstanding) := by
  have h : Balanced [] s := hs ▸ run_balanced callbacks acts fresh_balanced
  have hready : ∀ this, (pollAll callbacks this looks s).2.ready = [] := by
    intro this
    rcases (pollAll_balanced callbacks this looks h).2 with hout | ⟨_,hr⟩
    · rw [pollAll_ends callbacks this looks h hlooks] at hout
      cases hout
    · exact hr
  have hpoll : ∀ this, pollAll callbacks this looks s = (.returned,(pollAll callbacks this looks s).2) :=
    fun this => Prod.ext (pollAll_ends callbacks this looks h hlooks) rfl
  refine ⟨fun dev => ?_,?_⟩
  · have hb := (pollAll_balanced callbacks (some dev) looks h).1
    have hcall : getAsynchReplies callbacks dev looks s =
        (.returned,serveArrived callbacks dev (pollAll callbacks (some dev) looks s).2.cbDevTable.length
          (pollAll callbacks (some dev) looks s).2) := by
      unfold getAsynchReplies
      rw [hpoll]
    obtain ⟨hserved,hmarks,hr⟩ := serveArrived_balanced callbacks dev _ hb (marks_le dev _)
    rw [hcall]
    refine ⟨rfl,fun q hq hd => hserved.outstanding_of (hr.trans (hready _)) hq ?_⟩
    have hnone := List.countP_eq_zero.mp hmarks q hq
    simpa [hd] using hnone
  · have hb := (pollAll_balanced callbacks none looks h).1
    have hmarks := pollAll_marks callbacks looks h
    have hcall : getAllReplies callbacks looks s = serveTable (pollAll callbacks none looks s).2 := by
      unfold getAllReplies
      rw [hpoll]
    rw [hcall]
    unfold serveTable
    rw [hmarks]
    cases ha : s.cbDevTable.any (·.arrived) with
    | true => exact ⟨rfl,fun he => by cases he⟩
    | false =>
      refine ⟨rfl,fun _ q hq => hb.outstanding_of (hready _) hq ?_⟩
      rw [ha] at hmarks
      have hnone := List.any_eq_false.mp hmarks q hq
      simpa using hnone

/-- Two requests, and the reply of the first one, whose callback asks again. -/
def sample : CbState :=
  (run (fun req => if req = 0 then [(1,0,.cmdInout)] else [])
    [.asynch 1 0 .cmdInout,.asynch 2 0 .readAttr,.arrive [0]] fresh).2

theorem sample_taken : (getAllReplies (fun req => if req = 0 then [(1,0,.cmdInout)] else []) [[],[]] sample).1 =
    if sample.cbDevTable.any (·.arrived) then .undefined else .returned :=
  (replies_taken _ [.asynch 1 0 .cmdInout,.asynch 2 0 .readAttr,.arrive [0]] [[],[]] sample rfl (by decide)).2.1

/-- How a call with a time-out ends: with a negative number of turns it returns, and else it is late as long as
there are requests `left` of those that it has asked for. -/
def Timed (left : TgRequest → Bool) (origin : String) (callTimeout : Int) (r : Outcome × CbState) : Prop :=
  r.1 = if callTimeout ≤ -20 ∨ r.2.cbDevTable.any left = false then .returned else late origin callTimeout

theorem waitReplies_timed (this : Option Nat) {pending : CbState → Bool} {left : TgRequest → Bool} (origin : String)
    (callTimeout : Int) (looks : List (List Nat)) (h : Balanced [] s)
    (hp : ∀ s, Balanced [] s → pending s = s.cbDevTable.any left) :
    Timed left origin callTimeout (waitReplies callbacks this pending origin callTimeout looks s) := by
  have hends := waitReplies_ends callbacks this pending origin callTimeout looks h
  unfold Timed
  split at hends
  next hneg => rw [hends,if_pos (.inl hneg)]
  next hneg =>
    rw [hends.2,hp _ hends.1]
    cases List.any _ left with
    | true => simp [hneg]
    | false => simp

theorem Balanced.counted (h : Balanced [] s) (dev : Nat) :
    decide (s.pasynCbCtr dev ≠ 0) = s.cbDevTable.any (fun q => q.dev = dev) := by
  rw [h.counters dev,Bool.eq_iff_iff,decide_eq_true_iff,List.any_eq_true,ne_eq,Int.natCast_eq_zero,
    List.countP_eq_zero]
  simp only [not_forall,exists_prop,not_not]

theorem Balanced.stored (h : Balanced [] s) :
    decide (s.cbReqTable.length ≠ 0) = s.cbDevTable.any (fun _ => true) := by
  rw [h.tables.length_eq]
  cases s.cbDevTable with
  | nil => rfl
  | cons q l => rfl

/-- A call with a time-out: it returns with nothing left, or throws because something is. Over all devices it cannot
serve the requests that a call for one device has marked. -/
theorem replies_in_time (acts : List Act) (callTimeout : Int) (looks : List (List Nat)) (s : CbState)
    (hs : (run callbacks acts fresh).2 = s) :
    (∀ dev, Timed (fun q => q.dev = dev) "Connection::get_asynch_replies" callTimeout
      (getAsynchRepliesTimeout callbacks dev callTimeout looks s)) ∧
    if s.cbDevTable.any (·.arrived) then (getAllRepliesTimeout callbacks callTimeout looks s).1 = .undefined
    else Timed (fun _ => true) "ApiUtil::get_asynch_replies" callTimeout
      (getAllRepliesTimeout callbacks callTimeout looks s) := by
  have h : Balanced [] s := hs ▸ run_balanced callbacks acts fresh_balanced
  refine ⟨fun dev => ?_,?_⟩
  · have hserved := (serveArrived_balanced callbacks dev _ h (marks_le dev s)).1
    exact waitReplies_timed callbacks _ _ callTimeout looks hserved (fun s hs => hs.counted dev)
  · unfold getAllRepliesTimeout serveTable
    cases s.cbDevTable.any (·.arrived) with
    | true => rfl
    | false => exact waitReplies_timed callbacks _ _ callTimeout looks h (fun s hs => hs.stored)

theorem sample_in_time : Timed (fun q => q.dev = 1) "Connection::get_asynch_replies" 20
    (getAsynchRepliesTimeout (fun req => if req = 0 then [(1,0,.cmdInout)] else []) 1 20 [[]] sample) :=
  (replies_in_time _ [.asynch 1 0 .cmdInout,.asynch 2 0 .readAttr,.arrive [0]] 20 [[]] sample rfl).1 1

end Settled

end CppTango.Client.AsynCallbacks
