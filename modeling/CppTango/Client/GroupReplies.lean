import CppTango.Client.GroupAsynch
import CppTango.Lib.Steps
import Mathlib.Data.List.Pairwise

namespace CppTango.Client.GroupAsynch

open CppTango.Lib CppTango.Device

variable {δ β : Type}

section Asked
variable (w : GroupWorld δ β) (call : Call δ) (id : Nat)

/-- The sub-groups that a call goes through. -/
def passed (forward : Bool) (es : Elements) : List Nat := if forward then es.nodes else []

theorem mem_passed_node {g g' : Nat} {sub rest : Elements} :
    g' ∈ passed true (.node g sub rest) ↔ g' = g ∨ g' ∈ passed true sub ∨ g' ∈ passed true rest := by
  simp [passed,Nested.nodes]

/-- What a call leaves behind in the elements that it has come to. -/
def GroupState.asked (s : GroupState) (ds gs : List Nat) : GroupState :=
  if call.forget then s
  else
    { s with
      requests := fun d k =>
        if d ∈ ds ∧ k = id then (s.requests d k).or (some (made w call (s.enabled d) id d)) else s.requests d k
      arp := fun g k => if g ∈ gs ∧ k = id then (s.arp g k).or (some call.forward) else s.arp g k }

variable {w call id} {s : GroupState}

theorem asked_enabled (ds gs : List Nat) : (s.asked w call id ds gs).enabled = s.enabled := by
  unfold GroupState.asked
  split <;> rfl

theorem asked_asynchReqId (ds gs : List Nat) : (s.asked w call id ds gs).asynchReqId = s.asynchReqId := by
  unfold GroupState.asked
  split <;> rfl

theorem asked_requests (hf : call.forget = false) (ds gs : List Nat) (d k : Nat) :
    (s.asked w call id ds gs).requests d k =
      if d ∈ ds ∧ k = id then (s.requests d k).or (some (made w call (s.enabled d) id d)) else s.requests d k := by
  unfold GroupState.asked
  rw [if_neg (by simp [hf])]

theorem asked_arp (hf : call.forget = false) (ds gs : List Nat) (g k : Nat) :
    (s.asked w call id ds gs).arp g k =
      if g ∈ gs ∧ k = id then (s.arp g k).or (some call.forward) else s.arp g k := by
  unfold GroupState.asked
  rw [if_neg (by simp [hf])]

theorem asked_forget (hf : call.forget = true) (ds gs : List Nat) : s.asked w call id ds gs = s := if_pos hf

theorem asked_nil : s.asked w call id [] [] = s := by
  unfold GroupState.asked
  split
  next => rfl
  next => simp

/-- It does not matter in which order the elements are come to. -/
theorem asked_congr {ds ds' gs gs' : List Nat} (hd : ∀ d, d ∈ ds ↔ d ∈ ds') (hg : ∀ g, g ∈ gs ↔ g ∈ gs') :
    s.asked w call id ds gs = s.asked w call id ds' gs' := by
  unfold GroupState.asked
  simp only [hd,hg]

theorem asked_asked (ds gs ds' gs' : List Nat) :
    (s.asked w call id ds gs).asked w call id ds' gs' = s.asked w call id (ds ++ ds') (gs ++ gs') := by
  cases hf : call.forget with
  | true => rw [asked_forget hf,asked_forget hf,asked_forget hf]
  | false =>
    unfold GroupState.asked
    simp only [hf,Bool.false_eq_true,if_false,GroupState.mk.injEq,true_and,and_true]
    refine ⟨funext fun g => funext fun k => ?_,funext fun d => funext fun k => ?_⟩
    · by_cases hk : k = id <;> by_cases h1 : g ∈ gs <;> by_cases h2 : g ∈ gs' <;> simp [hk,h1,h2]
    · by_cases hk : k = id <;> by_cases h1 : d ∈ ds <;> by_cases h2 : d ∈ ds' <;> simp [hk,h1,h2]

theorem deviceAsynchI_asked (d : Nat) : deviceAsynchI w call id d s = s.asked w call id [d] [] := by
  unfold deviceAsynchI GroupState.asked GroupState.insertRequest
  split
  next => rfl
  next =>
    simp only [GroupState.mk.injEq,true_and,and_true,List.mem_singleton,List.not_mem_nil,false_and,if_false]
    refine funext fun d' => funext fun k => ?_
    by_cases h : d' = d ∧ k = id
    · rw [if_pos h,if_pos h,h.1]
    · rw [if_neg h,if_neg h]

theorem pushAsyncRequest_asked (g : Nat) : s.pushAsyncRequest g id call = s.asked w call id [] [g] := by
  unfold GroupState.pushAsyncRequest GroupState.asked
  split
  next => rfl
  next =>
    simp only [GroupState.mk.injEq,true_and,and_true,List.mem_singleton,List.not_mem_nil,false_and,if_false]
    refine funext fun g' => funext fun k => ?_
    by_cases h : g' = g ∧ k = id
    · rw [if_pos h,if_pos h,h.1]
    · rw [if_neg h,if_neg h]

theorem foldl_asked (ds : List Nat) (s : GroupState) :
    ds.foldl (fun s d => deviceAsynchI w call id d s) s = s.asked w call id ds [] := by
  induction ds generalizing s with
  | nil => exact asked_nil.symm
  | cons d ds ih =>
    rw [List.foldl_cons,ih,deviceAsynchI_asked,asked_asked]
    rfl

/-- The loop breaks off at the first device without a proxy; before it, only elements of the group have been come
to. Else it has come to all but the devices that it hands back. -/
structure AskedSome (w : GroupWorld δ β) (call : Call δ) (id : Nat) (es : Elements) (s : GroupState)
    (r : GroupState × Except Thrown (List Nat)) (ds gs : List Nat) : Prop where
  state : r.1 = s.asked w call id ds gs
  devices : ∀ d ∈ ds, d ∈ es.leaves call.forward
  groups : ∀ g ∈ gs, g ∈ passed call.forward es
  broken : ∀ t, (es.leaves call.forward).findSome? w.devProxy = some t → r.2 = .error t
  ended : (es.leaves call.forward).findSome? w.devProxy = none → ∃ l, r.2 = .ok l ∧
    (∀ d, d ∈ ds ++ l ↔ d ∈ es.leaves call.forward) ∧ ∀ g, g ∈ gs ↔ g ∈ passed call.forward es

theorem askConnected_asked (w : GroupWorld δ β) (call : Call δ) (id : Nat) (es : Elements) (s : GroupState) :
    ∃ ds gs, AskedSome w call id es s (askConnected w call id es s) ds gs := by
  induction es generalizing s with
  | nil =>
    refine ⟨[],[],asked_nil.symm,fun d hd => hd,fun g hg => (by cases hg),fun t ht => (by cases ht),fun _ => ?_⟩
    exact ⟨[],rfl,fun d => .rfl,fun g => by simp [passed,Nested.nodes]⟩
  | leaf d rest ih =>
    rw [askConnected]
    cases hd : w.devProxy d with
    | some t =>
      refine ⟨[],[],asked_nil.symm,fun d hd => (by cases hd),fun g hg => (by cases hg),fun t' ht => ?_,fun hn => ?_⟩
      · rw [Nested.leaves,List.findSome?_cons,hd] at ht
        exact congrArg Except.error (Option.some.inj ht)
      · rw [Nested.leaves,List.findSome?_cons,hd] at hn
        cases hn
    | none =>
      dsimp only
      have hleaves : ∀ r, ((Nested.leaf d rest).leaves call.forward).findSome? w.devProxy = r →
          (rest.leaves call.forward).findSome? w.devProxy = r := by
        intro r hr
        rwa [Nested.leaves,List.findSome?_cons,hd] at hr
      split
      next =>
        obtain ⟨ds,gs,h⟩ := ih (deviceAsynchI w call id d s)
        refine ⟨d :: ds,gs,?_,?_,h.groups,fun t ht => h.broken t (hleaves _ ht),fun hn => ?_⟩
        · rw [h.state,deviceAsynchI_asked,asked_asked]
          rfl
        · intro d' hd'
          rw [Nested.leaves]
          rcases List.mem_cons.mp hd' with rfl | hd'
          · exact List.mem_cons_self
          · exact List.mem_cons_of_mem d (h.devices d' hd')
        · obtain ⟨l,hl,hmem,hg⟩ := h.ended (hleaves _ hn)
          refine ⟨l,hl,fun d' => ?_,hg⟩
          rw [List.cons_append,List.mem_cons,hmem d',Nested.leaves,List.mem_cons]
      next =>
        obtain ⟨ds,gs,h⟩ := ih s
        have hdevices : ∀ d' ∈ ds, d' ∈ (Nested.leaf d rest).leaves call.forward := by
          intro d' hd'
          rw [Nested.leaves]
          exact List.mem_cons_of_mem d (h.devices d' hd')
        have hstate := h.state
        have hbroken := h.broken
        have hended := h.ended
        generalize askConnected w call id rest s = r at hstate hbroken hended
        obtain ⟨s1,t | l⟩ := r
        · refine ⟨ds,gs,hstate,hdevices,h.groups,fun t' ht => hbroken t' (hleaves _ ht),fun hn => ?_⟩
          obtain ⟨l,hl,-⟩ := hended (hleaves _ hn)
          cases hl
        · refine ⟨ds,gs,hstate,hdevices,h.groups,fun t' ht => (by cases hbroken t' (hleaves _ ht)),fun hn => ?_⟩
          obtain ⟨l',hl,hmem,hg⟩ := hended (hleaves _ hn)
          cases hl
          refine ⟨d :: l,rfl,fun d' => ?_,hg⟩
          rw [Nested.leaves,List.mem_cons,← hmem d',List.mem_append,List.mem_append,List.mem_cons]
          exact or_left_comm
  | node g sub rest ihs ihr =>
    rw [askConnected]
    cases hf : call.forward with
    | false =>
      rw [if_neg Bool.false_ne_true]
      obtain ⟨ds,gs,h⟩ := ihr s
      have hleaves : (Nested.node g sub rest).leaves false = rest.leaves false := by
        rw [Nested.leaves,if_neg Bool.false_ne_true]
        rfl
      refine ⟨ds,gs,h.state,?_,?_,?_,?_⟩
      · rw [hf,hleaves,← hf]
        exact h.devices
      · rw [hf,passed,if_neg Bool.false_ne_true]
        have hgroups := h.groups
        rw [hf,passed,if_neg Bool.false_ne_true] at hgroups
        exact hgroups
      · rw [hf,hleaves,← hf]
        exact h.broken
      · rw [hf,hleaves,passed,if_neg Bool.false_ne_true]
        have hended := h.ended
        rw [hf,passed,if_neg Bool.false_ne_true] at hended
        exact hended
    | true =>
      rw [if_pos rfl]
      obtain ⟨ds1,gs1,h1⟩ := ihs s
      have hleaves : (Nested.node g sub rest).leaves true = sub.leaves true ++ rest.leaves true := by
        rw [Nested.leaves,if_pos rfl]
      have hnodes : (Nested.node g sub rest).nodes = g :: (sub.nodes ++ rest.nodes) := rfl
      have hstate := h1.state
      have hdevices := h1.devices
      have hgroups := h1.groups
      have hbroken := h1.broken
      have hended := h1.ended
      rw [hf] at hdevices hgroups hbroken hended
      generalize askConnected w call id sub s = r at hstate hbroken hended
      obtain ⟨s1,t | l⟩ := r
      · have hsome : (sub.leaves true).findSome? w.devProxy = some t := by
          cases hs : (sub.leaves true).findSome? w.devProxy with
          | none =>
            obtain ⟨l,hl,-⟩ := hended hs
            cases hl
          | some t' => rw [Except.error.inj (hbroken t' hs)]
        refine ⟨ds1,gs1,hstate,?_,?_,?_,?_⟩
        · rw [hf,hleaves]
          exact fun d hd => List.mem_append_left _ (hdevices d hd)
        · rw [hf,passed,if_pos rfl,hnodes]
          exact fun g' hg => List.mem_cons_of_mem g (List.mem_append_left _ (hgroups g' hg))
        · rw [hf,hleaves,List.findSome?_append,hsome]
          exact fun t' ht => congrArg Except.error (Option.some.inj ht)
        · rw [hf,hleaves,List.findSome?_append,hsome]
          exact fun hn => by cases hn
      · have hnone : (sub.leaves true).findSome? w.devProxy = none := by
          cases hs : (sub.leaves true).findSome? w.devProxy with
          | none => rfl
          | some t' => cases hbroken t' hs
        obtain ⟨l',hl,hmem1,hg1⟩ := hended hnone
        cases hl
        dsimp only at hstate ⊢
        rw [foldl_asked,pushAsyncRequest_asked,hstate,asked_asked,asked_asked,List.append_nil,List.nil_append]
        obtain ⟨ds2,gs2,h2⟩ := ihr (s.asked w call id (ds1 ++ l) (gs1 ++ [g]))
        have hdevices2 := h2.devices
        have hgroups2 := h2.groups
        have hbroken2 := h2.broken
        have hended2 := h2.ended
        rw [hf] at hdevices2 hgroups2 hbroken2 hended2
        refine ⟨ds1 ++ l ++ ds2,gs1 ++ [g] ++ gs2,?_,?_,?_,?_,?_⟩
        · rw [h2.state,asked_asked]
        · rw [hf,hleaves]
          intro d hd
          rcases List.mem_append.mp hd with hd | hd
          · exact List.mem_append_left _ ((hmem1 d).mp hd)
          · exact List.mem_append_right _ (hdevices2 d hd)
        · rw [hf,passed,if_pos rfl,hnodes]
          intro g' hg
          rcases List.mem_append.mp hg with hg | hg
          · rcases List.mem_append.mp hg with hg | hg
            · exact List.mem_cons_of_mem g (List.mem_append_left _ (hgroups g' hg))
            · rw [List.mem_singleton.mp hg]
              exact List.mem_cons_self
          · exact List.mem_cons_of_mem g (List.mem_append_right _ (hgroups2 g' hg))
        · rw [hf,hleaves,List.findSome?_append,hnone]
          exact hbroken2
        · rw [hf,hleaves,List.findSome?_append,hnone]
          intro hn
          obtain ⟨l2,hl2,hmem2,hg2⟩ := hended2 hn
          refine ⟨l2,hl2,fun d => ?_,fun g' => ?_⟩
          · rw [List.append_assoc,List.mem_append,hmem1 d,hmem2 d,List.mem_append]
          · rw [List.mem_append,List.mem_append,hg1 g',hg2 g',List.mem_singleton,or_assoc]
            exact or_left_comm.trans mem_passed_node.symm

theorem askInOrder_asked (es : Elements) (s : GroupState) :
    askInOrder w call id es s = s.asked w call id (es.leaves call.forward) (passed call.forward es) := by
  have hnil : passed call.forward .nil = [] := by simp [passed,Nested.nodes]
  induction es generalizing s with
  | nil =>
    rw [hnil]
    exact asked_nil.symm
  | leaf d rest ih =>
    rw [askInOrder,ih,deviceAsynchI_asked,asked_asked]
    rfl
  | node g sub rest ihs ihr =>
    rw [askInOrder]
    split
    next hf =>
      rw [ihr,ihs,pushAsyncRequest_asked,asked_asked,asked_asked,List.nil_append,Nested.leaves,if_pos hf]
      refine asked_congr (fun _ => .rfl) (fun g' => ?_)
      rw [hf,mem_passed_node,List.mem_append,List.mem_append,List.mem_singleton]
      exact or_left_comm
    next hf =>
      rw [ihr,Nested.leaves,if_neg hf]
      refine asked_congr (fun _ => .rfl) (fun g' => ?_)
      simp only [passed,if_neg hf]

/-- Nothing in the call of a group throws but a device without a proxy, where the connected ones are asked first. -/
def Method.broken (m : Method) (w : GroupWorld δ β) (forward : Bool) (es : Elements) : Option Thrown :=
  if m.connectedFirst then (es.leaves forward).findSome? w.devProxy else none

theorem asynchI_ended {m : Method} {data : δ} {forward : Bool} {g : Nat} {es : Elements}
    (hb : m.broken w forward es = none) :
    m.asynchI w data forward id g es s =
      (s.asked w (m.call data forward) id (es.leaves forward) (g :: passed forward es),none) := by
  have hforward : (m.call data forward).forward = forward := by cases m <;> rfl
  unfold Method.asynchI
  unfold Method.broken at hb
  split
  next hm =>
    rw [if_pos hm] at hb
    obtain ⟨ds,gs,h⟩ := askConnected_asked w (m.call data forward) id es s
    have hstate := h.state
    have hended := h.ended
    rw [hforward] at hended
    obtain ⟨l,hl,hmem,hg⟩ := hended hb
    unfold asynchConnectedFirst
    generalize askConnected w (m.call data forward) id es s = r at hstate hl
    obtain ⟨s1,r⟩ := r
    dsimp only at hstate hl
    rw [hl]
    dsimp only
    rw [foldl_asked,pushAsyncRequest_asked,hstate,asked_asked,asked_asked,List.append_nil,List.nil_append]
    refine congrArg (·,none) (asked_congr hmem (fun g' => ?_))
    rw [List.mem_append,List.mem_singleton,List.mem_cons,hg g',or_comm]
  next =>
    unfold asynchInOrder
    rw [askInOrder_asked,pushAsyncRequest_asked,asked_asked,hforward,List.append_nil]
    refine congrArg (·,none) (asked_congr (fun _ => .rfl) (fun g' => ?_))
    rw [List.mem_append,List.mem_singleton,List.mem_cons,or_comm]

theorem asynchI_broken {m : Method} {forward : Bool} {g : Nat} {es : Elements} {t : Thrown} (data : δ) (id : Nat)
    (hb : m.broken w forward es = some t) :
    ∃ ds gs, (∀ d ∈ ds, d ∈ es.leaves forward) ∧ (∀ g ∈ gs, g ∈ passed forward es) ∧
      m.asynchI w data forward id g es s = (s.asked w (m.call data forward) id ds gs,some t) := by
  have hforward : (m.call data forward).forward = forward := by cases m <;> rfl
  unfold Method.broken at hb
  split at hb
  next hm =>
    obtain ⟨ds,gs,h⟩ := askConnected_asked w (m.call data forward) id es s
    have hdevices := h.devices
    have hgroups := h.groups
    have hbroken := h.broken
    rw [hforward] at hdevices hgroups hbroken
    refine ⟨ds,gs,hdevices,hgroups,?_⟩
    have hstate := h.state
    have ht := hbroken t hb
    unfold Method.asynchI asynchConnectedFirst
    rw [if_pos hm]
    generalize askConnected w (m.call data forward) id es s = r at hstate ht
    obtain ⟨s1,r⟩ := r
    dsimp only at hstate ht
    rw [ht,hstate]
  next => cases hb

end Asked

section Erased
variable {w : GroupWorld δ β} {name : Nat → String} {k : Kind} {id : Nat} {s : GroupState}

/-- The elements without one id. -/
def GroupState.erased (s : GroupState) (id : Nat) (ds gs : List Nat) : GroupState :=
  { s with
    requests := fun d k => if d ∈ ds ∧ k = id then none else s.requests d k
    arp := fun g k => if g ∈ gs ∧ k = id then none else s.arp g k }

theorem erased_nil : s.erased id [] [] = s := by simp [GroupState.erased]

theorem erased_congr {ds ds' gs gs' : List Nat} (hd : ∀ d, d ∈ ds ↔ d ∈ ds') (hg : ∀ g, g ∈ gs ↔ g ∈ gs') :
    s.erased id ds gs = s.erased id ds' gs' := by
  unfold GroupState.erased
  simp only [hd,hg]

theorem erased_erased (ds gs ds' gs' : List Nat) :
    (s.erased id ds gs).erased id ds' gs' = s.erased id (ds ++ ds') (gs ++ gs') := by
  unfold GroupState.erased
  simp only [GroupState.mk.injEq,true_and,and_true]
  refine ⟨funext fun g => funext fun k => ?_,funext fun d => funext fun k => ?_⟩
  · by_cases hk : k = id <;> by_cases h1 : g ∈ gs <;> by_cases h2 : g ∈ gs' <;> simp [hk,h1,h2]
  · by_cases hk : k = id <;> by_cases h1 : d ∈ ds <;> by_cases h2 : d ∈ ds' <;> simp [hk,h1,h2]

theorem eraseRequest_erased (d : Nat) : s.eraseRequest d id = s.erased id [d] [] := by
  simp [GroupState.eraseRequest,GroupState.erased]

theorem eraseAsyncRequest_erased (g : Nat) : s.eraseAsyncRequest g id = s.erased id [] [g] := by
  simp [GroupState.eraseAsyncRequest,GroupState.erased]

/-- The replies for the requests that the devices have kept. -/
def answers (w : GroupWorld δ β) (name : Nat → String) (k : Kind) (enabled : Nat → Bool)
    (entries : List (Nat × AsynchRequest)) : List (GroupReply β) :=
  entries.flatMap (fun x => answered w k x.1 (name x.1) (enabled x.1) x.2)

theorem answers_append (enabled : Nat → Bool) (xs ys : List (Nat × AsynchRequest)) :
    answers w name k enabled (xs ++ ys) = answers w name k enabled xs ++ answers w name k enabled ys :=
  List.flatMap_append

/-- The replies behind those that there are. -/
def GroupReplyList.more (l : GroupReplyList β) (replies : List (GroupReply β)) : GroupReplyList β :=
  ⟨l.replies ++ replies,l.hasFailed || replies.any GroupReply.hasFailed⟩

theorem more_more (l : GroupReplyList β) (r r' : List (GroupReply β)) : (l.more r).more r' = l.more (r ++ r') := by
  simp [GroupReplyList.more,Bool.or_assoc]

theorem leaves_all {forward : Bool} {es : Elements} {d : Nat} (h : d ∈ es.leaves forward) : d ∈ es.leaves true := by
  cases forward with
  | true => exact h
  | false =>
    induction es with
    | nil => cases h
    | leaf a rest ih =>
      rw [Nested.leaves] at h ⊢
      exact List.mem_cons.mpr ((List.mem_cons.mp h).imp id ih)
    | node g sub rest _ ih =>
      rw [Nested.leaves,if_neg Bool.false_ne_true] at h
      rw [Nested.leaves,if_pos rfl]
      exact List.mem_append_right _ (ih h)

theorem deviceReplyI_kept {d : Nat} {r : AsynchRequest} (h : s.requests d id = some r) :
    deviceReplyI w name k id d s = (s.erased id [d] [],answered w k d (name d) (s.enabled d) r) := by
  unfold deviceReplyI
  rw [h,eraseRequest_erased]

/-- Where each element has the request, the replies are those of the devices in their order, and the request is
nowhere any more. -/
theorem collect_ended {forward : Bool} {es : Elements} {l : GroupReplyList β} (e : Nat → AsynchRequest)
    (hd : (es.leaves true).Nodup) (hg : es.nodes.Nodup) (hreq : ∀ d ∈ es.leaves forward, s.requests d id = some (e d))
    (harp : ∀ g ∈ passed forward es, s.arp g id = some forward) :
    collect w name k id forward es s l =
      (s.erased id (es.leaves forward) (passed forward es),
        .ok (l.more (answers w name k s.enabled ((es.leaves forward).map (fun d => (d,e d)))))) := by
  induction es generalizing s l with
  | nil => simp [collect,Nested.leaves,passed,Nested.nodes,erased_nil,answers,GroupReplyList.more]
  | leaf d rest ih =>
    rw [Nested.leaves] at hd hreq
    obtain ⟨hnew,hd⟩ := List.nodup_cons.mp hd
    have hrest : ∀ d' ∈ rest.leaves forward, (s.erased id [d] []).requests d' id = some (e d') := by
      intro d' hd'
      have hne : d' ≠ d := fun he => hnew (he ▸ leaves_all hd')
      refine (if_neg ?_).trans (hreq d' (List.mem_cons_of_mem d hd'))
      simp [hne]
    rw [collect,deviceReplyI_kept (hreq d List.mem_cons_self),ih hd hg hrest harp,erased_erased]
    exact congrArg (fun x => (_,Except.ok x)) (more_more l _ _)
  | node g sub rest ihs ihr =>
    rw [Nested.leaves,if_pos rfl] at hd
    obtain ⟨hds,hdr,hdis⟩ := List.nodup_append.mp hd
    rw [Nested.nodes] at hg
    obtain ⟨hgnew,hg⟩ := List.nodup_cons.mp hg
    obtain ⟨hgs,hgr,hgdis⟩ := List.nodup_append.mp hg
    rw [collect]
    cases forward with
    | false =>
      rw [if_neg Bool.false_ne_true]
      rw [Nested.leaves,if_neg Bool.false_ne_true] at hreq ⊢
      exact ihr hdr hgr hreq (fun g' hg' => by cases hg')
    | true =>
      rw [Nested.leaves,if_pos rfl] at hreq ⊢
      rw [passed,if_pos rfl,Nested.nodes] at harp ⊢
      rw [if_pos rfl,harp g List.mem_cons_self]
      dsimp only
      rw [ihs hds hgs (fun d hd' => hreq d (List.mem_append_left _ hd'))
        (fun g' hg' => harp g' (List.mem_cons_of_mem g (List.mem_append_left _ hg')))]
      dsimp only
      rw [eraseAsyncRequest_erased,erased_erased]
      have hrest : ∀ d ∈ rest.leaves true,
          (s.erased id (sub.leaves true ++ []) (passed true sub ++ [g])).requests d id = some (e d) := by
        intro d hd'
        refine (if_neg ?_).trans (hreq d (List.mem_append_right _ hd'))
        rintro ⟨hmem,-⟩
        rw [List.append_nil] at hmem
        exact hdis d hmem d hd' rfl
      have hrestarp : ∀ g' ∈ passed true rest,
          (s.erased id (sub.leaves true ++ []) (passed true sub ++ [g])).arp g' id = some true := by
        intro g' hg'
        refine (if_neg ?_).trans (harp g' (List.mem_cons_of_mem g (List.mem_append_right _ hg')))
        rintro ⟨hmem,-⟩
        rcases List.mem_append.mp hmem with hmem | hmem
        · exact hgdis g' hmem g' hg' rfl
        · rw [List.mem_singleton.mp hmem] at hg'
          exact hgnew (List.mem_append_right _ hg')
      rw [ihr hdr hgr hrest hrestarp,erased_erased]
      refine Prod.ext ?_ ?_
      · refine erased_congr (fun d => ?_) (fun g' => ?_)
        · rw [List.append_nil]
        · rw [List.mem_append,List.mem_append,List.mem_singleton,or_assoc]
          exact or_left_comm.trans mem_passed_node.symm
      · refine congrArg Except.ok ?_
        rw [List.map_append,answers_append]
        exact more_more l _ _

end Erased

section Central

/-- A request of a group: with its id and its flag it has gone to some of the elements. -/
structure Issue where
  group : Nat
  id : Nat
  forward : Bool
deriving DecidableEq, Repr

/-- A request that waits for its reply, with what was kept for each device when it was made. -/
structure Pending extends Issue where
  entries : List (Nat × AsynchRequest)

/-- All requests of all groups in one table. A request that has thrown leaves only its id behind. -/
structure Central where
  asynchReqId : Nat → Nat
  enabled : Nat → Bool
  pending : List Pending
  lost : List Issue

variable (h : Hierarchy)

def Issue.devices (i : Issue) : List Nat := ((h.sub i.group).map (fun es => es.leaves i.forward)).getD []

def Issue.groups (i : Issue) : List Nat := ((h.sub i.group).map (fun es => passed i.forward es)).getD []

/-- Two requests have no element in common. -/
def Apart (i j : Issue) : Prop :=
  (∀ d ∈ i.devices h, d ∉ j.devices h) ∧ ∀ g ∈ i.group :: i.groups h, g ∉ j.group :: j.groups h

def Central.nextId (c : Central) (g : Nat) : Central :=
  { c with asynchReqId := Function.update c.asynchReqId g (nextAsynchRequestId (c.asynchReqId g)) }

def Central.keep (c : Central) (call : Call δ) (p : Pending) : Central :=
  if call.forget then c else { c with pending := c.pending ++ [p] }

def Central.lose (c : Central) (call : Call δ) (i : Issue) : Central :=
  if call.forget then c else { c with lost := c.lost ++ [i] }

/-- An answered request is taken out of the table. -/
def Central.answered (c : Central) (g id : Nat) : Central :=
  { c with pending := c.pending.filter (fun q => ¬(q.group = g ∧ q.id = id)) }

/-- What the group is meant to do for a call: each request is kept as a whole. -/
def Central.step (c : Central) (x : GroupWorld δ β × Act δ) : Central × Out β :=
  match x.2 with
  | .request g m data forward =>
    match h.sub g with
    | none => (c,.done)
    | some es =>
      match m.broken x.1 forward es with
      | some t =>
        ((c.nextId g).lose (m.call data forward) ⟨g,nextAsynchRequestId (c.asynchReqId g),forward⟩,.thrown t)
      | none =>
        ((c.nextId g).keep (m.call data forward) ⟨⟨g,nextAsynchRequestId (c.asynchReqId g),forward⟩,
          (es.leaves forward).map (fun d =>
            (d,made x.1 (m.call data forward) (c.enabled d) (nextAsynchRequestId (c.asynchReqId g)) d))⟩,
          .id (nextAsynchRequestId (c.asynchReqId g)))
  | .reply g id k =>
    match h.sub g with
    | none => (c,.done)
    | some _ =>
      match c.pending.find? (fun p => p.group = g ∧ p.id = id) with
      | none => (c,.thrown (.devFailed (invalidId ("Group::" ++ k.replyI))))
      | some p =>
        (c.answered g id,
          .replies (GroupReplyList.more ⟨[],false⟩ (answers x.1 h.name k c.enabled p.entries)))
  | .enable d => ({ c with enabled := Function.update c.enabled d true },.done)
  | .disable d => ({ c with enabled := Function.update c.enabled d false },.done)

def Central.start : Central := ⟨fun _ => 0,fun _ => true,[],[]⟩

/-- A request gets an id that no other one has which shares an element with it, and a reply is asked of the group
that has made the request. -/
def Proper (c : Central) (x : GroupWorld δ β × Act δ) : Prop :=
  match x.2 with
  | .request g m data forward => (m.call data forward).forget = false →
      ∀ i ∈ c.pending.map Pending.toIssue ++ c.lost, i.id = nextAsynchRequestId (c.asynchReqId g) →
        Apart h i ⟨g,nextAsynchRequestId (c.asynchReqId g),forward⟩
  | .reply g id _ => (∃ p ∈ c.pending, p.group = g ∧ p.id = id) ∨
      (∀ p ∈ c.pending, p.id = id → g ∉ p.group :: p.groups h) ∧ ∀ i ∈ c.lost, i.id = id → g ∉ i.groups h
  | _ => True

variable {h} {s : GroupState} {c : Central} {g id : Nat} {es : Elements}

/-- The elements hold a request: its flag the groups, what was kept for it the devices. -/
structure Held (h : Hierarchy) (s : GroupState) (p : Pending) (es : Elements) : Prop where
  sub : h.sub p.group = some es
  devices : p.entries.map Prod.fst = es.leaves p.forward
  requests : ∀ x ∈ p.entries, s.requests x.1 p.id = some x.2
  arp : ∀ g ∈ p.group :: passed p.forward es, s.arp g p.id = some p.forward

/-- Two requests with one id have no element in common. -/
def Distinct (h : Hierarchy) (p q : Pending) : Prop := p.id = q.id → Apart h p.toIssue q.toIssue

theorem apart_symm {i j : Issue} (ha : Apart h i j) : Apart h j i :=
  ⟨fun d hj hi => ha.1 d hi hj,fun g hj hi => ha.2 g hi hj⟩

instance distinctSymm : Std.Symm (Distinct h) := ⟨fun _ _ hd he => apart_symm (hd he.symm)⟩

/-- The elements have together what is in the table, and nothing that is not there. -/
structure Refines (h : Hierarchy) (s : GroupState) (c : Central) : Prop where
  asynchReqId : s.asynchReqId = c.asynchReqId
  enabled : s.enabled = c.enabled
  held : ∀ p ∈ c.pending, ∃ es, Held h s p es
  apart : c.pending.Pairwise (Distinct h)
  requests : ∀ d k, s.requests d k ≠ none →
    ∃ i ∈ c.pending.map Pending.toIssue ++ c.lost, i.id = k ∧ d ∈ i.devices h
  arp : ∀ g k, s.arp g k ≠ none →
    (∃ p ∈ c.pending, p.id = k ∧ g ∈ p.group :: p.groups h) ∨ ∃ i ∈ c.lost, i.id = k ∧ g ∈ i.groups h

theorem sub_nodup (hs : h.sub g = some es) : (es.leaves true).Nodup ∧ (g :: es.nodes).Nodup := by
  unfold Hierarchy.sub at hs
  split at hs
  next hg =>
    cases hs
    rw [hg]
    exact ⟨h.devices,h.groups⟩
  next =>
    obtain ⟨hl,hn⟩ := Nested.inside_sublist hs
    exact ⟨h.devices.sublist hl,h.groups.sublist (hn.cons h.root)⟩

theorem devices_of_sub {i : Issue} (hs : h.sub i.group = some es) : i.devices h = es.leaves i.forward := by
  unfold Issue.devices
  rw [hs]
  rfl

theorem groups_of_sub {i : Issue} (hs : h.sub i.group = some es) : i.groups h = passed i.forward es := by
  unfold Issue.groups
  rw [hs]
  rfl

theorem start_refines : Refines h start Central.start :=
  ⟨rfl,rfl,fun p hp => (by cases hp),.nil,fun d k hk => absurd rfl hk,fun g k hk => absurd rfl hk⟩

/-- A request that is there stays as it is in a call, whatever its id. -/
theorem Held.asked {p : Pending} (w : GroupWorld δ β) (call : Call δ) (ds gs : List Nat) (hp : Held h s p es) :
    Held h (s.asked w call id ds gs) p es := by
  have hor : ∀ {α : Type} {x : Option α} {a b : α} {P : Prop} [Decidable P], x = some a →
      (if P then x.or (some b) else x) = some a := by
    intro α x a b P _ hx
    rw [hx]
    split <;> rfl
  cases hf : call.forget with
  | true =>
    rw [asked_forget hf]
    exact hp
  | false =>
    refine ⟨hp.sub,hp.devices,fun x hx => ?_,fun g hg => ?_⟩
    · rw [asked_requests hf]
      exact hor (hp.requests x hx)
    · rw [asked_arp hf]
      exact hor (hp.arp g hg)

theorem nextId_refines (hr : Refines h s c) (g : Nat) : Refines h (s.nextId g) (c.nextId g) := by
  have hnext : (s.nextId g).asynchReqId = (c.nextId g).asynchReqId := by
    unfold GroupState.nextId Central.nextId
    dsimp only
    rw [hr.asynchReqId]
  exact ⟨hnext,hr.enabled,fun p hp => (hr.held p hp).imp fun es hes => ⟨hes.sub,hes.devices,hes.requests,hes.arp⟩,
    hr.apart,hr.requests,hr.arp⟩

theorem asked_requests_some {w : GroupWorld δ β} {call : Call δ} {ds gs : List Nat} {d k : Nat}
    (hk : (s.asked w call id ds gs).requests d k ≠ none) : s.requests d k ≠ none ∨ d ∈ ds ∧ k = id := by
  cases hf : call.forget with
  | true =>
    rw [asked_forget hf] at hk
    exact .inl hk
  | false =>
    rw [asked_requests hf] at hk
    split at hk
    next hin => exact .inr hin
    next => exact .inl hk

theorem asked_arp_some {w : GroupWorld δ β} {call : Call δ} {ds gs : List Nat} {g k : Nat}
    (hk : (s.asked w call id ds gs).arp g k ≠ none) : s.arp g k ≠ none ∨ g ∈ gs ∧ k = id := by
  cases hf : call.forget with
  | true =>
    rw [asked_forget hf] at hk
    exact .inl hk
  | false =>
    rw [asked_arp hf] at hk
    split at hk
    next hin => exact .inr hin
    next => exact .inl hk

/-- A call that throws leaves its id in some of its elements. -/
theorem lose_refines {w : GroupWorld δ β} {call : Call δ} {i : Issue} {ds gs : List Nat} (hr : Refines h s c)
    (hds : ∀ d ∈ ds, d ∈ i.devices h) (hgs : ∀ g ∈ gs, g ∈ i.groups h) :
    Refines h (s.asked w call i.id ds gs) (c.lose call i) := by
  unfold Central.lose
  split
  next hf =>
    rw [asked_forget hf]
    exact hr
  next =>
    refine ⟨(asked_asynchReqId ds gs).trans hr.asynchReqId,(asked_enabled ds gs).trans hr.enabled,
      fun p hp => (hr.held p hp).imp fun es hes => hes.asked w call ds gs,hr.apart,fun d k hk => ?_,fun g k hk => ?_⟩
    · rcases asked_requests_some hk with hk | ⟨hd,rfl⟩
      · obtain ⟨j,hj,hjk,hjd⟩ := hr.requests d k hk
        refine ⟨j,?_,hjk,hjd⟩
        rw [← List.append_assoc]
        exact List.mem_append_left _ hj
      · exact ⟨i,List.mem_append_right _ (List.mem_append_right _ (List.mem_singleton_self i)),rfl,hds d hd⟩
    · rcases asked_arp_some hk with hk | ⟨hg,rfl⟩
      · exact (hr.arp g k hk).imp id (fun ⟨j,hj,hjk,hjg⟩ => ⟨j,List.mem_append_left _ hj,hjk,hjg⟩)
      · exact .inr ⟨i,List.mem_append_right _ (List.mem_singleton_self i),rfl,hgs g hg⟩

/-- A call whose id is new where it goes is kept by all its elements. -/
theorem keep_refines {w : GroupWorld δ β} {call : Call δ} {i : Issue} (hr : Refines h s c)
    (hs : h.sub i.group = some es) (hcall : call.forward = i.forward)
    (hfresh : call.forget = false → ∀ j ∈ c.pending.map Pending.toIssue ++ c.lost, j.id = i.id → Apart h j i) :
    Refines h (s.asked w call i.id (es.leaves i.forward) (i.group :: passed i.forward es))
      (c.keep call ⟨i,(es.leaves i.forward).map (fun d => (d,made w call (c.enabled d) i.id d))⟩) := by
  have hdevices := devices_of_sub hs
  have hgroups := groups_of_sub hs
  unfold Central.keep
  split
  next hf =>
    rw [asked_forget hf]
    exact hr
  next hf =>
    have hforget : call.forget = false := Bool.eq_false_of_not_eq_true hf
    have hnone : ∀ d ∈ es.leaves i.forward, s.requests d i.id = none := by
      intro d hd
      by_contra hk
      obtain ⟨j,hj,hjk,hjd⟩ := hr.requests d i.id hk
      exact (hfresh hforget j hj hjk).1 d hjd (hdevices ▸ hd)
    have hnonearp : ∀ g ∈ i.group :: passed i.forward es, s.arp g i.id = none := by
      intro g hg
      by_contra hk
      rw [← hgroups] at hg
      rcases hr.arp g i.id hk with ⟨p,hp,hpk,hpg⟩ | ⟨j,hj,hjk,hjg⟩
      · exact (hfresh hforget p.toIssue (List.mem_append_left _ (List.mem_map_of_mem hp)) hpk).2 g hpg hg
      · exact (hfresh hforget j (List.mem_append_right _ hj) hjk).2 g (List.mem_cons_of_mem _ hjg) hg
    refine ⟨(asked_asynchReqId _ _).trans hr.asynchReqId,(asked_enabled _ _).trans hr.enabled,fun p hp => ?_,?_,
      fun d k hk => ?_,fun g k hk => ?_⟩
    · rcases List.mem_append.mp hp with hp | hp
      · exact (hr.held p hp).imp fun es' hes => hes.asked w call _ _
      · rw [List.mem_singleton.mp hp]
        refine ⟨es,hs,?_,fun x hx => ?_,fun g hg => ?_⟩
        · rw [List.map_map]
          exact List.map_id _
        · obtain ⟨d,hd,rfl⟩ := List.mem_map.mp hx
          dsimp only
          rw [asked_requests hforget,if_pos ⟨hd,rfl⟩,hnone d hd,hr.enabled]
          rfl
        · dsimp only at hg ⊢
          rw [asked_arp hforget,if_pos ⟨hg,rfl⟩,hnonearp g hg,hcall]
          rfl
    · refine List.pairwise_append.mpr ⟨hr.apart,List.pairwise_singleton _ _,fun p hp q hq hid => ?_⟩
      rw [List.mem_singleton.mp hq] at hid ⊢
      exact hfresh hforget p.toIssue (List.mem_append_left _ (List.mem_map_of_mem hp)) hid
    · rw [List.map_append]
      rcases asked_requests_some hk with hk | ⟨hd,rfl⟩
      · obtain ⟨j,hj,hjk,hjd⟩ := hr.requests d k hk
        refine ⟨j,?_,hjk,hjd⟩
        rcases List.mem_append.mp hj with hj | hj
        · exact List.mem_append_left _ (List.mem_append_left _ hj)
        · exact List.mem_append_right _ hj
      · exact ⟨i,List.mem_append_left _ (List.mem_append_right _ (List.mem_singleton_self _)),rfl,hdevices.symm ▸ hd⟩
    · rcases asked_arp_some hk with hk | ⟨hg,rfl⟩
      · exact (hr.arp g k hk).imp (fun ⟨p,hp,hpk,hpg⟩ => ⟨p,List.mem_append_left _ hp,hpk,hpg⟩) id
      · rw [← hgroups] at hg
        exact .inl ⟨_,List.mem_append_right _ (List.mem_singleton_self _),rfl,hg⟩

theorem erased_some {d k : Nat} {ds gs : List Nat} (hk : (s.erased id ds gs).requests d k ≠ none) :
    s.requests d k ≠ none ∧ ¬(d ∈ ds ∧ k = id) := by
  dsimp only [GroupState.erased] at hk
  split at hk
  next => exact absurd rfl hk
  next hno => exact ⟨hk,hno⟩

theorem erased_arp_some {g k : Nat} {ds gs : List Nat} (hk : (s.erased id ds gs).arp g k ≠ none) :
    s.arp g k ≠ none ∧ ¬(g ∈ gs ∧ k = id) := by
  dsimp only [GroupState.erased] at hk
  split at hk
  next => exact absurd rfl hk
  next hno => exact ⟨hk,hno⟩

/-- A request that shares no element with one that is answered stays. -/
theorem Held.erased {p : Pending} {ds gs : List Nat} (hp : Held h s p es)
    (hds : p.id = id → ∀ d ∈ es.leaves p.forward, d ∉ ds)
    (hgs : p.id = id → ∀ g ∈ p.group :: passed p.forward es, g ∉ gs) :
    Held h (s.erased id ds gs) p es := by
  refine ⟨hp.sub,hp.devices,fun x hx => (if_neg ?_).trans (hp.requests x hx),
    fun g hg => (if_neg ?_).trans (hp.arp g hg)⟩
  · rintro ⟨hd,hid⟩
    exact hds hid x.1 (hp.devices ▸ List.mem_map_of_mem hx) hd
  · rintro ⟨hg',hid⟩
    exact hgs hid g hg hg'

/-- What the devices of a request have kept for it. -/
def keptFor (s : GroupState) (id d : Nat) : AsynchRequest := (s.requests d id).getD ⟨0,[],[]⟩

/-- The reply of the group that has made a request: each device answers for what was kept when it was made. -/
theorem reply_held {w : GroupWorld δ β} {k : Kind} {p : Pending} (hp : Held h s p es) :
    replyI w h.name k p.id p.group es s =
      (s.erased p.id (es.leaves p.forward) (p.group :: passed p.forward es),
        .ok (GroupReplyList.more ⟨[],false⟩ (answers w h.name k s.enabled p.entries))) := by
  obtain ⟨hnd,hng⟩ := sub_nodup hp.sub
  have hkept : ∀ x ∈ p.entries, keptFor s p.id x.1 = x.2 := by
    intro x hx
    unfold keptFor
    rw [hp.requests x hx]
    rfl
  have hreq : ∀ d ∈ es.leaves p.forward, s.requests d p.id = some (keptFor s p.id d) := by
    intro d hd
    rw [← hp.devices] at hd
    obtain ⟨x,hx,rfl⟩ := List.mem_map.mp hd
    rw [hp.requests x hx,hkept x hx]
  have hentries : (es.leaves p.forward).map (fun d => (d,keptFor s p.id d)) = p.entries := by
    rw [← hp.devices,List.map_map]
    refine (List.map_congr_left fun x hx => ?_).trans (List.map_id _)
    exact Prod.ext rfl (hkept x hx)
  have hcollect : collect w h.name k p.id p.forward es s ⟨[],false⟩ = _ :=
    collect_ended (keptFor s p.id) hnd (List.nodup_cons.mp hng).2 hreq
      (fun g hg => hp.arp g (List.mem_cons_of_mem _ hg))
  unfold replyI
  rw [hp.arp p.group List.mem_cons_self]
  dsimp only
  rw [hcollect,hentries]
  dsimp only
  rw [eraseAsyncRequest_erased,erased_erased,List.append_nil]
  refine congrArg (·,_) (erased_congr (fun _ => .rfl) (fun g => ?_))
  rw [List.mem_append,List.mem_singleton,List.mem_cons,or_comm]

theorem answered_refines {p : Pending} (hr : Refines h s c) (hp : p ∈ c.pending) (hes : Held h s p es) :
    Refines h (s.erased p.id (es.leaves p.forward) (p.group :: passed p.forward es)) (c.answered p.group p.id) := by
  have hdevices := devices_of_sub hes.sub
  have hgroups := groups_of_sub hes.sub
  have hother : ∀ q ∈ c.pending, q ≠ p → q.id = p.id → Apart h q.toIssue p.toIssue := by
    exact fun q hq hne => hr.apart.forall hq hp hne
  have honly : ∀ q ∈ c.pending, q.group = p.group → q.id = p.id → q = p := by
    intro q hq hg hid
    by_contra hne
    exact (hother q hq hne hid).2 q.group List.mem_cons_self (hg ▸ List.mem_cons_self)
  have hfilter : ∀ q, q ∈ (c.answered p.group p.id).pending ↔ q ∈ c.pending ∧ ¬(q.group = p.group ∧ q.id = p.id) := by
    intro q
    unfold Central.answered
    rw [List.mem_filter,decide_eq_true_iff]
  have hgone : ∀ q ∈ c.pending, q ≠ p → q ∈ (c.answered p.group p.id).pending :=
    fun q hq hne => (hfilter q).mpr ⟨hq,fun hgid => hne (honly q hq hgid.1 hgid.2)⟩
  refine ⟨hr.asynchReqId,hr.enabled,fun q hq => ?_,hr.apart.filter _,fun d k hk => ?_,fun g k hk => ?_⟩
  · obtain ⟨hq,hne⟩ := (hfilter q).mp hq
    obtain ⟨es',hes'⟩ := hr.held q hq
    have hqp : q ≠ p := fun he => hne (he ▸ ⟨rfl,rfl⟩)
    refine ⟨es',hes'.erased (fun hid d hd => ?_) (fun hid g hg => ?_)⟩
    · rw [← hdevices]
      exact (hother q hq hqp hid).1 d (devices_of_sub hes'.sub ▸ hd)
    · rw [← hgroups]
      exact (hother q hq hqp hid).2 g (groups_of_sub hes'.sub ▸ hg)
  · obtain ⟨hk,hno⟩ := erased_some hk
    obtain ⟨i,hi,hik,hid⟩ := hr.requests d k hk
    refine ⟨i,?_,hik,hid⟩
    rcases List.mem_append.mp hi with hi | hi
    · obtain ⟨q,hq,rfl⟩ := List.mem_map.mp hi
      refine List.mem_append_left _ (List.mem_map_of_mem (hgone q hq ?_))
      rintro rfl
      exact hno ⟨hdevices ▸ hid,hik.symm⟩
    · exact List.mem_append_right _ hi
  · obtain ⟨hk,hno⟩ := erased_arp_some hk
    refine (hr.arp g k hk).imp (fun ⟨q,hq,hqk,hqg⟩ => ⟨q,hgone q hq ?_,hqk,hqg⟩) id
    rintro rfl
    exact hno ⟨hgroups ▸ hqg,hqk.symm⟩

theorem request_refines {w : GroupWorld δ β} {m : Method} {data : δ} {forward : Bool} (hr : Refines h s c)
    (hp : Proper h c (w,.request g m data forward)) :
    Refines h (step h s (w,.request g m data forward)).1 (c.step h (w,.request g m data forward)).1 ∧
      (step h s (w,.request g m data forward)).2 = (c.step h (w,.request g m data forward)).2 := by
  have hnext := nextId_refines hr g
  have hforward : (m.call data forward).forward = forward := by cases m <;> rfl
  dsimp only [step,Central.step]
  rw [hr.asynchReqId]
  cases hs : h.sub g with
  | none => exact ⟨hr,rfl⟩
  | some es =>
    dsimp only
    cases hb : m.broken w forward es with
    | some t =>
      obtain ⟨ds,gs,hds,hgs,hcall⟩ := asynchI_broken (g := g) (s := s.nextId g) data
        (nextAsynchRequestId (c.asynchReqId g)) hb
      rw [hcall]
      let i : Issue := ⟨g,nextAsynchRequestId (c.asynchReqId g),forward⟩
      exact ⟨lose_refines (i := i) hnext (fun d hd => devices_of_sub (i := i) hs ▸ hds d hd)
        (fun g' hg => groups_of_sub (i := i) hs ▸ hgs g' hg),rfl⟩
    | none =>
      rw [asynchI_ended hb]
      exact ⟨keep_refines (i := ⟨g,nextAsynchRequestId (c.asynchReqId g),forward⟩) hnext hs hforward hp,rfl⟩

theorem reply_refines {w : GroupWorld δ β} {k : Kind} (hr : Refines h s c)
    (hp : Proper h c ((w,.reply g id k) : GroupWorld δ β × Act δ)) :
    Refines h (step h s ((w,.reply g id k) : GroupWorld δ β × Act δ)).1
        (c.step h ((w,.reply g id k) : GroupWorld δ β × Act δ)).1 ∧
      (step h s ((w,.reply g id k) : GroupWorld δ β × Act δ)).2 =
        (c.step h ((w,.reply g id k) : GroupWorld δ β × Act δ)).2 := by
  dsimp only [step,Central.step]
  cases hs : h.sub g with
  | none => exact ⟨hr,rfl⟩
  | some es =>
    dsimp only
    cases hf : c.pending.find? (fun p => p.group = g ∧ p.id = id) with
    | some p =>
      have hkey := List.find?_some hf
      obtain ⟨rfl,rfl⟩ : p.group = g ∧ p.id = id := by simpa using hkey
      have hmem := List.mem_of_find?_eq_some hf
      obtain ⟨es',hes⟩ := hr.held p hmem
      obtain rfl : es' = es := Option.some.inj (hes.sub.symm.trans hs)
      rw [reply_held hes,hr.enabled]
      exact ⟨answered_refines hr hmem hes,rfl⟩
    | none =>
      have hnone : s.arp g id = none := by
        by_contra hk
        have hno : ¬∃ p ∈ c.pending, p.group = g ∧ p.id = id := by
          rintro ⟨p,hpm,hpg⟩
          have := List.find?_eq_none.mp hf p hpm
          simp [hpg] at this
        rcases hp with hp | ⟨hpend,hlost⟩
        · exact hno hp
        · rcases hr.arp g id hk with ⟨p,hpm,hpid,hpg⟩ | ⟨i,hi,hid,hig⟩
          · exact hpend p hpm hpid hpg
          · exact hlost i hi hid hig
      have hthrown : replyI w h.name k id g es s = (s,.error (invalidId ("Group::" ++ k.replyI))) := by
        unfold replyI
        rw [hnone]
      rw [hthrown]
      exact ⟨hr,rfl⟩

theorem Held.enable {p : Pending} (hp : Held h s p es) (f : Nat → Bool) : Held h { s with enabled := f } p es :=
  ⟨hp.sub,hp.devices,hp.requests,hp.arp⟩

theorem enable_refines (hr : Refines h s c) (d : Nat) (b : Bool) :
    Refines h { s with enabled := Function.update s.enabled d b }
      { c with enabled := Function.update c.enabled d b } := by
  refine ⟨hr.asynchReqId,?_,fun p hp => (hr.held p hp).imp fun es hes => hes.enable _,hr.apart,hr.requests,hr.arp⟩
  dsimp only
  rw [hr.enabled]

theorem step_refines {x : GroupWorld δ β × Act δ} (hr : Refines h s c) (hp : Proper h c x) :
    Refines h (step h s x).1 (c.step h x).1 ∧ (step h s x).2 = (c.step h x).2 := by
  obtain ⟨w,act⟩ := x
  cases act with
  | request g m data forward => exact request_refines hr hp
  | reply g id k => exact reply_refines hr hp
  | enable d => exact ⟨enable_refines hr d true,rfl⟩
  | disable d => exact ⟨enable_refines hr d false,rfl⟩

/-- What the calls of a run return. -/
def outs {σ α ω : Type} (step : σ → α → σ × ω) : σ → List α → List ω
  | _,[] => []
  | s,x :: xs => (step s x).2 :: outs step (step s x).1 xs

theorem outs_refine (xs : List (GroupWorld δ β × Act δ)) (hr : Refines h s c)
    (hp : Along (fun c x => (Central.step h c x).1) (Proper h) c xs) :
    outs (step h) s xs = outs (Central.step h) c xs := by
  induction xs generalizing s c with
  | nil => rfl
  | cons x xs ih =>
    obtain ⟨hx,hxs⟩ := hp
    obtain ⟨hr',hout⟩ := step_refines hr hx
    rw [outs,outs,hout,ih hr' hxs]

end Central

section OneGroup
variable {h : Hierarchy} {c : Central} {g : Nat} {es : Elements}

/-- A call is about one group. -/
def OnGroup (g : Nat) : Act δ → Prop
  | .request g' _ _ _ => g' = g
  | .reply g' _ _ => g' = g
  | _ => True

def isRequest : Act δ → Bool
  | .request _ _ _ _ => true
  | _ => false

/-- All that is in the table has been asked of one group, with the ids up to its last one. -/
structure OfGroup (c : Central) (g n : Nat) : Prop where
  last : c.asynchReqId g = n
  issues : ∀ i ∈ c.pending.map Pending.toIssue ++ c.lost, i.group = g ∧ i.id ≤ n

theorem OfGroup.next {n : Nat} (ho : OfGroup c g n) (hn : n + 1 < 0x0FFF) : OfGroup (c.nextId g) g (n + 1) := by
  refine ⟨?_,fun i hi => ⟨(ho.issues i hi).1,Nat.le_succ_of_le (ho.issues i hi).2⟩⟩
  unfold Central.nextId
  dsimp only
  rw [Function.update_self,ho.last]
  exact Nat.mod_eq_of_lt hn

theorem OfGroup.keep {n : Nat} {p : Pending} (call : Call δ) (ho : OfGroup c g n) (hp : p.group = g ∧ p.id ≤ n) :
    OfGroup (c.keep call p) g n := by
  unfold Central.keep
  split
  next => exact ho
  next =>
    refine ⟨ho.last,fun i hi => ?_⟩
    rw [List.map_append,List.append_assoc] at hi
    rcases List.mem_append.mp hi with hi | hi
    · exact ho.issues i (List.mem_append_left _ hi)
    · rcases List.mem_append.mp hi with hi | hi
      · rw [List.mem_singleton.mp hi]
        exact hp
      · exact ho.issues i (List.mem_append_right _ hi)

theorem OfGroup.lose {n : Nat} {j : Issue} (call : Call δ) (ho : OfGroup c g n) (hj : j.group = g ∧ j.id ≤ n) :
    OfGroup (c.lose call j) g n := by
  unfold Central.lose
  split
  next => exact ho
  next =>
    refine ⟨ho.last,fun i hi => ?_⟩
    rw [← List.append_assoc] at hi
    rcases List.mem_append.mp hi with hi | hi
    · exact ho.issues i hi
    · rw [List.mem_singleton.mp hi]
      exact hj

theorem OfGroup.answered {n : Nat} (ho : OfGroup c g n) (g' id : Nat) : OfGroup (c.answered g' id) g n := by
  refine ⟨ho.last,fun i hi => ho.issues i ?_⟩
  rcases List.mem_append.mp hi with hi | hi
  · obtain ⟨p,hp,rfl⟩ := List.mem_map.mp hi
    exact List.mem_append_left _ (List.mem_map_of_mem (List.mem_of_mem_filter hp))
  · exact List.mem_append_right _ hi

/-- The ids of one group are all different for 4094 requests. -/
theorem one_group_step {n : Nat} {x : GroupWorld δ β × Act δ} (hg : h.sub g = some es) (hx : OnGroup g x.2)
    (ho : OfGroup c g n) (hn : isRequest x.2 = true → n + 1 < 0x0FFF) :
    Proper h c x ∧ OfGroup (Central.step h c x).1 g (if isRequest x.2 = true then n + 1 else n) := by
  obtain ⟨w,act⟩ := x
  cases act with
  | request g' m data forward =>
    obtain rfl : g' = g := hx
    have hlt : n + 1 < 0x0FFF := hn rfl
    have hid : nextAsynchRequestId (c.asynchReqId g') = n + 1 := by
      rw [ho.last]
      exact Nat.mod_eq_of_lt hlt
    refine ⟨fun _ i hi he => ?_,?_⟩
    · have hle := (ho.issues i hi).2
      omega
    · dsimp only [Central.step]
      rw [hg]
      dsimp only
      rw [hid]
      cases m.broken w forward es with
      | some t => exact (ho.next hlt).lose _ ⟨rfl,Nat.le_refl _⟩
      | none => exact (ho.next hlt).keep _ ⟨rfl,Nat.le_refl _⟩
  | reply g' id k =>
    obtain rfl : g' = g := hx
    refine ⟨?_,?_⟩
    · by_cases hp : ∃ p ∈ c.pending, p.group = g' ∧ p.id = id
      · exact .inl hp
      · refine .inr ⟨fun p hpm he => ?_,fun i hi _ => ?_⟩
        · exact absurd ⟨p,hpm,(ho.issues p.toIssue (List.mem_append_left _ (List.mem_map_of_mem hpm))).1,he⟩ hp
        · have hgroup := (ho.issues i (List.mem_append_right _ hi)).1
          rw [groups_of_sub (hgroup.symm ▸ hg)]
          unfold passed
          split
          next => exact (List.nodup_cons.mp (sub_nodup hg).2).1
          next => exact List.not_mem_nil
    · dsimp only [Central.step]
      rw [hg]
      dsimp only
      split
      next => exact ho
      next => exact ho.answered g' id
  | enable d => exact ⟨trivial,ho.last,ho.issues⟩
  | disable d => exact ⟨trivial,ho.last,ho.issues⟩

/-- A run on one group with at most 4094 requests gives no id to two requests. -/
theorem one_group_proper {n : Nat} (xs : List (GroupWorld δ β × Act δ)) (hg : h.sub g = some es)
    (hx : ∀ x ∈ xs, OnGroup g x.2) (ho : OfGroup c g n)
    (hn : n + (xs.filter (fun x => isRequest x.2)).length < 0x0FFF) :
    Along (fun c x => (Central.step h c x).1) (Proper h) c xs := by
  induction xs generalizing c n with
  | nil => exact trivial
  | cons x xs ih =>
    rw [List.filter_cons] at hn
    have hfirst : isRequest x.2 = true → n + 1 < 0x0FFF := by
      intro he
      rw [if_pos he,List.length_cons] at hn
      omega
    obtain ⟨hp,ho'⟩ := one_group_step hg (hx x List.mem_cons_self) ho hfirst
    refine ⟨hp,ih (fun y hy => hx y (List.mem_cons_of_mem x hy)) ho' ?_⟩
    split at hn
    next he =>
      rw [if_pos he]
      rw [List.length_cons] at hn
      omega
    next he => rwa [if_neg he]

theorem start_ofGroup (g : Nat) : OfGroup Central.start g 0 := ⟨rfl,fun i hi => by cases hi⟩

/-- A device, and a sub-group with another one. -/
def sampleGroup : Hierarchy where
  root := 0
  elements := .leaf 1 (.node 2 (.leaf 3 .nil) .nil)
  name := fun i => if i = 1 then "sys/motor/1" else "sys/motor/2"
  devices := by decide
  groups := by decide

/-- The device 3 is connected only later, and each call to a device gets the id it is given. -/
def sampleAnswers (ari : Nat) : GroupWorld Unit Nat where
  devProxy := fun _ => none
  isConnected := fun d => d = 1
  asynch := fun d _ => if d = 1 then .ok ari else .error .other
  commandInoutReply := fun d rqId => .ok (10 * d + rqId.toNat)
  readAttributeReply := fun _ _ => .ok none
  readAttributesReply := fun _ _ => .ok none
  writeAttributeReply := fun _ _ => .ok ()

/-- Two requests, answered in the other order, with a device that is disabled before the second reply. -/
def sampleRun : List (GroupWorld Unit Nat × Act Unit) :=
  [(sampleAnswers 7,.request 0 (.commandInoutAsynch "State" false) () true),
    (sampleAnswers 8,.request 0 (.readAttributesAsynch ["Position","Speed"]) () false),
    (sampleAnswers 0,.reply 0 2 .readAttributes),(sampleAnswers 0,.disable 3),
    (sampleAnswers 0,.reply 0 1 .commandInout)]

end OneGroup

end CppTango.Client.GroupAsynch
