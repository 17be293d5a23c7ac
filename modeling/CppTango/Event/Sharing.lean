import CppTango.Event.Delivery

namespace CppTango.Event

variable {κ α : Type} [DecidableEq κ] {g : Setting κ} {w : World κ α}

section Conditions

/-- Time goes on, and a client that is subscribed confirms before its release expires. -/
def Timely (w : World κ α) : Step κ α → Prop
  | .subscribe _ now => w.clock ≤ now
  | .confirm _ now => w.clock ≤ now
  | .unsubscribe _ => True
  | .expire now => w.clock ≤ now ∧
      ∀ client cb, w.clients client = some cb → now - cb.lastSubscribed < resubscribePeriod
  | .push _ => True

def confirmedRelease : Topic → Nat
  | .plain => 4
  | .idl5 => 5

variable (g) in
/-- The steps that keep the places of the topics: a request does not list both of the releases 5
and 6 when one of them is the first of the list; an expiry does not take the first release away
from clients of another topic; a first event does not have the counter zero. -/
def Steady (w : World κ α) : Step κ α → Prop
  | .subscribe client _ => Joins w.supplier.clientLib (min (g.release client) g.idlVers)
  | .confirm client _ => ∀ cb, w.clients client = some cb →
      Joins w.supplier.clientLib (confirmedRelease cb.topic)
  | .unsubscribe _ => True
  | .expire now =>
      (expire now w.supplier).clientLib.head? = w.supplier.clientLib.head? ∨
      ((∀ client cb, w.clients client = some cb → cb.received = []) ∧
        ¬ (5 ∈ (expire now w.supplier).clientLib ∧ 6 ∈ (expire now w.supplier).clientLib))
  | .push _ => ∀ client cb, w.clients client = some cb → cb.received = [] →
      ∀ n, w.supplier.eventCptr = some n → sentCtr w.supplier.clientLib n cb.topic ≠ 0

variable (g) in
/-- Every step of a run meets a condition on the state before it. -/
def Along (P : World κ α → Step κ α → Prop) (w : World κ α) : List (Step κ α) → Prop
  | [] => True
  | a::steps => P w a ∧ Along P (step g w a) steps

theorem along_append {P : World κ α → Step κ α → Prop} (xs ys : List (Step κ α)) :
    Along g P w (xs ++ ys) ↔ Along g P w xs ∧ Along g P (run g w xs) ys := by
  induction xs generalizing w with
  | nil => simp [Along,run]
  | cons a xs ih =>
    rw [List.cons_append,Along,Along,ih,and_assoc]
    rfl

end Conditions

section Invariant

/-- What holds of a client that is subscribed. -/
structure Served (s : Supplier) (clock : Int) (cb : EventCallBack α) : Prop where
  here : ∃ r ∈ s.clientLib, topicOf r = cb.topic
  dated : cb.lastSubscribed ≤ s.subscriptionOf cb.topic
  past : cb.lastSubscribed ≤ clock
  waits : ∃ n, s.eventCptr = some n ∧ (cb.received = [] → cb.ctr = 0) ∧
    (cb.received ≠ [] → cb.ctr = sentCtr s.clientLib n cb.topic - 1)

variable (g) in
structure Inv (w : World κ α) : Prop where
  listed : Listed w.supplier.clientLib
  topic : ∀ client cb, w.clients client = some cb →
    cb.topic = topicOf (min (g.release client) g.idlVers)
  served : ∀ client cb, w.clients client = some cb → Served w.supplier w.clock cb

omit [DecidableEq κ] in
theorem inv_start : Inv g (World.start : World κ α) :=
  ⟨⟨fun r hr => (by cases hr),List.nodup_nil,fun h hh => (by cases hh)⟩,
    fun client cb h => (by cases h),fun client cb h => (by cases h)⟩

/-- A request of a release, for those that are subscribed already. -/
theorem served_store {s : Supplier} {clock now : Int} {cb : EventCallBack α} {r : Nat}
    (h : Served s clock cb) (hr : Supported r) (hn : clock ≤ now) :
    Served (storeSubscribedClientInfo r now s) now cb := by
  obtain ⟨q,hq,hqt⟩ := h.here
  have hlib : (storeSubscribedClientInfo r now s).clientLib = setClientLib r s.clientLib := by
    unfold storeSubscribedClientInfo
    rcases hr with rfl | rfl | rfl <;> rfl
  have hcptr : (storeSubscribedClientInfo r now s).eventCptr = s.eventCptr := by
    rcases hr with rfl | rfl | rfl <;> rfl
  have hpast := h.past
  refine ⟨⟨q,?_,hqt⟩,?_,?_,?_⟩
  · rw [hlib]
    exact mem_setClientLib.mpr (Or.inl hq)
  · have hd := h.dated
    have hsub : (storeSubscribedClientInfo r now s).subscriptionOf cb.topic =
        if topicOf r = cb.topic then now else s.subscriptionOf cb.topic := by
      rcases hr with rfl | rfl | rfl <;> cases cb.topic <;> rfl
    rw [hsub]
    split <;> omega
  · omega
  · obtain ⟨n,hc,h0,h1⟩ := h.waits
    refine ⟨n,hcptr.trans hc,h0,fun hne => ?_⟩
    rw [h1 hne,hlib,sentCtr_congr (head_setClientLib (List.ne_nil_of_mem hq))]

theorem supported_min {r idl : Nat} (hr : 4 ≤ r ∧ r ≤ 6) (hi : 4 ≤ idl) : Supported (min r idl) := by
  unfold Supported
  omega

theorem listed_store {s : Supplier} {r : Nat} {now : Int} (hl : Listed s.clientLib)
    (hr : Supported r) (hj : Joins s.clientLib r) :
    Listed (storeSubscribedClientInfo r now s).clientLib := by
  have hlib : (storeSubscribedClientInfo r now s).clientLib = setClientLib r s.clientLib := by
    rcases hr with rfl | rfl | rfl <;> rfl
  rw [hlib]
  exact listed_setClientLib hl hr hj

/-- The client that makes the request. -/
theorem served_again {s : Supplier} {clock now : Int} {cb : EventCallBack α} {r : Nat}
    (h : Served s clock cb) (hr : Supported r) (hn : clock ≤ now) (ht : topicOf r = cb.topic) :
    Served (storeSubscribedClientInfo r now s) now { cb with lastSubscribed := now } := by
  obtain ⟨hhere,-,-,hwaits⟩ := served_store h hr hn
  refine ⟨hhere,?_,Int.le_refl now,hwaits⟩
  rcases hr with rfl | rfl | rfl <;> rw [← ht] <;> exact Int.le_refl now

theorem served_first (s : Supplier) {now : Int} {r : Nat} (hr : Supported r) :
    Served (initEventCptr (storeSubscribedClientInfo r now s)) now
      (⟨topicOf r,0,false,now,[]⟩ : EventCallBack α) := by
  refine ⟨⟨r,?_,rfl⟩,?_,Int.le_refl now,⟨_,rfl,fun _ => rfl,fun h => absurd rfl h⟩⟩
  · rcases hr with rfl | rfl | rfl <;> exact mem_setClientLib.mpr (Or.inr rfl)
  · rcases hr with rfl | rfl | rfl <;> exact Int.le_refl now

theorem served_init {s : Supplier} {clock : Int} {cb : EventCallBack α} (h : Served s clock cb) :
    Served (initEventCptr s) clock cb := by
  obtain ⟨n,hc,h0,h1⟩ := h.waits
  refine ⟨h.here,h.dated,h.past,n,?_,h0,h1⟩
  unfold initEventCptr
  rw [hc]
  rfl

theorem update_some {β : Type} {f : κ → Option β} {client c : κ} {x y : β}
    (h : Function.update f client (some x) c = some y) : (c = client ∧ x = y) ∨ f c = some y := by
  by_cases he : c = client
  · subst he
    rw [Function.update_self,Option.some.injEq] at h
    exact Or.inl ⟨rfl,h⟩
  · rw [Function.update_of_ne he] at h
    exact Or.inr h

theorem inv_subscribe (h : Inv g w) (hidl : 4 ≤ g.idlVers)
    (hrel : ∀ c, 4 ≤ g.release c ∧ g.release c ≤ 6) {client : κ} {now : Int}
    (ht : Timely w (.subscribe client now)) (hs : Steady g w (.subscribe client now)) :
    Inv g (step g w (.subscribe client now)) := by
  have hr := supported_min (hrel client) hidl
  refine ⟨listed_store h.listed hr hs,?_,?_⟩
  · intro c cb hc
    rcases update_some hc with ⟨rfl,rfl⟩ | hc
    · cases hw : w.clients c with
      | none => rfl
      | some cb => exact h.topic c cb hw
    · exact h.topic c cb hc
  · intro c cb hc
    rcases update_some hc with ⟨rfl,rfl⟩ | hc
    · cases hw : w.clients c with
      | none => exact served_first w.supplier hr
      | some cb => exact served_init (served_again (h.served c cb hw) hr ht (h.topic c cb hw).symm)
    · exact served_init (served_store (h.served c cb hc) hr ht)

theorem supported_confirmed (t : Topic) : Supported (confirmedRelease t) ∧
    topicOf (confirmedRelease t) = t := by
  cases t with
  | plain => exact ⟨Or.inl rfl,rfl⟩
  | idl5 => exact ⟨Or.inr (Or.inl rfl),rfl⟩

theorem confirm_eq (t : Topic) (now : Int) (s : Supplier) :
    eventConfirmSubscription t now s = storeSubscribedClientInfo (confirmedRelease t) now s := by
  cases t <;> rfl

theorem step_confirm {client : κ} {now : Int} {cb : EventCallBack α} (h : w.clients client = some cb) :
    step g w (.confirm client now) =
      { supplier := storeSubscribedClientInfo (confirmedRelease cb.topic) now w.supplier
        clients := Function.update w.clients client (some { cb with lastSubscribed := now })
        clock := now } := by
  simp only [step,h,confirm_eq]

theorem inv_confirm (h : Inv g w) {client : κ} {now : Int} (ht : Timely w (.confirm client now))
    (hs : Steady g w (.confirm client now)) : Inv g (step g w (.confirm client now)) := by
  cases hcb : w.clients client with
  | none =>
    have hst : step g w (.confirm client now) = w := by simp only [step,hcb]
    rw [hst]
    exact h
  | some cb =>
    obtain ⟨hr,htop⟩ := supported_confirmed cb.topic
    rw [step_confirm hcb]
    refine ⟨listed_store h.listed hr (hs cb hcb),?_,?_⟩
    · intro c cb' hc
      rcases update_some hc with ⟨rfl,rfl⟩ | hc
      · exact h.topic c cb hcb
      · exact h.topic c cb' hc
    · intro c cb' hc
      rcases update_some hc with ⟨rfl,rfl⟩ | hc
      · exact served_again (h.served c cb hcb) hr ht htop
      · exact served_store (h.served c cb' hc) hr ht

theorem inv_unsubscribe (h : Inv g w) (client : κ) : Inv g (step g w (.unsubscribe client)) := by
  have hold : ∀ c cb, (step g w (.unsubscribe client)).clients c = some cb →
      w.clients c = some cb := by
    intro c cb hc
    simp only [step] at hc
    by_cases he : c = client
    · subst he
      rw [Function.update_self] at hc
      cases hc
    · rw [Function.update_of_ne he] at hc
      exact hc
  exact ⟨h.listed,fun c cb hc => h.topic c cb (hold c cb hc),fun c cb hc => h.served c cb (hold c cb hc)⟩

theorem inv_expire (h : Inv g w) {now : Int} (ht : Timely w (.expire now))
    (hs : Steady g w (.expire now)) : Inv g (step g w (.expire now)) := by
  have hlibs := expire_libs h.listed now
  refine ⟨?_,h.topic,?_⟩
  · simp only [step,Steady] at hs ⊢
    rw [hlibs] at hs ⊢
    exact listed_filter h.listed _ (hs.imp_right And.right)
  · intro c cb hc
    have hcb := h.served c cb hc
    obtain ⟨r,hr,hrt⟩ := hcb.here
    have hpast := hcb.past
    have hdated := hcb.dated
    have hclock : w.clock ≤ now := ht.1
    have hlate := ht.2 c cb hc
    refine ⟨⟨r,?_,hrt⟩,hdated,Int.le_trans hpast hclock,?_⟩
    · simp only [step,hlibs]
      apply List.mem_filter.mpr
      refine ⟨hr,decide_eq_true ?_⟩
      rw [hrt]
      omega
    · obtain ⟨n,hn,h0,h1⟩ := hcb.waits
      refine ⟨n,hn,h0,fun hne => ?_⟩
      rw [h1 hne]
      rcases hs with hh | ⟨hh,-⟩
      · rw [sentCtr_congr hh.symm]
        rfl
      · exact absurd (hh c cb hc) hne

/-- A push reaches every client that is subscribed, once. -/
theorem push_reaches (h : Inv g w) {value : α} (hs : Steady g w (.push value)) {client : κ}
    {cb : EventCallBack α} (hc : w.clients client = some cb) : ∃ n disc,
      w.supplier.eventCptr = some n ∧ (step g w (.push value)).supplier.eventCptr = some (n + 1) ∧
      (step g w (.push value)).clients client = some
        { cb with ctr := sentCtr w.supplier.clientLib n cb.topic, discardedEvent := disc,
                  received := cb.received ++ [.data cb.topic.format value] } := by
  have hcb := h.served client cb hc
  obtain ⟨n,hn,h0,h1⟩ := hcb.waits
  have hf : Follows cb (sentCtr w.supplier.clientLib n cb.topic) := by
    by_cases he : cb.received = []
    · exact Or.inr ⟨h0 he,hs client cb hc he n hn⟩
    · exact Or.inl (h1 he)
  obtain ⟨disc,hd⟩ := deliver_once h.listed hcb.here hf value
  refine ⟨n,disc,hn,?_,?_⟩
  · simp only [step,pushEventLoop,hn]
    cases hl : w.supplier.clientLib with
    | nil =>
      obtain ⟨r,hr,-⟩ := hcb.here
      rw [hl] at hr
      cases hr
    | cons a rest => rw [pushLoop_true]
  · simp only [step,pushEventLoop,hn,hc,Option.map_some,hd]

theorem inv_push (h : Inv g w) {value : α} (hs : Steady g w (.push value)) :
    Inv g (step g w (.push value)) := by
  have hold : ∀ c cb', (step g w (.push value)).clients c = some cb' →
      ∃ cb, w.clients c = some cb := by
    intro c cb' hc
    obtain ⟨cb,hcb,-⟩ := Option.map_eq_some_iff.mp hc
    exact ⟨cb,hcb⟩
  refine ⟨h.listed,?_,?_⟩
  · intro c cb' hc
    obtain ⟨cb,hcb⟩ := hold c cb' hc
    obtain ⟨n,disc,-,-,hstep⟩ := push_reaches h hs hcb
    rw [hstep] at hc
    cases hc
    exact h.topic c cb hcb
  · intro c cb' hc
    obtain ⟨cb,hcb⟩ := hold c cb' hc
    obtain ⟨n,disc,-,hn,hstep⟩ := push_reaches h hs hcb
    have hser := h.served c cb hcb
    rw [hstep] at hc
    cases hc
    refine ⟨hser.here,hser.dated,hser.past,n + 1,hn,fun he => ?_,fun _ => ?_⟩
    · exact absurd he (by simp)
    · change sentCtr w.supplier.clientLib n cb.topic =
        sentCtr w.supplier.clientLib (n + 1) cb.topic - 1
      unfold sentCtr
      split <;> grind

theorem inv_step (h : Inv g w) (hidl : 4 ≤ g.idlVers) (hrel : ∀ c, 4 ≤ g.release c ∧ g.release c ≤ 6)
    {a : Step κ α} (ht : Timely w a) (hs : Steady g w a) : Inv g (step g w a) := by
  cases a with
  | subscribe client now => exact inv_subscribe h hidl hrel ht hs
  | confirm client now => exact inv_confirm h ht hs
  | unsubscribe client => exact inv_unsubscribe h client
  | expire now => exact inv_expire h ht hs
  | push value => exact inv_push h hs

theorem inv_run (h : Inv g w) (hidl : 4 ≤ g.idlVers) (hrel : ∀ c, 4 ≤ g.release c ∧ g.release c ≤ 6)
    {steps : List (Step κ α)} (ht : Along g Timely w steps) (hs : Along g (Steady g) w steps) :
    Inv g (run g w steps) := by
  induction steps generalizing w with
  | nil => exact h
  | cons a steps ih => exact ih (inv_step h hidl hrel ht.1 hs.1) ht.2 hs.2

end Invariant

section Main

/-- The values pushed by a run. -/
def pushed (steps : List (Step κ α)) : List α :=
  steps.filterMap (fun a =>
    match a with
    | .push value => some value
    | _ => none)

theorem received_step (h : Inv g w) {a : Step κ α} (hs : Steady g w a) {client : κ}
    (hstay : a ≠ .unsubscribe client) {cb : EventCallBack α} (hc : w.clients client = some cb) :
    ∃ cb', (step g w a).clients client = some cb' ∧ cb'.topic = cb.topic ∧
      cb'.received = cb.received ++ (pushed [a]).map (.data cb.topic.format) := by
  have hsame : ∀ {c : κ} {x : EventCallBack α}, (c = client → x.topic = cb.topic ∧
      x.received = cb.received) → ∃ cb', Function.update w.clients c (some x) client = some cb' ∧
        cb'.topic = cb.topic ∧ cb'.received = cb.received ++ [] := by
    intro c x hx
    by_cases he : c = client
    · subst he
      obtain ⟨h1,h2⟩ := hx rfl
      exact ⟨x,Function.update_self ..,h1,by rw [h2,List.append_nil]⟩
    · exact ⟨cb,(Function.update_of_ne (Ne.symm he) ..).trans hc,rfl,(List.append_nil _).symm⟩
  cases a with
  | subscribe c now =>
    apply hsame
    rintro rfl
    rw [hc]
    exact ⟨rfl,rfl⟩
  | confirm c now =>
    cases hcb : w.clients c with
    | none =>
      have hst : step g w (.confirm c now) = w := by simp only [step,hcb]
      rw [hst]
      exact ⟨cb,hc,rfl,(List.append_nil _).symm⟩
    | some x =>
      rw [step_confirm hcb]
      apply hsame
      rintro rfl
      rw [hc] at hcb
      cases hcb
      exact ⟨rfl,rfl⟩
  | unsubscribe c =>
    have hne : client ≠ c := fun he => hstay (he ▸ rfl)
    exact ⟨cb,(Function.update_of_ne hne ..).trans hc,rfl,(List.append_nil _).symm⟩
  | expire now => exact ⟨cb,hc,rfl,(List.append_nil _).symm⟩
  | push value =>
    obtain ⟨n,disc,-,-,hstep⟩ := push_reaches h hs hc
    exact ⟨_,hstep,rfl,rfl⟩

theorem received_run (h : Inv g w) (hidl : 4 ≤ g.idlVers)
    (hrel : ∀ c, 4 ≤ g.release c ∧ g.release c ≤ 6) {steps : List (Step κ α)}
    (ht : Along g Timely w steps) (hs : Along g (Steady g) w steps) {client : κ}
    (hstay : .unsubscribe client ∉ steps) {cb : EventCallBack α} (hc : w.clients client = some cb) :
    ∃ cb', (run g w steps).clients client = some cb' ∧ cb'.topic = cb.topic ∧
      cb'.received = cb.received ++ (pushed steps).map (.data cb.topic.format) := by
  induction steps generalizing w cb with
  | nil => exact ⟨cb,hc,rfl,(List.append_nil _).symm⟩
  | cons a steps ih =>
    rw [List.mem_cons,not_or] at hstay
    obtain ⟨cb₁,hc₁,ht₁,hr₁⟩ := received_step h hs.1 (Ne.symm hstay.1) hc
    obtain ⟨cb₂,hc₂,ht₂,hr₂⟩ :=
      ih (inv_step h hidl hrel ht.1 hs.1) ht.2 hs.2 hstay.2 hc₁
    refine ⟨cb₂,hc₂,ht₂.trans ht₁,?_⟩
    have hp : pushed (a :: steps) = pushed [a] ++ pushed steps := by
      unfold pushed
      rw [← List.filterMap_append,List.singleton_append]
    rw [hr₂,hr₁,ht₁,hp,List.map_append,List.append_assoc]

/-- The callback of a client is called once for each push after its subscription, with data of the
format of its topic, and for nothing else. -/
def Delivers (g : Setting κ) (before : List (Step κ α)) (client : κ) (now : Int)
    (after : List (Step κ α)) : Prop :=
  ∃ cb, (run g .start (before ++ .subscribe client now :: after)).clients client = some cb ∧
    cb.topic = topicOf (min (g.release client) g.idlVers) ∧
    cb.received = (pushed after).map (.data cb.topic.format)

/-- Clients of different releases share an event without loss or doubling as long as the steps
keep the places of their topics. -/
theorem shared_event_delivered (g : Setting κ) (hidl : 4 ≤ g.idlVers)
    (hrel : ∀ c, 4 ≤ g.release c ∧ g.release c ≤ 6) (before after : List (Step κ α)) (client : κ)
    (now : Int) (hnew : (run g .start before).clients client = none)
    (hstay : .unsubscribe client ∉ after)
    (ht : Along g Timely .start (before ++ .subscribe client now :: after))
    (hs : Along g (Steady g) .start (before ++ .subscribe client now :: after)) :
    Delivers g before client now after := by
  obtain ⟨ht₁,ht₂⟩ := (along_append _ _).mp ht
  obtain ⟨hs₁,hs₂⟩ := (along_append _ _).mp hs
  have hi := inv_run inv_start hidl hrel ht₁ hs₁
  have hi' := inv_step hi hidl hrel ht₂.1 hs₂.1
  have hc : (step g (run g .start before) (.subscribe client now)).clients client =
      some ⟨topicOf (min (g.release client) g.idlVers),0,false,now,[]⟩ := by
    simp only [step,Function.update_self,hnew]
    rfl
  obtain ⟨cb,hcb,htop,hrec⟩ := received_run hi' hidl hrel ht₂.2 hs₂.2 hstay hc
  refine ⟨cb,?_,htop,?_⟩
  · unfold run at hcb ⊢
    rw [List.foldl_append]
    exact hcb
  · rw [hrec,htop]
    rfl

/-- An old and a new client of one device. -/
def oldAndNew : Setting Bool := ⟨6,fun c => if c then 5 else 4⟩

theorem shared_event_old_and_new :
    Delivers oldAndNew [.subscribe false 0] true 10
      [.push 1,.confirm true 300,.confirm false 310,.expire 700,.push 2] := by
  apply shared_event_delivered oldAndNew (by decide) (by decide) _ _ _ _ rfl (by simp)
  · refine ⟨?_,?_,trivial,?_,?_,⟨?_,?_⟩,trivial,trivial⟩
    · exact Int.le_refl 0
    · exact (by decide : (0 : Int) ≤ 10)
    · exact (by decide : (10 : Int) ≤ 300)
    · exact (by decide : (300 : Int) ≤ 310)
    · exact (by decide : (310 : Int) ≤ 700)
    · intro client cb hc
      cases client <;> cases hc <;> decide
  · refine ⟨?_,?_,?_,?_,?_,Or.inl rfl,?_,trivial⟩
    · exact Or.inr (fun h hh => (by cases hh))
    · exact Or.inr (fun h hh => (by cases hh; decide))
    · intro client cb hc hr n hn
      cases hn
      cases client <;> cases hc <;> decide
    · intro cb hc
      cases hc
      exact Or.inl (by decide)
    · intro cb hc
      cases hc
      exact Or.inl (by decide)
    · intro client cb hc hr
      cases client <;> cases hc <;> cases hr

def newest : Setting Unit := ⟨6,fun _ => 6⟩

/-- Once it has confirmed its subscription, a client of release 6 gets every event twice; and the
client that is left when the first release expires loses an event. -/
theorem shared_event_doubled :
    Along newest Timely .start [.subscribe () 0,.confirm () 200,.push 1] ∧
    ¬ Delivers newest [] () 0 [.confirm () 200,.push 1] ∧
    Along oldAndNew Timely .start [.subscribe false 0,.subscribe true 10,.push 1,.confirm true 400,
      .unsubscribe false,.expire 650,.push 2] ∧
    ¬ Delivers oldAndNew [.subscribe false 0] true 10 [.push 1,.confirm true 400,.unsubscribe false,
      .expire 650,.push 2] := by
  refine ⟨⟨?_,?_,trivial,trivial⟩,?_,⟨?_,?_,trivial,?_,trivial,⟨?_,?_⟩,trivial,trivial⟩,?_⟩
  · exact Int.le_refl 0
  · exact (by decide : (0 : Int) ≤ 200)
  · rintro ⟨cb,hc,-,hr⟩
    cases hc
    revert hr
    decide
  · exact Int.le_refl 0
  · exact (by decide : (0 : Int) ≤ 10)
  · exact (by decide : (10 : Int) ≤ 400)
  · exact (by decide : (400 : Int) ≤ 650)
  · intro client cb hc
    cases client <;> cases hc
    decide
  · rintro ⟨cb,hc,-,hr⟩
    cases hc
    revert hr
    decide

end Main

end CppTango.Event
