import CppTango.Device.Restart

namespace CppTango.Device.Restart

open CppTango.Lib Polling Polling.PoolConf Polling.Properties

section Spec
variable (now : Int)

/-- A release whose subscription is not too old. -/
def Live (a : Attribute) {t : ClientEvent} (r : Release t) : Prop :=
  r ∈ a.clientLib t ∧ recent now (a.subscription t (releaseTopic r)) = true

structure SameClients (a b : Attribute) : Prop where
  clients : ∀ t (r : Release t), Live now b r ↔ Live now a r
  dataReady : recent now b.dataReady = recent now a.dataReady
  useZmq : b.useZmq = a.useZmq
  useNotifd : b.useNotifd = a.useNotifd

structure EventsKept (o d : DeviceImpl) : Prop where
  attrs : ∀ a ∈ o.attrList, ∀ b ∈ d.attrList, attrKey b = attrKey a → SameClients now a b
  pipes : ∀ p ∈ o.pipes, ∀ q ∈ d.pipes, pipeKey q = pipeKey p → p.isEventSubscribed now = true →
    q.isEventSubscribed now = true
  intr : anyDevIntrClient now o = true → anyDevIntrClient now d = true

/-- No type of event has clients of which some are too old and some not, and no attribute without clients is marked. -/
structure Even (a : Attribute) : Prop where
  clients : ∀ t, a.eventSubscribed now t = true → ∀ r ∈ a.clientLib t,
    recent now (a.subscription t (releaseTopic r)) = true
  marks : getEventSubscriptionState now a = none → a.useZmq = false ∧ a.useNotifd = false

/-- Whatever has clients comes back. -/
structure Back (o : DeviceImpl) (n : NewDevice) : Prop where
  attrs : ∀ a ∈ o.attrList, getEventSubscriptionState now a ≠ none → attrKey a ∈ n.attrs.map lower
  pipes : ∀ p ∈ o.pipes, p.isEventSubscribed now = true → pipeKey p ∈ n.pipes.map lower
  even : ∀ a ∈ o.attrList, attrKey a ∈ n.attrs.map lower → Even now a

structure DeviceImpl.Named (d : DeviceImpl) : Prop where
  attrs : (d.attrList.map attrKey).Nodup
  pipes : (d.pipes.map pipeKey).Nodup
  polls : (d.pollObjList.map pollKey).Nodup
  locker : d.locking.deviceLocked = true → d.locking.lockerClient ≠ none

end Spec

section Clients
variable {now : Int} {t : ClientEvent}

/-- An attribute has the clients of a type, all of them subscribed now. -/
structure Has (now : Int) (rs : List (Release t)) (a : Attribute) : Prop where
  clients : ∀ r, r ∈ a.clientLib t ↔ r ∈ rs
  dates : ∀ r ∈ rs, a.subscription t (releaseTopic r) = some now

theorem has_addClient {rs : List (Release t)} {a : Attribute} (h : Has now rs a) (r : Release t) :
    Has now (rs ++ [r]) (addClient now a r) := by
  have hsub : ∀ p, (addClient now a r).subscription t p =
      if p = releaseTopic r then some now else a.subscription t p := by
    intro p
    unfold addClient setClientLib setEventSub
    split
    · simp
    · simp
  constructor
  · intro x
    rw [List.mem_append,List.mem_singleton,← h.clients]
    unfold addClient setClientLib
    change x ∈ (if r ∈ a.clientLib t then _ else _ : Attribute).clientLib t ↔ _
    split
    · rename_i hr
      refine ⟨.inl,?_⟩
      rintro (hx | rfl)
      · exact hx
      · exact hr
    · simp only [Function.update_self,List.mem_append,List.mem_singleton]
      rfl
  · intro x hx
    rw [hsub]
    split
    · rfl
    · rename_i hne
      rcases List.mem_append.mp hx with hx | hx
      · exact h.dates x hx
      · rw [List.mem_singleton.mp hx] at hne
        exact absurd rfl hne

theorem has_addClients (rs : List (Release t)) {done : List (Release t)} {a : Attribute} (h : Has now done a) :
    Has now (done ++ rs) (rs.foldl (addClient now) a) := by
  induction rs generalizing done a with
  | nil => rwa [List.append_nil]
  | cons r rs ih =>
    rw [List.foldl_cons,List.append_cons]
    exact ih (has_addClient h r)

/-- What the clients of one type leave as it is. -/
structure Untouched (t : ClientEvent) (a b : Attribute) : Prop where
  clientLib : b.clientLib t = a.clientLib t
  subscription : ∀ p, b.subscription t p = a.subscription t p

theorem Has.of_untouched {rs : List (Release t)} {a b : Attribute} (h : Has now rs a) (hu : Untouched t a b) :
    Has now rs b := by
  constructor
  · intro r
    rw [hu.clientLib]
    exact h.clients r
  · intro r hr
    rw [hu.subscription]
    exact h.dates r hr

theorem untouched_addClient (now : Int) {t' : ClientEvent} (ht : t' ≠ t) (a : Attribute) (r : Release t) :
    Untouched t' a (addClient now a r) := by
  constructor
  · unfold addClient setClientLib
    split
    · rfl
    · exact Function.update_of_ne ht _ _
  · intro p
    unfold addClient setClientLib setEventSub
    split
    · simp [ht]
    · simp [ht]

theorem untouched_addClients (now : Int) {t' : ClientEvent} (ht : t' ≠ t) (a : Attribute) (rs : List (Release t)) :
    Untouched t' a (rs.foldl (addClient now) a) := by
  induction rs generalizing a with
  | nil => exact ⟨rfl,fun _ => rfl⟩
  | cons r rs ih =>
    have h := untouched_addClient now ht a r
    have hrest := ih (addClient now a r)
    exact ⟨hrest.clientLib.trans h.clientLib,fun p => (hrest.subscription p).trans (h.subscription p)⟩

def addTypes (now : Int) (events : AttributeEventSubscriptionState) (types : List ClientEvent) (a : Attribute) :
    Attribute :=
  types.foldl (fun a t => (events.clients t).foldl (addClient now) a) a

theorem untouched_addTypes {events : AttributeEventSubscriptionState} {types : List ClientEvent} (ht : t ∉ types)
    (a : Attribute) : Untouched t a (addTypes now events types a) := by
  induction types generalizing a with
  | nil => exact ⟨rfl,fun _ => rfl⟩
  | cons t' types ih =>
    rw [List.mem_cons,not_or] at ht
    have h := untouched_addClients now ht.1 a (events.clients t')
    have hrest := ih ht.2 ((events.clients t').foldl (addClient now) a)
    exact ⟨hrest.clientLib.trans h.clientLib,fun p => (hrest.subscription p).trans (h.subscription p)⟩

theorem has_addTypes {events : AttributeEventSubscriptionState} {types : List ClientEvent} (hn : types.Nodup)
    (ht : t ∈ types) {a : Attribute} (h : Has now ([] : List (Release t)) a) :
    Has now (events.clients t) (addTypes now events types a) := by
  induction types generalizing a with
  | nil => cases ht
  | cons t' types ih =>
    rw [List.nodup_cons] at hn
    by_cases he : t = t'
    · subst he
      exact Has.of_untouched (has_addClients (events.clients t) h) (untouched_addTypes hn.1 _)
    · have ht := (List.mem_cons.mp ht).resolve_left he
      exact ih hn.2 ht (h.of_untouched (untouched_addClients now he a (events.clients t')))

/-- Clients that are added leave the rest of an attribute as it is. -/
theorem addTypes_rest (now : Int) (events : AttributeEventSubscriptionState) (types : List ClientEvent) (a : Attribute) :
    ∃ subscription clientLib,
      addTypes now events types a = {a with subscription := subscription,clientLib := clientLib} := by
  have hone : ∀ {t : ClientEvent} (a : Attribute) (r : Release t), ∃ subscription clientLib,
      addClient now a r = {a with subscription := subscription,clientLib := clientLib} := by
    intro t a r
    unfold addClient setClientLib
    split
    · exact ⟨_,_,rfl⟩
    · exact ⟨_,_,rfl⟩
  have hall : ∀ {t : ClientEvent} (rs : List (Release t)) (a : Attribute), ∃ subscription clientLib,
      rs.foldl (addClient now) a = {a with subscription := subscription,clientLib := clientLib} := by
    intro t rs
    induction rs with
    | nil => exact fun a => ⟨_,_,rfl⟩
    | cons r rs ih =>
      intro a
      obtain ⟨sub,lib,h⟩ := hone a r
      obtain ⟨sub',lib',h'⟩ := ih (addClient now a r)
      exact ⟨sub',lib',by rw [List.foldl_cons,h',h]⟩
  induction types generalizing a with
  | nil => exact ⟨_,_,rfl⟩
  | cons t types ih =>
    obtain ⟨sub,lib,h⟩ := hall (events.clients t) a
    obtain ⟨sub',lib',h'⟩ := ih ((events.clients t).foldl (addClient now) a)
    refine ⟨sub',lib',?_⟩
    unfold addTypes at h' ⊢
    rw [List.foldl_cons,h',h]

theorem attrKey_setState (events : AttributeEventSubscriptionState) (a : Attribute) :
    attrKey (setEventSubscriptionState now events a) = attrKey a := by
  obtain ⟨_,_,h⟩ := addTypes_rest now events eventTypes a
  change lower (addTypes now events eventTypes a).name = lower a.name
  rw [h]

theorem eventSubscribed_of_recent {a : Attribute} {p : Topic} (h : recent now (a.subscription t p) = true) :
    a.eventSubscribed now t = true := by
  unfold Attribute.eventSubscribed
  rw [List.any_eq_true]
  exact ⟨p,by cases p <;> simp,h⟩

theorem recent_now : recent now (some now) = true := by
  unfold recent Event.resubscribePeriod
  simp

theorem mem_eventTypes (t : ClientEvent) : t ∈ eventTypes := by cases t <;> decide

theorem state_none {a : Attribute} (h : getEventSubscriptionState now a = none) :
    (∀ t, a.eventSubscribed now t = false) ∧ recent now a.dataReady = false := by
  unfold getEventSubscriptionState at h
  split at h
  · cases h
  · rename_i hno
    rw [Bool.not_eq_true,Bool.or_eq_false_iff,List.any_eq_false] at hno
    exact ⟨fun t => Bool.eq_false_iff.mpr (hno.1 t (mem_eventTypes t)),hno.2⟩

/-- A new attribute in the place of one without clients. -/
theorem sameClients_new {a : Attribute} (h : getEventSubscriptionState now a = none) (he : Even now a) (name : Text) :
    SameClients now a (newAttribute name) := by
  obtain ⟨hsub,hready⟩ := state_none h
  obtain ⟨hzmq,hnotifd⟩ := he.marks h
  refine ⟨fun t r => iff_of_false (fun hl => absurd hl.1 List.not_mem_nil) (fun hl => ?_),hready.symm,hzmq.symm,
    hnotifd.symm⟩
  have := eventSubscribed_of_recent hl.2
  rw [hsub t] at this
  cases this

/-- A new attribute with the clients of the old one. -/
theorem sameClients_set {a : Attribute} {events : AttributeEventSubscriptionState}
    (h : getEventSubscriptionState now a = some events) (he : Even now a) (name : Text) :
    SameClients now a (setEventSubscriptionState now events (newAttribute name)) := by
  unfold getEventSubscriptionState at h
  split at h
  · rw [Option.some.injEq] at h
    obtain ⟨_,_,hrest⟩ := addTypes_rest now events eventTypes (newAttribute name)
    have hset : setEventSubscriptionState now events (newAttribute name) =
        setMarks now events (addTypes now events eventTypes (newAttribute name)) := rfl
    refine ⟨fun t r => ?_,?_,?_,?_⟩
    · have hhas : Has now (events.clients t) (addTypes now events eventTypes (newAttribute name)) :=
        has_addTypes (by decide) (mem_eventTypes t) ⟨fun _ => Iff.rfl,fun _ hr => absurd hr List.not_mem_nil⟩
      have hlive : Live now (setEventSubscriptionState now events (newAttribute name)) r ↔ r ∈ events.clients t := by
        constructor
        · intro hl
          exact (hhas.clients r).mp hl.1
        · intro hr
          refine ⟨(hhas.clients r).mpr hr,?_⟩
          change recent now ((addTypes now events eventTypes (newAttribute name)).subscription t _) = true
          rw [hhas.dates r hr]
          exact recent_now
      rw [hlive,← h]
      constructor
      · intro hr
        simp only at hr
        split at hr
        · rename_i hsub
          exact ⟨hr,he.clients t hsub r hr⟩
        · cases hr
      · intro hl
        simp only [if_pos (eventSubscribed_of_recent hl.2)]
        exact hl.1
    · rw [hset,hrest]
      subst h
      change recent now (if recent now a.dataReady = true then some now else none) = _
      split
      · rename_i hr
        rw [hr]
        exact recent_now
      · rename_i hr
        rw [Bool.not_eq_true] at hr
        rw [hr]
        rfl
    · rw [hset,hrest,← h]
      rfl
    · rw [hset,hrest,← h]
      rfl
  · cases h

end Clients

section Devices
variable {now : Int}

theorem state_name {a : Attribute} {events : AttributeEventSubscriptionState}
    (h : getEventSubscriptionState now a = some events) : lower events.attributeName = attrKey a := by
  unfold getEventSubscriptionState at h
  split at h
  · rw [Option.some.injEq] at h
    rw [← h]
    rfl
  · cases h

/-- A device as it is made, before its clients are set again. -/
structure Fresh (n : NewDevice) (d : DeviceImpl) : Prop where
  attrs : d.attrList = n.attrs.map newAttribute
  pipes : d.pipes = n.pipes.map (fun p => ⟨p,none⟩)
  intr : d.eventIntrChangeSubscription = none

theorem Fresh.attrKeys {n : NewDevice} {d : DeviceImpl} (h : Fresh n d) :
    d.attrList.map attrKey = n.attrs.map lower := by
  rw [h.attrs,List.map_map]
  rfl

theorem Fresh.pipeKeys {n : NewDevice} {d : DeviceImpl} (h : Fresh n d) : d.pipes.map pipeKey = n.pipes.map lower := by
  rw [h.pipes,List.map_map]
  rfl

variable {o d : DeviceImpl} {n : NewDevice}

theorem setAttributes_kept (hf : Fresh n d) (ho : (o.attrList.map attrKey).Nodup) (hb : Back now o n) :
    ∃ l, setAttributes now (o.getEventSubscriptionState now).attributeEvents d.attrList = (l,true) ∧
      l.map attrKey = n.attrs.map lower ∧
      ∀ a ∈ o.attrList, ∀ b ∈ l, attrKey b = attrKey a → SameClients now a b := by
  have hevents : ∀ e, e ∈ (o.getEventSubscriptionState now).attributeEvents ↔
      ∃ a ∈ o.attrList, getEventSubscriptionState now a = some e := fun e => List.mem_filterMap
  have hnames : ((o.getEventSubscriptionState now).attributeEvents.map (fun e => lower e.attributeName)).Nodup :=
    (map_filterMap_sublist (fun _ _ => state_name) o.attrList).nodup ho
  have hdn : (d.attrList.map attrKey).Nodup := hf.attrKeys ▸ n.attrNames
  have hthere : ∀ e ∈ (o.getEventSubscriptionState now).attributeEvents,
      lower e.attributeName ∈ d.attrList.map attrKey := by
    intro e he
    obtain ⟨a,ha,hs⟩ := (hevents e).mp he
    rw [state_name hs,hf.attrKeys]
    exact hb.attrs a ha (by rw [hs]; exact Option.some_ne_none e)
  obtain ⟨l,hl,hkeys,hset,hleft⟩ := changeAll_spec attrKey (fun e => lower e.attributeName)
    (setEventSubscriptionState now) attrKey_setState hdn hnames hthere
  refine ⟨l,hl,hkeys.trans hf.attrKeys,?_⟩
  intro a ha b hbl hkey
  have hln : (l.map attrKey).Nodup := hkeys ▸ hdn
  have hmem : attrKey a ∈ n.attrs.map lower := by
    rw [← hf.attrKeys,← hkeys,← hkey]
    exact List.mem_map_of_mem hbl
  have heven := hb.even a ha hmem
  obtain ⟨name,hname,hlower⟩ := List.mem_map.mp hmem
  have hnew : newAttribute name ∈ d.attrList := by
    rw [hf.attrs]
    exact List.mem_map_of_mem hname
  cases hs : getEventSubscriptionState now a with
  | some e =>
    have he := hset e ((hevents e).mpr ⟨a,ha,hs⟩) _ hnew (hlower.trans (state_name hs).symm)
    have hb' := List.inj_on_of_nodup_map hln hbl he (by rw [attrKey_setState,hkey]; exact hlower.symm)
    rw [hb']
    exact sameClients_set hs heven name
  | none =>
    have he : newAttribute name ∈ l := by
      apply hleft _ hnew
      intro e he hk
      obtain ⟨a',ha',hs'⟩ := (hevents e).mp he
      have haa := List.inj_on_of_nodup_map ho ha ha' (hlower.symm.trans (hk.trans (state_name hs')))
      rw [← haa,hs] at hs'
      cases hs'
    have hb' := List.inj_on_of_nodup_map hln hbl he (hkey.trans hlower.symm)
    rw [hb']
    exact sameClients_new hs heven name

theorem setPipes_kept (hf : Fresh n d) (ho : (o.pipes.map pipeKey).Nodup) (hb : Back now o n) :
    ∃ l, setPipes now (o.getEventSubscriptionState now).pipeEvents d.pipes = (l,true) ∧
      l.map pipeKey = n.pipes.map lower ∧
      ∀ p ∈ o.pipes, ∀ q ∈ l, pipeKey q = pipeKey p → p.isEventSubscribed now = true →
        q.isEventSubscribed now = true := by
  have hevents : ∀ name, name ∈ (o.getEventSubscriptionState now).pipeEvents ↔
      ∃ p ∈ o.pipes, p.isEventSubscribed now = true ∧ p.name = name := by
    intro name
    change name ∈ (o.pipes.filter _).map Pipe.name ↔ _
    simp only [List.mem_map,List.mem_filter,and_assoc]
  have hnames : ((o.getEventSubscriptionState now).pipeEvents.map lower).Nodup := by
    change (((o.pipes.filter _).map Pipe.name).map lower).Nodup
    rw [List.map_map]
    exact (List.filter_sublist.map _).nodup ho
  have hdn : (d.pipes.map pipeKey).Nodup := hf.pipeKeys ▸ n.pipeNames
  have hthere : ∀ name ∈ (o.getEventSubscriptionState now).pipeEvents, lower name ∈ d.pipes.map pipeKey := by
    intro name hname
    obtain ⟨p,hp,hs,rfl⟩ := (hevents name).mp hname
    rw [hf.pipeKeys]
    exact hb.pipes p hp hs
  obtain ⟨l,hl,hkeys,hset,-⟩ := changeAll_spec pipeKey lower (fun _ p => {p with eventSubscription := some now})
    (fun _ _ => rfl) hdn hnames hthere
  refine ⟨l,hl,hkeys.trans hf.pipeKeys,?_⟩
  intro p hp q hq hkey hs
  have hln : (l.map pipeKey).Nodup := hkeys ▸ hdn
  obtain ⟨q',hq',hk⟩ := List.mem_map.mp (hkeys ▸ List.mem_map_of_mem hq : pipeKey q ∈ d.pipes.map pipeKey)
  have he := hset p.name ((hevents p.name).mpr ⟨p,hp,hs,rfl⟩) q' hq' (hk.trans hkey)
  rw [List.inj_on_of_nodup_map hln hq he hk.symm]
  unfold Pipe.isEventSubscribed Event.resubscribePeriod
  simp

/-- The clients of a device are set again on the new one, if whatever has clients is there. -/
theorem setEventSubscriptionState_kept (hf : Fresh n d) (ho : o.Named) (hb : Back now o n) :
    ∃ attrs pipes intr, d.setEventSubscriptionState now (o.getEventSubscriptionState now) =
        ({d with attrList := attrs,pipes := pipes,eventIntrChangeSubscription := intr},true) ∧
      attrs.map attrKey = n.attrs.map lower ∧ pipes.map pipeKey = n.pipes.map lower ∧
      EventsKept now o {d with attrList := attrs,pipes := pipes,eventIntrChangeSubscription := intr} := by
  obtain ⟨attrs,ha,hak,hattrs⟩ := setAttributes_kept hf ho.attrs hb
  obtain ⟨pipes,hp,hpk,hpipes⟩ := setPipes_kept hf ho.pipes hb
  refine ⟨attrs,pipes,if anyDevIntrClient now o then some now else none,?_,hak,hpk,hattrs,hpipes,?_⟩
  · unfold DeviceImpl.setEventSubscriptionState
    simp only [ha,hp,hf.intr,if_true]
    rfl
  · intro hi
    rw [if_pos hi]
    unfold anyDevIntrClient Event.resubscribePeriod
    simp

instance (now : Int) (a : Attribute) : Decidable (Even now a) :=
  decidable_of_iff
    ((∀ t ∈ eventTypes, a.eventSubscribed now t = true → ∀ r ∈ a.clientLib t,
        recent now (a.subscription t (releaseTopic r)) = true) ∧
      (getEventSubscriptionState now a = none → a.useZmq = false ∧ a.useNotifd = false))
    ⟨fun h => ⟨fun t => h.1 t (mem_eventTypes t),h.2⟩,fun h => ⟨fun t _ => h.clients t,h.marks⟩⟩

instance (now : Int) (o : DeviceImpl) (n : NewDevice) : Decidable (Back now o n) :=
  haveI := lawfulText
  decidable_of_iff
    ((∀ a ∈ o.attrList, getEventSubscriptionState now a ≠ none → attrKey a ∈ n.attrs.map lower) ∧
      (∀ p ∈ o.pipes, p.isEventSubscribed now = true → pipeKey p ∈ n.pipes.map lower) ∧
      ∀ a ∈ o.attrList, attrKey a ∈ n.attrs.map lower → Even now a)
    ⟨fun ⟨ha,hp,he⟩ => ⟨ha,hp,he⟩,fun h => ⟨h.attrs,h.pipes,h.even⟩⟩

end Devices

section Recreated
variable {now : Int} {o : DeviceImpl} {n : NewDevice}

structure LockKept (o d : DeviceImpl) : Prop where
  locked : d.locking.deviceLocked = o.locking.deviceLocked
  same : o.locking.deviceLocked = true → d.locking = o.locking

def PollsKept (n : NewDevice) (o d : DeviceImpl) : Prop :=
  ∀ p ∈ o.pollObjList, n.has p = true → ∃ q ∈ d.pollObjList, pollKey q = pollKey p ∧ q.upd = p.upd

/-- Each polled object that is there again is accepted, and not polled by the new device already. -/
def Repollable (n : NewDevice) (o : DeviceImpl) : Prop :=
  ∀ p ∈ o.pollObjList, n.has p = true →
    n.refuses p = false ∧ n.pollType p = p.type ∧ pollKey p ∉ n.polls.map pollKey

instance (n : NewDevice) (o : DeviceImpl) : Decidable (Repollable n o) :=
  inferInstanceAs (Decidable (∀ p ∈ o.pollObjList, _))

theorem mem_repolled {ps polls : List PollObj} {q : PollObj} (h : q ∈ polls) :
    q ∈ ps.foldl (addObjPolling n) polls := by
  induction ps generalizing polls with
  | nil => exact h
  | cons p ps ih =>
    apply ih
    unfold addObjPolling
    split
    · exact h
    · exact List.mem_append_left _ h

/-- What a request makes of the keys: it adds its own, where it was not there. -/
theorem addObjPolling_keys (polls : List PollObj) (p : PollObj) :
    addObjPolling n polls p = polls ∨
      ((n.pollType p,lower p.name) ∉ polls.map pollKey ∧
        (addObjPolling n polls p).map pollKey = polls.map pollKey ++ [(n.pollType p,lower p.name)]) := by
  unfold addObjPolling
  split
  · exact .inl rfl
  · rename_i hno
    rw [not_or,not_or] at hno
    refine .inr ⟨fun hm => ?_,?_⟩
    · obtain ⟨q,hq,he⟩ := List.mem_map.mp hm
      exact hno.2.2 (List.any_eq_true.mpr ⟨q,hq,decide_eq_true he⟩)
    · rw [List.map_append]
      unfold pollKey
      simp only [List.map_cons,List.map_nil,lower_lower]

theorem nodup_repolled {ps polls : List PollObj} (h : (polls.map pollKey).Nodup) :
    ((ps.foldl (addObjPolling n) polls).map pollKey).Nodup := by
  induction ps generalizing polls with
  | nil => exact h
  | cons p ps ih =>
    apply ih
    rcases addObjPolling_keys (n := n) polls p with he | ⟨hnew,he⟩
    · rwa [he]
    · rw [he]
      exact List.nodup_append.mpr ⟨h,List.nodup_singleton _,by
        intro a ha b hb
        rw [List.mem_singleton.mp hb]
        exact fun hab => hnew (hab ▸ ha)⟩

theorem repolled {ps polls : List PollObj} (hn : (ps.map pollKey).Nodup)
    (hgood : ∀ p ∈ ps, n.has p = true → n.refuses p = false ∧ n.pollType p = p.type) :
    ∀ p ∈ ps, n.has p = true → pollKey p ∉ polls.map pollKey →
      ∃ q ∈ ps.foldl (addObjPolling n) polls, pollKey q = pollKey p ∧ q.upd = p.upd := by
  induction ps generalizing polls with
  | nil => exact fun p hp => absurd hp List.not_mem_nil
  | cons p ps ih =>
    rw [List.map_cons,List.nodup_cons] at hn
    intro p' hp' hhas hfree
    rcases List.mem_cons.mp hp' with rfl | hp'
    · obtain ⟨href,htype⟩ := hgood p' List.mem_cons_self hhas
      have hany : polls.any (fun q => pollKey q = (n.pollType p',lower p'.name)) = false := by
        rw [List.any_eq_false]
        intro q hq he
        rw [htype] at he
        exact hfree (List.mem_map.mpr ⟨q,hq,of_decide_eq_true he⟩)
      have hadd : addObjPolling n polls p' = polls ++ [⟨n.pollType p',lower p'.name,p'.upd⟩] := by
        unfold addObjPolling
        rw [if_neg (by rw [hhas,href,hany]; decide)]
      refine ⟨⟨n.pollType p',lower p'.name,p'.upd⟩,?_,?_,rfl⟩
      · rw [List.foldl_cons]
        apply mem_repolled
        rw [hadd]
        exact List.mem_append_right _ List.mem_cons_self
      · unfold pollKey
        rw [htype,lower_lower]
    · rw [List.foldl_cons]
      refine ih hn.2 (fun q hq => hgood q (List.mem_cons_of_mem _ hq)) p' hp' hhas ?_
      by_cases hp : n.has p = true
      · have htype := (hgood p List.mem_cons_self hp).2
        rcases addObjPolling_keys (n := n) polls p with he | ⟨-,he⟩
        · rwa [he]
        · rw [he,List.mem_append,not_or]
          refine ⟨hfree,fun hm => ?_⟩
          have hk := List.mem_singleton.mp hm
          rw [htype] at hk
          exact hn.1 (List.mem_map.mpr ⟨p',hp',hk⟩)
      · have hsame : addObjPolling n polls p = polls := by
          unfold addObjPolling
          rw [if_pos (.inl (Bool.not_eq_true _ ▸ hp))]
        rwa [hsame]

theorem recreate_kept (ho : o.Named) (hb : Back now o n) (hp : Repollable n o) (name : Text) :
    let d := (recreate now o name n).1
    d.name = name ∧ d.Named ∧ EventsKept now o d ∧ LockKept o d ∧ PollsKept n o d := by
  have hfresh : Fresh n {n.create name with
      pollObjList := o.pollObjList.foldl (addObjPolling n) (n.create name).pollObjList} := ⟨rfl,rfl,rfl⟩
  obtain ⟨attrs,pipes,intr,hset,hattrs,hpipes,hkept⟩ := setEventSubscriptionState_kept hfresh ho hb
  unfold recreate
  simp only [hset,if_true]
  refine ⟨rfl,⟨hattrs ▸ n.attrNames,hpipes ▸ n.pipeNames,nodup_repolled n.pollNames,?_⟩,
    ⟨hkept.attrs,hkept.pipes,hkept.intr⟩,?_,?_⟩
  · change (if _ then _ else _ : Lock.Locking).deviceLocked = true →
      (if _ then _ else _ : Lock.Locking).lockerClient ≠ none
    split
    · rename_i hl
      exact fun _ => hl.2
    · intro hl
      cases hl
  · constructor
    · change (if _ then _ else _ : Lock.Locking).deviceLocked = _
      split
      · rfl
      · rename_i hl
        rw [Bool.eq_false_iff.mpr (fun h => hl ⟨h,ho.locker h⟩)]
        rfl
    · intro hl
      exact if_pos ⟨hl,ho.locker hl⟩
  · intro p hpo hhas
    exact repolled ho.polls (fun p hp' hh => ⟨(hp p hp' hh).1,(hp p hp' hh).2.1⟩) p hpo hhas (hp p hpo hhas).2.2

end Recreated

end CppTango.Device.Restart
