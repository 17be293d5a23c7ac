import CppTango.Event.Polls

namespace CppTango.Event.Polls

open CppTango.Lib CppTango.Device CppTango.Device.Alarm

section Pushing
variable {α : Type} {s : Supplier} {e : α}

/-- The messages of a push: one for each release, all with the event. -/
theorem pushLoop_messages (e : α) (inc : Bool) (libs : List Nat) (c : Option UInt32) :
    (pushLoop e inc libs c).1.map (fun m => (m.topic,m.format,m.value)) =
      libs.map (fun release => (topicOf release,formatOf release,e)) := by
  induction libs generalizing inc c with
  | nil => rfl
  | cons release libs ih =>
    rw [pushLoop,List.map_cons,List.map_cons,ih]

theorem pushEventLoop_value {m : Message α} (hm : m ∈ (pushEventLoop e s).1) :
    m.value = e ∧ ∃ release ∈ s.clientLib, m.topic = topicOf release ∧ m.format = formatOf release := by
  have hmem := List.mem_map_of_mem (f := fun m : Message α => (m.topic,m.format,m.value)) hm
  rw [show (pushEventLoop e s).1 = (pushLoop e true s.clientLib s.eventCptr).1 from rfl,pushLoop_messages] at hmem
  obtain ⟨release,hr,he⟩ := List.mem_map.mp hmem
  simp only [Prod.mk.injEq] at he
  exact ⟨he.2.2.symm,release,hr,he.1.symm,he.2.1.symm⟩

theorem pushEventLoop_release {release : Nat} (hr : release ∈ s.clientLib) :
    ∃ m ∈ (pushEventLoop e s).1, m.topic = topicOf release ∧ m.format = formatOf release ∧ m.value = e := by
  have hmem := List.mem_map_of_mem (f := fun release => (topicOf release,formatOf release,e)) hr
  rw [← pushLoop_messages e true s.clientLib s.eventCptr] at hmem
  obtain ⟨m,hm,he⟩ := List.mem_map.mp hmem
  simp only [Prod.mk.injEq] at he
  exact ⟨m,hm,he.1,he.2.1,he.2.2⟩

end Pushing

section Expiry
variable {now : Int} {s : Supplier} {release : Nat}

/-- The date of the last request of a release; 5 and 6 have one in common. -/
def subscriptionOf (release : Nat) (s : Supplier) : Int :=
  match release with
  | 6 | 5 => s.subscription5
  | 4 => s.subscription4
  | _ => s.subscription3

/-- A release whose last request is not too old stays. -/
theorem expire_kept (hs : release ∈ [4,5,6]) (hr : release ∈ s.clientLib)
    (h : now - subscriptionOf release s < resubscribePeriod) : release ∈ (expire now s).clientLib := by
  have hkept : ∀ libs l : List Nat, release ∈ l → release ∈ libs.foldl (expireOne now s) l := by
    intro libs
    induction libs with
    | nil => exact fun l hl => hl
    | cons other libs ih =>
      intro l hl
      apply ih
      have hother : ∀ k, release ≠ k → release ∈ l.erase k := fun k hk => (List.mem_erase_of_ne hk).mpr hl
      simp only [List.mem_cons,List.not_mem_nil,or_false] at hs
      unfold expireOne
      rcases hs with rfl | rfl | rfl
      all_goals simp only [subscriptionOf] at h
      all_goals split
      all_goals split
      all_goals first | exact hl | exact hother _ (by decide) | omega
  exact hkept _ _ hr

/-- What is left of the clients of the alarm events, of which there are none but those of release 6. -/
theorem expireAlarm_late (hs : s.clientLib = [] ∨ s.clientLib = [6]) (h : s.subscription5 + resubscribePeriod ≤ now) :
    (expireAlarm now s).clientLib = [] := by
  have hold : resubscribePeriod ≤ now - s.subscription5 := by omega
  rcases hs with hs | hs
  · simp [expireAlarm,hs]
  · simp [expireAlarm,hs,hold]

theorem expireAlarm_clean (hs : s.clientLib = [] ∨ s.clientLib = [6]) :
    (expireAlarm now s).clientLib = [] ∨ (expireAlarm now s).clientLib = [6] := by
  rcases hs with hs | hs
  · exact .inl (by simp [expireAlarm,hs])
  · by_cases hold : resubscribePeriod ≤ now - s.subscription5
    · exact .inl (by simp [expireAlarm,hs,hold])
    · exact .inr (by simp [expireAlarm,hs,hold])

end Expiry

section One
variable {t : IntType} {now timeBefAttr : Int} {r : Reading (List Int)} {event : EventType} {a a' : Attr}
  {e : Option Pushed} {ms : List Sent}

/-- An event is looked for without a look at who gets it. -/
theorem detect_supply (h : detect t event timeBefAttr r a = some (e,a')) : a'.supply = a.supply := by
  cases event with
  | change =>
    obtain ⟨p,_,he⟩ := Option.map_eq_some_iff.mp h
    cases he
    rfl
  | alarm =>
    cases h
    rfl
  | periodic =>
    cases h
    rfl
  | archive =>
    obtain ⟨p,_,he⟩ := Option.map_eq_some_iff.mp h
    cases he
    rfl

/-- What one event of a poll does: its supplier loses what is too old, the others stay, and what is sent goes to the
releases that are left. -/
structure Polled (now : Int) (event : EventType) (a a' : Attr) (ms : List Sent) : Prop where
  others : ∀ other, other ≠ event → a'.supply other = a.supply other
  libs : (a'.supply event).clientLib = (expireFor event now (a.supply event)).clientLib
  dates : (a'.supply event).subscription5 = (a.supply event).subscription5
  ofEvent : ∀ m ∈ ms, m.event = event
  releases : ∀ m ∈ ms, ∃ release ∈ (expireFor event now (a.supply event)).clientLib,
    m.message.topic = topicOf release

theorem expireFor_dates (event : EventType) (now : Int) (s : Supplier) :
    (expireFor event now s).subscription5 = s.subscription5 := by
  cases event <;> rfl

theorem expireFor_nil {s : Supplier} (h : s.clientLib = []) : (expireFor event now s).clientLib = [] := by
  cases event <;> simp [expireFor,expire,expireAlarm,h]

theorem pollOne_polled (h : pollOne t now timeBefAttr r event a = some (ms,a')) : Polled now event a a' ms := by
  unfold pollOne at h
  split at h
  next hnil =>
    cases h
    exact ⟨fun _ _ => rfl,hnil.trans (expireFor_nil hnil).symm,rfl,fun m hm => absurd hm List.not_mem_nil,
      fun m hm => absurd hm List.not_mem_nil⟩
  next =>
    obtain ⟨⟨e,a₁⟩,hd,he⟩ := Option.map_eq_some_iff.mp h
    have hsupply := detect_supply hd
    simp only [hsupply] at he
    cases e with
    | none =>
      cases he
      refine ⟨fun other ho => ?_,?_,?_,fun m hm => absurd hm List.not_mem_nil,
        fun m hm => absurd hm List.not_mem_nil⟩
      · exact Function.update_of_ne ho _ _
      · simp only [Function.update_self]
      · simp only [Function.update_self]
        exact expireFor_dates _ _ _
    | some e =>
      cases he
      refine ⟨fun other ho => ?_,?_,?_,?_,?_⟩
      · exact Function.update_of_ne ho _ _
      · simp only [Function.update_self]
        rfl
      · simp only [Function.update_self]
        exact expireFor_dates _ _ _
      · intro m hm
        obtain ⟨m',_,rfl⟩ := List.mem_map.mp hm
        rfl
      · intro m hm
        obtain ⟨m',hm',rfl⟩ := List.mem_map.mp hm
        obtain ⟨_,release,hr,ht,_⟩ := pushEventLoop_value hm'
        exact ⟨release,hr,ht⟩

/-- The four events of a poll, one after the other. -/
theorem detectAndPushEvents_some (h : detectAndPushEvents t now timeBefAttr r a = some (ms,a')) :
    ∃ m₁ a₁ m₂ a₂ m₃ a₃ m₄, pollOne t now timeBefAttr r .change a = some (m₁,a₁) ∧
      pollOne t now timeBefAttr r .alarm a₁ = some (m₂,a₂) ∧
      pollOne t now timeBefAttr r .periodic a₂ = some (m₃,a₃) ∧
      pollOne t now timeBefAttr r .archive a₃ = some (m₄,a') ∧ ms = m₁ ++ m₂ ++ m₃ ++ m₄ := by
  obtain ⟨⟨m₁,a₁⟩,h₁,h⟩ := Option.bind_eq_some_iff.mp h
  obtain ⟨⟨m₂,a₂⟩,h₂,h⟩ := Option.bind_eq_some_iff.mp h
  obtain ⟨⟨m₃,a₃⟩,h₃,h⟩ := Option.bind_eq_some_iff.mp h
  obtain ⟨⟨m₄,a₄⟩,h₄,h⟩ := Option.bind_eq_some_iff.mp h
  cases h
  exact ⟨m₁,a₁,m₂,a₂,m₃,a₃,m₄,h₁,h₂,h₃,h₄,rfl⟩

/-- A poll, looked at for the alarm events: the others do not count. -/
theorem poll_alarm (h : detectAndPushEvents t now timeBefAttr r a = some (ms,a')) :
    (a'.supply .alarm).clientLib = (expireAlarm now (a.supply .alarm)).clientLib ∧
      (a'.supply .alarm).subscription5 = (a.supply .alarm).subscription5 ∧
      ∀ m ∈ ms, m.event = .alarm → (expireAlarm now (a.supply .alarm)).clientLib ≠ [] := by
  obtain ⟨m₁,a₁,m₂,a₂,m₃,a₃,m₄,h₁,h₂,h₃,h₄,rfl⟩ := detectAndPushEvents_some h
  have p₁ := pollOne_polled h₁
  have p₂ := pollOne_polled h₂
  have p₃ := pollOne_polled h₃
  have p₄ := pollOne_polled h₄
  have hbefore : a₁.supply .alarm = a.supply .alarm := p₁.others _ (by decide)
  rw [p₄.others _ (by decide),p₃.others _ (by decide),← hbefore]
  refine ⟨p₂.libs,p₂.dates,fun m hm he hnil => ?_⟩
  simp only [List.mem_append] at hm
  rcases hm with ((hm | hm) | hm) | hm
  · exact absurd ((p₁.ofEvent m hm).symm.trans he) (by decide)
  · obtain ⟨release,hr,_⟩ := p₂.releases m hm
    exact List.not_mem_nil (hnil ▸ hr)
  · exact absurd ((p₃.ofEvent m hm).symm.trans he) (by decide)
  · exact absurd ((p₄.ofEvent m hm).symm.trans he) (by decide)

end One

section Confirm
variable {s s' : Server} {now : Int} {c : Confirmed}

theorem put_attr (s : Server) (dev obj : String) (a : Attr) (key : String × List Char) :
    (s.put dev obj a).attr key = if key = (dev,lowerName obj) then some a else s.attr key := by
  unfold Server.put
  by_cases hk : key = (dev,lowerName obj)
  · subst hk
    simp
  · simp [hk]

theorem find_ok {dev obj : String} {a : Attr} (h : s.find dev obj = .ok a) : s.attr (dev,lowerName obj) = some a := by
  unfold Server.find at h
  split at h
  next ha =>
    cases h
    exact ha
  next => cases h

theorem device_ok {dev origin d : String} (h : s.device dev origin = .ok d) : s.deviceByName dev = some d := by
  unfold Server.device at h
  split at h
  next hd =>
    cases h
    exact hd
  next => cases h

theorem storeSubscribedClient_ok {event : EventType} {clientLib : Nat} {a a' : Attr}
    (h : storeSubscribedClient event clientLib now a = .ok a') :
    (event = .alarm → clientLib = 6) ∧ a' = { a with
      supply := Function.update a.supply event (storeSubscribedClientInfo clientLib now (a.supply event)) } := by
  unfold storeSubscribedClient at h
  split at h
  next => cases h
  next hne =>
    cases h
    exact ⟨fun he => by_contra fun hl => hne ⟨he,hl⟩,rfl⟩

/-- What is confirmed is no alarm event, and it is stored with the release of its name. -/
theorem confirmOne_ok (h : confirmOne s now c = .ok s') : c.event ≠ .alarm ∧ ∃ d a, s.deviceByName c.dev = some d ∧
    s.attr (d,lowerName c.obj) = some a ∧
      s' = s.put d c.obj { a with
        supply := Function.update a.supply c.event (storeSubscribedClientInfo c.clientLib now (a.supply c.event)) } := by
  obtain ⟨d,hdev,h⟩ := except_bind_ok.mp h
  obtain ⟨a,hfind,h⟩ := except_bind_ok.mp h
  obtain ⟨u,_,h⟩ := except_bind_ok.mp h
  obtain ⟨a',hstore,h⟩ := except_bind_ok.mp h
  obtain ⟨hlib,rfl⟩ := storeSubscribedClient_ok hstore
  cases h
  refine ⟨fun he => ?_,d,a,device_ok hdev,find_ok hfind,rfl⟩
  have h6 := hlib he
  unfold Confirmed.clientLib at h6
  split at h6
  · cases h6
  · cases h6

/-- The request ends at the first alarm event, with an error: nothing behind it is confirmed. -/
theorem confirm_ends (now : Int) {cs more : List Confirmed} (hc : c.event = .alarm) (s : Server) :
    eventConfirmSubscription now (cs ++ c :: more) s = eventConfirmSubscription now (cs ++ [c]) s ∧
      (eventConfirmSubscription now (cs ++ c :: more) s).1 ≠ .ok () := by
  induction cs generalizing s with
  | nil =>
    simp only [List.nil_append,eventConfirmSubscription]
    split
    next => exact ⟨rfl,fun he => by cases he⟩
    next hone => exact absurd hc (confirmOne_ok hone).1
  | cons c' cs ih =>
    simp only [List.cons_append,eventConfirmSubscription]
    split
    next => exact ⟨rfl,fun he => by cases he⟩
    next => exact ih _

end Confirm

section Alarm
variable {t : IntType} {s s' : Server} {key : String × List Char} {T : Int} {out : List Out} {act : Act}

/-- The alarm events of an attribute have clients of release 6 only, and nobody has asked for them since `T`. -/
structure Unasked (key : String × List Char) (T : Int) (s : Server) : Prop where
  libs : ∀ a, s.attr key = some a → (a.supply .alarm).clientLib = [] ∨ (a.supply .alarm).clientLib = [6]
  date : ∀ a, s.attr key = some a → (a.supply .alarm).subscription5 ≤ T

/-- A subscription to the alarm events of an attribute. -/
def AsksAlarm (s : Server) (key : String × List Char) : Act → Prop
  | .subscribe dev obj event _ _ => s.deviceByName dev = some key.1 ∧ lowerName obj = key.2 ∧ event = .alarm
  | _ => False

instance decidableAsksAlarm (s : Server) (key : String × List Char) : (act : Act) → Decidable (AsksAlarm s key act)
  | .subscribe .. => inferInstanceAs (Decidable (_ ∧ _))
  | .confirm .. => .isFalse id
  | .poll .. => .isFalse id

/-- A poll of an attribute before a time. -/
def Early (key : String × List Char) (T : Int) : Act → Prop
  | .poll dev obj now _ _ => (dev,lowerName obj) = key ∧ now < T
  | _ => False

instance decidableEarly (key : String × List Char) (T : Int) : (act : Act) → Decidable (Early key T act)
  | .poll .. => inferInstanceAs (Decidable (_ ∧ _))
  | .subscribe .. => .isFalse id
  | .confirm .. => .isFalse id

/-- An attribute is changed. -/
theorem unasked_put (h : Unasked key T s) {dev obj : String} {a : Attr}
    (ha : (dev,lowerName obj) = key → ((a.supply .alarm).clientLib = [] ∨ (a.supply .alarm).clientLib = [6]) ∧
      (a.supply .alarm).subscription5 ≤ T) : Unasked key T (s.put dev obj a) := by
  have hput : ∀ b, (s.put dev obj a).attr key = some b → s.attr key = some b ∨ b = a ∧ (dev,lowerName obj) = key := by
    intro b hb
    rw [put_attr] at hb
    split at hb
    next hk => exact .inr ⟨(Option.some.inj hb).symm,hk.symm⟩
    next => exact .inl hb
  constructor
  · intro b hb
    rcases hput b hb with hb | ⟨rfl,hk⟩
    · exact h.libs b hb
    · exact (ha hk).1
  · intro b hb
    rcases hput b hb with hb | ⟨rfl,hk⟩
    · exact h.date b hb
    · exact (ha hk).2

theorem confirm_unasked (now : Int) (cs : List Confirmed) (h : Unasked key T s) :
    Unasked key T (eventConfirmSubscription now cs s).2 := by
  induction cs generalizing s with
  | nil => exact h
  | cons c cs ih =>
    unfold eventConfirmSubscription
    split
    next => exact h
    next s₁ hone =>
      obtain ⟨hne,d,a,_,ha,rfl⟩ := confirmOne_ok hone
      apply ih
      apply unasked_put h
      intro hk
      rw [hk] at ha
      simp only [Function.update_of_ne (Ne.symm hne)]
      exact ⟨h.libs a ha,h.date a ha⟩

theorem subscribe_ok {dev obj : String} {event : EventType} {clientRelease : Nat} {now : Int}
    (h : zmqEventSubscriptionChange s dev obj event clientRelease now = .ok s') :
    ∃ d a supply, s.deviceByName dev = some d ∧ s.attr (d,lowerName obj) = some a ∧
      s' = s.put d obj { a with supply := supply } ∧ (∀ other, other ≠ event → supply other = a.supply other) ∧
      (event = .alarm → (supply .alarm).clientLib = setClientLib 6 (a.supply .alarm).clientLib) := by
  obtain ⟨d,hdev,h⟩ := except_bind_ok.mp h
  split at h
  next => cases h
  next =>
    obtain ⟨a,hfind,h⟩ := except_bind_ok.mp h
    obtain ⟨u,_,h⟩ := except_bind_ok.mp h
    obtain ⟨a',hstore,h⟩ := except_bind_ok.mp h
    obtain ⟨hlib,rfl⟩ := storeSubscribedClient_ok hstore
    cases h
    refine ⟨d,a,_,device_ok hdev,find_ok hfind,rfl,fun other ho => ?_,?_⟩
    · exact (Function.update_of_ne ho _ _).trans (Function.update_of_ne ho _ _)
    · rintro rfl
      simp only [Function.update_self,hlib rfl]
      rfl

theorem confirm_devices (now : Int) (cs : List Confirmed) (s : Server) :
    (eventConfirmSubscription now cs s).2.deviceByName = s.deviceByName := by
  induction cs generalizing s with
  | nil => rfl
  | cons c cs ih =>
    unfold eventConfirmSubscription
    split
    next => rfl
    next s₁ hone =>
      obtain ⟨_,d,a,_,_,rfl⟩ := confirmOne_ok hone
      exact ih _

theorem step_devices (h : step t s act = some (out,s')) : s'.deviceByName = s.deviceByName := by
  cases act with
  | subscribe dev obj event clientRelease now =>
    simp only [step] at h
    split at h
    next s₁ hs =>
      cases h
      obtain ⟨d,a,b,_,_,rfl,_,_⟩ := subscribe_ok hs
      rfl
    next =>
      cases h
      rfl
  | confirm events now =>
    cases h
    exact confirm_devices now events s
  | poll dev obj now timeBefAttr r =>
    simp only [step] at h
    split at h
    next =>
      cases h
      rfl
    next a ha =>
      obtain ⟨p,_,he⟩ := Option.map_eq_some_iff.mp h
      cases he
      rfl

/-- Only a subscription would bring the client back, and a late poll sends no alarm event. -/
theorem step_unasked (h : Unasked key T s) (hno : ¬ AsksAlarm s key act) (hlate : ¬ Early key (T + resubscribePeriod) act)
    (hs : step t s act = some (out,s')) : Unasked key T s' ∧ ∀ o ∈ out, o.1 = key → o.2.event ≠ .alarm := by
  cases act with
  | subscribe dev obj event clientRelease now =>
    simp only [step] at hs
    split at hs
    next s₁ hsub =>
      cases hs
      obtain ⟨d,a,b,hdev,ha,rfl,hothers,_⟩ := subscribe_ok hsub
      refine ⟨unasked_put h (fun hk => ?_),fun o ho => absurd ho List.not_mem_nil⟩
      have hne : EventType.alarm ≠ event := by
        rintro rfl
        exact hno ⟨hdev.trans (by rw [← hk]),by rw [← hk],rfl⟩
      simp only [hothers _ hne]
      exact ⟨h.libs a (hk ▸ ha),h.date a (hk ▸ ha)⟩
    next =>
      cases hs
      exact ⟨h,fun o ho => absurd ho List.not_mem_nil⟩
  | confirm events now =>
    cases hs
    exact ⟨confirm_unasked now events h,fun o ho => absurd ho List.not_mem_nil⟩
  | poll dev obj now timeBefAttr r =>
    simp only [step] at hs
    split at hs
    next =>
      cases hs
      exact ⟨h,fun o ho => absurd ho List.not_mem_nil⟩
    next a ha =>
      obtain ⟨⟨ms,a'⟩,hpoll,he⟩ := Option.map_eq_some_iff.mp hs
      cases he
      obtain ⟨hlibs,hdate,hsent⟩ := poll_alarm hpoll
      refine ⟨unasked_put h (fun hk => ?_),fun o ho hk halarm => ?_⟩
      · rw [hlibs,hdate]
        exact ⟨expireAlarm_clean (h.libs a (hk ▸ ha)),h.date a (hk ▸ ha)⟩
      · obtain ⟨m,hm,rfl⟩ := List.mem_map.mp ho
        have hk : (dev,lowerName obj) = key := hk
        have hnow : T + resubscribePeriod ≤ now := Int.not_lt.mp fun hlt => hlate ⟨hk,hlt⟩
        have hdate := h.date a (hk ▸ ha)
        exact hsent m hm halarm (expireAlarm_late (h.libs a (hk ▸ ha)) (by omega))

/-- No attribute has a client of its alarm events of a release below 6. -/
def AlarmClean (s : Server) : Prop :=
  ∀ key a, s.attr key = some a → (a.supply .alarm).clientLib = [] ∨ (a.supply .alarm).clientLib = [6]

theorem clean_put (h : AlarmClean s) {dev obj : String} {a : Attr}
    (ha : (a.supply .alarm).clientLib = [] ∨ (a.supply .alarm).clientLib = [6]) : AlarmClean (s.put dev obj a) := by
  intro key b hb
  rw [put_attr] at hb
  split at hb
  · cases hb
    exact ha
  · exact h key b hb

theorem confirm_clean (now : Int) (cs : List Confirmed) (h : AlarmClean s) :
    AlarmClean (eventConfirmSubscription now cs s).2 := by
  induction cs generalizing s with
  | nil => exact h
  | cons c cs ih =>
    unfold eventConfirmSubscription
    split
    next => exact h
    next s₁ hone =>
      obtain ⟨hne,d,a,_,ha,rfl⟩ := confirmOne_ok hone
      apply ih
      apply clean_put h
      simp only [Function.update_of_ne (Ne.symm hne)]
      exact h _ a ha

theorem step_clean (h : AlarmClean s) (hs : step t s act = some (out,s')) : AlarmClean s' := by
  cases act with
  | subscribe dev obj event clientRelease now =>
    simp only [step] at hs
    split at hs
    next s₁ hsub =>
      cases hs
      obtain ⟨d,a,b,_,ha,rfl,hothers,halarm⟩ := subscribe_ok hsub
      apply clean_put h
      by_cases he : event = .alarm
      · rw [halarm he]
        rcases h _ a ha with hl | hl
        · exact .inr (by rw [hl]; rfl)
        · exact .inr (by rw [hl]; rfl)
      · simp only [hothers _ (Ne.symm he)]
        exact h _ a ha
    next =>
      cases hs
      exact h
  | confirm events now =>
    cases hs
    exact confirm_clean now events h
  | poll dev obj now timeBefAttr r =>
    simp only [step] at hs
    split at hs
    next =>
      cases hs
      exact h
    next a ha =>
      obtain ⟨⟨ms,a'⟩,hpoll,he⟩ := Option.map_eq_some_iff.mp hs
      cases he
      apply clean_put h
      rw [(poll_alarm hpoll).1]
      exact expireAlarm_clean (h _ a ha)

theorem run_clean (acts : List Act) (h : AlarmClean s) {outs : List Out} (hr : run t s acts = some (outs,s')) :
    AlarmClean s' := by
  induction acts generalizing s outs with
  | nil =>
    cases hr
    exact h
  | cons act acts ih =>
    obtain ⟨⟨out,s₁⟩,hs,hr⟩ := Option.bind_eq_some_iff.mp hr
    obtain ⟨⟨rest,s₂⟩,hrest,hr⟩ := Option.bind_eq_some_iff.mp hr
    cases hr
    exact ih (step_clean h hs) hrest

theorem run_unasked (acts : List Act) (h : Unasked key T s) (hno : ∀ act ∈ acts, ¬ AsksAlarm s key act)
    (hlate : ∀ act ∈ acts, ¬ Early key (T + resubscribePeriod) act) {outs : List Out}
    (hr : run t s acts = some (outs,s')) : ∀ o ∈ outs, o.1 = key → o.2.event ≠ .alarm := by
  induction acts generalizing s outs with
  | nil =>
    cases hr
    exact fun o ho => absurd ho List.not_mem_nil
  | cons act acts ih =>
    obtain ⟨⟨out,s₁⟩,hs,hr⟩ := Option.bind_eq_some_iff.mp hr
    obtain ⟨⟨rest,s₂⟩,hrest,hr⟩ := Option.bind_eq_some_iff.mp hr
    cases hr
    obtain ⟨h₁,hout⟩ := step_unasked h (hno act List.mem_cons_self) (hlate act List.mem_cons_self) hs
    have hno₁ : ∀ act ∈ acts, ¬ AsksAlarm s₁ key act := by
      intro act' hact hasks
      refine hno act' (List.mem_cons_of_mem _ hact) ?_
      unfold AsksAlarm at hasks ⊢
      rw [step_devices hs] at hasks
      exact hasks
    intro o ho
    rcases List.mem_append.mp ho with ho | ho
    · exact hout o ho
    · exact ih h₁ hno₁ (fun act' hact => hlate act' (List.mem_cons_of_mem _ hact)) hrest o ho

/-- A device with one polled attribute, which has no client yet. -/
def sampleServer : Server where
  autoAlarmOnChangeEvent := false
  deviceByName := fun dev => if dev = "a" then some "a" else none
  idlVers := fun _ => 6
  attr := fun key => if key = ("a",['x']) then
      some ⟨true,false,false,false,false,true,true,true,unset,⟨-5,5⟩,unset,⟨-5,5⟩,1000,periodless,fun _ => .start,.start,
        .start,.start,.start⟩
    else none

def sampleAsked : List Act := [.subscribe "a" "x" .alarm 6 100,.poll "a" "x" 110 0 ⟨none,.alarm,[9]⟩]

def sampleLater : List Act := [.confirm [⟨"a","x",.plain,.alarm⟩] 400,.poll "a" "x" 700 0 ⟨none,.warning,[8]⟩]

end Alarm

section Listed
variable (t : IntType) (key : String × List Char) (release : Nat)

/-- When the attribute is polled, a release of its change events is listed and its last request is not too old. -/
def Timely (s : Server) : Act → Prop
  | .poll dev obj now _ _ => (dev,lowerName obj) = key → ∀ a ∈ s.attr key,
    release ∈ (a.supply .change).clientLib ∧
      now - subscriptionOf release (a.supply .change) < resubscribePeriod
  | _ => True

instance decidableTimely (s : Server) : (act : Act) → Decidable (Timely key release s act)
  | .poll .. => inferInstanceAs (Decidable (_ → _))
  | .subscribe .. => .isTrue trivial
  | .confirm .. => .isTrue trivial

def TimelyRun : Server → List Act → Prop
  | _,[] => True
  | s,act :: acts => Timely key release s act ∧ ∀ q ∈ step t s act, TimelyRun q.2 acts

instance decidableTimelyRun : (s : Server) → (acts : List Act) → Decidable (TimelyRun t key release s acts)
  | _,[] => .isTrue trivial
  | _,_ :: acts =>
    have : ∀ q : List Out × Server, Decidable (TimelyRun t key release q.2 acts) :=
      fun q => decidableTimelyRun q.2 acts
    inferInstanceAs (Decidable (_ ∧ _))

/-- A change event of the attribute that the clients of the release get. -/
def Mine (o : Out) : Bool :=
  o.1 = key && (o.2.event = .change && o.2.message.topic = topicOf release)

/-- The reading in the last change event that the clients have got. -/
def lastSent (outs : List Out) (p : Option (Reading (List Int))) : Option (Reading (List Int)) :=
  outs.foldl (fun p o => if Mine key release o then some o.2.message.value.reading else p) p

def readingOf : Act → Option (Reading (List Int))
  | .poll dev obj _ _ r => if (dev,lowerName obj) = key then some r else none
  | _ => none

/-- The last reading of the attribute. -/
def lastRead (acts : List Act) (c : Option (Reading (List Int))) : Option (Reading (List Int)) :=
  acts.foldl (fun c act => (readingOf key act).or c) c

/-- Nothing has been read and nothing sent, or the last event is not behind the last reading. -/
inductive UpToDate (rel abs : Criteria) (prev : LastAttrValue (List Int)) :
    Option (Reading (List Int)) → Option (Reading (List Int)) → Prop
  | nothing (hin : prev.inited = false) : UpToDate rel abs prev none none
  | sent {p c : Reading (List Int)} (hd : Describes prev p) (hin : prev.inited = true)
    (hf : Fresh t rel abs p c) : UpToDate rel abs prev (some p) (some c)

variable {t key release} {rel abs : Criteria} {prev prev' : LastAttrValue (List Int)}
  {p c : Option (Reading (List Int))} {r : Reading (List Int)} {event : Option ChangeEvent}

theorem upToDate_push (h : UpToDate t rel abs prev p c)
    (hd : detectAndPushChangeEvent t rel abs r prev = some (event,prev')) :
    UpToDate t rel abs prev' ((event.map ChangeEvent.reading).or p) (some r) := by
  cases h with
  | nothing hin =>
    obtain ⟨e,rfl,rfl,hdesc,hin'⟩ := push_first hin hd
    exact .sent hdesc hin' (.current rfl)
  | sent hdesc hin hf =>
    rcases push_step hdesc hin hd with ⟨e,rfl,rfl,rfl⟩ | ⟨rfl,rfl,hfresh⟩
    · exact .sent store_describes.1 store_describes.2 (.current rfl)
    · exact .sent hdesc hin hfresh

theorem lastSent_none {outs : List Out} (h : ∀ o ∈ outs, Mine key release o = false)
    (p : Option (Reading (List Int))) : lastSent key release outs p = p := by
  induction outs generalizing p with
  | nil => rfl
  | cons o outs ih =>
    unfold lastSent
    rw [List.foldl_cons,h o List.mem_cons_self,if_neg Bool.false_ne_true]
    exact ih (fun o' ho' => h o' (List.mem_cons_of_mem _ ho')) p

/-- Where all that the clients get is one event, and they get it, it is the last one. -/
theorem lastSent_one {outs : List Out} (hone : ∀ o ∈ outs, Mine key release o = true → o.2.message.value.reading = r)
    (hex : ∃ o ∈ outs, Mine key release o = true) (p : Option (Reading (List Int))) :
    lastSent key release outs p = some r := by
  have hkeep : ∀ outs : List Out, (∀ o ∈ outs, Mine key release o = true → o.2.message.value.reading = r) →
      lastSent key release outs (some r) = some r := by
    intro outs
    induction outs with
    | nil => exact fun _ => rfl
    | cons o outs ih =>
      intro hone
      have hrest := ih (fun o' ho' => hone o' (List.mem_cons_of_mem _ ho'))
      unfold lastSent at hrest ⊢
      rw [List.foldl_cons]
      split
      next hm => rw [hone o List.mem_cons_self hm,hrest]
      next => exact hrest
  induction outs generalizing p with
  | nil =>
    obtain ⟨o,ho,_⟩ := hex
    cases ho
  | cons o outs ih =>
    have hrest : ∀ o' ∈ outs, Mine key release o' = true → o'.2.message.value.reading = r :=
      fun o' ho' => hone o' (List.mem_cons_of_mem _ ho')
    by_cases hm : Mine key release o = true
    · have hlast := hkeep outs hrest
      unfold lastSent at hlast ⊢
      rw [List.foldl_cons,if_pos hm,hone o List.mem_cons_self hm,hlast]
    · obtain ⟨o',ho',hm'⟩ := hex
      have hin : o' ∈ outs := by
        rcases List.mem_cons.mp ho' with rfl | h
        · exact absurd hm' hm
        · exact h
      have hlast := ih hrest ⟨o',hin,hm'⟩ p
      unfold lastSent at hlast ⊢
      rw [List.foldl_cons,if_neg hm,hlast]

end Listed

section Served
variable {t : IntType} {key : String × List Char} {release : Nat} {now timeBefAttr : Int} {r : Reading (List Int)}
  {event : EventType} {a a' : Attr} {ms : List Sent} {s s' : Server} {p c : Option (Reading (List Int))}

/-- What of an attribute the change events depend on is the same. -/
structure SameChange (a a' : Attr) : Prop where
  rel : a'.relChange = a.relChange
  abs : a'.absChange = a.absChange
  prev : a'.prevChangeEvent = a.prevChangeEvent

theorem SameChange.trans {a₁ a₂ a₃ : Attr} (h : SameChange a₁ a₂) (h' : SameChange a₂ a₃) : SameChange a₁ a₃ :=
  ⟨h'.rel.trans h.rel,h'.abs.trans h.abs,h'.prev.trans h.prev⟩

/-- Another event is looked for. -/
theorem detect_other (hne : event ≠ .change) {e : Option Pushed}
    (h : detect t event timeBefAttr r a = some (e,a')) : SameChange a a' := by
  cases event with
  | change => exact absurd rfl hne
  | alarm =>
    cases h
    exact ⟨rfl,rfl,rfl⟩
  | periodic =>
    cases h
    exact ⟨rfl,rfl,rfl⟩
  | archive =>
    obtain ⟨q,_,he⟩ := Option.map_eq_some_iff.mp h
    cases he
    exact ⟨rfl,rfl,rfl⟩

theorem pollOne_other (hne : event ≠ .change) (h : pollOne t now timeBefAttr r event a = some (ms,a')) :
    SameChange a a' := by
  unfold pollOne at h
  split at h
  next =>
    cases h
    exact ⟨rfl,rfl,rfl⟩
  next =>
    obtain ⟨⟨e,a₁⟩,hd,he⟩ := Option.map_eq_some_iff.mp h
    have hsame := detect_other hne hd
    cases e with
    | none =>
      cases he
      exact ⟨hsame.rel,hsame.abs,hsame.prev⟩
    | some e =>
      cases he
      exact ⟨hsame.rel,hsame.abs,hsame.prev⟩

/-- A listed release gets every change event that is found, and with it the reading. -/
theorem pollOne_change (hin : release ∈ (expire now (a.supply .change)).clientLib)
    (h : pollOne t now timeBefAttr r .change a = some (ms,a')) :
    ∃ event, detectAndPushChangeEvent t a.relChange a.absChange r a.prevChangeEvent =
        some (event,a'.prevChangeEvent) ∧ a'.relChange = a.relChange ∧ a'.absChange = a.absChange ∧
      (event = none → ms = []) ∧
      ∀ e, event = some e → (∀ m ∈ ms, m.message.value.reading = e.reading) ∧
        ∃ m ∈ ms, m.event = .change ∧ m.message.topic = topicOf release := by
  have hlisted : (a.supply .change).clientLib ≠ [] := by
    intro hnil
    rw [show (expire now (a.supply .change)).clientLib = [] by simp [expire,hnil]] at hin
    cases hin
  unfold pollOne at h
  rw [if_neg hlisted] at h
  obtain ⟨⟨e,a₁⟩,hd,he⟩ := Option.map_eq_some_iff.mp h
  obtain ⟨⟨event,prev⟩,hdet,heq⟩ := Option.map_eq_some_iff.mp hd
  cases heq
  cases event with
  | none =>
    cases he
    exact ⟨none,hdet,rfl,rfl,fun _ => rfl,fun e he => (by cases he)⟩
  | some e =>
    cases he
    refine ⟨some e,hdet,rfl,rfl,fun hno => (by cases hno),fun e' he' => ?_⟩
    cases he'
    refine ⟨fun m hm => ?_,?_⟩
    · obtain ⟨m',hm',rfl⟩ := List.mem_map.mp hm
      rw [(pushEventLoop_value hm').1]
      rfl
    · obtain ⟨m',hm',ht,_⟩ := pushEventLoop_release (e := Pushed.change e) hin
      exact ⟨⟨.change,m'⟩,List.mem_map_of_mem hm',rfl,ht⟩

/-- A poll of the attribute while the release is listed keeps its clients up to date. -/
theorem poll_upToDate (key : String × List Char) (hs : release ∈ [4,5,6])
    (hin : release ∈ (a.supply .change).clientLib)
    (hnow : now - subscriptionOf release (a.supply .change) < resubscribePeriod)
    (hu : UpToDate t a.relChange a.absChange a.prevChangeEvent p c)
    (h : detectAndPushEvents t now timeBefAttr r a = some (ms,a')) :
    a'.relChange = a.relChange ∧ a'.absChange = a.absChange ∧
      UpToDate t a.relChange a.absChange a'.prevChangeEvent
        (lastSent key release (ms.map (fun m => (key,m))) p) (some r) := by
  obtain ⟨m₁,a₁,m₂,a₂,m₃,a₃,m₄,h₁,h₂,h₃,h₄,rfl⟩ := detectAndPushEvents_some h
  obtain ⟨event,hdet,hrel,habs,hnone,hsome⟩ := pollOne_change (expire_kept hs hin hnow) h₁
  have hsame : SameChange a₁ a' := ((pollOne_other (by decide) h₂).trans (pollOne_other (by decide) h₃)).trans
    (pollOne_other (by decide) h₄)
  -- only the first of the four lists has change events
  have hrest : ∀ m ∈ m₂ ++ m₃ ++ m₄, Mine key release (key,m) = false := by
    intro m hm
    have hother : m.event ≠ .change := by
      simp only [List.mem_append] at hm
      rcases hm with (hm | hm) | hm
      · rw [(pollOne_polled h₂).ofEvent m hm]; decide
      · rw [(pollOne_polled h₃).ofEvent m hm]; decide
      · rw [(pollOne_polled h₄).ofEvent m hm]; decide
    simp [Mine,hother]
  have hsplit : lastSent key release ((m₁ ++ m₂ ++ m₃ ++ m₄).map (fun m => (key,m))) p =
      lastSent key release (m₁.map (fun m => (key,m))) p := by
    rw [List.append_assoc,List.append_assoc,← List.append_assoc m₂,List.map_append]
    unfold lastSent
    rw [List.foldl_append]
    apply lastSent_none
    intro o ho
    obtain ⟨m,hm,rfl⟩ := List.mem_map.mp ho
    exact hrest m hm
  have hpushed := upToDate_push hu hdet
  rw [hsplit,hsame.prev]
  refine ⟨hsame.rel.trans hrel,hsame.abs.trans habs,?_⟩
  cases event with
  | none =>
    rw [hnone rfl]
    exact hpushed
  | some e =>
    obtain ⟨hall,m,hm,hev,htopic⟩ := hsome e rfl
    have hlast : lastSent key release (m₁.map (fun m => (key,m))) p = some e.reading := by
      refine lastSent_one (fun o ho _ => ?_) ⟨(key,m),List.mem_map_of_mem hm,?_⟩ p
      · obtain ⟨m',hm',rfl⟩ := List.mem_map.mp ho
        exact hall m' hm'
      · simp [Mine,hev,htopic]
    rw [hlast]
    exact hpushed

theorem confirm_change (now : Int) (cs : List Confirmed) (ha : s.attr key = some a) :
    ∃ a', (eventConfirmSubscription now cs s).2.attr key = some a' ∧ SameChange a a' := by
  induction cs generalizing s a with
  | nil => exact ⟨a,ha,rfl,rfl,rfl⟩
  | cons c cs ih =>
    unfold eventConfirmSubscription
    split
    next => exact ⟨a,ha,rfl,rfl,rfl⟩
    next s₁ hone =>
      obtain ⟨_,d,b,_,hb,rfl⟩ := confirmOne_ok hone
      by_cases hk : key = (d,lowerName c.obj)
      · have hab : b = a := Option.some.inj (hb.symm.trans (hk ▸ ha))
        subst hab
        obtain ⟨a',ha',hsame⟩ := ih ((put_attr _ _ _ _ _).trans (if_pos hk))
        exact ⟨a',ha',hsame.rel,hsame.abs,hsame.prev⟩
      · exact ih (((put_attr _ _ _ _ _).trans (if_neg hk)).trans ha)

theorem subscribe_change {dev obj : String} {clientRelease : Nat} (ha : s.attr key = some a)
    (h : zmqEventSubscriptionChange s dev obj event clientRelease now = .ok s') :
    ∃ a', s'.attr key = some a' ∧ SameChange a a' := by
  obtain ⟨d,b,supply,_,hb,rfl,_⟩ := subscribe_ok h
  by_cases hk : key = (d,lowerName obj)
  · have hab : b = a := Option.some.inj (hb.symm.trans (hk ▸ ha))
    subst hab
    exact ⟨_,(put_attr _ _ _ _ _).trans (if_pos hk),rfl,rfl,rfl⟩
  · exact ⟨a,((put_attr _ _ _ _ _).trans (if_neg hk)).trans ha,rfl,rfl,rfl⟩

/-- One request or one poll, of this attribute or another. -/
theorem step_upToDate (hs : release ∈ [4,5,6]) {act : Act} {out : List Out} (ha : s.attr key = some a)
    (hu : UpToDate t a.relChange a.absChange a.prevChangeEvent p c) (htime : Timely key release s act)
    (h : step t s act = some (out,s')) :
    ∃ a', s'.attr key = some a' ∧ a'.relChange = a.relChange ∧ a'.absChange = a.absChange ∧
      UpToDate t a.relChange a.absChange a'.prevChangeEvent (lastSent key release out p)
        ((readingOf key act).or c) := by
  have hkept : ∀ {a' : Attr}, SameChange a a' → s'.attr key = some a' → lastSent key release out p = p →
      readingOf key act = none → ∃ a', s'.attr key = some a' ∧ a'.relChange = a.relChange ∧
        a'.absChange = a.absChange ∧ UpToDate t a.relChange a.absChange a'.prevChangeEvent
          (lastSent key release out p) ((readingOf key act).or c) := by
    intro a' hsame ha' hout hread
    rw [hout,hread]
    exact ⟨a',ha',hsame.rel,hsame.abs,by rw [hsame.prev]; exact hu⟩
  cases act with
  | subscribe dev obj event clientRelease now =>
    simp only [step] at h
    split at h
    next s₁ hsub =>
      cases h
      obtain ⟨a',ha',hsame⟩ := subscribe_change ha hsub
      exact hkept hsame ha' rfl rfl
    next =>
      cases h
      exact hkept ⟨rfl,rfl,rfl⟩ ha rfl rfl
  | confirm events now =>
    cases h
    obtain ⟨a',ha',hsame⟩ := confirm_change now events ha
    exact hkept hsame ha' rfl rfl
  | poll dev obj now timeBefAttr r =>
    by_cases hk : (dev,lowerName obj) = key
    · simp only [step,hk,ha] at h
      obtain ⟨⟨ms,a'⟩,hpoll,he⟩ := Option.map_eq_some_iff.mp h
      cases he
      obtain ⟨hin,hnow⟩ := htime hk a ha
      obtain ⟨hrel,habs,hu'⟩ := poll_upToDate key hs hin hnow hu hpoll
      have hread : readingOf key (.poll dev obj now timeBefAttr r) = some r := if_pos hk
      rw [hread]
      exact ⟨a',(put_attr _ _ _ _ _).trans (if_pos hk.symm),hrel,habs,hu'⟩
    · have hread : readingOf key (.poll dev obj now timeBefAttr r) = none := if_neg hk
      simp only [step] at h
      split at h
      next =>
        cases h
        exact hkept ⟨rfl,rfl,rfl⟩ ha rfl hread
      next b hb =>
        obtain ⟨⟨ms,b'⟩,hpoll,he⟩ := Option.map_eq_some_iff.mp h
        cases he
        refine hkept ⟨rfl,rfl,rfl⟩ (((put_attr _ _ _ _ _).trans (if_neg (Ne.symm hk))).trans ha)
          (lastSent_none (fun o ho => ?_) p) hread
        obtain ⟨m,_,rfl⟩ := List.mem_map.mp ho
        simp [Mine,hk]

theorem run_upToDate (hs : release ∈ [4,5,6]) (acts : List Act) {outs : List Out} (ha : s.attr key = some a)
    (hu : UpToDate t a.relChange a.absChange a.prevChangeEvent p c) (htime : TimelyRun t key release s acts)
    (h : run t s acts = some (outs,s')) :
    ∃ a', s'.attr key = some a' ∧ UpToDate t a.relChange a.absChange a'.prevChangeEvent (lastSent key release outs p)
      (lastRead key acts c) := by
  induction acts generalizing s a p c outs with
  | nil =>
    cases h
    exact ⟨a,ha,hu⟩
  | cons act acts ih =>
    obtain ⟨⟨out,s₁⟩,hstep,h⟩ := Option.bind_eq_some_iff.mp h
    obtain ⟨⟨rest,s₂⟩,hrest,h⟩ := Option.bind_eq_some_iff.mp h
    cases h
    obtain ⟨a₁,ha₁,hrel,habs,hu₁⟩ := step_upToDate hs ha hu htime.1 hstep
    rw [← hrel,← habs] at hu₁
    obtain ⟨a',ha',hu'⟩ := ih ha₁ hu₁ (htime.2 (out,s₁) hstep) hrest
    rw [hrel,habs] at hu'
    refine ⟨a',ha',?_⟩
    unfold lastSent at hu' ⊢
    rw [List.foldl_append]
    exact hu'

/-- A client of the change events that confirms them. -/
def sampleKept : List Act :=
  [.subscribe "a" "x" .change 6 100,.poll "a" "x" 110 0 ⟨none,.valid,[5]⟩,
    .confirm [⟨"a","x",.idl5,.change⟩] 400,.poll "a" "x" 800 0 ⟨none,.valid,[7]⟩]

end Served

end CppTango.Event.Polls
