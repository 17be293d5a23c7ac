import CppTango.Client.ConnectEvent

namespace CppTango.Client.Connecting

section Call
variable {σ : Type} (proc : Process) (server : Server) (sub : Subscription σ) (kind : ChannelType) (a : Attempt)
  (m : Maps σ) (eventName : String)

/-- The call gets an answer of a device of IDL 5 for an event that has releases. -/
def Rewrites : Prop :=
  ∃ adm info idl, subscriptionInfo proc server sub kind a m eventName = .ok (adm,info,idl) ∧
    sub.event.addCompatInfo = true ∧ 5 ≤ idl

/-- The name under which the server sends the event. -/
def eventKey (kind : ChannelType) (info : Option DevVarLongStringArray) (key : String) : String :=
  match kind,info with
  | .zmq,some info =>
    if 930 ≤ info.lvalue.getD 0 0 then info.svalue.getD (info.svalue.length - 2) "" else key
  | _,_ => key

/-- What a call leaves of the callback map. -/
inductive Registered (key stored : String) (m' : Maps σ) : Except Failure String → Prop
  | untouched (f : Failure) (hf : f.isCommandNotFound = false)
    (hm : m'.eventCallbackMap = m.eventCallbackMap) : Registered key stored m' (.error f)
  | found (k : String) (r : Except Failure String) (hfind : findCallback sub m key = some k)
    (hm : m' = addNewCallback sub k m) (hr : ∀ k', r = .ok k' → k' = k)
    (hf : ∀ f, r = .error f → f.isCommandNotFound = false) : Registered key stored m' r
  | added (cb : EventCallBack σ) (r : Except Failure String) (hfind : findCallback sub m key = none)
    (hcb : cb.eventName = stored)
    (hm : m'.eventCallbackMap = Function.update m.eventCallbackMap key (some cb))
    (hr : ∀ k, r = .ok k → k = key) (hf : ∀ f, r = .error f → f.isCommandNotFound = false) :
    Registered key stored m' r

variable {proc server sub kind a m eventName} {m' : Maps σ} {r : Except Failure String} {name' : String}
  {info : Option DevVarLongStringArray} {idl : Int} {adm : String}

theorem receivedNames_eventName {info : DevVarLongStringArray} {key : String} :
    (receivedNames proc sub info key adm).eventName =
      if 930 ≤ info.lvalue.getD 0 0 then info.svalue.getD (info.svalue.length - 2) "" else key := by
  unfold receivedNames
  split
  · rfl
  · split <;> rfl

theorem received_name {key : String} {received : ReceivedFromAdmin}
    (h : initializeReceivedFromAdmin proc sub kind info key adm = .ok received) :
    received.eventName = eventKey kind info key := by
  unfold initializeReceivedFromAdmin at h
  unfold eventKey
  split at h
  · split at h
    · cases h
    · split at h
      · cases h
      · cases h
        exact receivedNames_eventName
  · cases h
  · cases h
    rfl

theorem received_fault {key : String} {f : Failure}
    (h : initializeReceivedFromAdmin proc sub kind info key adm = .error f) : f.isCommandNotFound = false := by
  unfold initializeReceivedFromAdmin at h
  split at h
  · split at h
    · cases h
      rfl
    · split at h
      · cases h
        rfl
      · cases h
  · cases h
    rfl
  · cases h

theorem zmqSpecific_fault {f : Failure} (h : zmqSpecific proc sub kind info = .error f) :
    f.isCommandNotFound = false := by
  unfold zmqSpecific at h
  split at h
  · simp only [] at h
    repeat' split at h
    all_goals cases h
    all_goals rfl
  · cases h

theorem connect_callbacks {channelName channel : String}
    (h : connect sub a adm channelName m = .ok (channel,m')) : m'.eventCallbackMap = m.eventCallbackMap := by
  unfold connect at h
  simp only [] at h
  repeat' split at h
  all_goals cases h
  all_goals rfl

theorem connect_fault {channelName : String} {f : Failure} (h : connect sub a adm channelName m = .error f) :
    f.isCommandNotFound = false := by
  unfold connect at h
  simp only [] at h
  repeat' split at h
  all_goals cases h
  rename_i f' _
  exact f'.property

theorem fired_ok {k k' : String} (h : (fired a k m).1 = .ok k') : k' = k := by
  unfold fired at h
  split at h
  · cases h
  · exact (Except.ok.inj h).symm

theorem fired_fault {k : String} {f : Failure} (h : (fired a k m).1 = .error f) :
    f.isCommandNotFound = false := by
  unfold fired at h
  split at h
  · rename_i f' _
    cases h
    exact f'.property
  · cases h

theorem fired_maps {k : String} : (fired a k m).2 = m := by
  unfold fired
  split <;> rfl

theorem registered :
    Registered sub m (eventKey kind info (getCallbackKey sub.deviceName sub.objName sub.event eventName)) eventName
      (register proc sub kind a adm info idl eventName m).2
      (register proc sub kind a adm info idl eventName m).1 := by
  unfold register
  simp only []
  split
  · rename_i f hf
    exact .untouched f (received_fault hf) rfl
  · rename_i received hreceived
    rw [received_name hreceived]
    split
    · rename_i k hfind
      exact .found k _ hfind fired_maps (fun k' => fired_ok) (fun f => fired_fault)
    · rename_i hfind
      split
      · rename_i f hf
        exact .untouched f (zmqSpecific_fault hf) rfl
      · split
        · rename_i f hf
          exact .untouched f (connect_fault hf) rfl
        · rename_i channel m₁ hconnect
          split
          · rename_i f _
            exact .untouched f.val f.property (connect_callbacks hconnect)
          · refine .added (newCallback proc sub kind info idl eventName
              (getCallbackKey sub.deviceName sub.objName sub.event eventName) channel received m₁) _ hfind rfl ?_
              (fun k => fired_ok) (fun f => fired_fault)
            rw [fired_maps,← connect_callbacks hconnect]

theorem Registered.not_found {key stored : String} {f : Failure}
    (h : Registered sub m key stored m' (.error f)) : f.isCommandNotFound = false := by
  cases h with
  | untouched _ hf => exact hf
  | found _ _ _ _ _ hf => exact hf f rfl
  | added _ _ _ _ _ _ hf => exact hf f rfl

theorem registeringFailed_not_found {f : Failure} :
    (registeringFailed f).isCommandNotFound = f.isCommandNotFound := by
  cases f with
  | other => rfl
  | devFailed errors =>
    cases errors with
    | nil => rfl
    | cons e es =>
      simp only [registeringFailed]
      split <;> rfl

theorem admDevice_not_found {f : Failure} (h : admDevice sub a m = .error f) : f.isCommandNotFound = false := by
  unfold admDevice at h
  repeat' split at h
  all_goals cases h
  all_goals rfl

theorem deviceIdl_not_found {f : Failure} (h : deviceIdl info = .error f) : f.isCommandNotFound = false := by
  unfold deviceIdl at h
  repeat' split at h
  all_goals cases h
  all_goals rfl

theorem connectEvent_error {f : Failure}
    (h : subscriptionInfo proc server sub kind a m eventName = .error f) :
    connectEvent proc server sub kind a m eventName = (.error f,m,eventName) := by
  rw [connectEvent,h]

theorem connectEvent_answered
    (h : subscriptionInfo proc server sub kind a m eventName = .ok (adm,info,idl)) :
    connectEvent proc server sub kind a m eventName =
      ((register proc sub kind a adm info idl (rewrite sub idl eventName) m).1,
        (register proc sub kind a adm info idl (rewrite sub idl eventName) m).2,rewrite sub idl eventName) := by
  rw [connectEvent,h]

theorem subscriptionInfo_parts (h : subscriptionInfo proc server sub kind a m eventName = .ok (adm,info,idl)) :
    getSubscriptionInfo proc server sub kind a eventName = .ok info ∧ deviceIdl info = .ok idl := by
  unfold subscriptionInfo at h
  cases hadm : admDevice sub a m with
  | error f => rw [hadm] at h; cases h
  | ok adm' =>
    cases hinfo : getSubscriptionInfo proc server sub kind a eventName with
    | error f => rw [hadm,hinfo] at h; cases h
    | ok info' =>
      cases hidl : deviceIdl info' with
      | error f => rw [hadm,hinfo] at h; simp only [bind,Except.bind,hidl] at h; cases h
      | ok idl' =>
        rw [hadm,hinfo] at h
        simp only [bind,Except.bind,hidl] at h
        cases h
        exact ⟨rfl,hidl⟩

/-- A name is rewritten at most once by a call. -/
theorem call_name (h : connectEvent proc server sub kind a m eventName = (r,m',name')) :
    Rewrites proc server sub kind a m eventName ∧ name' = addIdlPrefix eventName ∨
      ¬Rewrites proc server sub kind a m eventName ∧ name' = eventName := by
  cases hinfo : subscriptionInfo proc server sub kind a m eventName with
  | error f =>
    rw [connectEvent_error hinfo] at h
    cases h
    refine Or.inr ⟨?_,rfl⟩
    rintro ⟨adm,info,idl,hok,-⟩
    exact nomatch hinfo.symm.trans hok
  | ok answer =>
    obtain ⟨adm,info,idl⟩ := answer
    rw [connectEvent_answered hinfo] at h
    cases h
    unfold rewrite
    split
    · rename_i hc
      exact Or.inl ⟨⟨adm,info,idl,hinfo,hc⟩,rfl⟩
    · rename_i hc
      refine Or.inr ⟨?_,rfl⟩
      rintro ⟨adm',info',idl',hok,hc'⟩
      cases hinfo.symm.trans hok
      exact hc hc'

/-- The older consumer gets no release. -/
theorem notifd_not_rewrites : ¬Rewrites proc server sub .notifd a m eventName := by
  rintro ⟨adm,info,idl,hok,-,hidl⟩
  obtain ⟨hinfo,hdev⟩ := subscriptionInfo_parts hok
  have hnone : info = none := by
    unfold getSubscriptionInfo subscriptionCommand at hinfo
    simp only [] at hinfo
    repeat' split at hinfo
    all_goals cases hinfo
    rfl
  rw [hnone] at hdev
  cases hdev
  exact absurd hidl (by decide)

theorem command_not_found {f : Failure} (h : getSubscriptionInfo proc server sub .zmq a eventName = .error f)
    (hf : f.isCommandNotFound = true) (info : DevVarLongStringArray) :
    server.zmqEventSubscriptionChange (subscriberInfo sub .zmq eventName) ≠ .ok info := by
  intro hok
  unfold getSubscriptionInfo subscriptionCommand at h
  cases hcommand : a.command with
  | some fault =>
    rw [hcommand] at h
    cases h
    exact Bool.noConfusion ((registeringFailed_not_found.trans fault.property).symm.trans hf)
  | none =>
    rw [hcommand,hok] at h
    cases h

theorem info_not_found {f : Failure} (h : subscriptionInfo proc server sub .zmq a m eventName = .error f)
    (hf : f.isCommandNotFound = true) (info : DevVarLongStringArray) :
    server.zmqEventSubscriptionChange (subscriberInfo sub .zmq eventName) ≠ .ok info := by
  unfold subscriptionInfo at h
  cases hadm : admDevice sub a m with
  | error f' =>
    rw [hadm] at h
    cases h
    exact Bool.noConfusion ((admDevice_not_found hadm).symm.trans hf)
  | ok adm =>
    cases hget : getSubscriptionInfo proc server sub .zmq a eventName with
    | ok info' =>
      rw [hadm,hget] at h
      cases hidl : deviceIdl info' with
      | error f' =>
        simp only [bind,Except.bind,hidl] at h
        cases h
        exact Bool.noConfusion ((deviceIdl_not_found hidl).symm.trans hf)
      | ok idl =>
        simp only [bind,Except.bind,hidl] at h
        cases h
    | error f' =>
      rw [hadm,hget] at h
      cases h
      exact command_not_found hget hf info

/-- That the command does not exist is found out before anything is changed. -/
theorem call_not_found {f : Failure} (h : connectEvent proc server sub .zmq a m eventName = (.error f,m',name'))
    (hf : f.isCommandNotFound = true) : m' = m ∧ name' = eventName ∧
      ∀ info, server.zmqEventSubscriptionChange (subscriberInfo sub .zmq eventName) ≠ .ok info := by
  cases hinfo : subscriptionInfo proc server sub .zmq a m eventName with
  | ok answer =>
    obtain ⟨adm,info,idl⟩ := answer
    rw [connectEvent_answered hinfo] at h
    obtain ⟨hr,-⟩ := Prod.mk.inj h
    have hspec := @registered σ proc sub .zmq a m (rewrite sub idl eventName) info idl adm
    rw [hr] at hspec
    exact Bool.noConfusion (hspec.not_found.symm.trans hf)
  | error f' =>
    rw [connectEvent_error hinfo] at h
    cases h
    exact ⟨rfl,rfl,info_not_found hinfo hf⟩

end Call

section Leftovers
variable {σ : Type} {sub : Subscription σ} {key stored : String} {m₀ m m' : Maps σ} {r : Except Failure String}

/-- Calls that failed may have left an entry of the event, under the key and with the name that a call that
succeeds at once gives it. -/
structure Leftover (sub : Subscription σ) (key stored : String) (m₀ m : Maps σ) : Prop where
  kept : ∀ k cb, m₀.eventCallbackMap k = some cb →
    ∃ cb', m.eventCallbackMap k = some cb' ∧ cb'.eventName = cb.eventName
  new : ∀ k cb, m.eventCallbackMap k = some cb → m₀.eventCallbackMap k = none →
    cb.eventName = stored ∧ k = key ∧ findCallback sub m₀ key = none

theorem Leftover.refl : Leftover sub key stored m₀ m₀ where
  kept := fun _ cb h => ⟨cb,h,rfl⟩
  new := fun _ _ h hn => nomatch hn.symm.trans h

theorem findCallback_none (h : findCallback sub m key = none) : m.eventCallbackMap key = none := by
  unfold findCallback at h
  split at h
  · cases h
  · rename_i hno
    exact Option.not_isSome_iff_eq_none.mp hno

theorem insertIdl_ne (key : String) : insertIdlForCompat key ≠ key := by
  intro h
  have hlen := congrArg (fun s : String => s.toList.length) h
  simp only [insertIdlForCompat,upToDot,String.toList_append,String.toList_ofList,List.length_append,
    List.length_take] at hlen
  have hbehind : (behindDot key).length ≤ key.toList.length := by
    unfold behindDot
    rw [List.length_reverse]
    exact (List.takeWhile_sublist _).length_le.trans_eq (List.length_reverse)
  have hidl : "idl5_".toList.length = 5 := rfl
  omega

theorem findCallback_some {k : String} (h : findCallback sub m key = some k) :
    ∃ cb, m.eventCallbackMap k = some cb := by
  unfold findCallback at h
  split at h
  · rename_i hsome
    cases h
    exact Option.isSome_iff_exists.mp hsome
  · split at h
    · rename_i hsome
      cases h
      exact Option.isSome_iff_exists.mp hsome.2
    · cases h

theorem Leftover.same (h : Leftover sub key stored m₀ m) {k : String} (hk : k ≠ key) :
    (m.eventCallbackMap k).isSome = (m₀.eventCallbackMap k).isSome := by
  cases hm₀ : m₀.eventCallbackMap k with
  | some cb =>
    obtain ⟨cb',hcb',-⟩ := h.kept k cb hm₀
    rw [hcb']
    rfl
  | none =>
    cases hm : m.eventCallbackMap k with
    | none => rfl
    | some cb => exact absurd (h.new k cb hm hm₀).2.1 hk

/-- The entry that is found at once is found later, else the one of the key. -/
theorem Leftover.find (h : Leftover sub key stored m₀ m) :
    findCallback sub m key = findCallback sub m₀ key ∨
      findCallback sub m₀ key = none ∧ findCallback sub m key = some key ∧
        ∃ cb, m.eventCallbackMap key = some cb ∧ cb.eventName = stored := by
  have hother := h.same (insertIdl_ne key)
  cases hm₀ : m₀.eventCallbackMap key with
  | some cb =>
    obtain ⟨cb',hcb',-⟩ := h.kept key cb hm₀
    left
    rw [findCallback,findCallback,hm₀,hcb']
    rfl
  | none =>
    cases hm : m.eventCallbackMap key with
    | none =>
      left
      rw [findCallback,findCallback,hm₀,hm,hother]
    | some cb =>
      obtain ⟨hname,-,hnone⟩ := h.new key cb hm hm₀
      refine Or.inr ⟨hnone,?_,cb,rfl,hname⟩
      rw [findCallback,hm]
      rfl

theorem addNewCallback_names {k k' : String} :
    ((addNewCallback sub k m).eventCallbackMap k').map EventCallBack.eventName =
      (m.eventCallbackMap k').map EventCallBack.eventName := by
  by_cases hk : k' = k
  · subst hk
    rw [addNewCallback]
    simp only [Function.update_self]
    cases m.eventCallbackMap k' <;> rfl
  · rw [addNewCallback]
    simp only [Function.update_of_ne hk]

theorem names_some {k : String} {cb : EventCallBack σ} (h : m.eventCallbackMap k = some cb)
    (hn : (m'.eventCallbackMap k).map EventCallBack.eventName = (m.eventCallbackMap k).map EventCallBack.eventName) :
    ∃ cb', m'.eventCallbackMap k = some cb' ∧ cb'.eventName = cb.eventName := by
  rw [h,Option.map_some] at hn
  exact Option.map_eq_some_iff.mp hn

/-- One more call, as long as it asks for the same. -/
theorem Leftover.step (h : Leftover sub key stored m₀ m) (hr : Registered sub m key stored m' r) :
    Leftover sub key stored m₀ m' := by
  cases hr with
  | untouched f _ hm => exact ⟨hm ▸ h.kept,hm ▸ h.new⟩
  | found k _ _ hm =>
    subst hm
    refine ⟨fun k' cb hk' => ?_,fun k' cb hk' hno => ?_⟩
    · obtain ⟨cb₁,h₁,hn₁⟩ := h.kept k' cb hk'
      obtain ⟨cb₂,h₂,hn₂⟩ := names_some h₁ (@addNewCallback_names σ sub m k _)
      exact ⟨cb₂,h₂,hn₂.trans hn₁⟩
    · obtain ⟨cb₁,h₁,hn₁⟩ := names_some hk' (@addNewCallback_names σ sub m k _).symm
      obtain ⟨hs,hkey⟩ := h.new k' cb₁ h₁ hno
      exact ⟨hn₁.symm.trans hs,hkey⟩
  | added cb _ hfind hcb hm =>
    have hnone : findCallback sub m₀ key = none := by
      rcases h.find with he | ⟨-,hsome,-⟩
      · exact he.symm.trans hfind
      · exact nomatch hfind.symm.trans hsome
    refine ⟨fun k' cb' hk' => ?_,fun k' cb' hk' hno => ?_⟩
    · have hne : k' ≠ key := fun he => nomatch (he ▸ findCallback_none hnone).symm.trans hk'
      rw [hm,Function.update_of_ne hne]
      exact h.kept k' cb' hk'
    · rw [hm] at hk'
      by_cases hne : k' = key
      · subst hne
        rw [Function.update_self] at hk'
        cases hk'
        exact ⟨hcb,rfl,hnone⟩
      · rw [Function.update_of_ne hne] at hk'
        exact h.new k' cb' hk' hno

/-- Where a call that succeeds registers the callback. -/
theorem Registered.entry {k : String} (h : Registered sub m key stored m' (.ok k)) :
    findCallback sub m key = some k ∧
        (m'.eventCallbackMap k).map EventCallBack.eventName = (m.eventCallbackMap k).map EventCallBack.eventName ∨
      findCallback sub m key = none ∧ k = key ∧
        (m'.eventCallbackMap k).map EventCallBack.eventName = some stored := by
  cases h with
  | found k' _ hfind hm hk =>
    have he := hk k rfl
    subst he hm
    exact Or.inl ⟨hfind,addNewCallback_names⟩
  | added cb _ hfind hcb hm hk =>
    have he := hk k rfl
    subst he
    refine Or.inr ⟨hfind,rfl,?_⟩
    rw [hm,Function.update_self,Option.map_some,hcb]

/-- Two calls with one request, one of them after calls that failed. -/
theorem Leftover.same_entry {m₀' : Maps σ} {k k₀ : String} (h : Leftover sub key stored m₀ m)
    (hr : Registered sub m key stored m' (.ok k)) (hr₀ : Registered sub m₀ key stored m₀' (.ok k₀)) :
    k = k₀ ∧ (m'.eventCallbackMap k).map EventCallBack.eventName =
      (m₀'.eventCallbackMap k₀).map EventCallBack.eventName := by
  rcases h.find with hsame | ⟨hnone,hkey,cb,hcb,hname⟩
  · rcases hr.entry with ⟨hf,hn⟩ | ⟨hf,hk,hn⟩ <;> rcases hr₀.entry with ⟨hf₀,hn₀⟩ | ⟨hf₀,hk₀,hn₀⟩
    · have hk : k = k₀ := Option.some.inj (hf.symm.trans (hsame.trans hf₀))
      subst hk
      obtain ⟨cb,hcb⟩ := findCallback_some hf₀
      obtain ⟨cb',hcb',hname⟩ := h.kept k cb hcb
      refine ⟨rfl,?_⟩
      rw [hn,hn₀,hcb,hcb',Option.map_some,Option.map_some,hname]
    · exact nomatch hf.symm.trans (hsame.trans hf₀)
    · exact nomatch hf.symm.trans (hsame.trans hf₀)
    · exact ⟨hk.trans hk₀.symm,hn.trans hn₀.symm⟩
  · have hk₀ : k₀ = key ∧ (m₀'.eventCallbackMap k₀).map EventCallBack.eventName = some stored := by
      rcases hr₀.entry with ⟨hf₀,-⟩ | ⟨-,hk₀,hn₀⟩
      · exact nomatch hnone.symm.trans hf₀
      · exact ⟨hk₀,hn₀⟩
    rcases hr.entry with ⟨hf,hn⟩ | ⟨hf,-,-⟩
    · have hk : k = key := Option.some.inj (hf.symm.trans hkey)
      subst hk
      refine ⟨hk₀.1.symm,?_⟩
      rw [hn,hk₀.2,hcb,Option.map_some,hname]
    · exact nomatch hf.symm.trans hkey

end Leftovers

section Passes
variable {σ : Type} (proc : Process) (server : Server)

/-- No call that fails has rewritten the name: not the first one, -/
def PlainFirst (sub : Subscription σ) (p : Pass) (m : Maps σ) : Prop :=
  ∀ f m' name, connectEvent proc server sub .zmq p.zmq m sub.event.eventName = (.error f,m',name) →
    ¬Rewrites proc server sub .zmq p.zmq m sub.event.eventName

def PlainPass (p : Pass) (e : EventNotConnected σ) (m : Maps σ) : Prop :=
  eventHeartbeatPeriod - 1 ≤ p.now - e.lastHeartbeat → ∀ f m' name,
    connectEvent proc server e.sub .zmq p.zmq m e.eventName = (.error f,m',name) →
    ¬Rewrites proc server e.sub .zmq p.zmq m e.eventName

/-- and none of a retry. -/
def Plain : List Pass → EventNotConnected σ → Maps σ → Prop
  | [],_,_ => True
  | p::ps,e,m => PlainPass proc server p e m ∧
      ∀ e' m', notConectedEvent proc server p e m = (.waiting e',m') → Plain ps e' m'

variable {proc server} {sub : Subscription σ} {kind : ChannelType} {a : Attempt} {m m' m₀ : Maps σ}
  {e e' : EventNotConnected σ} {name name' request key : String} {r : Except Failure String} {p : Pass} {ps : List Pass}
  {info : Option DevVarLongStringArray} {idl : Int} {f : Failure}

theorem call_length (h : connectEvent proc server sub kind a m name = (r,m',name')) :
    name.length ≤ name'.length ∧
      (Rewrites proc server sub kind a m name → name.length < name'.length) := by
  rcases call_name h with ⟨-,rfl⟩ | ⟨hno,rfl⟩
  · have hlen : (addIdlPrefix name).length = 5 + name.length := by
      rw [addIdlPrefix,String.length_append]
      rfl
    exact ⟨by omega,fun _ => by omega⟩
  · exact ⟨Nat.le_refl _,fun hr => absurd hr hno⟩

/-- What can become of an event in a pass. -/
inductive PassCase (proc : Process) (server : Server) (p : Pass) (e : EventNotConnected σ) (m : Maps σ) :
    Outcome σ → Maps σ → Prop
  | early (hnow : ¬eventHeartbeatPeriod - 1 ≤ p.now - e.lastHeartbeat) : PassCase proc server p e m (.waiting e) m
  | zmq (key : String) (m' : Maps σ) (name : String)
    (hz : connectEvent proc server e.sub .zmq p.zmq m e.eventName = (.ok key,m',name)) :
    PassCase proc server p e m (.connected .zmq p.zmq e.eventName key) m'
  | zmqFailed (f : Failure) (m' : Maps σ) (name : String) (e' : EventNotConnected σ)
    (hnow : eventHeartbeatPeriod - 1 ≤ p.now - e.lastHeartbeat)
    (hz : connectEvent proc server e.sub .zmq p.zmq m e.eventName = (.error f,m',name))
    (hsub : e'.sub = e.sub) (hname : e'.eventName = name) : PassCase proc server p e m (.waiting e') m'
  | notifd (f : Failure) (m₁ m' : Maps σ) (name name' key : String)
    (hnow : eventHeartbeatPeriod - 1 ≤ p.now - e.lastHeartbeat) (hf : f.isCommandNotFound = true)
    (hz : connectEvent proc server e.sub .zmq p.zmq m e.eventName = (.error f,m₁,name))
    (hn : connectEvent proc server e.sub .notifd p.notifd m₁ name = (.ok key,m',name')) :
    PassCase proc server p e m (.connected .notifd p.notifd name key) m'
  | notifdFailed (f f' : Failure) (m₁ m' : Maps σ) (name name' : String) (e' : EventNotConnected σ)
    (hnow : eventHeartbeatPeriod - 1 ≤ p.now - e.lastHeartbeat) (hf : f.isCommandNotFound = true)
    (hz : connectEvent proc server e.sub .zmq p.zmq m e.eventName = (.error f,m₁,name))
    (hn : connectEvent proc server e.sub .notifd p.notifd m₁ name = (.error f',m',name'))
    (hsub : e'.sub = e.sub) (hname : e'.eventName = name') : PassCase proc server p e m (.waiting e') m'

theorem pass_cases : PassCase proc server p e m (notConectedEvent proc server p e m).1
    (notConectedEvent proc server p e m).2 := by
  unfold notConectedEvent
  split
  · rename_i hnow
    split
    · rename_i key m' name hz
      exact .zmq key m' name hz
    · rename_i f m' name hz
      split
      · rename_i hf
        split
        · rename_i key m₂ name' hn
          exact .notifd f m' m₂ name name' key hnow hf hz hn
        · rename_i f' m₂ name' hn
          exact .notifdFailed f f' m' m₂ name name' _ hnow hf hz hn rfl rfl
      · exact .zmqFailed f m' name _ hnow hz rfl rfl
  · rename_i hnow
    exact .early hnow

theorem pass_case {out : Outcome σ} (h : notConectedEvent proc server p e m = (out,m')) :
    PassCase proc server p e m out m' := by
  have hcase := @pass_cases σ proc server m e p
  rw [h] at hcase
  exact hcase

/-- The name only grows, and it does if a call that fails rewrites it. -/
theorem pass_waiting_length (h : notConectedEvent proc server p e m = (.waiting e',m')) :
    e.eventName.length ≤ e'.eventName.length ∧
      (¬PlainPass proc server p e m → e.eventName.length < e'.eventName.length) := by
  cases pass_case h with
  | early hnow => exact ⟨Nat.le_refl _,fun hno => absurd (fun hdue => absurd hdue hnow) hno⟩
  | zmqFailed f _ name _ hnow hz _ hname =>
    obtain ⟨hle,hlt⟩ := call_length hz
    rw [hname]
    refine ⟨hle,fun hno => ?_⟩
    by_cases hrw : Rewrites proc server e.sub .zmq p.zmq m e.eventName
    · exact hlt hrw
    · exact absurd (fun _ _ _ _ _ => hrw) hno
  | notifdFailed f f' m₁ _ name name' _ hnow hf hz hn _ hname =>
    obtain ⟨hle,hlt⟩ := call_length hz
    obtain ⟨hle',-⟩ := call_length hn
    rw [hname]
    refine ⟨hle.trans hle',fun hno => ?_⟩
    by_cases hrw : Rewrites proc server e.sub .zmq p.zmq m e.eventName
    · exact Nat.lt_of_lt_of_le (hlt hrw) hle'
    · exact absurd (fun _ _ _ _ _ => hrw) hno

theorem pass_connected_length (h : notConectedEvent proc server p e m = (.connected kind a request key,m')) :
    e.eventName.length ≤ request.length ∧
      (¬PlainPass proc server p e m → e.eventName.length < request.length) := by
  cases pass_case h with
  | zmq _ _ name hz =>
    refine ⟨Nat.le_refl _,fun hno => absurd (fun _ f m₁ name₁ herr => ?_) hno⟩
    exact nomatch hz.symm.trans herr
  | notifd f m₁ _ name name' _ hnow hf hz hn =>
    obtain ⟨hle,hlt⟩ := call_length hz
    refine ⟨hle,fun hno => ?_⟩
    by_cases hrw : Rewrites proc server e.sub .zmq p.zmq m e.eventName
    · exact hlt hrw
    · exact absurd (fun _ _ _ _ _ => hrw) hno

theorem retries_length (h : retries proc server ps e m = (.connected kind a request key,m')) :
    e.eventName.length ≤ request.length ∧
      (¬Plain proc server ps e m → e.eventName.length < request.length) := by
  induction ps generalizing e m with
  | nil => cases h
  | cons p ps ih =>
    rw [retries] at h
    split at h
    · rename_i e' m₁ hpass
      obtain ⟨hle,hlt⟩ := pass_waiting_length hpass
      obtain ⟨hle',hlt'⟩ := ih h
      refine ⟨hle.trans hle',fun hno => ?_⟩
      by_cases hp : PlainPass proc server p e m
      · have hrest : ¬Plain proc server ps e' m₁ := fun hrest => hno ⟨hp,fun e₂ m₂ he => by
          cases hpass.symm.trans he
          exact hrest⟩
        exact Nat.lt_of_le_of_lt hle (hlt' hrest)
      · exact Nat.lt_of_lt_of_le (hlt hp) hle'
    · rename_i hdone
      obtain ⟨hle,hlt⟩ := pass_connected_length h
      refine ⟨hle,fun hno => ?_⟩
      by_cases hp : PlainPass proc server p e m
      · exact absurd ⟨hp,fun e₂ m₂ he => absurd he (hdone e₂ m₂)⟩ hno
      · exact hlt hp

/-- The consumer that the server serves, and what it is answered. -/
inductive Serves (server : Server) (sub : Subscription σ) : ChannelType → Option DevVarLongStringArray → Int → Prop
  | zmq (info : DevVarLongStringArray)
    (h : server.zmqEventSubscriptionChange (subscriberInfo sub .zmq sub.event.eventName) = .ok info) :
    Serves server sub .zmq (some info) ((deviceIdl (some info)).toOption.getD 0)
  | notifd
    (h : ∀ info, server.zmqEventSubscriptionChange (subscriberInfo sub .zmq sub.event.eventName) ≠ .ok info) :
    Serves server sub .notifd none 0

theorem serves_exists (server : Server) (sub : Subscription σ) : ∃ kind info idl, Serves server sub kind info idl := by
  cases h : server.zmqEventSubscriptionChange (subscriberInfo sub .zmq sub.event.eventName) with
  | ok info => exact ⟨_,_,_,.zmq info h⟩
  | error f => exact ⟨_,_,_,.notifd (fun info hok => nomatch h.symm.trans hok)⟩

theorem zmq_answer (h : getSubscriptionInfo proc server sub .zmq a name = .ok info) :
    ∃ answer, info = some answer ∧
      server.zmqEventSubscriptionChange (subscriberInfo sub .zmq name) = .ok answer := by
  unfold getSubscriptionInfo subscriptionCommand at h
  cases hcommand : a.command with
  | some fault =>
    rw [hcommand] at h
    cases h
  | none =>
    rw [hcommand] at h
    cases hserver : server.zmqEventSubscriptionChange (subscriberInfo sub .zmq name) with
    | error f =>
      rw [hserver] at h
      cases h
    | ok answer =>
      rw [hserver] at h
      cases h
      exact ⟨answer,rfl,rfl⟩

theorem notifd_answer (h : getSubscriptionInfo proc server sub .notifd a name = .ok info) : info = none := by
  unfold getSubscriptionInfo subscriptionCommand at h
  simp only [] at h
  repeat' split at h
  all_goals cases h
  rfl

/-- All calls for one name that get an answer get the same. -/
theorem Serves.answer (hs : Serves server sub kind info idl) {adm : String} {info' : Option DevVarLongStringArray}
    {idl' : Int} (h : subscriptionInfo proc server sub kind a m sub.event.eventName = .ok (adm,info',idl')) :
    info' = info ∧ idl' = idl := by
  obtain ⟨hinfo,hidl⟩ := subscriptionInfo_parts h
  cases hs with
  | zmq answer hserver =>
    obtain ⟨answer',rfl,hserver'⟩ := zmq_answer hinfo
    have he : answer' = answer := Except.ok.inj (hserver'.symm.trans hserver)
    subst he
    refine ⟨rfl,?_⟩
    rw [hidl]
    rfl
  | notifd _ =>
    have hnone := notifd_answer hinfo
    subst hnone
    exact ⟨rfl,(Except.ok.inj hidl).symm⟩

/-- The name and the key with which the event is registered at once. -/
def storedName (sub : Subscription σ) (idl : Int) : String := rewrite sub idl sub.event.eventName

def storedKey (sub : Subscription σ) (kind : ChannelType) (info : Option DevVarLongStringArray) (idl : Int) : String :=
  eventKey kind info (getCallbackKey sub.deviceName sub.objName sub.event (storedName sub idl))

theorem Serves.registered (hs : Serves server sub kind info idl)
    (h : connectEvent proc server sub kind a m sub.event.eventName = (r,m',name')) :
    m' = m ∧ (∃ f, r = .error f) ∨ Registered sub m (storedKey sub kind info idl) (storedName sub idl) m' r := by
  cases hinfo : subscriptionInfo proc server sub kind a m sub.event.eventName with
  | error f =>
    rw [connectEvent_error hinfo] at h
    cases h
    exact Or.inl ⟨rfl,f,rfl⟩
  | ok answer =>
    obtain ⟨adm,info',idl'⟩ := answer
    obtain ⟨rfl,rfl⟩ := hs.answer hinfo
    rw [connectEvent_answered hinfo] at h
    cases h
    exact Or.inr registered

theorem Serves.leftover (hs : Serves server sub kind info idl)
    (hl : Leftover sub (storedKey sub kind info idl) (storedName sub idl) m₀ m)
    (h : connectEvent proc server sub kind a m sub.event.eventName = (r,m',name')) :
    Leftover sub (storedKey sub kind info idl) (storedName sub idl) m₀ m' := by
  rcases hs.registered h with ⟨rfl,-⟩ | hr
  · exact hl
  · exact hl.step hr

/-- The newer consumer changes nothing where it is not served. -/
theorem zmq_unserved
    (hno : ∀ info, server.zmqEventSubscriptionChange (subscriberInfo sub .zmq name) ≠ .ok info)
    (h : connectEvent proc server sub .zmq a m name = (r,m',name')) :
    m' = m ∧ name' = name ∧ ∃ f, r = .error f := by
  cases hinfo : subscriptionInfo proc server sub .zmq a m name with
  | error f =>
    rw [connectEvent_error hinfo] at h
    cases h
    exact ⟨rfl,rfl,f,rfl⟩
  | ok answer =>
    obtain ⟨answer',-,hserver⟩ := zmq_answer (subscriptionInfo_parts hinfo).1
    exact absurd hserver (hno answer')

variable (sub kind info idl m₀) in
/-- An event that still has its name, after calls that left at most its own entry. -/
structure Unchanged (e : EventNotConnected σ) (m : Maps σ) : Prop where
  same : e.sub = sub
  name : e.eventName = sub.event.eventName
  left : Leftover sub (storedKey sub kind info idl) (storedName sub idl) m₀ m

variable (proc server sub kind info idl m₀) in
/-- A call with the first name that succeeds, after such calls. -/
def Succeeds (kind' : ChannelType) (a : Attempt) (request key : String) (m' : Maps σ) : Prop :=
  kind' = kind ∧ request = sub.event.eventName ∧ ∃ m name,
    Leftover sub (storedKey sub kind info idl) (storedName sub idl) m₀ m ∧
      connectEvent proc server sub kind a m sub.event.eventName = (.ok key,m',name)

theorem plain_name (h : connectEvent proc server sub kind a m name = (r,m',name'))
    (hno : ¬Rewrites proc server sub kind a m name) : name' = name :=
  ((call_name h).resolve_left (fun hr => hno hr.1)).2

/-- A call of the newer consumer that fails, in a pass that does not rewrite. -/
theorem zmq_failed (hs : Serves server sub kind info idl)
    (hl : Leftover sub (storedKey sub kind info idl) (storedName sub idl) m₀ m)
    (h : connectEvent proc server sub .zmq a m sub.event.eventName = (.error f,m',name')) :
    Leftover sub (storedKey sub kind info idl) (storedName sub idl) m₀ m' ∧
      (f.isCommandNotFound = true → kind = .notifd) := by
  cases hs with
  | zmq answer hserver =>
    refine ⟨(Serves.zmq answer hserver).leftover hl h,fun hf => ?_⟩
    exact absurd hserver ((call_not_found h hf).2.2 answer)
  | notifd hno =>
    obtain ⟨rfl,-⟩ := zmq_unserved hno h
    exact ⟨hl,fun _ => rfl⟩

theorem Unchanged.waiting (hs : Serves server sub kind info idl) (hu : Unchanged sub kind m₀ info idl e m)
    (hp : PlainPass proc server p e m) (h : notConectedEvent proc server p e m = (.waiting e',m')) :
    Unchanged sub kind m₀ info idl e' m' := by
  obtain ⟨rfl,hname,hleft⟩ := hu
  unfold PlainPass at hp
  rw [hname] at hp
  cases pass_case h with
  | early _ => exact ⟨rfl,hname,hleft⟩
  | zmqFailed f _ name _ hnow hz hsub he =>
    rw [hname] at hz
    exact ⟨hsub,he.trans (plain_name hz (hp hnow f _ name hz)),(zmq_failed hs hleft hz).1⟩
  | notifdFailed f f' m₁ _ name name' _ hnow hf hz hn hsub he =>
    rw [hname] at hz
    have hsame := plain_name hz (hp hnow f _ name hz)
    subst hsame
    obtain ⟨hleft',hkind⟩ := zmq_failed hs hleft hz
    have hk := hkind hf
    subst hk
    exact ⟨hsub,he.trans (plain_name hn notifd_not_rewrites),hs.leftover hleft' hn⟩

theorem Unchanged.connected {kind' : ChannelType} (hs : Serves server sub kind info idl)
    (hu : Unchanged sub kind m₀ info idl e m) (hp : PlainPass proc server p e m)
    (h : notConectedEvent proc server p e m = (.connected kind' a request key,m')) :
    Succeeds proc server sub kind m₀ info idl kind' a request key m' := by
  obtain ⟨rfl,hname,hleft⟩ := hu
  unfold PlainPass at hp
  rw [hname] at hp
  cases pass_case h with
  | zmq _ _ name hz =>
    rw [hname] at hz
    have hk : ChannelType.zmq = kind := by
      cases hs with
      | zmq => rfl
      | notifd hno =>
        obtain ⟨-,-,f,hf⟩ := zmq_unserved hno hz
        cases hf
    subst hk
    exact ⟨rfl,hname,m,name,hleft,hz⟩
  | notifd f m₁ _ name name' _ hnow hf hz hn =>
    rw [hname] at hz
    have hsame := plain_name hz (hp hnow f _ _ hz)
    subst hsame
    obtain ⟨hleft',hkind⟩ := zmq_failed hs hleft hz
    have hk := hkind hf
    subst hk
    exact ⟨rfl,rfl,m₁,name',hleft',hn⟩

theorem plain_retries {kind' : ChannelType} (hs : Serves server sub kind info idl)
    (hu : Unchanged sub kind m₀ info idl e m) (hp : Plain proc server ps e m)
    (h : retries proc server ps e m = (.connected kind' a request key,m')) :
    Succeeds proc server sub kind m₀ info idl kind' a request key m' := by
  induction ps generalizing e m with
  | nil => cases h
  | cons p ps ih =>
    rw [retries] at h
    split at h
    · rename_i e' m₁ hpass
      exact ih (hu.waiting hs hp.1 hpass) (hp.2 e' m₁ hpass) h
    · exact hu.connected hs hp.1 h

/-- A subscription whose first call fails is kept as it is, if that call does not rewrite its name. -/
theorem plain_first (hs : Serves server sub kind info idl) (hp : PlainFirst proc server sub p m₀)
    (h : subscribeEvent proc server sub p m₀ = (.waiting e,m)) : Unchanged sub kind m₀ info idl e m := by
  unfold subscribeEvent at h
  split at h
  · cases h
  · cases h
  · rename_i errors m₁ name hz
    obtain ⟨hleft,hkind⟩ := zmq_failed hs Leftover.refl hz
    split at h
    · rename_i hf
      have hk := hkind hf
      subst hk
      split at h
      · cases h
      · cases h
      · rename_i errors' m₂ name' hn
        split at h
        · cases h
        · cases h
          exact ⟨rfl,plain_name hn notifd_not_rewrites,hs.leftover hleft hn⟩
    · cases h
      exact ⟨rfl,plain_name hz (hp _ _ _ hz),hleft⟩

theorem first_length (h : subscribeEvent proc server sub p m₀ = (.waiting e,m)) :
    sub.event.eventName.length ≤ e.eventName.length ∧
      (¬PlainFirst proc server sub p m₀ → sub.event.eventName.length < e.eventName.length) := by
  unfold subscribeEvent at h
  split at h
  · cases h
  · cases h
  · rename_i errors m₁ name hz
    obtain ⟨hle,hlt⟩ := call_length hz
    split at h
    · rename_i hf
      split at h
      · cases h
      · cases h
      · rename_i errors' m₂ name' hn
        split at h
        · cases h
        · cases h
          refine ⟨(call_length hn).1,fun hno => absurd (fun f m' name₁ herr => ?_) hno⟩
          -- that the command does not exist is not found out by a call that rewrites
          have hname := (call_not_found hz hf).2.1
          rcases call_name hz with ⟨-,hrw⟩ | ⟨hno',-⟩
          · have hlen := congrArg String.length (hname.symm.trans hrw)
            rw [addIdlPrefix,String.length_append] at hlen
            have hidl : "idl5_".length = 5 := rfl
            omega
          · exact hno'
    · cases h
      refine ⟨hle,fun hno => ?_⟩
      by_cases hrw : Rewrites proc server sub .zmq p.zmq m₀ sub.event.eventName
      · exact hlt hrw
      · exact absurd (fun _ _ _ _ => hrw) hno

/-- A subscription that is retried gives what it would have given at once exactly when no call that failed had
rewritten the name. -/
theorem retry_idempotent {key₀ name₀ : String} {m₁ m₀' : Maps σ}
    (hfirst : subscribeEvent proc server sub p m₀ = (.waiting e,m₁))
    (hretry : retries proc server ps e m₁ = (.connected kind a request key,m'))
    (honce : connectEvent proc server sub kind a m₀ sub.event.eventName = (.ok key₀,m₀',name₀)) :
    (request = sub.event.eventName ∧ key = key₀ ∧
      (m'.eventCallbackMap key).map EventCallBack.eventName =
        (m₀'.eventCallbackMap key₀).map EventCallBack.eventName) ↔
      PlainFirst proc server sub p m₀ ∧ Plain proc server ps e m₁ := by
  constructor
  · rintro ⟨rfl,-,-⟩
    obtain ⟨hle,hlt⟩ := first_length hfirst
    obtain ⟨hle',hlt'⟩ := retries_length hretry
    by_contra hno
    rcases not_and_or.mp hno with hno | hno
    · exact absurd (Nat.lt_of_lt_of_le (hlt hno) hle') (Nat.lt_irrefl _)
    · exact absurd (Nat.lt_of_le_of_lt hle (hlt' hno)) (Nat.lt_irrefl _)
  · rintro ⟨hplain,hplains⟩
    obtain ⟨kind',info,idl,hs⟩ := serves_exists server sub
    obtain ⟨hkind,hrequest,m,name,hleft,hcall⟩ :=
      plain_retries hs (plain_first hs hplain hfirst) hplains hretry
    subst hkind
    refine ⟨hrequest,?_⟩
    rcases hs.registered hcall with ⟨-,f,hf⟩ | hr
    · cases hf
    rcases hs.registered honce with ⟨-,f,hf⟩ | hr₀
    · cases hf
    exact hleft.same_entry hr hr₀

def hostProcess : Process := ⟨"tango://h:1/",[],(4,3,5),fun _ => false⟩

/-- A device of IDL 6 whose server knows the event with and without its release. -/
def newServer : Server where
  zmqEventSubscriptionChange := fun args =>
    if args.getD 3 "" = "change" ∨ args.getD 3 "" = "idl5_change" then
      .ok ⟨[1001,6,1000,0,0,40305],
        ["tcp://h:10","tcp://h:11","tango://h:1/d/a/1/x.idl5_change","tango://h:1/dserver/s/1"]⟩
    else .error (failed "API_WrongNumberOfArgs" "The event type you sent is not  valid event type" "DServer")
  eventSubscriptionChange := fun _ => .error .other

def changeOfX : Subscription Unit := ⟨"tango://h:1/d/a/1","d/a/1",true,"x",.change,[],(),1⟩

/-- A call without faults, and one to which the subscription command is not answered. -/
def good : Attempt := ⟨0,.ok "dserver/s/1",none,.ok 0,none,none⟩

def unanswered : Attempt := {good with command := some ⟨failed "API_DeviceTimedOut" "Timeout" "Connection",by decide⟩}

/-- The ZMQ thread fails to connect the event. -/
def disconnected : Attempt :=
  {good with connectEventSystem := some ⟨failed "API_ZmqFailed" "Failed to create connection to event!" "Zmq",by decide⟩}

theorem retry_idempotent_unanswered : ∃ e m₁ key m' key₀ m₀' name₀,
    subscribeEvent hostProcess newServer changeOfX ⟨0,unanswered,good⟩ Maps.empty = (.waiting e,m₁) ∧
    retries hostProcess newServer [⟨10,good,good⟩] e m₁ = (.connected .zmq good "change" key,m') ∧
    connectEvent hostProcess newServer changeOfX .zmq good Maps.empty "change" = (.ok key₀,m₀',name₀) ∧
    key = key₀ := by
  have hplain : PlainFirst hostProcess newServer changeOfX ⟨0,unanswered,good⟩ Maps.empty := by
    rintro f m' name - ⟨adm,info,idl,hok,-⟩
    cases hok
  have hiff := retry_idempotent
    (rfl : subscribeEvent hostProcess newServer changeOfX ⟨0,unanswered,good⟩ Maps.empty = (.waiting _,_))
    (rfl : retries hostProcess newServer [⟨10,good,good⟩] _ _ = (.connected .zmq good "change" _,_))
    (rfl : connectEvent hostProcess newServer changeOfX .zmq good Maps.empty "change" = (.ok _,_,_))
  refine ⟨_,_,_,_,_,_,_,rfl,rfl,rfl,(hiff.mpr ⟨hplain,?_,?_⟩).2.1⟩
  · rintro - f m' name herr
    cases herr
  · intro e' m' h
    cases h

theorem retry_rewrites_again : ∃ e m₁ key m' key₀ m₀' name₀,
    subscribeEvent hostProcess newServer changeOfX ⟨0,disconnected,good⟩ Maps.empty = (.waiting e,m₁) ∧
    retries hostProcess newServer [⟨10,good,good⟩] e m₁ = (.connected .zmq good "idl5_change" key,m') ∧
    connectEvent hostProcess newServer changeOfX .zmq good Maps.empty "change" = (.ok key₀,m₀',name₀) ∧
    (m'.eventCallbackMap key).map EventCallBack.eventName = some "idl5_idl5_change" ∧
    (m₀'.eventCallbackMap key₀).map EventCallBack.eventName = some "idl5_change" :=
  ⟨_,_,_,_,_,_,_,rfl,rfl,rfl,rfl,rfl⟩

end Passes

end CppTango.Client.Connecting
