import CppTango.Client.PushEvent
import CppTango.Lib.Outcome
import Mathlib.Data.List.Forall2

namespace CppTango.Client.PushEvent

section Spec
variable {α δ : Type} {k : UserDataEventType}

def Content.isData {β : Type} : Content β → Bool
  | .errors _ => false
  | .data _ => true

/-- The object a message leaves behind; none when it carries errors. -/
def Content.object {β : Type} : Content β → Option β
  | .errors _ => none
  | .data d => d.object

def receivedErrors (evName : String) : Unmarshalled DevErrorList → DevErrorList
  | .done e => e
  | .threw _ => malformed evName

/-- The message in the error for data that cannot be decoded. -/
def malformedMsg (idl : Int) (k : UserDataEventType) (evName : String) : String :=
  if k = .attValue ∧ idl < 4 then
    if idl = 3 then " (AttributeValue_3 -> Device_3Impl....) " ++ evName
    else " (AttributeValue -> Device_2Impl....) " ++ evName
  else evName

/-- The value of an event with decoded data. -/
def decodedValue (idl : Int) (full : String) : (k : UserDataEventType) → Payload α k → Value α
  | .attConf,info => .conf (some info) (decide (4 < idl))
  | .attReady,v =>
    let v : AttDataReady := v
    .ready v.dataType v.ctr
  | .devIntr,v =>
    let v : DevIntrChange α := v
    .intr v.devStarted (some v.lists)
  | .pipe,v => .pipe (some v)
  | .attValue,v =>
    let v : DeviceAttribute α := v
    .attr (some (if 4 ≤ idl then {v with name := attName full} else v)) false

/-- The data of a forwarded attribute, whose message is handed on. -/
def HandedOn (cb : EventCallBack δ) (k : UserDataEventType) (content : Content (Payload α k)) : Prop :=
  cb.fwdAtt = true ∧ k ≠ .attConf ∧ content.isData = true

instance (cb : EventCallBack δ) (k : UserDataEventType) (content : Content (Payload α k)) :
    Decidable (HandedOn cb k content) := inferInstanceAs (Decidable (_ ∧ _))

/-- Data that were decoded, or the error that says they could not be. -/
def CarriesData {β : Type} (full msg : String) (value : β → Value α) (d : Unmarshalled β) (e : EventData δ α) :
    Prop :=
  match d with
  | .threw _ => e.errors = malformed msg
  | .done v => e.errors = [] ∧ e.attrName = full ∧ e.value = value v

/-- An event for a subscriber with the errors of the message, or with its data. -/
def Carries (cb : EventCallBack δ) (m : ZmqMessage α k) (s : EventSubscribe δ) (e : EventData δ α) : Prop :=
  e.device = s.device ∧ e.event = getEventName m.evName ∧
    if HandedOn cb k m.content then e.errors = [] ∧ ∃ v, e.value = .attr v true
    else
      match m.content with
      | .errors l => e.errors = receivedErrors m.evName l
      | .data d =>
        CarriesData cb.clientAttributeName (malformedMsg cb.deviceIdl k m.evName)
          (decodedValue cb.deviceIdl cb.clientAttributeName k) d e

/-- What is told before the event: only that some were missed. -/
def Told (errMissedEvent : Bool) (s : EventSubscribe δ) (told : List (EventData δ α)) : Prop :=
  if errMissedEvent then ∃ e, told = [e] ∧ e.device = s.device ∧ e.errors = missedErrors else told = []

/-- An active subscriber gets one event, a deactivated one nothing. -/
def Served (cb : EventCallBack δ) (m : ZmqMessage α k) (s : EventSubscribe δ) (got : List (EventData δ α)) :
    Prop :=
  if 0 < s.id then
    ∃ told e, got = told ++ [e] ∧ Carries cb m s e ∧ Told (decide (2 ≤ missedBefore cb m)) s told
  else got = []

def ServesAll (busy : Bool) (cb : EventCallBack δ) (m : ZmqMessage α k) : Prop :=
  ∃ got, (pushZmqEvent busy cb m).1 = .ok got ∧ List.Forall₂ (Served cb m) cb.callbackList got

/-- Whether an event of the message can be made for a subscriber: the object that is copied, shared or handed
over is there. -/
def InHand (cb : EventCallBack δ) (k : UserDataEventType) (content : Content (Payload α k)) (last : Bool)
    (s : EventSubscribe δ) : Prop :=
  HandedOn cb k content ∨
    match k with
    | .attConf => (content.isData = true → 2 ≤ cb.deviceIdl) ∧ (content.object = none → last = true)
    | .attReady => True
    | .devIntr => content.object ≠ none
    | .pipe => content.object = none → last = true
    | .attValue =>
      content.isData = true → content.object = none → 4 ≤ cb.deviceIdl → s.callback = none → last = true

/-- The configuration of an IDL 2 device is unmarshalled outside of any try block. -/
def Escapes (cb : EventCallBack δ) (k : UserDataEventType) (content : Content (Payload α k)) : Prop :=
  k = .attConf ∧ cb.deviceIdl = 2 ∧ ∃ made, content = .data (.threw made)

theorem unmarshal_ok_iff {cb : EventCallBack δ} (evName : String) {content : Content (Payload α k)} :
    (∃ l, unmarshal cb evName k content = .ok l) ↔ ¬ Escapes cb k content := by
  cases content with
  | errors l => simp [unmarshal,Escapes]
  | data d =>
    cases k with
    | attConf =>
      by_cases h4 : 2 < cb.deviceIdl
      · simp [unmarshal,unmarshalData,unmarshalConf,h4,Escapes]
        omega
      · by_cases h2 : cb.deviceIdl = 2
        · cases d <;> simp [unmarshal,unmarshalData,unmarshalConf,h2,Escapes]
        · simp [unmarshal,unmarshalData,unmarshalConf,h4,h2,Escapes]
    | _ => by_cases hf : cb.fwdAtt = true <;> simp [unmarshal,unmarshalData,hf,Escapes]

section Event
variable {cb : EventCallBack δ} {evName full event : String} {l : Locals α} {last : Bool} {s : EventSubscribe δ}

theorem copied_map {β γ : Type} {o : Option β} {f : Option β → γ} {p : γ → Prop} :
    (∃ e, (copied last o).map f = .ok e ∧ p e) ↔ (o = none → last = true) ∧ p (f o) := by
  cases o with
  | some v => simp [copied,Except.map]
  | none => cases last <;> simp [copied,Except.map]

theorem flags_unmarshalErrors (u : Unmarshalled DevErrorList) :
    (unmarshalErrors k evName u : Locals α) = { flags α k with errors := receivedErrors evName u } := by
  cases u <;> rfl

/-- With an error list no object is there. -/
theorem event_errors (errors : DevErrorList) (p : EventData δ α → Prop)
    (hp : ∀ e : EventData δ α, e.errors = errors → e.device = s.device → e.event = event → p e) :
    (∃ e, eventFor full event { flags α k with errors := errors } last s = .ok e ∧ p e) ↔
      (k ≠ .devIntr) ∧ (k = .attConf ∨ k = .pipe → last = true) := by
  cases k with
  | attConf => simp [eventFor,flags,copied_map]; exact fun _ => hp _ rfl rfl rfl
  | attReady => simp [eventFor,flags]; exact hp _ rfl rfl rfl
  | devIntr => simp [eventFor,flags,devIntrChangeEventData]
  | pipe => simp [eventFor,flags,copied_map]; exact fun _ => hp _ rfl rfl rfl
  | attValue =>
    cases last <;> simp [eventFor,flags,newFwdEventData] <;> exact hp _ rfl rfl rfl

theorem event_handed_on :
    ∃ e : EventData δ α, eventFor full event { noUnmarshalling := true } last s = .ok e ∧
      e.device = s.device ∧ e.event = event ∧ e.errors = [] ∧ ∃ v, e.value = .attr v true := by
  cases last <;> simp [eventFor,newFwdEventData]

/-- The value of an attribute: a subscriber with a queue gets a copy of an object that may not be there. -/
theorem event_value (idl : Int) (errors : DevErrorList) (o : Option (DeviceAttribute α)) (p : EventData δ α → Prop) :
    (∃ e, eventFor full event { vers := idl, devAttr := o, errors := errors } last s = .ok e ∧ p e) ↔
      (o = none → 4 ≤ idl → s.callback = none → last = true) ∧
        p ⟨s.device,full,event,.attr o false,errors⟩ := by
  cases last with
  | true => simp [eventFor,newFwdEventData]
  | false =>
    cases o with
    | some v => simp [eventFor,newFwdEventData]
    | none =>
      by_cases hq : s.callback = none ∧ 4 ≤ idl
      · simp [eventFor,newFwdEventData,hq]
      · have hq' : 4 ≤ idl → ¬ s.callback = none := fun h4 hc => hq ⟨hc,h4⟩
        simp [eventFor,newFwdEventData,hq]
        exact fun _ => hq'

end Event

section Kinds
variable {full evName event : String} {l : Locals α} {last : Bool} {s : EventSubscribe δ}

/-- An event for the subscriber that carries the data. -/
def Makes {β : Type} (full msg event : String) (value : β → Value α) (u : Unmarshalled β) (l : Locals α) (last : Bool)
    (s : EventSubscribe δ) : Prop :=
  ∃ e, eventFor full event l last s = .ok e ∧ e.device = s.device ∧ e.event = event ∧
    CarriesData full msg value u e

theorem makes_conf {idl : Int} {u : Unmarshalled α} (hl : unmarshalConf idl evName u = .ok l) :
    Makes full evName event (fun v => .conf (some v) (decide (4 < idl))) u l last s ↔
      2 ≤ idl ∧ (u.object = none → last = true) := by
  unfold Makes
  unfold unmarshalConf at hl
  by_cases h2 : 2 < idl
  · rw [if_pos h2] at hl
    cases hl
    have hle : 2 ≤ idl := by omega
    cases u <;> simp [eventFor,flags,copied_map,Unmarshalled.object,Unmarshalled.errors,CarriesData,hle]
  · rw [if_neg h2] at hl
    by_cases he : idl = 2
    · rw [if_pos he] at hl
      cases u with
      | threw made => cases hl
      | done info =>
        cases hl
        simp [eventFor,flags,copied_map,Unmarshalled.object,CarriesData,he]
    · rw [if_neg he] at hl
      cases hl
      have hlt : ¬ 2 ≤ idl := by omega
      cases u <;> cases last <;> simp [eventFor,newFwdEventData,malformed,CarriesData,hlt]

theorem makes_ready {u : Unmarshalled AttDataReady} :
    Makes full evName event (fun v => (.ready v.dataType v.ctr : Value α)) u
      { flags α .attReady with
        attReady := u.renamed (fun v => {v with name := full})
        errors := u.errors evName } last s := by
  cases u with
  | done v => exact ⟨_,rfl,rfl,rfl,rfl,rfl,rfl⟩
  | threw made => cases made <;> exact ⟨_,rfl,rfl,rfl,rfl⟩

theorem makes_intr {u : Unmarshalled (DevIntrChange α)} :
    Makes full evName event (fun v => .intr v.devStarted (some v.lists)) u
      { flags α .devIntr with devIntrChange := u.object, errors := u.errors evName } last s ↔ u.object ≠ none := by
  unfold Makes
  cases u with
  | done v => simp [eventFor,flags,devIntrChangeEventData,Unmarshalled.object,Unmarshalled.errors,CarriesData]
  | threw made =>
    cases made <;>
      simp [eventFor,flags,devIntrChangeEventData,Unmarshalled.object,Unmarshalled.errors,CarriesData]

theorem makes_pipe {u : Unmarshalled (DevicePipe α)} :
    Makes full evName event (fun v => .pipe (some v)) u
      { flags α .pipe with devPipe := u.object, errors := u.errors evName } last s ↔
        (u.object = none → last = true) := by
  unfold Makes
  cases u <;> simp [eventFor,flags,copied_map,Unmarshalled.object,Unmarshalled.errors,CarriesData]

theorem makes_value {idl : Int} {u : Unmarshalled (DeviceAttribute α)} :
    Makes full (malformedMsg idl .attValue evName) event
        (fun v => .attr (some (if 4 ≤ idl then {v with name := attName full} else v)) false) u
        (unmarshalValue idl full evName u) last s ↔
      (u.object = none → 4 ≤ idl → s.callback = none → last = true) := by
  unfold Makes unmarshalValue
  by_cases h4 : 4 ≤ idl
  · have hlt : ¬ idl < 4 := by omega
    rw [if_pos h4,event_value]
    cases u <;> simp [CarriesData,Unmarshalled.renamed,Unmarshalled.object,Unmarshalled.errors,malformedMsg,h4,hlt]
  · have hlt : idl < 4 := by omega
    by_cases h3 : idl = 3
    · rw [if_neg h4,if_pos h3,event_value]
      cases u <;> simp [CarriesData,Unmarshalled.object,Unmarshalled.errors,malformedMsg,h3]
    · rw [if_neg h4,if_neg h3,event_value]
      cases u <;> simp [CarriesData,Unmarshalled.object,Unmarshalled.errors,malformedMsg,h4,h3,hlt]

end Kinds

/-- One event: it carries what it should exactly when its object is in hand. -/
theorem event_carries_iff {cb : EventCallBack δ} {m : ZmqMessage α k} {l : Locals α} {last : Bool}
    {s : EventSubscribe δ} (hl : unmarshal cb m.evName k m.content = .ok l) :
    (∃ e, eventFor cb.clientAttributeName (getEventName m.evName) l last s = .ok e ∧ Carries cb m s e) ↔
      InHand cb k m.content last s := by
  obtain ⟨evName,hk,ctr,content⟩ := m
  cases content with
  | errors u =>
    cases hl
    rw [flags_unmarshalErrors,event_errors]
    · cases k <;> simp [InHand,HandedOn,Content.isData,Content.object]
    · exact fun e he hd hev => ⟨hd,hev,by simpa [HandedOn,Content.isData] using he⟩
  | data u =>
    by_cases hf : cb.fwdAtt = true ∧ k ≠ .attConf
    · have hon : HandedOn cb k (.data u) := ⟨hf.1,hf.2,rfl⟩
      simp only [unmarshal,hf,and_self,if_true,not_false_eq_true,ne_eq,Except.ok.injEq] at hl
      subst hl
      obtain ⟨e,he,hd,hev,hc⟩ := @event_handed_on α δ cb.clientAttributeName (getEventName evName) last s
      refine iff_of_true ⟨e,he,hd,hev,?_⟩ (Or.inl hon)
      simpa only [hon,if_true] using hc
    · have hoff : ¬ HandedOn cb k (.data u) := fun h => hf ⟨h.1,h.2.1⟩
      rw [unmarshal,if_neg hf] at hl
      simp only [Carries,InHand,hoff,if_false,false_or]
      cases k with
      | attConf => exact (makes_conf hl).trans ⟨fun h => ⟨fun _ => h.1,h.2⟩,fun h => ⟨h.1 rfl,h.2⟩⟩
      | attReady =>
        cases hl
        exact iff_of_true makes_ready trivial
      | devIntr =>
        cases hl
        exact makes_intr
      | pipe =>
        cases hl
        exact makes_pipe
      | attValue =>
        cases hl
        exact makes_value.trans ⟨fun h _ => h,fun h => h rfl⟩

/-- A callback object that throws when it is told of missed events never gets the event. -/
def Hears (errMissedEvent : Bool) (s : EventSubscribe δ) : Prop :=
  errMissedEvent = true → ∀ c, s.callback = some c → c.throwsOnMissed = false

theorem executeOrStore_iff {err : Bool} {missed e : EventData δ α} {s : EventSubscribe δ} {p : EventData δ α → Prop}
    (hd : missed.device = s.device) (he : missed.errors = missedErrors) :
    (∃ told e', executeOrStore err missed e s = told ++ [e'] ∧ p e' ∧ Told err s told) ↔ p e ∧ Hears err s := by
  have hlast : ∀ {l told : List (EventData δ α)} {e'}, l ++ [e] = told ++ [e'] → told = l ∧ e' = e := fun h =>
    ⟨(List.append_inj_left' h rfl).symm,by simpa using (List.append_inj_right' h rfl).symm⟩
  have hafter : executeOrStore true missed e s = [missed,e] →
      ((∃ told e', executeOrStore true missed e s = told ++ [e'] ∧ p e' ∧ Told true s told) ↔ p e) := fun h => by
    rw [h]
    constructor
    · rintro ⟨told,e',hto,hp,-⟩
      exact (hlast (l := [missed]) hto).2 ▸ hp
    · exact fun hp => ⟨[missed],e,rfl,hp,missed,rfl,hd,he⟩
  cases err with
  | false =>
    constructor
    · rintro ⟨told,e',hto,hp,-⟩
      exact ⟨(hlast (l := []) hto).2 ▸ hp,fun h => nomatch h⟩
    · exact fun h => ⟨[],e,rfl,h.1,rfl⟩
  | true =>
    cases hc : s.callback with
    | none =>
      rw [hafter (by simp [executeOrStore,hc])]
      simp [Hears,hc]
    | some c =>
      cases ht : c.throwsOnMissed with
      | false =>
        rw [hafter (by simp [executeOrStore,hc,ht])]
        simp [Hears,hc,ht]
      | true =>
        refine iff_of_false ?_ (fun h => absurd (h.2 rfl c hc) (by simp [ht]))
        rintro ⟨told,e',hto,-,_,rfl,-⟩
        simp [executeOrStore,hc,ht] at hto

theorem missedData_told (full event : String) (l : Locals α) (device : δ) :
    (missedData full event l device).device = device ∧ (missedData full event l device).errors = missedErrors := by
  unfold missedData dataReadyEventData
  split_ifs <;> exact ⟨rfl,rfl⟩

/-- One pass of the loop. -/
theorem pass_served_iff {cb : EventCallBack δ} {m : ZmqMessage α k} {l : Locals α} {last : Bool}
    {s : EventSubscribe δ} (hl : unmarshal cb m.evName k m.content = .ok l) :
    (∃ got, pass cb.clientAttributeName (getEventName m.evName) (decide (2 ≤ missedBefore cb m)) l last s = .ok got ∧
        Served cb m s got) ↔
      (0 < s.id → Hears (decide (2 ≤ missedBefore cb m)) s ∧ InHand cb k m.content last s) := by
  by_cases hid : 0 < s.id
  · simp only [pass,Served,hid,if_true,true_imp_iff]
    rw [← event_carries_iff hl]
    constructor
    · rintro ⟨got,hgot,hserved⟩
      obtain ⟨e,he,rfl⟩ := Lib.except_map_ok.mp hgot
      have h := missedData_told cb.clientAttributeName (getEventName m.evName) l s.device
      obtain ⟨hc,hh⟩ := (executeOrStore_iff h.1 h.2).mp hserved
      exact ⟨hh,e,he,hc⟩
    · rintro ⟨hh,e,he,hc⟩
      have h := missedData_told cb.clientAttributeName (getEventName m.evName) l s.device
      exact ⟨_,Lib.except_map_ok.mpr ⟨e,he,rfl⟩,(executeOrStore_iff h.1 h.2).mpr ⟨hc,hh⟩⟩
  · simp [pass,Served,hid]

theorem fire_served_iff {cb : EventCallBack δ} {m : ZmqMessage α k} {l : Locals α}
    (hl : unmarshal cb m.evName k m.content = .ok l) (nb : Nat) (subs : List (EventSubscribe δ)) (ctr : Nat) :
    (∃ got, fire cb.clientAttributeName (getEventName m.evName) (decide (2 ≤ missedBefore cb m)) l nb ctr subs =
        .ok got ∧ List.Forall₂ (Served cb m) subs got) ↔
      ∀ x ∈ subs.zipIdx ctr, 0 < x.1.id →
        Hears (decide (2 ≤ missedBefore cb m)) x.1 ∧ InHand cb k m.content (decide (x.2 + 1 = nb)) x.1 := by
  induction subs generalizing ctr with
  | nil => simp [fire]
  | cons s subs ih =>
    rw [List.zipIdx_cons,List.forall_mem_cons,← ih (ctr + 1),← pass_served_iff hl]
    constructor
    · rintro ⟨got,hgot,hserved⟩
      obtain ⟨g,hg,hrest⟩ := Lib.except_bind_ok.mp hgot
      obtain ⟨others,ho,hr⟩ := Lib.except_bind_ok.mp hrest
      cases hr
      cases hserved with
      | cons hs hrest => exact ⟨⟨g,hg,hs⟩,others,ho,hrest⟩
    · rintro ⟨⟨g,hg,hs⟩,others,ho,hrest⟩
      exact ⟨g :: others,Lib.except_bind_ok.mpr ⟨g,hg,Lib.except_bind_ok.mpr ⟨others,ho,rfl⟩⟩,.cons hs hrest⟩

theorem served_nothing_iff {cb : EventCallBack δ} {m : ZmqMessage α k} {subs : List (EventSubscribe δ)} :
    List.Forall₂ (Served cb m) subs (subs.map (fun _ => [])) ↔ ∀ x ∈ subs.zipIdx, ¬ 0 < x.1.id := by
  rw [List.forall₂_map_right_iff,List.forall₂_same]
  have hmem : (∀ s ∈ subs, ¬ 0 < s.id) ↔ ∀ x ∈ subs.zipIdx, ¬ 0 < x.1.id := by
    conv_lhs => rw [← List.zipIdx_map_fst 0 subs]
    exact List.forall_mem_map
  rw [← hmem]
  refine forall_congr' (fun s => imp_congr_right (fun _ => ?_))
  simp [Served]

/-- Every active subscriber gets its one event exactly when the message is not dropped, the monitor is free, its
unmarshalling does not escape, and for each of them the object of the event is in hand. -/
theorem push_serves_iff (busy : Bool) (cb : EventCallBack δ) (m : ZmqMessage α k) :
    ServesAll busy cb m ↔
      (Repeated cb m ∨ ¬ Escapes cb k m.content) ∧
        ∀ x ∈ cb.callbackList.zipIdx, 0 < x.1.id →
          ¬ Repeated cb m ∧ busy = false ∧ Hears (decide (2 ≤ missedBefore cb m)) x.1 ∧
            InHand cb k m.content (decide (x.2 + 1 = cb.callbackList.length)) x.1 := by
  unfold ServesAll pushZmqEvent
  by_cases hrep : Repeated cb m
  · simp only [hrep,if_true,Except.ok.injEq,exists_eq_left',served_nothing_iff,not_true_eq_false,true_or,false_and,
      imp_false,true_and]
  · rw [if_neg hrep]
    simp only [hrep,false_or,not_false_eq_true,true_and]
    rw [← unmarshal_ok_iff m.evName]
    constructor
    · rintro ⟨got,hgot,hserved⟩
      obtain ⟨l,hl,hrest⟩ := Lib.except_bind_ok.mp hgot
      refine ⟨⟨l,hl⟩,?_⟩
      cases busy with
      | true =>
        cases hrest
        exact fun x hx hid => absurd hid (served_nothing_iff.mp hserved x hx)
      | false =>
        have h := (fire_served_iff hl _ _ 0).mp ⟨got,hrest,hserved⟩
        exact fun x hx hid => ⟨rfl,h x hx hid⟩
    · rintro ⟨⟨l,hl⟩,h⟩
      cases busy with
      | true =>
        exact ⟨_,Lib.except_bind_ok.mpr ⟨l,hl,rfl⟩,
          served_nothing_iff.mpr (fun x hx hid => Bool.noConfusion (h x hx hid).1)⟩
      | false =>
        obtain ⟨got,hgot,hserved⟩ := (fire_served_iff hl _ _ 0).mpr (fun x hx hid => (h x hx hid).2)
        exact ⟨got,Lib.except_bind_ok.mpr ⟨l,hl,hgot⟩,hserved⟩

end Spec

section Examples

/-- Two callbacks listen to a pipe. -/
def twoCallbacks : EventCallBack Nat :=
  ⟨5,1,false,false,"tango://host:10000/sys/tg_test/1/state_pipe",[⟨1,some ⟨false⟩,0⟩,⟨2,some ⟨false⟩,1⟩]⟩

/-- The device pushes an error for it. -/
def pipeError : ZmqMessage Unit .pipe where
  evName := "tango://host:10000/sys/tg_test/1/state_pipe.pipe"
  dataType_eq := by decide
  ctr := 2
  content := .errors (.done [⟨"PipeFailed",.err,"The pipe cannot be read","DeviceImpl::push_pipe_event"⟩])

theorem pipe_error_crashes : ¬ ServesAll false twoCallbacks pipeError := by
  rintro ⟨got,hgot,-⟩
  have hnull : (pushZmqEvent false twoCallbacks pipeError).1 = .error .nullPointer := rfl
  rw [hnull] at hgot
  cases hgot

end Examples

end CppTango.Client.PushEvent
