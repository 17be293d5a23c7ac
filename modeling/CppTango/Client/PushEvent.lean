import CppTango.Client.ConnectEvent
import CppTango.Event.Supplier

namespace CppTango.Client.PushEvent

open Connecting (EventType behindDot modifierDbaseNo)

section Names

inductive UserDataEventType
  | attConf | attReady | devIntr | pipe | attValue
deriving DecidableEq, Repr

/-- `std::string::find`, for a text that is there. -/
def contains (sub : String) (s : List Char) : Bool := s.tails.any (fun t => sub.toList.isPrefixOf t)

/-- `get_event_name`: what follows the last dot, without its IDL prefix. -/
def getEventName (evName : String) : String :=
  let name := behindDot evName
  String.ofList (if contains "idl" name then name.drop 5 else name)

def dataType (evName : String) : UserDataEventType :=
  let name := getEventName evName
  if contains EventType.attrConf.eventName name.toList then .attConf
  else if name = EventType.dataReady.eventName then .attReady
  else if name = EventType.interfaceChange.eventName then .devIntr
  else if name = EventType.pipe.eventName then .pipe
  else .attValue

/-- The attribute name in a full one, up to the modifier of a device without database. -/
def attName (full : String) : String :=
  let name := (full.toList.reverse.takeWhile (· ≠ '/')).reverse
  match name.tails.findIdx? (fun t => modifierDbaseNo.toList.isPrefixOf t) with
  | some pos => String.ofList (name.take pos)
  | none => String.ofList name

end Names

section Payloads
variable {α : Type}

structure DeviceAttribute (α : Type) where
  name : String
  data : Option α
deriving DecidableEq

def DeviceAttribute.empty : DeviceAttribute α := ⟨"Name not set",none⟩

structure AttDataReady where
  name : String
  dataType : Int
  ctr : Int
deriving DecidableEq

/-- The commands and attributes of a device whose interface has changed. -/
structure DevIntrChange (α : Type) where
  devStarted : Bool
  lists : α
deriving DecidableEq

structure DevicePipe (α : Type) where
  name : String
  rootBlob : α
deriving DecidableEq

def Payload (α : Type) : UserDataEventType → Type
  | .attConf => α
  | .attReady => AttDataReady
  | .devIntr => DevIntrChange α
  | .pipe => DevicePipe α
  | .attValue => DeviceAttribute α

/-- What comes of unmarshalling: an object, or an exception that finds the object made already or not yet. -/
inductive Unmarshalled (β : Type)
  | done (v : β)
  | threw (made : Option β)

inductive Content (β : Type)
  | errors (l : Unmarshalled DevErrorList)
  | data (d : Unmarshalled β)

/-- A message of the kind its full event name tells; the error flag is the kind of content. -/
structure ZmqMessage (α : Type) (k : UserDataEventType) where
  evName : String
  dataType_eq : dataType evName = k
  ctr : UInt32
  content : Content (Payload α k)

end Payloads

section Subscribers

/-- A callback object of the user, which may throw when it is told that events were missed. -/
structure CallBack where
  throwsOnMissed : Bool

/-- Without a callback object events go to a queue; a negative id marks a subscriber as deactivated. -/
structure EventSubscribe (δ : Type) where
  id : Int
  callback : Option CallBack
  device : δ

structure EventCallBack (δ : Type) where
  deviceIdl : Int
  ctr : UInt32
  discardedEvent : Bool
  fwdAtt : Bool
  clientAttributeName : String
  callbackList : List (EventSubscribe δ)

inductive Value (α : Type)
  | attr (value : Option (DeviceAttribute α)) (message : Bool)
  | conf (info : Option α) (fwdConf : Bool)
  | ready (dataType ctr : Int)
  | intr (devStarted : Bool) (lists : Option α)
  | pipe (value : Option (DevicePipe α))
deriving DecidableEq

structure EventData (δ α : Type) where
  device : δ
  attrName : String
  event : String
  value : Value α
  errors : DevErrorList
deriving DecidableEq

/-- What ends the call: a read through a null pointer, or an exception nobody there catches. -/
inductive Fault
  | nullPointer | escaped
deriving DecidableEq

end Subscribers

section Unmarshal
variable {α δ : Type}

def Unmarshalled.object {β : Type} : Unmarshalled β → Option β
  | .done v => some v
  | .threw made => made

/-- `fill_deverror_for_malformed_event_data` -/
def malformed (msg : String) : DevErrorList :=
  [⟨"API_WrongEventData",.err,"Received malformed data for event " ++ msg,"fill_deverror_for_malformed_event_data"⟩]

/-- The errors around an object that is unmarshalled in a try block. -/
def Unmarshalled.errors {β : Type} (msg : String) : Unmarshalled β → DevErrorList
  | .done _ => []
  | .threw _ => malformed msg

/-- An object that is given the name of the subscription when it is complete. -/
def Unmarshalled.renamed {β : Type} (f : β → β) : Unmarshalled β → Option β
  | .done v => some (f v)
  | .threw made => made

/-- The local variables behind the unmarshalling; an absent object is a null pointer. -/
structure Locals (α : Type) where
  evAttrConf : Bool := false
  evAttrReady : Bool := false
  evDevIntr : Bool := false
  pipeEvent : Bool := false
  vers : Int := 0
  noUnmarshalling : Bool := false
  errors : DevErrorList := []
  devAttr : Option (DeviceAttribute α) := none
  attrInfoEx : Option α := none
  fwdConf : Bool := false
  attReady : Option AttDataReady := none
  devIntrChange : Option (DevIntrChange α) := none
  devPipe : Option (DevicePipe α) := none

def flags (α : Type) : UserDataEventType → Locals α
  | .attConf => { evAttrConf := true }
  | .attReady => { evAttrReady := true }
  | .devIntr => { evDevIntr := true }
  | .pipe => { pipeEvent := true }
  | .attValue => {}

def unmarshalErrors (k : UserDataEventType) (evName : String) : Unmarshalled DevErrorList → Locals α
  | .done e => { flags α k with errors := e }
  | .threw _ => { flags α k with errors := malformed evName }

/-- Devices of IDL 2 have no try block here, and older ones nothing at all. -/
def unmarshalConf (idl : Int) (evName : String) (u : Unmarshalled α) : Except Fault (Locals α) :=
  if 2 < idl then
    .ok { flags α .attConf with
      vers := if 4 < idl then idl else 3
      attrInfoEx := u.object
      fwdConf := decide (4 < idl) && u.object.isSome
      errors := u.errors evName }
  else if idl = 2 then
    match u with
    | .done info => .ok { flags α .attConf with vers := 2, attrInfoEx := some info }
    | .threw _ => .error .escaped
  else .ok {}

/-- Only values of IDL 4 and later are renamed. -/
def unmarshalValue (idl : Int) (full evName : String) (u : Unmarshalled (DeviceAttribute α)) : Locals α :=
  if 4 ≤ idl then
    { vers := idl, devAttr := u.renamed (fun v => {v with name := attName full}), errors := u.errors evName }
  else if idl = 3 then
    { vers := 3, devAttr := u.object, errors := u.errors (" (AttributeValue_3 -> Device_3Impl....) " ++ evName) }
  else
    { vers := 2, devAttr := u.object, errors := u.errors (" (AttributeValue -> Device_2Impl....) " ++ evName) }

def unmarshalData (idl : Int) (full evName : String) :
    (k : UserDataEventType) → Unmarshalled (Payload α k) → Except Fault (Locals α)
  | .attConf,u => unmarshalConf idl evName u
  | .attReady,u =>
    let u : Unmarshalled AttDataReady := u
    .ok { flags α .attReady with
      attReady := u.renamed (fun v => {v with name := full})
      errors := u.errors evName }
  | .devIntr,u => .ok { flags α .devIntr with devIntrChange := u.object, errors := u.errors evName }
  | .attValue,u => .ok (unmarshalValue idl full evName u)
  | .pipe,u => .ok { flags α .pipe with devPipe := u.object, errors := u.errors evName }

/-- The values of a forwarded attribute are handed on as they came. -/
def unmarshal (cb : EventCallBack δ) (evName : String) (k : UserDataEventType) :
    Content (Payload α k) → Except Fault (Locals α)
  | .errors l => .ok (unmarshalErrors k evName l)
  | .data d =>
    if cb.fwdAtt = true ∧ k ≠ .attConf then .ok { noUnmarshalling := true }
    else unmarshalData cb.deviceIdl cb.clientAttributeName evName k d

end Unmarshal

section Fire
variable {α δ : Type} (full event : String)

def dataReadyEventData (device : δ) (dr : Option AttDataReady) (errors : DevErrorList) : EventData δ α :=
  match dr with
  | some dr => ⟨device,dr.name,event,.ready dr.dataType dr.ctr,errors⟩
  | none => ⟨device,"Unknown",event,.ready (-1) (-1),errors⟩

def missedErrors : DevErrorList :=
  [⟨"API_MissedEvents",.err,"Missed some events! Zmq queue has reached HWM?","ZmqEventConsumer::push_zmq_event"⟩]

/-- What a subscriber is told first when events were missed. -/
def missedData (l : Locals α) (device : δ) : EventData δ α :=
  if !l.evAttrConf && !l.evAttrReady && !l.evDevIntr && !l.pipeEvent then
    ⟨device,full,event,.attr none false,missedErrors⟩
  else if !l.evAttrReady && !l.evDevIntr && !l.pipeEvent then ⟨device,full,event,.conf none false,missedErrors⟩
  else if !l.evDevIntr && !l.pipeEvent then dataReadyEventData event device none missedErrors
  else if !l.evDevIntr then ⟨device,full,event,.pipe none,missedErrors⟩
  else ⟨device,full,event,.intr false none,missedErrors⟩

/-- `newFwdEventData`: all but the last subscriber get a copy. -/
def newFwdEventData (l : Locals α) (last : Bool) (s : EventSubscribe δ) : Except Fault (EventData δ α) :=
  let e (value : Option (DeviceAttribute α)) : EventData δ α :=
    ⟨s.device,full,event,.attr value l.noUnmarshalling,l.errors⟩
  if last = false then
    if l.devAttr.isSome ∨ (s.callback.isNone ∧ 4 ≤ l.vers) then
      if l.noUnmarshalling then .ok (e (some .empty))
      else
        match l.devAttr with
        | some v => .ok (e (some v))
        | none => .error .nullPointer
    else .ok (e none)
  else if l.noUnmarshalling then .ok (e (some .empty))
  else .ok (e l.devAttr)

/-- The copy of an object for a subscriber that is not the last. -/
def copied {β : Type} (last : Bool) : Option β → Except Fault (Option β)
  | some v => .ok (some v)
  | none => if last then .ok none else .error .nullPointer

def devIntrChangeEventData (device : δ) (c : Option (DevIntrChange α)) (errors : DevErrorList) :
    Except Fault (EventData δ α) :=
  match c with
  | some c => .ok ⟨device,full,event,.intr c.devStarted (if errors = [] then some c.lists else none),errors⟩
  | none => .error .nullPointer

def eventFor (l : Locals α) (last : Bool) (s : EventSubscribe δ) : Except Fault (EventData δ α) :=
  if !l.evAttrConf && !l.evAttrReady && !l.evDevIntr && !l.pipeEvent then newFwdEventData full event l last s
  else if !l.evAttrReady && !l.evDevIntr && !l.pipeEvent then
    (copied last l.attrInfoEx).map (fun info => ⟨s.device,full,event,.conf info l.fwdConf,l.errors⟩)
  else if !l.evAttrReady && !l.pipeEvent then
    devIntrChangeEventData full event s.device l.devIntrChange l.errors
  else if !l.evAttrReady then
    (copied last l.devPipe).map (fun value => ⟨s.device,full,event,.pipe value,l.errors⟩)
  else .ok (dataReadyEventData event s.device l.attReady l.errors)

/-- `safe_execute_callback_or_store_data` -/
def executeOrStore (errMissedEvent : Bool) (missed e : EventData δ α) (s : EventSubscribe δ) :
    List (EventData δ α) :=
  if errMissedEvent then
    match s.callback with
    | some cb => if cb.throwsOnMissed then [missed] else [missed,e]
    | none => [missed,e]
  else [e]

def pass (errMissedEvent : Bool) (l : Locals α) (last : Bool) (s : EventSubscribe δ) :
    Except Fault (List (EventData δ α)) :=
  if 0 < s.id then
    (eventFor full event l last s).map (fun e =>
      executeOrStore errMissedEvent (missedData full event l s.device) e s)
  else .ok []

/-- The loop over the callbacks, with what each of them gets. -/
def fire (errMissedEvent : Bool) (l : Locals α) (cbNb : Nat) :
    Nat → List (EventSubscribe δ) → Except Fault (List (List (EventData δ α)))
  | _,[] => .ok []
  | cbCtr,s::rest => do
    let got ← pass full event errMissedEvent l (decide (cbCtr + 1 = cbNb)) s
    let others ← fire errMissedEvent l cbNb (cbCtr + 1) rest
    return got :: others

end Fire

section Push
variable {α δ : Type} {k : UserDataEventType}

def startCtr (cb : EventCallBack δ) (dsCtr : UInt32) : UInt32 := if 1 < dsCtr ∧ cb.ctr = 0 then dsCtr - 1 else cb.ctr

def missedBefore (cb : EventCallBack δ) (m : ZmqMessage α k) : Int32 := Event.missedEvent m.ctr (startCtr cb m.ctr)

/-- The second copy of a message that was sent twice. -/
def Repeated (cb : EventCallBack δ) (m : ZmqMessage α k) : Prop := missedBefore cb m = 0 ∧ cb.discardedEvent = false

instance (cb : EventCallBack δ) (m : ZmqMessage α k) : Decidable (Repeated cb m) :=
  inferInstanceAs (Decidable (_ ∧ _))

/-- `push_zmq_event` for a subscription that was found: what each of its callbacks gets. The monitor of the
callbacks may be busy for too long. -/
def pushZmqEvent (busy : Bool) (cb : EventCallBack δ) (m : ZmqMessage α k) :
    Except Fault (List (List (EventData δ α))) × EventCallBack δ :=
  if Repeated cb m then
    (.ok (cb.callbackList.map (fun _ => [])),{cb with ctr := startCtr cb m.ctr,discardedEvent := true})
  else
    let pushed := do
      let l ← unmarshal cb m.evName k m.content
      if busy then .ok (cb.callbackList.map (fun _ => []))
      else
        fire cb.clientAttributeName (getEventName m.evName) (decide (2 ≤ missedBefore cb m)) l
          cb.callbackList.length 0 cb.callbackList
    (pushed,{cb with ctr := m.ctr,discardedEvent := false})

end Push

end CppTango.Client.PushEvent
