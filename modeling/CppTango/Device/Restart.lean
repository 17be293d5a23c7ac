import CppTango.Device.Lock
import CppTango.Event.Supplier
import CppTango.Lib.Keyed
import CppTango.Lib.Steps
import CppTango.Polling.PropertyRuns

namespace CppTango.Device.Restart

open CppTango.Lib Polling Polling.PoolConf Polling.Properties

section Attributes

/-- The event types whose clients are kept by release. -/
inductive ClientEvent
  | change | alarm | periodic | archive | user | attrConf
deriving DecidableEq

/-- The subscription dates of a type; not every type has them all. -/
inductive Topic
  | v3 | v4 | v5 | v6
deriving DecidableEq

def topic : ClientEvent → Nat → Option Topic
  | .alarm,6 => some .v6
  | .alarm,_ => none
  | .attrConf,6 | .attrConf,5 => some .v5
  | .attrConf,_ => some .v3
  | _,6 | _,5 => some .v5
  | _,4 => some .v4
  | _,_ => some .v3

/-- A release whose clients can have the events of a type. -/
abbrev Release (t : ClientEvent) := {r : Nat // (topic t r).isSome = true}

def releaseTopic {t : ClientEvent} (r : Release t) : Topic := (topic t r.1).get r.2

/-- Dates are none where they are 0. -/
structure Attribute where
  name : Text
  subscription : ClientEvent → Topic → Option Int
  clientLib : (t : ClientEvent) → List (Release t)
  dataReady : Option Int
  useZmq : Bool
  useNotifd : Bool

def newAttribute (name : Text) : Attribute := ⟨name,fun _ _ => none,fun _ => [],none,false,false⟩

variable (now : Int)

def recent (date : Option Int) : Bool := date.any (fun d => now - d ≤ Event.resubscribePeriod)

/-- `change_event_subscribed` and its like -/
def Attribute.eventSubscribed (t : ClientEvent) (a : Attribute) : Bool :=
  [Topic.v6,.v5,.v4,.v3].any (fun p => recent now (a.subscription t p))

def setEventSub (t : ClientEvent) (p : Topic) (a : Attribute) : Attribute :=
  {a with subscription := fun t' p' => if t' = t ∧ p' = p then some now else a.subscription t' p'}

def setClientLib {t : ClientEvent} (r : Release t) (a : Attribute) : Attribute :=
  if r ∈ a.clientLib t then a else {a with clientLib := Function.update a.clientLib t (a.clientLib t ++ [r])}

end Attributes

section States

structure AttributeEventSubscriptionState where
  attributeName : Text
  clients : (t : ClientEvent) → List (Release t)
  hasDataReadyEventClients : Bool
  hasZmqEventChannel : Bool
  hasNotifdEventChannel : Bool

def eventTypes : List ClientEvent := [.change,.alarm,.periodic,.archive,.attrConf,.user]

variable (now : Int)

/-- None for an attribute without a client. -/
def getEventSubscriptionState (a : Attribute) : Option AttributeEventSubscriptionState :=
  if eventTypes.any (fun t => a.eventSubscribed now t) || recent now a.dataReady then
    some {
      attributeName := a.name
      clients := fun t => if a.eventSubscribed now t then a.clientLib t else []
      hasDataReadyEventClients := recent now a.dataReady
      hasZmqEventChannel := a.useZmq
      hasNotifdEventChannel := a.useNotifd}
  else none

def addClient {t : ClientEvent} (a : Attribute) (r : Release t) : Attribute :=
  setClientLib r (setEventSub now t (releaseTopic r) a)

def setMarks (events : AttributeEventSubscriptionState) (a : Attribute) : Attribute :=
  {a with
    dataReady := if events.hasDataReadyEventClients then some now else a.dataReady
    useNotifd := a.useNotifd || events.hasNotifdEventChannel
    useZmq := a.useZmq || events.hasZmqEventChannel}

/-- What the loop over the states does with an attribute. -/
def setEventSubscriptionState (events : AttributeEventSubscriptionState) (a : Attribute) : Attribute :=
  setMarks now events (eventTypes.foldl (fun a t => (events.clients t).foldl (addClient now) a) a)

end States

section Devices

structure Pipe where
  name : Text
  eventSubscription : Option Int

def Pipe.isEventSubscribed (now : Int) (p : Pipe) : Bool :=
  p.eventSubscription.any (fun d => now - d < Event.resubscribePeriod)

structure PollObj where
  type : PollObjType
  name : Text
  upd : Nat

structure DeviceImpl where
  name : Text
  attrList : List Attribute
  pipes : List Pipe
  eventIntrChangeSubscription : Option Int
  locking : Lock.Locking
  pollObjList : List PollObj

structure DeviceEventSubscriptionState where
  hasDevIntrChangeEventClients : Bool
  attributeEvents : List AttributeEventSubscriptionState
  pipeEvents : List Text

variable (now : Int)

def anyDevIntrClient (d : DeviceImpl) : Bool :=
  d.eventIntrChangeSubscription.any (fun s => now - s < Event.resubscribePeriod)

def DeviceImpl.getEventSubscriptionState (d : DeviceImpl) : DeviceEventSubscriptionState where
  hasDevIntrChangeEventClients := anyDevIntrClient now d
  attributeEvents := d.attrList.filterMap (Restart.getEventSubscriptionState now)
  pipeEvents := (d.pipes.filter (Pipe.isEventSubscribed now)).map Pipe.name

def attrKey (a : Attribute) : Text := lower a.name

def pipeKey (p : Pipe) : Text := lower p.name

def setAttributes (events : List AttributeEventSubscriptionState) (l : List Attribute) : List Attribute × Bool :=
  changeAll attrKey (fun e => lower e.attributeName) (setEventSubscriptionState now) events l

def setPipes (events : List Text) (l : List Pipe) : List Pipe × Bool :=
  changeAll pipeKey lower (fun _ p => {p with eventSubscription := some now}) events l

/-- The flag is false where an exception left the rest undone. -/
def DeviceImpl.setEventSubscriptionState (events : DeviceEventSubscriptionState) (d : DeviceImpl) : DeviceImpl × Bool :=
  let d := {d with
    eventIntrChangeSubscription :=
      if events.hasDevIntrChangeEventClients then some now else d.eventIntrChangeSubscription}
  let attrs := setAttributes now events.attributeEvents d.attrList
  let d := {d with attrList := attrs.1}
  if attrs.2 then
    let pipes := setPipes now events.pipeEvents d.pipes
    ({d with pipes := pipes.1},pipes.2)
  else (d,false)

end Devices

section Restart

/-- A device as its class makes it, with what `add_obj_polling` asks about it: `authorized` says whether a period is
not below the least one, `served` whether the polling thread takes the request in time. -/
structure NewDevice where
  name : Text
  attrs : List Text
  pipes : List Text
  cmds : List Text
  polls : List PollObj
  idl3 : Bool
  isFwdAtt : Text → Bool
  authorized : PollObj → Bool
  served : PollObj → Bool
  attrNames : (attrs.map lower).Nodup
  pipeNames : (pipes.map lower).Nodup
  pollNames : (polls.map (fun p => (p.type,lower p.name))).Nodup

def NewDevice.create (n : NewDevice) (name : Text) : DeviceImpl where
  name := name
  attrList := n.attrs.map newAttribute
  pipes := n.pipes.map (fun p => ⟨p,none⟩)
  eventIntrChangeSubscription := none
  locking := Lock.unlocked
  pollObjList := n.polls

def NewDevice.has (n : NewDevice) (p : PollObj) : Bool :=
  match p.type with
  | .pollCmd => (n.cmds.map lower).contains (lower p.name)
  | .pollAttr => (n.attrs.map lower).contains (lower p.name)

/-- State and Status are polled as attributes. -/
def NewDevice.pollType (n : NewDevice) (p : PollObj) : PollObjType :=
  if n.idl3 ∧ isState (lower p.name) = true then .pollAttr else p.type

def NewDevice.refuses (n : NewDevice) (p : PollObj) : Bool :=
  (p.type = .pollCmd && lower p.name = "init".toList) || (p.upd ≠ 0 && (p.upd < 5 || !n.authorized p)) ||
    (p.type = .pollAttr && n.isFwdAtt (lower p.name)) || !n.served p

def pollKey (p : PollObj) : PollObjType × Text := (p.type,lower p.name)

/-- `add_obj_polling`, whose exceptions the caller drops -/
def addObjPolling (n : NewDevice) (polls : List PollObj) (p : PollObj) : List PollObj :=
  if n.has p = false ∨ n.refuses p = true ∨ polls.any (fun q => pollKey q = (n.pollType p,lower p.name)) then polls
  else polls ++ [⟨n.pollType p,lower p.name,p.upd⟩]

variable (now : Int)

/-- The end of `restart`, from the new device on. -/
def recreate (o : DeviceImpl) (lowerDName : Text) (n : NewDevice) : DeviceImpl × Bool :=
  let d := n.create lowerDName
  let d := {d with pollObjList := o.pollObjList.foldl (addObjPolling n) d.pollObjList}
  let (d,ok) := d.setEventSubscriptionState now (o.getEventSubscriptionState now)
  if ok then
    ({d with
      locking := if o.locking.deviceLocked ∧ o.locking.lockerClient ≠ none then o.locking else d.locking},true)
  else (d,false)

/-- The classes, each with its devices. -/
abbrev Server := List (List DeviceImpl)

def restartName (dName : Text) : Text :=
  let name := (lower dName).takeWhile (· ≠ '#')
  match find "://".toList name with
  | none => name
  | some p =>
    match findFrom '/' (p + 3) name with
    | none => name
    | some q => name.drop (q + 1)

/-- `check_lock_owner` throws. -/
def lockRefused (cl : Lock.ClientAddr) (st : Lock.Locking) : Bool :=
  st.deviceLocked && Lock.validLock now st && (!cl.clientIdent || Lock.notLocker cl st.lockerClient)

def called (name : Text) (d : DeviceImpl) : Bool := lower d.name = name

/-- The new device is made at the end of its class. -/
def replaceDevice (name : Text) (d : DeviceImpl) (s : Server) : Server :=
  updateFirst (fun devs => devs.any (called name)) (fun devs => devs.eraseP (called name) ++ [d]) s

def restart (dName : Text) (cl : Lock.ClientAddr) (n : NewDevice) (s : Server) : Server :=
  let name := restartName dName
  match s.flatten.find? (called name) with
  | none => s
  | some o =>
    if lockRefused now cl o.locking then s else replaceDevice name (recreate now o name n).1 s

/-- The devices that have clients, by their names; those that have clients of pipes only are not among them. -/
def serverEvents (s : Server) : List (Text × DeviceEventSubscriptionState) :=
  s.flatten.filterMap (fun d =>
    let events := d.getEventSubscriptionState now
    if events.hasDevIntrChangeEventClients || !events.attributeEvents.isEmpty then some (d.name,events) else none)

variable {α : Type}

/-- A loop over all, until an exception. -/
def throughAll (f : α → α × Bool) : List α → List α × Bool
  | [] => ([],true)
  | a::l =>
    if (f a).2 then
      let (l,ok) := throughAll f l
      ((f a).1 :: l,ok)
    else ((f a).1 :: l,false)

def setDevice (events : List (Text × DeviceEventSubscriptionState)) (d : DeviceImpl) : DeviceImpl × Bool :=
  match events.find? (fun e => e.1 = d.name) with
  | none => (d,true)
  | some e => d.setEventSubscriptionState now e.2

structure NewServer where
  classes : List (List NewDevice)
  names : (classes.flatten.map (fun n => lower n.name)).Nodup

def NewServer.start (back : NewServer) : Server := back.classes.map (fun devs => devs.map (fun n => n.create n.name))

def restartServer (back : NewServer) (s : Server) : Server :=
  (throughAll (throughAll (setDevice now (serverEvents now s))) back.start).1

end Restart

section Operations

inductive Subscription
  | clientEvent (name : Text) (t : ClientEvent) (release : Nat)
  | dataReady (name : Text)
  | pipe (name : Text)
  | interfaceChange

def setChannel (zmq : Bool) (a : Attribute) : Attribute :=
  if zmq then {a with useZmq := true} else {a with useNotifd := true}

variable (now : Int)

/-- `set_alarm_event_sub` throws for an old release. -/
def subscribeAttr (t : ClientEvent) (release : Nat) (a : Attribute) : Attribute :=
  if h : (topic t release).isSome = true then
    let a := setEventSub now t ((topic t release).get h) a
    if release ≠ 0 then setClientLib ⟨release,h⟩ a else a
  else a

def subscribeDevice (what : Subscription) (zmq : Bool) (d : DeviceImpl) : DeviceImpl :=
  match what with
  | .clientEvent name t release =>
    {d with attrList :=
      updateFirst (fun a => attrKey a = lower name) (fun a => subscribeAttr now t release (setChannel zmq a)) d.attrList}
  | .dataReady name =>
    {d with attrList :=
      updateFirst (fun a => attrKey a = lower name) (fun a => {setChannel zmq a with dataReady := some now}) d.attrList}
  | .pipe name =>
    {d with pipes :=
      updateFirst (fun p => pipeKey p = lower name) (fun p => {p with eventSubscription := some now}) d.pipes}
  | .interfaceChange => {d with eventIntrChangeSubscription := some now}

inductive LockRequest
  | lock (cl : Lock.ClientAddr) (validity : Int)
  | relock (cl : Lock.ClientAddr)
  | unlock (cl : Lock.ClientAddr) (forced : Bool)

def lockDevice (r : LockRequest) (d : DeviceImpl) : DeviceImpl :=
  let dev : Lock.Dev := ⟨String.ofList d.name,[],fun _ => none⟩
  match r with
  | .lock cl validity => {d with locking := (Lock.lock dev now cl validity d.locking).2}
  | .relock cl => {d with locking := (Lock.relock dev now cl d.locking).2}
  | .unlock cl forced => {d with locking := (Lock.unlock dev now cl forced d.locking).2}

def onDevice (name : Text) (f : DeviceImpl → DeviceImpl) (s : Server) : Server :=
  s.map (updateFirst (called (lower name)) f)

inductive Op
  | subscribe (now : Int) (name : Text) (what : Subscription) (zmq : Bool)
  | lockRequest (now : Int) (name : Text) (r : LockRequest)
  | devRestart (now : Int) (dName : Text) (cl : Lock.ClientAddr) (n : NewDevice)
  | restartServer (now : Int) (back : NewServer)

def after (s : Server) : Op → Server
  | .subscribe now name what zmq => onDevice name (subscribeDevice now what zmq) s
  | .lockRequest now name r => onDevice name (lockDevice now r) s
  | .devRestart now dName cl n => restart now dName cl n s
  | .restartServer now back => Restart.restartServer now back s

end Operations

end CppTango.Device.Restart
