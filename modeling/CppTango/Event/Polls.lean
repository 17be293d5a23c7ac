import CppTango.Device.MultiAttribute
import CppTango.Event.Archive
import CppTango.Event.Supplier

namespace CppTango.Event.Polls

open CppTango.Lib CppTango.Device CppTango.Device.Alarm

/-- The events that a reading of the polling thread may give. -/
inductive EventType
  | change | alarm | periodic | archive
deriving DecidableEq, Repr

def EventType.name : EventType → String
  | .change => "change"
  | .alarm => "alarm"
  | .periodic => "periodic"
  | .archive => "archive"

/-- An attribute with what a subscription looks at, and what is kept of its events. `compared` tells that its values
are compared with criteria: it is not the state, and of none of the types that have no criteria. -/
structure Attr where
  isPolled : Bool
  isFwdAtt : Bool
  isChangeEvent : Bool
  isAlarmEvent : Bool
  isArchiveEvent : Bool
  compared : Bool
  isCheckChangeCriteria : Bool
  isCheckArchiveCriteria : Bool
  relChange : Criteria
  absChange : Criteria
  archiveRelChange : Criteria
  archiveAbsChange : Criteria
  eventPeriod : Int
  archivePeriod : Int
  supply : EventType → Supplier
  prevChangeEvent : LastAttrValue (List Int)
  prevAlarmEvent : LastAttrValue (List Int)
  periodic : Periodic
  archive : Archive

/-- The devices of a server. Names are looked up in lower case, those of devices also among the aliases. -/
structure Server where
  autoAlarmOnChangeEvent : Bool
  deviceByName : String → Option String
  idlVers : String → Nat
  attr : String × List Char → Option Attr

section Subscribe

def Server.find (s : Server) (dev obj : String) : Except DevErrorList Attr :=
  match s.attr (dev,lowerName obj) with
  | some a => .ok a
  | none => .error (thrown "API_AttrNotFound" (obj ++ " attribute not found") "MultiAttribute::get_attr_by_name")

def Server.put (s : Server) (dev obj : String) (a : Attr) : Server :=
  { s with attr := Function.update s.attr (dev,lowerName obj) (some a) }

def subscriptionRefused (reason desc : String) : DevErrorList :=
  thrown reason desc "DServer::event_subscription"

def forwardedRefused (obj : String) : DevErrorList :=
  subscriptionRefused "API_NotSupportedFeature" ("The attribute " ++ obj ++ " is a forwarded attribute." ++
    "\nIt is not supported to subscribe events from forwarded attribute using Tango < 9. Please update!!")

def pollingRefused (obj : String) : DevErrorList :=
  subscriptionRefused "API_AttributePollingNotStarted"
    ("The polling (necessary to send events) for the attribute " ++ obj ++ " is not started")

def changeRefused (obj : String) : DevErrorList :=
  subscriptionRefused "API_EventPropertiesNotSet"
    ("Event properties (abs_change or rel_change) for attribute " ++ obj ++ " are not set")

def archiveRefused (obj : String) : DevErrorList :=
  subscriptionRefused "API_EventPropertiesNotSet" ("Archive event properties (archive_abs_change or " ++
    "archive_rel_change or archive_period) for attribute " ++ obj ++ " are not set")

/-- Events of an attribute that is not polled come from the code of the device. -/
def pushedByCode (autoAlarmOnChangeEvent : Bool) (a : Attr) : EventType → Bool
  | .change => a.isChangeEvent
  | .alarm => a.isAlarmEvent || (autoAlarmOnChangeEvent && a.isChangeEvent)
  | .archive => a.isArchiveEvent
  | .periodic => false

def Criteria.unset (c : Criteria) : Bool := c.low = intMax && c.high = intMax

/-- `event_subscription` for the action `subscribe`. -/
def eventSubscription (s : Server) (a : Attr) (obj : String) (event : EventType) (clientLib : Nat) :
    Except DevErrorList Unit :=
  if a.isFwdAtt && clientLib < 5 then .error (forwardedRefused obj)
  else if !a.isPolled && !a.isFwdAtt && !pushedByCode s.autoAlarmOnChangeEvent a event then
    .error (pollingRefused obj)
  else if event = .change && a.compared && a.isCheckChangeCriteria && Criteria.unset a.relChange &&
      Criteria.unset a.absChange then
    .error (changeRefused obj)
  else if event = .archive && a.compared && a.isCheckArchiveCriteria && Criteria.unset a.archiveAbsChange &&
      Criteria.unset a.archiveRelChange && a.archivePeriod = periodless then
    .error (archiveRefused obj)
  else .ok ()

def clientTooOld : DevErrorList :=
  thrown "API_ClientTooOld" "Alarm events are only supported from client library version 6 onwards."
    "Attribute::set_alarm_event_sub"

/-- `store_subscribed_client_info`. For alarm events there is one date only, that of release 6. -/
def storeSubscribedClient (event : EventType) (clientLib : Nat) (now : Int) (a : Attr) : Except DevErrorList Attr :=
  if event = .alarm ∧ clientLib ≠ 6 then .error clientTooOld
  else .ok { a with supply := Function.update a.supply event (storeSubscribedClientInfo clientLib now (a.supply event)) }

def deviceNotFound (dev : String) (origin : String) : DevErrorList :=
  thrown "API_DeviceNotFound" ("Device " ++ dev ++ " not found") "Util::get_device_by_name" ++
    thrown "API_DeviceNotFound" ("Device " ++ dev ++ " not found") origin

def Server.device (s : Server) (dev origin : String) : Except DevErrorList String :=
  match s.deviceByName dev with
  | some d => .ok d
  | none => .error (deviceNotFound dev origin)

def deviceTooOld (dev : String) : DevErrorList :=
  thrown "API_CommandNotFound" ("Device " ++ dev ++ " too old to use ZMQ event (it does not implement IDL 4)" ++
    "\nSimulate a CommandNotFound exception to move to notifd event system")
    "DServer::zmq_event_subscription_change"

/-- `zmq_event_subscription_change` for the action `subscribe`. -/
def zmqEventSubscriptionChange (s : Server) (dev obj : String) (event : EventType) (clientRelease : Nat) (now : Int) :
    Except DevErrorList Server := do
  let d ← s.device dev "DServer::zmq_event_subscription_change"
  if s.idlVers d < 4 then .error (deviceTooOld dev)
  else
    let a ← s.find d obj
    eventSubscription s a obj event (min clientRelease (s.idlVers d))
    let a ← storeSubscribedClient event (min clientRelease (s.idlVers d)) now a
    pure (s.put d obj { a with supply := Function.update a.supply event (initEventCptr (a.supply event)) })

/-- One event that a client confirms, under the name that it has registered. -/
structure Confirmed where
  dev : String
  obj : String
  topic : Topic
  event : EventType
deriving DecidableEq, Repr

/-- The release is read in the name of the event; a plain name is taken for one of release 4. -/
def Confirmed.clientLib (c : Confirmed) : Nat :=
  match c.topic with
  | .idl5 => 5
  | .plain => 4

def confirmOne (s : Server) (now : Int) (c : Confirmed) : Except DevErrorList Server := do
  let d ← s.device c.dev "DServer::event_confirm_subscription"
  let a ← s.find d c.obj
  eventSubscription s a c.obj c.event c.clientLib
  let a ← storeSubscribedClient c.event c.clientLib now a
  pure (s.put d c.obj a)

/-- `event_confirm_subscription`: the events one by one, up to the first that throws. -/
def eventConfirmSubscription (now : Int) : List Confirmed → Server → Except DevErrorList Unit × Server
  | [],s => (.ok (),s)
  | c :: cs,s =>
    match confirmOne s now c with
    | .error e => (.error e,s)
    | .ok s => eventConfirmSubscription now cs s

end Subscribe

section Poll
variable (t : IntType)

/-- What an event is pushed with. -/
inductive Pushed
  | change (e : ChangeEvent)
  | alarm (r : Reading (List Int))
  | periodic (e : PeriodicEvent (List Int))
  | archive (e : ArchiveEvent)

def Pushed.reading : Pushed → Reading (List Int)
  | .change e => e.reading
  | .alarm r => r
  | .periodic e => e.reading
  | .archive e => e.reading

/-- The alarm events have clients of release 6 only. -/
def expireAlarm (now : Int) (s : Supplier) : Supplier :=
  { s with
    clientLib := s.clientLib.foldl
      (fun libs release => if release = 6 ∧ resubscribePeriod ≤ now - s.subscription5 then libs.erase 6 else libs)
      s.clientLib }

def expireFor (event : EventType) (now : Int) (s : Supplier) : Supplier :=
  match event with
  | .alarm => expireAlarm now s
  | _ => expire now s

/-- `detect_and_push_change_event` and its kind: what is to be pushed, and the attribute after it. -/
def detect (event : EventType) (timeBefAttr : Int) (r : Reading (List Int)) (a : Attr) : Option (Option Pushed × Attr) :=
  match event with
  | .change =>
    (detectAndPushChangeEvent t a.relChange a.absChange r a.prevChangeEvent).map
      (fun p => (p.1.map .change,{ a with prevChangeEvent := p.2 }))
  | .alarm =>
    some (if (detectAndPushAlarmEvent r a.prevAlarmEvent).1 then some (.alarm r) else none,
      { a with prevAlarmEvent := (detectAndPushAlarmEvent r a.prevAlarmEvent).2 })
  | .periodic =>
    some ((detectAndPushPeriodicEvent a.eventPeriod timeBefAttr r a.periodic).1.map .periodic,
      { a with periodic := (detectAndPushPeriodicEvent a.eventPeriod timeBefAttr r a.periodic).2 })
  | .archive =>
    (detectAndPushArchiveEvent t a.archiveRelChange a.archiveAbsChange a.archivePeriod timeBefAttr r a.archive).map
      (fun p => (p.1.map .archive,{ a with archive := p.2 }))

/-- A message that is sent for an event of an attribute. -/
structure Sent where
  event : EventType
  message : Message Pushed

/-- What `detect_and_push_events` does for one event. The releases are looked at before the old ones are removed, and
the event is pushed to those that are left. -/
def pollOne (now timeBefAttr : Int) (r : Reading (List Int)) (event : EventType) (a : Attr) :
    Option (List Sent × Attr) :=
  if (a.supply event).clientLib = [] then some ([],a)
  else
    (detect t event timeBefAttr r a).map (fun p =>
      match p.1 with
      | none =>
        ([],{ p.2 with supply := Function.update p.2.supply event (expireFor event now (p.2.supply event)) })
      | some e =>
        ((pushEventLoop e (expireFor event now (p.2.supply event))).1.map (fun m => ⟨event,m⟩),
          { p.2 with
            supply := Function.update p.2.supply event
              (pushEventLoop e (expireFor event now (p.2.supply event))).2 }))

/-- `detect_and_push_events` after a reading of an attribute. -/
def detectAndPushEvents (now timeBefAttr : Int) (r : Reading (List Int)) (a : Attr) : Option (List Sent × Attr) := do
  let (change,a) ← pollOne t now timeBefAttr r .change a
  let (alarm,a) ← pollOne t now timeBefAttr r .alarm a
  let (periodic,a) ← pollOne t now timeBefAttr r .periodic a
  let (archive,a) ← pollOne t now timeBefAttr r .archive a
  pure (change ++ alarm ++ periodic ++ archive,a)

end Poll

section Runs
variable (t : IntType)

inductive Act
  | subscribe (dev obj : String) (event : EventType) (clientRelease : Nat) (now : Int)
  | confirm (events : List Confirmed) (now : Int)
  | poll (dev : String) (obj : String) (now timeBefAttr : Int) (r : Reading (List Int))

/-- What goes out, with the attribute it is about. -/
abbrev Out := (String × List Char) × Sent

/-- One request, or one reading of the polling thread; a request that is refused throws. -/
def step (s : Server) : Act → Option (List Out × Server)
  | .subscribe dev obj event clientRelease now =>
    match zmqEventSubscriptionChange s dev obj event clientRelease now with
    | .ok s => some ([],s)
    | .error _ => some ([],s)
  | .confirm events now => some ([],(eventConfirmSubscription now events s).2)
  | .poll dev obj now timeBefAttr r =>
    match s.attr (dev,lowerName obj) with
    | none => some ([],s)
    | some a =>
      (detectAndPushEvents t now timeBefAttr r a).map (fun p =>
        (p.1.map (fun m => ((dev,lowerName obj),m)),s.put dev obj p.2))

def run (s : Server) : List Act → Option (List Out × Server)
  | [] => some ([],s)
  | act :: acts => do
    let (out,s) ← step t s act
    let (outs,s) ← run s acts
    pure (out ++ outs,s)

end Runs

end CppTango.Event.Polls
