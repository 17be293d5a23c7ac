import CppTango.Data
import CppTango.Lib.Text
import Mathlib.Logic.Function.Basic

namespace CppTango.Client.Connecting

open CppTango.Lib

section Names

inductive EventType
  | change | periodic | archive | user | attrConf | dataReady | interfaceChange | pipe | alarm
deriving DecidableEq, Repr

/-- `EventName` -/
def EventType.eventName : EventType → String
  | .change => "change"
  | .periodic => "periodic"
  | .archive => "archive"
  | .user => "user_event"
  | .attrConf => "attr_conf"
  | .dataReady => "data_ready"
  | .interfaceChange => "intr_change"
  | .pipe => "pipe"
  | .alarm => "alarm"

def EventType.addCompatInfo : EventType → Bool
  | .attrConf | .change | .periodic | .archive | .user => true
  | _ => false

def addIdlPrefix (eventName : String) : String := "idl5_" ++ eventName

/-- The part of a name behind its last dot, which it has. -/
def behindDot (name : String) : List Char := (name.toList.reverse.takeWhile (· ≠ '.')).reverse

def upToDot (name : String) : List Char := name.toList.take (name.toList.length - (behindDot name).length)

def insertIdlForCompat (name : String) : String :=
  String.ofList (upToDot name) ++ "idl5_" ++ String.ofList (behindDot name)

def removeIdlForCompat (name : String) : String := String.ofList (upToDot name).dropLast

/-- `MODIFIER_DBASE_NO` -/
def modifierDbaseNo : String := "#dbase=no"

def getCallbackKey (deviceName objName : String) (event : EventType) (eventName : String) : String :=
  let obj := if event = .interfaceChange then "" else "/" ++ objName
  if '#' ∈ deviceName.toList then
    String.ofList (deviceName.toList.takeWhile (· ≠ '#')) ++ obj ++ modifierDbaseNo ++ "." ++ eventName
  else deviceName ++ obj ++ "." ++ eventName

/-- The Tango host in a name that starts with `tango://`. -/
def tangoHost (key : String) : String := String.ofList ((key.toList.drop 8).takeWhile (· ≠ ':'))

end Names

section Maps

structure DevVarLongStringArray where
  lvalue : List Int
  svalue : List String
deriving DecidableEq, Repr

structure ReceivedFromAdmin where
  eventName : String
  channelName : String
deriving DecidableEq, Repr

/-- A client's callback or queue, with the identifier of the subscription. -/
structure EventSubscribe (σ : Type) where
  sink : σ
  id : Int
deriving DecidableEq, Repr

structure EventCallBack (σ : Type) where
  receivedFromAdmin : ReceivedFromAdmin
  objName : String
  eventName : String
  channelName : String
  aliasUsed : Bool
  clientAttributeName : String
  fullyQualifiedEventName : String
  deviceIdl : Int
  ctr : Nat
  discardedEvent : Bool
  endpoint : String
  fwdAtt : Bool
  callbackList : List (EventSubscribe σ)
deriving DecidableEq, Repr

structure EventChannel where
  fullAdmName : String
  admDeviceProxy : Option String
  validEndpoint : Nat
  lastSubscribed : Int
deriving DecidableEq, Repr

/-- The static maps of the event consumers. -/
structure Maps (σ : Type) where
  deviceChannelMap : String → Option String
  channelMap : String → Option EventChannel
  eventCallbackMap : String → Option (EventCallBack σ)

def Maps.empty {σ : Type} : Maps σ := ⟨fun _ => none,fun _ => none,fun _ => none⟩

end Maps

section Environment

inductive ChannelType
  | zmq | notifd
deriving DecidableEq, Repr

inductive Failure
  | devFailed (errors : DevErrorList)
  /-- an exception that is not a `DevFailed` -/
  | other
deriving DecidableEq, Repr

def failed (reason desc origin : String) : Failure := .devFailed [⟨reason,.err,desc,origin⟩]

def Failure.isCommandNotFound : Failure → Bool
  | .devFailed errors => decide (errors.head?.map DevError.reason = some "API_CommandNotFound")
  | .other => false

/-- The commands of the admin device; the older one answers whether its data are empty. -/
structure Server where
  zmqEventSubscriptionChange : List String → Except Failure DevVarLongStringArray
  eventSubscriptionChange : List String → Except Failure Bool

/-- The client process: its first host prefix, the hosts that are an alias, its release of ZMQ, and the root
attributes of its forwarded ones. -/
structure Process where
  envVarFqdnPrefix : String
  aliasMap : List String
  zmqVersion : Nat × Nat × Nat
  isRootAttribute : String → Bool

/-- The parameters of a subscription; `deviceName` is the complete name. -/
structure Subscription (σ : Type) where
  deviceName : String
  devName : String
  fromEnvVar : Bool
  objName : String
  event : EventType
  filters : List String
  sink : σ
  id : Int

/-- A failure that passes; that a command does not exist is an answer of the server. -/
abbrev Fault := {f : Failure // f.isCommandNotFound = false}

/-- What a call of `connect_event` meets. -/
structure Attempt where
  now : Int
  admName : Except Failure String
  command : Option Fault
  connectEventChannel : Except Fault Nat
  connectEventSystem : Option Fault
  getFireSyncEvent : Option Fault

end Environment

section Steps
variable {σ : Type} (proc : Process) (server : Server) (sub : Subscription σ) (kind : ChannelType) (a : Attempt)

def cannotSubscribe (reason last : String) : Failure :=
  failed reason ("Can't subscribe to event for device " ++ sub.deviceName ++ "\n" ++ last)
    "EventConsumer::connect_event"

/-- The name of the admin device, from the maps if the device is known. -/
def admDevice (m : Maps σ) : Except Failure String :=
  match m.deviceChannelMap sub.deviceName with
  | none =>
    match a.admName with
    | .ok name => .ok name
    | .error _ => .error (cannotSubscribe sub "API_CantConnectToDevice" "Check that device server is running...")
  | some channel =>
    match m.channelMap channel with
    | some ch => .ok ch.fullAdmName
    | none => .error (cannotSubscribe sub "API_BadConfigurationProperty"
        "Corrupted internal map. Please report bug")

def hostPrefix (deviceName : String) : String :=
  let rest := deviceName.toList.drop ((find "://".toList deviceName.toList).getD 0 + 3)
  String.ofList (deviceName.toList.take (deviceName.toList.length - rest.length) ++
    rest.takeWhile (· ≠ '/') ++ ['/'] |>.map Char.toLower)

def subscriberInfo (eventName : String) : List String :=
  [sub.devName,sub.objName,"subscribe",eventName] ++ if kind = .zmq then ["6"] else []

/-- The answer of the subscription command; the older command does not give release and names. -/
def subscriptionCommand (eventName : String) : Except Failure (Option DevVarLongStringArray) :=
  match a.command with
  | some f => .error f.val
  | none =>
    match kind with
    | .zmq => (server.zmqEventSubscriptionChange (subscriberInfo sub kind eventName)).map some
    | .notifd =>
      match server.eventSubscriptionChange (subscriberInfo sub kind eventName) with
      | .error f => .error f
      | .ok isEmpty =>
        if isEmpty = true ∧ sub.fromEnvVar = false ∧ hostPrefix sub.deviceName ≠ proc.envVarFqdnPrefix then
          .error (failed "API_DSFailedRegisteringEvent" ("Device server for device " ++ sub.deviceName ++
            " is too old to generate event in a multi TANGO_HOST environment. Please, use Tango >= 7.1")
            "EventConsumer::get_subscription_info")
        else .ok none

def registeringFailed : Failure → Failure
  | .devFailed errors =>
    if errors.head?.map DevError.reason = some "API_CommandNotFound" then .devFailed errors
    else .devFailed (errors ++ [⟨"API_DSFailedRegisteringEvent",.err,
      "Device server send exception while trying to register event","EventConsumer::get_subscription_info"⟩])
  | .other => .other

def getSubscriptionInfo (eventName : String) : Except Failure (Option DevVarLongStringArray) :=
  (subscriptionCommand proc server sub kind a eventName).mapError registeringFailed

/-- The IDL release of the device, if it is given. -/
def deviceIdl : Option DevVarLongStringArray → Except Failure Int
  | none => .ok 0
  | some info =>
    if info.lvalue.length < 2 then
      .error (failed "API_InvalidArgs" "Received too little data from EventConsumer::get_subscription_info()"
        "EventConsumer::connect_event")
    else .ok (info.lvalue.getD 1 0)

/-- The start of `connect_event`: admin device, answer and IDL release. -/
def subscriptionInfo (m : Maps σ) (eventName : String) :
    Except Failure (String × Option DevVarLongStringArray × Int) := do
  let adm ← admDevice sub a m
  let info ← getSubscriptionInfo proc server sub kind a eventName
  let idl ← deviceIdl info
  pure (adm,info,idl)

/-- The event name is changed if the device is IDL 5 compatible. -/
def rewrite (idl : Int) (eventName : String) : String :=
  if sub.event.addCompatInfo = true ∧ 5 ≤ idl then addIdlPrefix eventName else eventName

def notSent (what : String) : Failure :=
  failed "API_NotSupported" ("Server did not send " ++ what) "ZmqEventConsumer::initialize_received_from_admin"

/-- The names of event and channel: newer servers send them. -/
def receivedNames (info : DevVarLongStringArray) (key adm : String) : ReceivedFromAdmin :=
  if 930 ≤ info.lvalue.getD 0 0 then
    let channel := info.svalue.getD (info.svalue.length - 1) ""
    ⟨info.svalue.getD (info.svalue.length - 2) "",
      if modifierDbaseNo.toList <:+: adm.toList ∧ ¬modifierDbaseNo.toList <:+: channel.toList then
        channel ++ modifierDbaseNo
      else channel⟩
  else if 810 ≤ info.lvalue.getD 0 0 then
    ⟨key,((if sub.fromEnvVar then proc.envVarFqdnPrefix else "") ++ adm).toLower⟩
  else ⟨key,adm⟩

def initializeReceivedFromAdmin (info : Option DevVarLongStringArray) (key adm : String) :
    Except Failure ReceivedFromAdmin :=
  match kind,info with
  | .zmq,some info =>
    if (receivedNames proc sub info key adm).eventName = "" then
      .error (notSent "the event name. The server is possibly too old. The event system is not initialized!")
    else if (receivedNames proc sub info key adm).channelName = "" then
      .error (notSent "the channel name. The server is possibly too old. The event system is not initialized!")
    else .ok (receivedNames proc sub info key adm)
  | .zmq,none =>
    .error (notSent "its tango lib version. The server is possibly too old. The event system is not initialized!")
  | .notifd,_ => .ok ⟨key,(if sub.fromEnvVar then proc.envVarFqdnPrefix else "") ++ adm⟩

/-- The entry of the event, for an event with releases also under the name of IDL 5. -/
def findCallback (m : Maps σ) (name : String) : Option String :=
  if (m.eventCallbackMap name).isSome then some name
  else if sub.event.addCompatInfo = true ∧ (m.eventCallbackMap (insertIdlForCompat name)).isSome then
    some (insertIdlForCompat name)
  else none

def incompatible : Failure :=
  failed "API_UnsupportedFeature" "Incompatibility between ZMQ releases between proc and server!"
    "ZmqEventConsumer::zmq_specific"

def zmqSpecific (info : Option DevVarLongStringArray) : Except Failure Unit :=
  match kind,info with
  | .zmq,some info =>
    let dsZmqRelease := if 6 ≤ info.lvalue.length then info.lvalue.getD 5 0 else 0
    if dsZmqRelease = 310 ∧ proc.zmqVersion ≠ (3,1,0) then .error incompatible
    else if proc.zmqVersion = (3,1,0) ∧ dsZmqRelease ≠ 0 ∧ dsZmqRelease ≠ 310 then .error incompatible
    else if "epgm://".toList <:+: (info.svalue.getD 1 "").toList ∧ proc.zmqVersion.1 = 3 ∧
        proc.zmqVersion.2.1 < 2 then
      .error (failed "API_UnsupportedFeature" ("The event on attribute or pipe " ++ sub.objName ++
        " for device " ++ sub.devName ++ " is configured to use multicasting\n" ++
        "Multicast event(s) not available with this ZMQ release") "ZmqEventConsumer::zmq_specific")
    else .ok ()
  | _,_ => .ok ()

/-- The channel of the device, which is connected if it is not known. -/
def connect (adm channelName : String) (m : Maps σ) : Except Failure (String × Maps σ) :=
  match m.deviceChannelMap sub.deviceName with
  | some channel => .ok (channel,m)
  | none =>
    let known := Function.update m.deviceChannelMap sub.deviceName (some channelName)
    match m.channelMap channelName with
    | some ch =>
      let ch := {ch with lastSubscribed := a.now}
      .ok (channelName,{m with
        deviceChannelMap := known, channelMap := Function.update m.channelMap channelName (some ch)})
    | none =>
      match a.connectEventChannel with
      | .error f => .error f.val
      | .ok endpoint =>
        let ch : EventChannel := ⟨channelName,some adm,endpoint,a.now⟩
        .ok (channelName,{m with
          deviceChannelMap := known, channelMap := Function.update m.channelMap channelName (some ch)})

def newCallback (info : Option DevVarLongStringArray) (idl : Int) (eventName key channel : String)
    (received : ReceivedFromAdmin) (m : Maps σ) : EventCallBack σ where
  receivedFromAdmin := received
  objName := sub.objName
  eventName := eventName
  channelName := channel
  aliasUsed := decide (tangoHost key ∈ proc.aliasMap)
  clientAttributeName :=
    match sub.filters with
    | [name] => name
    | _ => removeIdlForCompat key
  fullyQualifiedEventName :=
    if sub.event = .interfaceChange then sub.deviceName ++ "." ++ eventName
    else sub.deviceName ++ "/" ++ sub.objName ++ "." ++ eventName
  deviceIdl := idl
  ctr := 0
  discardedEvent := false
  endpoint :=
    match kind,info with
    | .zmq,some info =>
      info.svalue.getD (2 * ((m.channelMap channel).map EventChannel.validEndpoint).getD 0 + 1) ""
    | _,_ => ""
  fwdAtt := sub.event ≠ .interfaceChange ∧ sub.event ≠ .pipe ∧
    proc.isRootAttribute (sub.deviceName ++ "/" ++ sub.objName) = true
  callbackList := [⟨sub.sink,sub.id⟩]

def addNewCallback (key : String) (m : Maps σ) : Maps σ :=
  let added := (m.eventCallbackMap key).map
    (fun cb => {cb with callbackList := cb.callbackList ++ [⟨sub.sink,sub.id⟩]})
  {m with eventCallbackMap := Function.update m.eventCallbackMap key added}

/-- The end of a subscription, after its callback is in the map: the first event is fired. -/
def fired (key : String) (m : Maps σ) : Except Failure String × Maps σ :=
  match a.getFireSyncEvent with
  | some f => (.error f.val,m)
  | none => (.ok key,m)

/-- `connect_event` from the callback map on; the key of the entry is the iterator it ends with. -/
def register (adm : String) (info : Option DevVarLongStringArray) (idl : Int) (eventName : String)
    (m : Maps σ) : Except Failure String × Maps σ :=
  let key := getCallbackKey sub.deviceName sub.objName sub.event eventName
  match initializeReceivedFromAdmin proc sub kind info key adm with
  | .error f => (.error f,m)
  | .ok received =>
    match findCallback sub m received.eventName with
    | some key => fired a key (addNewCallback sub key m)
    | none =>
      match zmqSpecific proc sub kind info with
      | .error f => (.error f,m)
      | .ok () =>
        match connect sub a adm received.channelName m with
        | .error f => (.error f,m)
        | .ok (channel,m) =>
          match a.connectEventSystem with
          | some f => (.error f.val,m)
          | none =>
            let cb := newCallback proc sub kind info idl eventName key channel received m
            fired a received.eventName
              {m with eventCallbackMap := Function.update m.eventCallbackMap received.eventName (some cb)}

/-- The event name is a reference, which is rewritten before the calls that may throw. -/
def connectEvent (m : Maps σ) (eventName : String) : Except Failure String × Maps σ × String :=
  match subscriptionInfo proc server sub kind a m eventName with
  | .error f => (.error f,m,eventName)
  | .ok (adm,info,idl) =>
    let eventName := rewrite sub idl eventName
    let (result,m) := register proc sub kind a adm info idl eventName m
    (result,m,eventName)

end Steps

section Retries
variable {σ : Type} (proc : Process) (server : Server)

structure EventNotConnected (σ : Type) where
  sub : Subscription σ
  eventName : String
  lastHeartbeat : Int

/-- A turn of the keep-alive thread, with what the two consumers meet. -/
structure Pass where
  now : Int
  zmq : Attempt
  notifd : Attempt

/-- An event that is connected, with the name in the request and the key of its entry. -/
inductive Outcome (σ : Type)
  | waiting (e : EventNotConnected σ)
  | connected (kind : ChannelType) (a : Attempt) (request key : String)
  | thrown (f : Failure)

/-- A stateless subscription: the older consumer is used if the command of the newer one does not exist. -/
def subscribeEvent (sub : Subscription σ) (p : Pass) (m : Maps σ) : Outcome σ × Maps σ :=
  match connectEvent proc server sub .zmq p.zmq m sub.event.eventName with
  | (.ok key,m,_) => (.connected .zmq p.zmq sub.event.eventName key,m)
  | (.error .other,m,_) => (.thrown .other,m)
  | (.error (.devFailed errors),m,name) =>
    if (Failure.devFailed errors).isCommandNotFound then
      match connectEvent proc server sub .notifd p.notifd m sub.event.eventName with
      | (.ok key,m,_) => (.connected .notifd p.notifd sub.event.eventName key,m)
      | (.error .other,m,_) => (.thrown .other,m)
      | (.error (.devFailed errors),m,name) =>
        if (Failure.devFailed errors).isCommandNotFound then (.thrown (.devFailed errors),m)
        else (.waiting ⟨sub,name,p.now⟩,m)
    else (.waiting ⟨sub,name,p.now⟩,m)

def eventHeartbeatPeriod : Int := 10

/-- `not_conected_event` for one event. -/
def notConectedEvent (p : Pass) (e : EventNotConnected σ) (m : Maps σ) : Outcome σ × Maps σ :=
  if eventHeartbeatPeriod - 1 ≤ p.now - e.lastHeartbeat then
    match connectEvent proc server e.sub .zmq p.zmq m e.eventName with
    | (.ok key,m,_) => (.connected .zmq p.zmq e.eventName key,m)
    | (.error f,m,name) =>
      if f.isCommandNotFound then
        match connectEvent proc server e.sub .notifd p.notifd m name with
        | (.ok key,m,_) => (.connected .notifd p.notifd name key,m)
        | (.error _,m,name) => (.waiting {e with eventName := name, lastHeartbeat := p.now},m)
      else (.waiting {e with eventName := name, lastHeartbeat := p.now},m)
  else (.waiting e,m)

def retries : List Pass → EventNotConnected σ → Maps σ → Outcome σ × Maps σ
  | [],e,m => (.waiting e,m)
  | p::ps,e,m =>
    match notConectedEvent proc server p e m with
    | (.waiting e,m) => retries ps e m
    | done => done

end Retries

end CppTango.Client.Connecting
