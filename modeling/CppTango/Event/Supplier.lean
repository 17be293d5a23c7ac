import Mathlib.Logic.Function.Basic
import Mathlib.Data.List.Basic

namespace CppTango.Event

/-- The name an event is sent under: the plain one, or the one with the `idl5_` prefix. -/
inductive Topic
  | plain | idl5
deriving DecidableEq, Repr

/-- The structure of the data that are sent. -/
inductive Format
  | attributeValue3 | attributeValue4 | attributeValue5
deriving DecidableEq, Repr

def topicOf (release : Nat) : Topic := if 5 ≤ release then .idl5 else .plain

def formatOf (release : Nat) : Format :=
  match release with
  | 6 | 5 => .attributeValue5
  | 4 => .attributeValue4
  | _ => .attributeValue3

def resubscribePeriod : Int := 600

section Server

/-- What the server keeps of one event of one attribute: the releases of its clients, the date of
the last request of each kind of release, and the event counter. -/
structure Supplier where
  clientLib : List Nat
  subscription3 : Int
  subscription4 : Int
  subscription5 : Int
  eventCptr : Option UInt32
deriving DecidableEq, Repr

def Supplier.start : Supplier := ⟨[],0,0,0,none⟩

def setClientLib (clientLibVersion : Nat) (clientLib : List Nat) : List Nat :=
  if clientLib.count clientLibVersion = 0 then clientLib ++ [clientLibVersion] else clientLib

/-- `set_change_event_sub` and its kind. -/
def setEventSub (clLib : Nat) (now : Int) (s : Supplier) : Supplier :=
  match clLib with
  | 6 | 5 => { s with subscription5 := now }
  | 4 => { s with subscription4 := now }
  | _ => { s with subscription3 := now }

def storeSubscribedClientInfo (clientLibVersion : Nat) (now : Int) (s : Supplier) : Supplier :=
  let s := setEventSub clientLibVersion now s
  { s with clientLib := setClientLib clientLibVersion s.clientLib }

def initEventCptr (s : Supplier) : Supplier := { s with eventCptr := some (s.eventCptr.getD 1) }

/-- The client is told the topic it has to listen to. -/
def zmqEventSubscriptionChange (idlVers clientRelease : Nat) (now : Int) (s : Supplier) :
    Supplier × Topic :=
  let clientRelease := min clientRelease idlVers
  (initEventCptr (storeSubscribedClientInfo clientRelease now s),topicOf clientRelease)

def eventConfirmSubscription (event : Topic) (now : Int) (s : Supplier) : Supplier :=
  let clientLib := match event with
    | .idl5 => 5
    | .plain => 4
  storeSubscribedClientInfo clientLib now s

/-- One release in `detect_and_push_events`: it is removed when it is too old. -/
def expireOne (now : Int) (s : Supplier) (libs : List Nat) (release : Nat) : List Nat :=
  match release with
  | 6 => if resubscribePeriod ≤ now - s.subscription5 then libs.erase 6 else libs
  | 5 => if resubscribePeriod ≤ now - s.subscription5 then libs.erase 5 else libs
  | 4 => if resubscribePeriod ≤ now - s.subscription4 then libs.erase 4 else libs
  | _ => if resubscribePeriod ≤ now - s.subscription3 then libs.erase 3 else libs

def expire (now : Int) (s : Supplier) : Supplier :=
  { s with clientLib := s.clientLib.foldl (expireOne now s) s.clientLib }

variable {α : Type}

structure Message (α : Type) where
  topic : Topic
  ctr : UInt32
  format : Format
  value : α
deriving DecidableEq, Repr

/-- The loop of `push_event_loop`: only the first message moves the counter. -/
def pushLoop (value : α) : Bool → List Nat → Option UInt32 → List (Message α) × Option UInt32
  | _,[],cptr => ([],cptr)
  | incCtr,release::libs,cptr =>
    let r := pushLoop value false libs (if incCtr then cptr.map (· + 1) else cptr)
    (⟨topicOf release,cptr.getD 0,formatOf release,value⟩ :: r.1,r.2)

def pushEventLoop (value : α) (s : Supplier) : List (Message α) × Supplier :=
  let r := pushLoop value true s.clientLib s.eventCptr
  (r.1,{ s with eventCptr := r.2 })

end Server

section Client
variable {α : Type}

/-- One call of the user's callback. -/
inductive Callback (α : Type)
  | missedEvents
  | data (format : Format) (value : α)
deriving DecidableEq, Repr

/-- What a client keeps of an event it is subscribed to, and what its callback was called with. -/
structure EventCallBack (α : Type) where
  topic : Topic
  ctr : UInt32
  discardedEvent : Bool
  lastSubscribed : Int
  received : List (Callback α)
deriving DecidableEq, Repr

def missedEvent (dsCtr ctr : UInt32) : Int32 :=
  if ctr ≤ dsCtr then (dsCtr - ctr).toInt32 else -(ctr - dsCtr).toInt32

/-- `push_zmq_event`, for a message of the topic. -/
def pushZmqEvent (cb : EventCallBack α) (m : Message α) : EventCallBack α :=
  let ctr := if 1 < m.ctr ∧ cb.ctr = 0 then m.ctr - 1 else cb.ctr
  let missed := missedEvent m.ctr ctr
  if 2 ≤ missed then
    { cb with ctr := m.ctr, discardedEvent := false,
              received := cb.received ++ [.missedEvents,.data m.format m.value] }
  else if missed = 0 ∧ cb.discardedEvent = false then { cb with ctr := ctr, discardedEvent := true }
  else
    { cb with ctr := m.ctr, discardedEvent := false,
              received := cb.received ++ [.data m.format m.value] }

/-- All messages arrive, in order, at a client that listens to their topic. -/
def deliver (messages : List (Message α)) (cb : EventCallBack α) : EventCallBack α :=
  (messages.filter (fun m => m.topic = cb.topic)).foldl pushZmqEvent cb

end Client

section Runs
variable {κ α : Type} [DecidableEq κ]

/-- The server and its clients. -/
structure World (κ α : Type) where
  supplier : Supplier
  clients : κ → Option (EventCallBack α)
  clock : Int

inductive Step (κ α : Type)
  | subscribe (client : κ) (now : Int)
  | confirm (client : κ) (now : Int)
  | unsubscribe (client : κ)
  | expire (now : Int)
  | push (value : α)

/-- A device, and the releases of its clients. -/
structure Setting (κ : Type) where
  idlVers : Nat
  release : κ → Nat

def World.start : World κ α := ⟨.start,fun _ => none,0⟩

/-- A client that is subscribed already only asks again. -/
def subscribed (topic : Topic) (now : Int) (cb : Option (EventCallBack α)) : EventCallBack α :=
  match cb with
  | none => ⟨topic,0,false,now,[]⟩
  | some cb => { cb with lastSubscribed := now }

variable (g : Setting κ)

def step (w : World κ α) : Step κ α → World κ α
  | .subscribe client now =>
    let r := zmqEventSubscriptionChange g.idlVers (g.release client) now w.supplier
    { supplier := r.1
      clients := Function.update w.clients client (some (subscribed r.2 now (w.clients client)))
      clock := now }
  | .confirm client now =>
    match w.clients client with
    | none => w
    | some cb =>
      { supplier := eventConfirmSubscription cb.topic now w.supplier
        clients := Function.update w.clients client (some { cb with lastSubscribed := now })
        clock := now }
  | .unsubscribe client => { w with clients := Function.update w.clients client none }
  | .expire now => { w with supplier := expire now w.supplier, clock := now }
  | .push value =>
    let r := pushEventLoop value w.supplier
    { w with supplier := r.2, clients := fun client => (w.clients client).map (deliver r.1) }

def run (w : World κ α) (steps : List (Step κ α)) : World κ α := steps.foldl (step g) w

end Runs

end CppTango.Event
