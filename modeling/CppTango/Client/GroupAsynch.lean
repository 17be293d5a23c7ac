import CppTango.Device.MultiAttribute
import CppTango.Lib.Trees

namespace CppTango.Client.GroupAsynch

open CppTango.Lib CppTango.Device

/-- What a call throws: a `DevFailed`, or anything else. -/
inductive Thrown
  | devFailed (errors : DevErrorList)
  | other
deriving DecidableEq, Repr

/-- The error that a device element makes of what a call has thrown. -/
def Thrown.errors (method : String) : Thrown → DevErrorList
  | .devFailed e => e
  | .other => thrown "unknown exception caught" "unknown error" ("GroupDeviceElement::" ++ method)

/-- A request that a device element keeps until its reply is asked for; its id is -1 when the call has failed. -/
structure AsynchRequest where
  rqId : Int
  objNames : List String
  rqEx : DevErrorList
deriving DecidableEq, Repr

/-- The reply of one device for one object. -/
structure GroupReply (β : Type) where
  devName : String
  objName : String
  enabled : Bool
  exception : Option DevErrorList
  data : Option β
deriving DecidableEq, Repr

def GroupReply.hasFailed {β : Type} (r : GroupReply β) : Bool := r.exception.isSome

structure GroupReplyList (β : Type) where
  replies : List (GroupReply β)
  hasFailed : Bool
deriving DecidableEq, Repr

inductive Kind
  | commandInout | readAttribute | readAttributes | writeAttribute
deriving DecidableEq, Repr

def Kind.word : Kind → String
  | .commandInout => "command_inout"
  | .readAttribute => "read_attribute"
  | .readAttributes => "read_attributes"
  | .writeAttribute => "write_attribute"

def Kind.asynchI (k : Kind) : String := k.word ++ "_asynch_i"

def Kind.replyI (k : Kind) : String := k.word ++ "_reply_i"

/-- What the calls of a group find outside of it: whether the proxy of a device can be had, and what the asynchronous
calls of the proxies return. -/
structure GroupWorld (δ β : Type) where
  devProxy : Nat → Option Thrown
  isConnected : Nat → Bool
  asynch : Nat → δ → Except Thrown Nat
  commandInoutReply : Nat → Int → Except Thrown β
  /-- No attribute where the proxy returns a null pointer. -/
  readAttributeReply : Nat → Int → Except Thrown (Option (Except DevErrorList β))
  readAttributesReply : Nat → Int → Except Thrown (Option (Nat → Except DevErrorList β))
  writeAttributeReply : Nat → Int → Except Thrown Unit

/-- The elements of a group, by their addresses. -/
abbrev Elements := Nested Nat Nat

/-- A group and all below it: no element is there twice. -/
structure Hierarchy where
  root : Nat
  elements : Elements
  name : Nat → String
  devices : (elements.leaves true).Nodup
  groups : (root :: elements.nodes).Nodup

/-- The groups and the device elements: the id that each group gave last, the requests of each, and which devices are
enabled. -/
structure GroupState where
  asynchReqId : Nat → Nat
  arp : Nat → Nat → Option Bool
  requests : Nat → Nat → Option AsynchRequest
  enabled : Nat → Bool

variable {δ β : Type}

section Requests

/-- What is asked of each device: the objects it is about, the data of the call, whether nobody waits for a reply,
and whether sub-groups are asked too. -/
structure Call (δ : Type) where
  kind : Kind
  objNames : List String
  data : δ
  forget : Bool
  forward : Bool

/-- The request that is kept of a call to a device. -/
def made (w : GroupWorld δ β) (call : Call δ) (enabled : Bool) (id d : Nat) : AsynchRequest :=
  if enabled then
    match w.devProxy d with
    | some t => ⟨-1,call.objNames,t.errors call.kind.asynchI⟩
    | none =>
      match w.asynch d call.data with
      | .ok ari => ⟨ari,call.objNames,[]⟩
      | .error t => ⟨-1,call.objNames,t.errors call.kind.asynchI⟩
  else ⟨id,call.objNames,[]⟩

/-- `std::map::insert`: a request that is there stays. -/
def GroupState.insertRequest (s : GroupState) (d id : Nat) (r : AsynchRequest) : GroupState :=
  { s with requests := fun d' k => if d' = d ∧ k = id then (s.requests d k).or (some r) else s.requests d' k }

/-- The asynchronous calls of a device element. -/
def deviceAsynchI (w : GroupWorld δ β) (call : Call δ) (id d : Nat) (s : GroupState) : GroupState :=
  if call.forget then s else s.insertRequest d id (made w call (s.enabled d) id d)

/-- `push_async_request`, at the end of a call of a group. -/
def GroupState.pushAsyncRequest (s : GroupState) (g id : Nat) (call : Call δ) : GroupState :=
  if call.forget then s
  else { s with arp := fun g' k => if g' = g ∧ k = id then (s.arp g k).or (some call.forward) else s.arp g' k }

variable (w : GroupWorld δ β) (call : Call δ) (id : Nat)

/-- The loop over the elements that asks the connected ones at once and hands the others back. -/
def askConnected : Elements → GroupState → GroupState × Except Thrown (List Nat)
  | .nil,s => (s,.ok [])
  | .leaf d rest,s =>
    match w.devProxy d with
    | some t => (s,.error t)
    | none =>
      if w.isConnected d then askConnected rest (deviceAsynchI w call id d s)
      else
        match askConnected rest s with
        | (s,.ok disconnected) => (s,.ok (d::disconnected))
        | (s,.error t) => (s,.error t)
  | .node g sub rest,s =>
    if call.forward then
      match askConnected sub s with
      | (s,.error t) => (s,.error t)
      | (s,.ok disconnected) =>
        askConnected rest
          ((disconnected.foldl (fun s d => deviceAsynchI w call id d s) s).pushAsyncRequest g id call)
    else askConnected rest s

/-- The calls of a group that ask the connected elements first. -/
def asynchConnectedFirst (g : Nat) (es : Elements) (s : GroupState) : GroupState × Option Thrown :=
  match askConnected w call id es s with
  | (s,.error t) => (s,some t)
  | (s,.ok disconnected) =>
    ((disconnected.foldl (fun s d => deviceAsynchI w call id d s) s).pushAsyncRequest g id call,none)

/-- The calls of a group that ask the elements in their order. -/
def askInOrder : Elements → GroupState → GroupState
  | .nil,s => s
  | .leaf d rest,s => askInOrder rest (deviceAsynchI w call id d s)
  | .node g sub rest,s =>
    if call.forward then askInOrder rest ((askInOrder sub s).pushAsyncRequest g id call) else askInOrder rest s

def asynchInOrder (g : Nat) (es : Elements) (s : GroupState) : GroupState × Option Thrown :=
  ((askInOrder w call id es s).pushAsyncRequest g id call,none)

end Requests

section Replies

def invalidId (origin : String) : DevErrorList :=
  thrown "API_BadAsynPollId" "Invalid asynch. request identifier specified" origin

def returnedNull (k : Kind) : DevErrorList :=
  thrown "Tango::DeviceProxy::read_attribute_reply returned NULL" "internal error" ("GroupDeviceElement::" ++ k.replyI)

/-- One reply for each object of `read_attributes`; the others have one object. -/
def perObject (k : Kind) (objNames : List String) (f : Nat → String → GroupReply β) : List (GroupReply β) :=
  match k with
  | .readAttributes => objNames.mapIdx f
  | _ => [f 0 (objNames.headD "")]

/-- The reply of one object from what the device has returned for it. -/
def objectReply (devName objName : String) : Except DevErrorList β → GroupReply β
  | .ok v => ⟨devName,objName,true,none,some v⟩
  | .error e => ⟨devName,objName,true,some e,none⟩

variable (w : GroupWorld δ β)

/-- What the proxy of a device gives for a request, for each object. -/
def fromDevice (k : Kind) (d : Nat) (devName : String) (rqId : Int) (objNames : List String) :
    List (GroupReply β) :=
  let failed := fun e => perObject k objNames (fun _ objName => objectReply devName objName (.error e))
  match k with
  | .commandInout =>
    match w.commandInoutReply d rqId with
    | .ok v => perObject k objNames (fun _ objName => objectReply devName objName (.ok v))
    | .error t => failed (t.errors k.replyI)
  | .readAttribute =>
    match w.readAttributeReply d rqId with
    | .ok none => failed (returnedNull k)
    | .ok (some a) => perObject k objNames (fun _ objName => objectReply devName objName a)
    | .error t => failed (t.errors k.replyI)
  | .readAttributes =>
    match w.readAttributesReply d rqId with
    | .ok none => failed (returnedNull k)
    | .ok (some as) => perObject k objNames (fun i objName => objectReply devName objName (as i))
    | .error t => failed (t.errors k.replyI)
  | .writeAttribute =>
    match w.writeAttributeReply d rqId with
    | .ok _ => perObject k objNames (fun _ objName => ⟨devName,objName,true,none,none⟩)
    | .error t => failed (t.errors k.replyI)

/-- The replies of a device element for a request that it has kept. -/
def answered (k : Kind) (d : Nat) (devName : String) (enabled : Bool) (r : AsynchRequest) : List (GroupReply β) :=
  if enabled then
    if r.rqId = -1 then perObject k r.objNames (fun _ objName => objectReply devName objName (.error r.rqEx))
    else fromDevice w k d devName r.rqId r.objNames
  else perObject k r.objNames (fun _ objName => ⟨devName,objName,false,none,none⟩)

def GroupState.eraseRequest (s : GroupState) (d id : Nat) : GroupState :=
  { s with requests := fun d' k => if d' = d ∧ k = id then none else s.requests d' k }

def GroupState.eraseAsyncRequest (s : GroupState) (g id : Nat) : GroupState :=
  { s with arp := fun g' k => if g' = g ∧ k = id then none else s.arp g' k }

variable (name : Nat → String) (k : Kind) (id : Nat)

/-- The reply methods of a device element. -/
def deviceReplyI (d : Nat) (s : GroupState) : GroupState × List (GroupReply β) :=
  match s.requests d id with
  | none => (s,[objectReply (name d) "unknown" (.error (invalidId ("GroupDeviceElement::" ++ k.replyI)))])
  | some r => (s.eraseRequest d id,answered w k d (name d) (s.enabled d) r)

/-- A list of replies with those of one element behind it. -/
def GroupReplyList.insert (l : GroupReplyList β) (sub : List (GroupReply β)) : GroupReplyList β :=
  ⟨l.replies ++ sub,l.hasFailed || sub.any GroupReply.hasFailed⟩

/-- The loop of the reply methods of a group over its elements. A sub-group without the request throws. -/
def collect (forward : Bool) :
    Elements → GroupState → GroupReplyList β → GroupState × Except DevErrorList (GroupReplyList β)
  | .nil,s,l => (s,.ok l)
  | .leaf d rest,s,l =>
    collect forward rest (deviceReplyI w name k id d s).1 (l.insert (deviceReplyI w name k id d s).2)
  | .node g sub rest,s,l =>
    if forward then
      match s.arp g id with
      | none => (s,.error (invalidId ("Group::" ++ k.replyI)))
      | some f =>
        match collect f sub s ⟨[],false⟩ with
        | (s,.error e) => (s,.error e)
        | (s,.ok subReply) =>
          collect forward rest (s.eraseAsyncRequest g id)
            ⟨l.replies ++ subReply.replies,l.hasFailed || subReply.hasFailed⟩
    else collect forward rest s l

/-- The reply methods of a group. -/
def replyI (g : Nat) (es : Elements) (s : GroupState) : GroupState × Except DevErrorList (GroupReplyList β) :=
  match s.arp g id with
  | none => (s,.error (invalidId ("Group::" ++ k.replyI)))
  | some forward =>
    match collect w name k id forward es s ⟨[],false⟩ with
    | (s,.error e) => (s,.error e)
    | (s,.ok reply) => (s.eraseAsyncRequest g id,.ok reply)

end Replies

section Runs

def nextAsynchRequestId (last : Nat) : Nat := (last + 1) % 0x0FFF

/-- The elements of a group of the hierarchy. -/
def Hierarchy.sub (h : Hierarchy) (g : Nat) : Option Elements :=
  if g = h.root then some h.elements else h.elements.inside g

/-- The asynchronous calls of a group. -/
inductive Method
  | commandInoutAsynch (c : String) (fgt : Bool)
  | commandInoutAsynchData (c : String) (fgt : Bool)
  | readAttributeAsynch (a : String)
  | readAttributesAsynch (al : List String)
  | writeAttributeAsynch (a : String)
deriving DecidableEq, Repr

def Method.call (m : Method) (data : δ) (forward : Bool) : Call δ :=
  match m with
  | .commandInoutAsynch c fgt => ⟨.commandInout,[c],data,fgt,forward⟩
  | .commandInoutAsynchData c fgt => ⟨.commandInout,[c],data,fgt,forward⟩
  | .readAttributeAsynch a => ⟨.readAttribute,[a],data,false,forward⟩
  | .readAttributesAsynch al => ⟨.readAttributes,al,data,false,forward⟩
  | .writeAttributeAsynch a => ⟨.writeAttribute,[a],data,false,forward⟩

/-- Whether the connected elements are asked first. -/
def Method.connectedFirst : Method → Bool
  | .commandInoutAsynchData _ _ => false
  | .readAttributesAsynch _ => false
  | _ => true

/-- The calls with the id of another group, or with -1 replaced by the next one. -/
def Method.asynchI (m : Method) (w : GroupWorld δ β) (data : δ) (forward : Bool) (id g : Nat) (es : Elements)
    (s : GroupState) : GroupState × Option Thrown :=
  if m.connectedFirst then asynchConnectedFirst w (m.call data forward) id g es s
  else asynchInOrder w (m.call data forward) id g es s

inductive Act (δ : Type)
  | request (g : Nat) (m : Method) (data : δ) (forward : Bool)
  | reply (g id : Nat) (k : Kind)
  | enable (d : Nat)
  | disable (d : Nat)

inductive Out (β : Type)
  | id (id : Nat)
  | thrown (t : Thrown)
  | replies (l : GroupReplyList β)
  | done

/-- The next id of a group is taken, also by a call that throws then. -/
def GroupState.nextId (s : GroupState) (g : Nat) : GroupState :=
  { s with asynchReqId := Function.update s.asynchReqId g (nextAsynchRequestId (s.asynchReqId g)) }

variable (h : Hierarchy)

def step (s : GroupState) (x : GroupWorld δ β × Act δ) : GroupState × Out β :=
  match x.2 with
  | .request g m data forward =>
    match h.sub g with
    | none => (s,.done)
    | some es =>
      match m.asynchI x.1 data forward (nextAsynchRequestId (s.asynchReqId g)) g es (s.nextId g) with
      | (s',none) => (s',.id (nextAsynchRequestId (s.asynchReqId g)))
      | (s',some t) => (s',.thrown t)
  | .reply g id k =>
    match h.sub g with
    | none => (s,.done)
    | some es =>
      match replyI x.1 h.name k id g es s with
      | (s',.ok l) => (s',.replies l)
      | (s',.error e) => (s',.thrown (.devFailed e))
  | .enable d => ({ s with enabled := Function.update s.enabled d true },.done)
  | .disable d => ({ s with enabled := Function.update s.enabled d false },.done)

/-- The groups as they are made: all devices are enabled, and nothing has been asked. -/
def start : GroupState := ⟨fun _ => 0,fun _ _ => none,fun _ _ => none,fun _ => true⟩

end Runs

end CppTango.Client.GroupAsynch
