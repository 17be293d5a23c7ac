import CppTango.Device.MultiAttribute
import Mathlib.Logic.Function.Basic

namespace CppTango.Device.Read

/-- What an attribute holds: its quality and, when it is set, its value. -/
structure Reading (α : Type) where
  quality : AttrQuality
  value : Option (List α)
  dim : AttributeDim
deriving DecidableEq, Repr

inductive ReadResult
  | done
  | devFailed (errors : DevErrorList)
  /-- an exception that is not a `DevFailed` -/
  | other
deriving DecidableEq, Repr

/-- An attribute as the device defines it, with what its methods do in this call. -/
structure Attribute (α : Type) where
  name : String
  writable : AttrWriteType
  isFwdAtt : Bool
  encoded : Bool
  startupException : Option String
  /-- the errors of the write at start-up, when it failed -/
  memException : Option DevErrorList
  pollingPeriod : Nat
  isAllowed : Bool
  /-- how the read method ends, and what the attribute holds then -/
  read : Reading α → ReadResult × Reading α
  setRvalue : Reading α → Except DevErrorList (Reading α)
  /-- the write value that goes behind the value read -/
  writeValue : Except DevErrorList (List α)
  writeDim : AttributeDim

inductive AttrData (α : Type)
  | seq (s : List α)
  | devState (s : DevState)
  /-- a status that was never set is a null pointer -/
  | status (s : Option String)
deriving DecidableEq, Repr

/-- One element of the reply. -/
structure AttributeValue (α : Type) where
  name : String
  quality : AttrQuality
  value : Option (AttrData α)
  rDim : AttributeDim
  wDim : AttributeDim
  errList : DevErrorList
deriving DecidableEq, Repr

/-- The last value in the buffer of a polled attribute. -/
structure PolledValue (α : Type) where
  name : String
  quality : AttrQuality
  data : AttrData α
  rDim : AttributeDim
  wDim : AttributeDim

inductive PollObjType
  | pollCmd | pollAttr
deriving DecidableEq, Repr

structure PollObj (α : Type) where
  type : PollObjType
  name : String
  isRingEmpty : Bool
  upd : Nat
  lastInsertDate : Nat
  authorizedDelta : Nat
  lastAttrValue : Except DevErrorList (PolledValue α)

structure DeviceImpl (α : Type) where
  attrs : List (Attribute α)
  pollObjList : List (PollObj α)
  now : Nat
  deviceState : DevState
  alarmList : List Nat
  alwaysExecutedHook : Option DevErrorList
  readAttrHardware : List Nat → Option DevErrorList
  devState : Except DevErrorList DevState
  devStatus : Except DevErrorList String

inductive DevSource
  | dev | cache | cacheDevice
deriving DecidableEq, Repr

variable {α : Type}

def DeviceImpl.names (dev : DeviceImpl α) : List String := dev.attrs.map Attribute.name

/-- An element of a reply nothing was put in yet. -/
def AttributeValue.blank : AttributeValue α := ⟨"",.valid,none,.zero,.zero,[]⟩

/-- `error_from_devfailed`, `error_from_errorlist` and `one_error`. -/
def errorFrom (e : DevErrorList) (name : String) (back : AttributeValue α) : AttributeValue α :=
  { back with errList := e, quality := .invalid, name := name, rDim := .zero, wDim := .zero }

section NoExcept

def origin : String := "Device_3Impl::read_attributes_no_except"

/-- What is to be done for one name of the call. -/
inductive Wanted
  | state
  | status
  /-- `inRead` and `inWrite` tell in which of the two lists the attribute is -/
  | att (ind : Nat) (inRead inWrite : Bool)
deriving DecidableEq, Repr

/-- A write attribute is only in the second list, unless it is a forwarded one. -/
def wantedAtt (ind : Nat) (att : Attribute α) : Wanted :=
  match att.writable with
  | .readWrite | .readWithWrite => .att ind true true
  | .write => if att.isFwdAtt then .att ind true false else .att ind false true
  | .read => .att ind true false

def wanted (dev : DeviceImpl α) (name : String) : Except DevErrorList Wanted :=
  if lowerName name = "state".toList then .ok .state
  else if lowerName name = "status".toList then .ok .status
  else
    match getAttrIndByName dev.names name with
    | .error e => .error e
    | .ok ind =>
      match dev.attrs[ind]? with
      | none => .error (thrown "API_AttrNotFound" (name ++ " attribute not found") origin)
      | some att =>
        match att.startupException with
        | some desc => .error (thrown "API_AttrConfig" desc origin)
        | none => .ok (wantedAtt ind att)

structure AttIdx where
  idxInNames : Nat
  idxInMultiAttr : Nat
deriving DecidableEq, Repr

/-- The reply under way and what the attributes hold. -/
structure Run (α : Type) where
  reply : Nat → AttributeValue α
  held : Nat → Reading α

def Run.upd (r : Run α) (index : Nat) (f : AttributeValue α → AttributeValue α) : Run α :=
  { r with reply := Function.update r.reply index (f (r.reply index)) }

/-- Names whose attribute is not to be read are answered with the errors of the search. -/
def wantedStep (dev : DeviceImpl α) (slot : Nat → Nat) (r : Run α) (n : String × Nat) : Run α :=
  match wanted dev n.1 with
  | .error e => r.upd (slot n.2) (errorFrom e n.1)
  | .ok _ => r

def wantedAttr (dev : DeviceImpl α) (n : String × Nat) : Option AttIdx :=
  match wanted dev n.1 with
  | .ok (.att ind true _) => some ⟨n.2,ind⟩
  | _ => none

def wantedWAttr (dev : DeviceImpl α) (n : String × Nat) : Option AttIdx :=
  match wanted dev n.1 with
  | .ok (.att ind _ true) => some ⟨n.2,ind⟩
  | _ => none

def isWanted (dev : DeviceImpl α) (x : Wanted) (n : String × Nat) : Bool :=
  match wanted dev n.1 with
  | .ok y => x = y
  | .error _ => false

/-- The place of the state, or of the status, among the names: the last one stands. -/
def wantedIdx (dev : DeviceImpl α) (x : Wanted) (names : List (String × Nat)) : Option Nat :=
  (names.reverse.find? (isWanted dev x)).map Prod.snd

def addAlarmed (dev : DeviceImpl α) (attList : List Nat) : List Nat :=
  dev.alarmList.foldl (fun l a => if a ∈ l then l else l ++ [a]) attList

/-- The two hooks: a `DevFailed` of theirs leaves the method. -/
def hookErrors (dev : DeviceImpl α) (names : List (String × Nat)) : Option DevErrorList :=
  match dev.alwaysExecutedHook with
  | some e => some e
  | none =>
    let stateWanted := (wantedIdx dev .state names).isSome
    let idx := (names.filterMap (wantedAttr dev)).map AttIdx.idxInMultiAttr
    let tmpIdx :=
      if stateWanted ∧ (dev.deviceState = .on ∨ dev.deviceState = .alarm) then addAlarmed dev idx else idx
    if tmpIdx ≠ [] then dev.readAttrHardware tmpIdx else none

def notAllowed (att : Attribute α) : DevErrorList :=
  thrown "API_AttrNotAllowed" ("It is currently not allowed to read attribute " ++ att.name) origin

def unforeseen : DevErrorList :=
  thrown "API_CorbaSysException"
    ("Unforseen exception when trying to read attribute. It was even not a Tango DevFailed exception")
    origin

def memFailed (att : Attribute α) (e : DevErrorList) : DevErrorList :=
  e ++ thrown "API_MemAttFailedDuringInit" ("Attribute " ++ att.name ++ " is a memorized attribute." ++
    " It failed during the write call of the device startup sequence") origin

def readAtt (att : Attribute α) (r : Reading α) : Option DevErrorList × Reading α :=
  if att.isAllowed = false then (some (notAllowed att),r)
  else
    match att.memException with
    | some e => (some (memFailed att e),{ r with value := none })
    | none =>
      match att.read { r with value := none } with
      | (.done,r) => (none,r)
      | (.devFailed e,r) => (some e,r)
      | (.other,r) => (some unforeseen,r)

def setRvalueAtt (att : Attribute α) (r : Reading α) : Option DevErrorList × Reading α :=
  match att.memException with
  | some e => (some (memFailed att e),r)
  | none =>
    if att.writable = .readWithWrite ∨ att.writable = .write then
      match att.setRvalue r with
      | .ok r => (none,r)
      | .error e => (some e,r)
    else (none,r)

/-- One round of the loops over the two lists: `f` is what is done with the attribute. -/
def attStep (dev : DeviceImpl α) (f : Attribute α → Reading α → Option DevErrorList × Reading α)
    (slot : Nat → Nat) (name : Nat → String) (r : Run α) (a : AttIdx) : Run α :=
  match dev.attrs[a.idxInMultiAttr]? with
  | none => r
  | some att =>
    let p := f att (r.held a.idxInMultiAttr)
    let r := { r with held := Function.update r.held a.idxInMultiAttr p.2 }
    match p.1 with
    | none => r
    | some e => r.upd (slot a.idxInNames) (errorFrom e (name a.idxInNames))

/-- The state or the status: its errors go to its place among the names, as it is. -/
def computed {β : Type} (res : Except DevErrorList β) (idx : Option Nat) (name : Nat → String)
    (r : Run α) : Run α :=
  match idx,res with
  | some i,.error e => r.upd i (errorFrom e (name i))
  | _,_ => r

def state2attr (s : DevState) (back : AttributeValue α) : AttributeValue α :=
  { back with quality := .valid, name := "State", value := some (.devState s), rDim := ⟨1,0⟩, wDim := .zero }

def status2attr (s : Option String) (back : AttributeValue α) : AttributeValue α :=
  { back with quality := .valid, name := "Status", value := some (.status s), rDim := ⟨1,0⟩, wDim := .zero }

def getPolledObj (dev : DeviceImpl α) (name : String) : Option (PollObj α) :=
  dev.pollObjList.find? (fun p => p.type = .pollAttr ∧ p.name.toList = lowerName name)

def notSet (dev : DeviceImpl α) (att : Attribute α) (name : String) : DevErrorList :=
  thrown "API_AttrValueNotSet"
    (match getPolledObj dev name with
    | some p =>
      if p.upd = 0 then "Attribute " ++ att.name ++ " value is available only by CACHE.\n" ++
        "Attribute values are set by external polling buffer filling"
      else "Read value for attribute " ++ att.name ++ " has not been updated"
    | none => "Read value for attribute " ++ att.name ++ " has not been updated") origin

/-- The caller's interface has no `DevEncoded` before IDL 4; its error does not leave the method. -/
def dataIntoNetObject (idl : Nat) (att : Attribute α) (seq : List α) (back : AttributeValue α) :
    AttributeValue α :=
  if att.encoded = true ∧ idl = 3 then
    errorFrom (thrown "API_NotSupportedFeature"
      "The DevEncoded data type is available only for device implementing IDL 4 and above"
      "DeviceImpl::data_into_net_object") att.name back
  else { back with value := some (.seq seq) }

def initOutData (att : Attribute α) (r : Reading α) (back : AttributeValue α) : AttributeValue α :=
  { back with
    quality := r.quality
    name := att.name
    rDim := r.dim
    wDim := match att.writable with
      | .readWrite | .readWithWrite => att.writeDim
      | .write => r.dim
      | .read => .zero }

def initOutDataQuality (att : Attribute α) (r : Reading α) (back : AttributeValue α) : AttributeValue α :=
  { back with quality := r.quality, name := att.name, rDim := .zero, wDim := .zero }

def addWriteValue (att : Attribute α) (seq : List α) : Except DevErrorList (List α) :=
  match att.writable with
  | .readWrite | .readWithWrite => att.writeValue.map (seq ++ ·)
  | _ => .ok seq

/-- What an attribute holds goes into the reply. -/
def attToReply (dev : DeviceImpl α) (idl : Nat) (name : String) (att : Attribute α) (r : Reading α)
    (back : AttributeValue α) : AttributeValue α :=
  if r.quality ≠ .invalid then
    match r.value with
    | none => errorFrom (notSet dev att name) att.name back
    | some seq =>
      match addWriteValue att seq with
      | .ok seq => initOutData att r (dataIntoNetObject idl att seq back)
      | .error e => errorFrom e att.name back
  else initOutDataQuality att r back

def noErr (r : Run α) (index : Nat) : Prop := (r.reply index).errList = []

instance (r : Run α) (index : Nat) : Decidable (noErr r index) :=
  inferInstanceAs (Decidable ((r.reply index).errList = []))

def toReplyStep (dev : DeviceImpl α) (idl : Nat) (slot : Nat → Nat) (stateIdx statusIdx : Option Nat)
    (r : Run α) (n : String × Nat) : Except DevErrorList (Run α) :=
  if stateIdx = some n.2 then
    .ok (if noErr r (slot n.2) then
      r.upd (slot n.2) (state2attr (dev.devState.toOption.getD .unknown)) else r)
  else if statusIdx = some n.2 then
    .ok (if noErr r (slot n.2) then r.upd (slot n.2) (status2attr dev.devStatus.toOption) else r)
  else if noErr r (slot n.2) then
    match getAttrIndByName dev.names n.1 with
    | .error e => .error e
    | .ok ind =>
      match dev.attrs[ind]? with
      | none => .ok r
      | some att => .ok (r.upd (slot n.2) (attToReply dev idl n.1 att (r.held ind)))
  else .ok r

/-- Where the element of a name stands in the reply; `idx` tells it in the second try. -/
def index (secondTry : Bool) (idx : List Nat) (i : Nat) : Nat := if secondTry then idx.getD i 0 else i

def readAttributesNoExcept (dev : DeviceImpl α) (idl : Nat) (names : List String) (secondTry : Bool)
    (idx : List Nat) (r : Run α) : Except DevErrorList (Run α) :=
  let slot := index secondTry idx
  let ns := names.zipIdx
  let name := fun i => names.getD i ""
  let stateIdx := wantedIdx dev .state ns
  let statusIdx := wantedIdx dev .status ns
  let r := ns.foldl (wantedStep dev slot) r
  match hookErrors dev ns with
  | some e => .error e
  | none =>
    let r := (ns.filterMap (wantedAttr dev)).foldl (attStep dev readAtt slot name) r
    let r := (ns.filterMap (wantedWAttr dev)).foldl (attStep dev setRvalueAtt slot name) r
    let r := computed dev.devState stateIdx name r
    let r := computed dev.devStatus statusIdx name r
    ns.foldlM (toReplyStep dev idl slot stateIdx statusIdx) r

end NoExcept

section FromCache

def cacheOrigin : String := "Device_3Impl::read_attributes_from_cache"

/-- A name with an object of its spelling in the polling list, be it an attribute or a command. -/
def isPolled (dev : DeviceImpl α) (name : String) : Bool :=
  dev.pollObjList.any (fun p => lowerName p.name = lowerName name)

def put (reply : Nat → AttributeValue α) (i : Nat) (f : AttributeValue α → AttributeValue α) :
    Nat → AttributeValue α :=
  Function.update reply i (f (reply i))

def unknownStep (dev : DeviceImpl α) (reply : Nat → AttributeValue α) (n : String × Nat) :
    Nat → AttributeValue α :=
  match getAttrIndByName dev.names n.1 with
  | .error e => put reply n.2 (errorFrom e n.1)
  | .ok _ => reply

def isNonPolled (dev : DeviceImpl α) (n : String × Nat) : Bool :=
  match getAttrIndByName dev.names n.1 with
  | .error _ => false
  | .ok _ => !isPolled dev n.1

/-- The attribute of a name that has no polling period. -/
def notToPoll (dev : DeviceImpl α) (name : String) : Option (Attribute α) :=
  match getAttrIndByName dev.names name with
  | .error _ => none
  | .ok ind => dev.attrs[ind]?.filter (fun att => att.pollingPeriod = 0)

def notPolled (att : Attribute α) : DevErrorList :=
  thrown "API_AttrNotPolled" ("Attribute " ++ att.name ++ " not polled") cacheOrigin

def notPolledStep (dev : DeviceImpl α) (reply : Nat → AttributeValue α) (n : String × Nat) :
    Nat → AttributeValue α :=
  match notToPoll dev n.1 with
  | some att => put reply n.2 (errorFrom (notPolled att) att.name)
  | none => reply

def noData (name : String) : DevErrorList :=
  thrown "API_NoDataYet" ("No data available in cache for attribute " ++ name) cacheOrigin

def notUpdated (name : String) : DevErrorList :=
  thrown "API_NotUpdatedAnyMore" ("Data in cache for attribute " ++ name ++ " not updated any more") cacheOrigin

def isEncoded (dev : DeviceImpl α) (name : String) : Bool :=
  match getAttrIndByName dev.names name with
  | .error _ => false
  | .ok ind => (dev.attrs[ind]?.map Attribute.encoded).getD false

def polledDataIntoNetObject (idl : Nat) (encoded : Bool) (name : String) (data : AttrData α)
    (back : AttributeValue α) : AttributeValue α :=
  if encoded = true ∧ idl = 3 then
    errorFrom (thrown "API_NotSupportedFeature" ("Data type for attribute " ++ name ++ " is DEV_ENCODED." ++
      " It's not possible to retrieve this data type through the interface you are using (IDL V3)")
      "DeviceImpl::polled_data_into_net_object") name back
  else { back with value := some data }

def initPolledOutData (v : PolledValue α) (back : AttributeValue α) : AttributeValue α :=
  { back with quality := v.quality, rDim := v.rDim, wDim := v.wDim, name := v.name }

/-- The last value in the buffer of a polled attribute, when it is there and not too old. -/
def polledToReply (dev : DeviceImpl α) (idl : Nat) (name : String) (back : AttributeValue α) :
    AttributeValue α :=
  match dev.pollObjList.find? (fun p => p.type = .pollAttr ∧ lowerName p.name = lowerName name) with
  | none => errorFrom (noData name) name back
  | some p =>
    if p.isRingEmpty = true then errorFrom (noData name) name back
    else if p.upd ≠ 0 ∧ p.authorizedDelta < dev.now - p.lastInsertDate then
      errorFrom (notUpdated name) name back
    else
      match p.lastAttrValue with
      | .error e => errorFrom e name back
      | .ok v =>
        if v.quality ≠ .invalid then
          initPolledOutData v (polledDataIntoNetObject idl (isEncoded dev name) name v.data back)
        else initPolledOutData v back

def cacheStep (dev : DeviceImpl α) (idl : Nat) (reply : Nat → AttributeValue α) (n : String × Nat) :
    Nat → AttributeValue α :=
  if (reply n.2).errList = [] then put reply n.2 (polledToReply dev idl n.1) else reply

def readAttributesFromCache (dev : DeviceImpl α) (idl : Nat) (names : List String)
    (reply : Nat → AttributeValue α) : Nat → AttributeValue α :=
  let ns := names.zipIdx
  let reply := ns.foldl (unknownStep dev) reply
  let nonPolled := ns.filter (isNonPolled dev)
  let reply := nonPolled.foldl (notPolledStep dev) reply
  let notPolledAttr := nonPolled.countP (fun n => (notToPoll dev n.1).isSome)
  if nonPolled ≠ [] ∧ notPolledAttr = names.length then reply
  else ns.foldl (cacheStep dev idl) reply

end FromCache

section ReadAttributes

def allAttr : String := "All attributes"

def realNames (dev : DeviceImpl α) (names : List String) : List String :=
  if names = [allAttr] then dev.names else names

/-- The errors of the cache that lead to a second try, with the device. -/
def secondTryFor (errList : DevErrorList) : Bool :=
  match errList.getLast? with
  | none => false
  | some e => e.reason = "API_AttrNotPolled" ∨ e.reason = "API_NoDataYet" ∨
      e.reason = "API_NotUpdatedAnyMore" ∨ e.origin = "DServer::add_obj_polling"

def clearErrors (reply : Nat → AttributeValue α) (n : String × Nat) : Nat → AttributeValue α :=
  put reply n.2 (fun back => { back with errList := [] })

/-- `read_attributes_3`, and `read_attributes_4` and `read_attributes_5` of a device without
forwarded attributes; `idl` is the caller's interface. -/
def readAttributes (dev : DeviceImpl α) (idl : Nat) (source : DevSource) (held : Nat → Reading α)
    (names : List String) : Except DevErrorList (List (AttributeValue α)) :=
  let real := realNames dev names
  let answer := fun r : Run α => (List.range real.length).map r.reply
  let blank : Nat → AttributeValue α := fun _ => .blank
  match source with
  | .dev => (readAttributesNoExcept dev idl real false [] ⟨blank,held⟩).map answer
  | .cache => .ok (answer ⟨readAttributesFromCache dev idl real blank,held⟩)
  | .cacheDevice =>
    let reply := readAttributesFromCache dev idl real blank
    let fromDevice := real.zipIdx.filter (fun n => secondTryFor (reply n.2).errList)
    let reply := fromDevice.foldl clearErrors reply
    if fromDevice = [] then .ok (answer ⟨reply,held⟩)
    else (readAttributesNoExcept dev idl (fromDevice.map Prod.fst) true (fromDevice.map Prod.snd)
      ⟨reply,held⟩).map answer

end ReadAttributes

end CppTango.Device.Read
