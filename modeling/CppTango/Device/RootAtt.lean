import CppTango.Client.ConnectEvent
import CppTango.Device.MultiAttribute
import CppTango.Event.Supplier
import CppTango.Lib.Patterns
import CppTango.Lib.Maps
import CppTango.Lib.Steps
import Mathlib.Data.Char
import Mathlib.Data.Finset.Erase
import Mathlib.Data.Finset.Insert
import Mathlib.Data.List.Lex
import Mathlib.Data.List.Sort

namespace CppTango.Device.RootAtt

open CppTango.Lib Client.Connecting

section Names

abbrev Text := List Char

/-- A full attribute name is split at its last '/', so that no attribute name has one. -/
structure AttName where
  dev : Text
  att : Text
  noSlash : '/' ∉ att

theorem speed_noSlash : '/' ∉ "speed".toList := by decide

theorem copy_noSlash : '/' ∉ "copy".toList := by decide

def AttName.full (n : AttName) : Text := n.dev ++ '/' :: n.att

/-- `substr(0,rfind('/'))` -/
def devOf (full : Text) : Text :=
  match rfind ['/'] full with
  | some p => full.take p
  | none => full

/-- `substr(rfind('/') + 1)` -/
def attOf (full : Text) : Text :=
  match rfind ['/'] full with
  | some p => full.drop (p + 1)
  | none => full

@[simp] theorem devOf_full (n : AttName) : devOf n.full = n.dev := by
  unfold devOf AttName.full
  rw [rfind_last n.noSlash]
  exact List.take_left

@[simp] theorem attOf_full (n : AttName) : attOf n.full = n.att := by
  unfold attOf AttName.full
  rw [rfind_last n.noSlash]
  simp

end Names

section Registry

inductive FwdAttError
  | noError | wrongAttr | wrongDev | rootDevLocalDev | missingRoot | wrongSyntax | rootDevNotStarted | doubleUsed
  | tooOldLocalDevice | tooOldRootDevice | confLoop | errUnknown
deriving DecidableEq

/-- What is kept of a forwarded attribute: its local name, and the error kind of the copy of its
descriptor, none where the pointer is null. -/
structure NameFwdAttr where
  localAtt : AttName
  fwdAttr : Option FwdAttError

structure UserEvent where
  eventType : EventType
  eventId : Nat

def ids (evs : List UserEvent) : Multiset Nat := evs.map UserEvent.eventId

abbrev NameMap (β : Type) := AList (fun _ : Text => β)

/-- The maps of the registry, and of the event consumer the last identifier it gave and the
subscriptions it has. -/
structure Registry where
  mapAttrdesc : NameMap NameFwdAttr
  localDis : Finset Text
  dps : Finset Text
  mapEventId : NameMap Nat
  mapEventIdUser : NameMap (List UserEvent)
  subscribeEventId : Nat
  subscribed : Multiset Nat

def Registry.empty : Registry := ⟨∅,∅,∅,∅,∅,0,0⟩

/-- The null pointer that is followed, and an iterator that is at no element. -/
inductive Fault
  | nullPointer | badIterator
deriving DecidableEq

inductive Outcome
  | returned
  | threw (e : DevErrorList)
  | fault (f : Fault)
deriving DecidableEq

abbrev Result := Registry × Outcome

def andThen (r : Result) (f : Registry → Result) : Result :=
  match r with
  | (s,.returned) => f s
  | r => r

def text (t : Text) : String := String.ofList t

def classMapError (root : Text) (origin : String) : DevErrorList :=
  thrown "API_AttrNotFound" ("Root attribute " ++ text root ++ " not found in class map!") origin

end Registry

section CallBack

def addAtt (root : Text) (localAtt : AttName) (att : FwdAttError) (s : Registry) : Registry :=
  {s with
    mapAttrdesc := insertNew root ⟨localAtt,some att⟩ s.mapAttrdesc
    localDis := insert localAtt.dev s.localDis}

def usedElsewhere (dev : Text) (s : Registry) : Bool := s.mapAttrdesc.entries.any (fun e => e.2.localAtt.dev = dev)

def removeAtt (root : Text) (s : Registry) : Result :=
  match s.mapAttrdesc.lookup root with
  | none => (s,.threw (classMapError root "RootAttRegistry::RootAttConfCallBack::remove_att"))
  | some n =>
    let s := {s with mapAttrdesc := s.mapAttrdesc.erase root}
    if usedElsewhere n.localAtt.dev s then (s,.returned)
    else if n.localAtt.dev ∈ s.localDis then
      ({s with localDis := s.localDis.erase n.localAtt.dev},.returned)
    else (s,.fault .badIterator)

def clearAttrdesc (root : AttName) (s : Registry) : Result :=
  match s.mapAttrdesc.lookup root.full with
  | none => (s,.threw (classMapError root.full "RootAttRegistry::RootAttConfCallBack::clear_attrdesc"))
  | some n => ({s with mapAttrdesc := s.mapAttrdesc.insert root.full {n with fwdAttr := none}},.returned)

def countRootDev (dev : Text) (s : Registry) : Nat := s.mapAttrdesc.keys.countP (fun k => devOf k = dev)

/-- The pointer is followed without a look at it. -/
def updateErrKind (root : Text) (err : FwdAttError) (s : Registry) : Result :=
  match s.mapAttrdesc.lookup root with
  | none => (s,.returned)
  | some n =>
    match n.fwdAttr with
    | none => (s,.fault .nullPointer)
    | some _ => ({s with mapAttrdesc := s.mapAttrdesc.insert root {n with fwdAttr := some err}},.returned)

end CallBack

section Add

/-- A call of `add_root_att`: the descriptor comes with an error kind, `proxy` is the IDL version of the root device,
none where its proxy can't be made, `first` and `second` are the exceptions of the two subscriptions. -/
structure AddRootAtt where
  root : AttName
  localAtt : AttName
  attdesc : FwdAttError
  proxy : Option Int
  first : Option DevErrorList
  second : Option DevErrorList
  loop : Bool
  dsName : Text
  restarting : Bool

def reason (e : DevErrorList) (i : Nat) : Option String := e[i]?.map DevError.reason

/-- The error kind for what the first subscription threw. -/
def AddRootAtt.errKind (c : AddRootAtt) (e : DevErrorList) : FwdAttError :=
  if reason e 0 = some "API_AttrNotFound" then if c.loop then .confLoop else .wrongAttr
  else if reason e 0 = some "API_CantConnectToDevice" ∨ reason e 0 = some "API_DeviceNotExported" ∨
      reason e 0 = some "API_ZmqFailed" then .rootDevNotStarted
  else if reason e 1 = some "API_CantConnectToDevice" then
    if e[1]?.any (fun d => (find c.dsName d.desc.toList).isSome) then .rootDevNotStarted else c.attdesc
  else .wrongDev

def notAllowed (desc : String) : DevErrorList := thrown "API_AttrNotAllowed" desc "RootAttRegistry::add_root_att"

/-- The error kind for the descriptor, with the exception. -/
def AddRootAtt.openProxy (c : AddRootAtt) (s : Registry) : Except (FwdAttError × DevErrorList) Registry :=
  if c.root.dev ∈ s.dps then .ok s
  else
    match c.proxy with
    | none => .error (.wrongDev,notAllowed ("The root device " ++ text c.root.dev ++ " is not defined in database"))
    | some idlVers =>
      if 0 < idlVers ∧ idlVers < 5 then
        .error (.tooOldRootDevice,notAllowed ("The root device " ++ text c.root.dev ++
          " is too old to support forwarded attribute. It requires IDL >= 5"))
      else .ok {s with dps := insert c.root.dev s.dps}

/-- A configuration event is subscribed, and its identifier put in the map. -/
def recordEvent (root : Text) (s : Registry) : Registry :=
  {s with
    mapEventId := insertNew root (s.subscribeEventId + 1) s.mapEventId
    subscribeEventId := s.subscribeEventId + 1
    subscribed := (s.subscribeEventId + 1) ::ₘ s.subscribed}

def doubleUsed (root : Text) : DevErrorList :=
  notAllowed ("It's not supported to have in the same device server process two times the same root attribute (" ++
    text root ++ ")")

def dummy : DevErrorList := thrown "API_DummyException" "nothing" "RootAttRegistry::add_root_att"

/-- A root attribute that is not there: the first subscription is with state, the second without. -/
def AddRootAtt.subscribe (c : AddRootAtt) (s : Registry) : FwdAttError × Result :=
  let s := addAtt c.root.full c.localAtt c.attdesc s
  match c.first with
  | none => (c.attdesc,recordEvent c.root.full s,.returned)
  | some e =>
    (c.errKind e,
      match c.second with
      | some e' => (s,.threw e')
      | none =>
        andThen (updateErrKind c.root.full (c.errKind e) (recordEvent c.root.full s))
          (fun s => (s,.threw (e ++ dummy))))

/-- The first component is the error kind of the descriptor afterwards. -/
def addRootAtt (c : AddRootAtt) (s : Registry) : FwdAttError × Result :=
  match c.openProxy s with
  | .error (kind,e) => (kind,s,.threw e)
  | .ok s =>
    if c.root.full ∈ s.mapAttrdesc then
      if c.restarting then (c.attdesc,s,.returned)
      else
        (.doubleUsed,
          andThen (updateErrKind c.root.full .doubleUsed s) (fun s => (s,.threw (doubleUsed c.root.full))))
    else c.subscribe s

end Add

section Remove

/-- The user events of an attribute are unsubscribed. -/
def dropUser (root : Text) (s : Registry) : Registry :=
  match s.mapEventIdUser.lookup root with
  | none => s
  | some evs =>
    {s with mapEventIdUser := s.mapEventIdUser.erase root,subscribed := s.subscribed - ids evs}

/-- The configuration event is unsubscribed; the proxy goes with the last attribute of its device. -/
def dropEvent (root : AttName) (co : Nat) (s : Registry) : Registry :=
  match s.mapEventId.lookup root.full with
  | none => s
  | some id =>
    if root.dev ∈ s.dps then
      {s with
        mapEventId := s.mapEventId.erase root.full
        subscribed := s.subscribed.erase id
        dps := if co = 1 then s.dps.erase root.dev else s.dps}
    else s

def removeRootAtt (root : AttName) (s : Registry) : Result :=
  let s := if root.dev ∈ s.dps then dropUser root.full s else s
  let co := countRootDev root.dev s
  andThen (if co ≠ 0 then removeAtt root.full s else (s,.returned)) (fun s => (dropEvent root co s,.returned))

end Remove

section User

def inconsistent (desc origin : String) : DevErrorList := thrown "API_FwdAttrInconsistency" desc origin

def noProxy (dev : Text) : DevErrorList :=
  inconsistent (text dev ++ " not registered in map of root attribute devices!") "RootAttRegistry::get_root_att_dp"

/-- What the two subscriptions to an event of the users come to. -/
def userThrown (first second : Option DevErrorList) : Option DevErrorList :=
  match first with
  | none => none
  | some e => if reason e 0 = some "API_CantConnectToDevice" then second else some e

def recordUser (root : Text) (et : EventType) (s : Registry) : Registry :=
  {s with
    mapEventIdUser := s.mapEventIdUser.insert root
      ((s.mapEventIdUser.lookup root).getD [] ++ [⟨et,s.subscribeEventId + 1⟩])
    subscribeEventId := s.subscribeEventId + 1
    subscribed := (s.subscribeEventId + 1) ::ₘ s.subscribed}

def subscribeUserEvent (root : AttName) (et : EventType) (first second : Option DevErrorList) (s : Registry) :
    Result :=
  if root.dev ∈ s.dps then
    match userThrown first second with
    | some e => (s,.threw e)
    | none => (recordUser root.full et s,.returned)
  else (s,.threw (noProxy root.dev))

/-- The entry of the attribute is used without a look whether there is one. -/
def unsubscribeUserEvent (root : AttName) (et : EventType) (s : Registry) : Result :=
  if root.dev ∈ s.dps then
    match s.mapEventIdUser.lookup root.full with
    | none => (s,.fault .badIterator)
    | some evs =>
      let localEvid := ((evs.find? (·.eventType = et)).map UserEvent.eventId).getD 0
      if localEvid = 0 then
        (s,.threw (inconsistent (text root.full ++ " not found in map of user event on root attribute!")
          "RootAttRegistry::unsubscribe_user_event"))
      else
        let left := evs.eraseP (·.eventType = et)
        ({s with
          mapEventIdUser :=
            if left.isEmpty then s.mapEventIdUser.erase root.full else s.mapEventIdUser.insert root.full left
          subscribed := s.subscribed.erase localEvid},.returned)
  else (s,.threw (noProxy root.dev))

end User

section AutoUnsub
variable (now : Int)

/-- The age of the last subscription; for some types of events it stays that of the event before. -/
def deltaT (sub : EventType → Int) (before : Int) : EventType → Int
  | .change => now - sub .change
  | .alarm => now - sub .alarm
  | .periodic => now - sub .periodic
  | .archive => now - sub .archive
  | .user => now - sub .user
  | .dataReady => now - sub .dataReady
  | .interfaceChange | .pipe | .attrConf => before

/-- The loop over the events of an attribute, with the events kept and those unsubscribed: the one
behind an event that goes is stepped over. -/
def unsubOld (sub : EventType → Int) : Int → List UserEvent → List UserEvent × List UserEvent
  | _,[] => ([],[])
  | delta,e::evs =>
    let delta := deltaT now sub delta e.eventType
    if Event.resubscribePeriod ≤ delta then
      match evs with
      | [] => ([],[e])
      | e'::evs => (unsubOld sub delta evs).map (e' :: ·) (e :: ·)
    else (unsubOld sub delta evs).map (e :: ·) id

variable (attrByName : Text → Text → Except DevErrorList (EventType → Int))

/-- The loop over the attributes; the entry that the iterator stands on may be erased. -/
def unsubAll : List Text → Registry → Result
  | [],s => (s,.returned)
  | root::roots,s =>
    match s.mapAttrdesc.lookup root with
    | none =>
      (s,.threw (inconsistent (text root ++ " not registered in map of root attribute!")
        "RootAttRegistry::RootAttConfCallBack::get_local_att_name"))
    | some n =>
      let localName := n.localAtt.full
      if devOf localName ∈ s.localDis then
        match attrByName (devOf localName) (attOf localName) with
        | .error e => (s,.threw e)
        | .ok sub =>
          let (kept,gone) := unsubOld now sub 0 ((s.mapEventIdUser.lookup root).getD [])
          if gone ≠ [] ∧ devOf root ∉ s.dps then (s,.threw (noProxy (devOf root)))
          else
            let s := {s with
              mapEventIdUser := s.mapEventIdUser.insert root kept
              subscribed := s.subscribed - ids gone}
            if kept = [] then ({s with mapEventIdUser := s.mapEventIdUser.erase root},.fault .badIterator)
            else unsubAll roots s
      else
        (s,.threw (inconsistent (text (devOf localName) ++ " not registered in map of local device!")
          "RootAttRegistry::RootAttConfCallBack::get_local_dev"))

def roots (s : Registry) : List Text := s.mapEventIdUser.keys.insertionSort (· ≤ ·)

def autoUnsub (s : Registry) : Result := unsubAll now attrByName (roots s) s

end AutoUnsub

section Calls

/-- For `auto_unsub`, `attrByName` finds an attribute of a local device, with the dates of its
subscriptions, or throws. -/
inductive Call
  | addRootAtt (c : AddRootAtt)
  | clearAttrdesc (root : AttName)
  | removeRootAtt (root : AttName)
  | subscribeUserEvent (root : AttName) (et : EventType) (first second : Option DevErrorList)
  | unsubscribeUserEvent (root : AttName) (et : EventType)
  | autoUnsub (now : Int) (attrByName : Text → Text → Except DevErrorList (EventType → Int))

def Call.run : Call → Registry → Result
  | .addRootAtt c,s => (RootAtt.addRootAtt c s).2
  | .clearAttrdesc root,s => RootAtt.clearAttrdesc root s
  | .removeRootAtt root,s => RootAtt.removeRootAtt root s
  | .subscribeUserEvent root et first second,s => RootAtt.subscribeUserEvent root et first second s
  | .unsubscribeUserEvent root et,s => RootAtt.unsubscribeUserEvent root et s
  | .autoUnsub now attrByName,s => RootAtt.autoUnsub now attrByName s

def after (s : Registry) (c : Call) : Registry := (c.run s).1

end Calls

end CppTango.Device.RootAtt
