import CppTango.Device.MultiAttribute
import CppTango.Lib.Maps
import CppTango.Lib.Text
import Mathlib.Logic.Function.Basic

namespace CppTango.Client.Access

open CppTango.Lib CppTango.Device

/-- The right of a client on a device. -/
inductive AccessControlType
  | read | write
deriving DecidableEq, Repr

def lower (s : String) : String := String.ofList (lowerName s)

/-- An exception, with whether it is a `ConnectionFailed` or one of CORBA. -/
structure Raised where
  errors : DevErrorList
  connectionFailed : Bool

/-- What happens to a call that is sent to a device: the connection may be lost. -/
inductive Reply
  | done
  | failed (errors : DevErrorList)
  | lost (errors : DevErrorList)

/-- What a call of the client finds outside of it: the environment of the process, the database, the access
control device and the device it talks to. -/
structure World where
  superTango : Option String
  accessDevname : Option String
  /-- The property `Services` of the control system; empty also when it cannot be read. -/
  services : List String
  build : String → Option DevErrorList
  ping : String → Option DevErrorList
  user : Option String
  addresses : Option (List String)
  getAccessForMultiIp : String → String → List String → Except DevErrorList String
  getAccess : String → String → String → Except DevErrorList String
  getAllowedCommands : String → Except DevErrorList (List String)
  getClassForDevice : String → Except DevErrorList String
  /-- Whether a device is exported, and its class where the database gives it. -/
  importDevice : String → Except Raised (Bool × Option String)
  tooSoon : Option DevErrorList
  connect : Option Raised
  pingDevice : Option DevErrorList
  reply : Reply

section Proxy

/-- The proxy of the access control device. -/
structure AccessProxy where
  name : String
  forced : Bool
  user : String
  hostIps : List String
  allowedCmdTable : AList (fun _ : String => List String)

def forcedIn (w : World) : Bool := w.superTango.map lower = some "true"

def realCtor (w : World) (name : String) : Except DevErrorList AccessProxy :=
  match w.build name with
  | some e => .error e
  | none =>
    if forcedIn w then .ok ⟨name,true,"",[],∅⟩
    else
      match w.ping name with
      | some e => .error e
      | none => .ok ⟨name,false,"",[],∅⟩

/-- The addresses of the host, without the local one and those of IP v6; the first one when none is left. -/
def hostAddresses (adrs : List String) : List String :=
  let kept := adrs.filter (fun a => !"127.".toList.isPrefixOf a.toList && !a.toList.contains ':')
  if kept = [] then [adrs.head?.getD ""] else kept

/-- The user and the addresses are asked for once; a failure leaves what was found before it. -/
def identified (w : World) (p : AccessProxy) : AccessProxy × Bool :=
  match if p.user = "" then w.user.map lower else some p.user with
  | none => (p,false)
  | some user =>
    match if p.hostIps = [] then w.addresses.map hostAddresses else some p.hostIps with
    | none => ({ p with user := user },false)
    | some ips => ({ p with user := user,hostIps := ips },true)

def firstReason (e : DevErrorList) : String := (e.head?.map DevError.reason).getD ""

def ofRight (right : String) : AccessControlType := if right = "write" then .write else .read

/-- The handler of the two tries: nothing where the next one is made. -/
def handled (e : DevErrorList) : Option DevErrorList :=
  if firstReason e = "API_CommandNotFound" then none
  else if firstReason e = "API_DeviceNotExported" then
    some (e ++ thrown "API_CannotCheckAccessControl" "Cannot import Access Control device !"
      "AccessProxy::check_access_control")
  else some e

def askService (w : World) (p : AccessProxy) (devname : String) : Except DevErrorList AccessControlType :=
  match w.getAccessForMultiIp p.user devname p.hostIps with
  | .ok right => .ok (ofRight right)
  | .error e =>
    match handled e with
    | some e' => .error e'
    | none =>
      match w.getAccess p.user (p.hostIps.headD "") devname with
      | .ok right => .ok (ofRight right)
      | .error e =>
        match handled e with
        | some e' => .error e'
        | none => .ok .read

def AccessProxy.checkAccessControl (w : World) (p : AccessProxy) (devname : String) :
    AccessProxy × Except DevErrorList AccessControlType :=
  if p.forced then (p,.ok .write)
  else
    match identified w p with
    | (p,false) => (p,.ok .read)
    | (p,true) => (p,askService w p devname)

/-- What `get_allowed_commands` enters in the table: nothing when the service fails. -/
def allowedCommands (w : World) (classname : String) : List String :=
  match w.getAllowedCommands classname with
  | .ok allowed => allowed
  | .error _ => []

def isIn (allowed : List String) (cmd : String) : Bool := allowed.any (fun c => lowerName c = lowerName cmd)

def AccessProxy.isCommandAllowed (w : World) (p : AccessProxy) (classname cmd : String) : AccessProxy × Bool :=
  match p.allowedCmdTable.lookup classname with
  | some allowed => (p,isIn allowed cmd)
  | none =>
    ({ p with allowedCmdTable := p.allowedCmdTable.insert classname (allowedCommands w classname) },
      isIn (allowedCommands w classname) cmd)

end Proxy

section Database

/-- What does not change of a `Database` object. -/
structure DbConf where
  dbDeviceName : String
  dbHost : String
  dbPort : String
  fromEnvVar : Bool

/-- The part of a `Database` object for the access control. -/
structure Db where
  accessChecked : Bool
  accessProxy : Option AccessProxy
  accessServiceDefined : Bool
  access : AccessControlType
  accessExceptErrors : DevErrorList
  devClassCache : AList (fun _ : String => String)

variable (conf : DbConf)

/-- `get_services` for any instance of a service: the devices of the entries that start with its name. -/
def getServices (servname : String) (services : List String) : List String :=
  services.filterMap (fun s =>
    if (lowerName (servname ++ "/")).isPrefixOf (lowerName s) && (lowerName s).contains ':' then
      some (String.ofList (((lowerName s).dropWhile (fun c => c ≠ ':')).drop 1))
    else none)

/-- The access control device and whether it comes from the database. -/
def chooseService (w : World) : Option (String × Bool) :=
  match w.accessDevname with
  | some name => some (name,false)
  | none => ((getServices "AccessControl" w.services).head?).map (fun name => (name,true))

def accessDeviceName (name : String) : String :=
  if !conf.fromEnvVar && name.toList.count '/' = 2 then
    "tango://" ++ conf.dbHost ++ ":" ++ conf.dbPort ++ "/" ++ name
  else name

/-- The exception that is kept when the access control fails. -/
def unreachable (e : DevErrorList) : DevErrorList :=
  if firstReason e = "API_DeviceNotExported" ∨ firstReason e = "DB_DeviceNotDefined" then
    match e with
    | [] => []
    | first::rest =>
      { first with desc := first.desc ++
        "\nControlled access service defined in Db but unreachable --> Read access given to all devices..." } :: rest
  else e

def askProxy (w : World) (devname : String) (db : Db) (p : AccessProxy) : Db × AccessControlType :=
  match p.checkAccessControl w devname with
  | (p,.ok access) => ({ db with accessProxy := some p,accessExceptErrors := [] },access)
  | (p,.error e) => ({ db with accessProxy := some p,accessExceptErrors := unreachable e },.read)

def checkAccessControl (w : World) (devname : String) (db : Db) : Db × AccessControlType :=
  if db.accessChecked && devname = conf.dbDeviceName then (db,db.access)
  else
    match db.accessProxy with
    | some p => askProxy w devname db p
    | none =>
      if db.accessChecked then
        ({ db with accessExceptErrors := [] },if db.accessServiceDefined then .read else .write)
      else
        match chooseService w with
        -- no service: everybody may write, also on the database device
        | none => ({ db with access := .write },.write)
        | some (name,inDb) =>
          match realCtor w (accessDeviceName conf name) with
          | .error e =>
            ({ db with accessServiceDefined := db.accessServiceDefined || inDb,
                       accessExceptErrors := unreachable e },.read)
          | .ok p => askProxy w devname { db with accessServiceDefined := db.accessServiceDefined || inDb } p

/-- `check_access`, which `check_access_and_get` calls. -/
def checkAccess (w : World) (db : Db) : Db :=
  if db.accessChecked then db
  else
    { (checkAccessControl conf w conf.dbDeviceName db).1 with
      access := (checkAccessControl conf w conf.dbDeviceName db).2
      accessChecked := true }

/-- The start of `is_command_allowed`: the answer, where there is no proxy, or the proxy. -/
def firstProxy (w : World) (devname : String) (db : Db) : Db × (Bool ⊕ AccessProxy) :=
  match db.accessProxy with
  | some p => (db,.inr p)
  | none =>
    match checkAccessControl conf w devname db with
    | (db1,acc) =>
      match db1.accessProxy with
      | none => (db1,.inl (acc ≠ .read))
      | some p => ({ db1 with access := acc,accessExceptErrors := [] },.inr p)

/-- `is_command_allowed` for the database device. -/
def dbCommandAllowed (w : World) (cmd : String) (db : Db) : Db × Bool :=
  match firstProxy conf w conf.dbDeviceName db with
  | (db,.inl allowed) => (db,allowed)
  | (db,.inr p) =>
    if db.access = .read then
      ({ db with accessProxy := some (p.isCommandAllowed w "Database" cmd).1 },
        (p.isCommandAllowed w "Database" cmd).2)
    else (db,true)

/-- The exception of a command that is not allowed, once the device has answered to a ping. -/
def notAllowed (devname cmd : String) (errors : DevErrorList) : DevErrorList :=
  thrown "API_ReadOnlyMode"
    ("Command " ++ cmd ++ " on device " ++ devname ++ " is not authorized" ++
      match errors with
      | [] => ""
      | e::_ => " because an error occurs while talking to the Controlled Access Service" ++
        (if (find "defined".toList e.desc.toList).isSome then "\n" ++ e.desc else ""))
    "Connection::command_inout"

/-- The access control of `command_inout` on the database device. -/
def dbCommandInout (w : World) (cmd : String) (db : Db) : Db × Option DevErrorList :=
  if db.access = .read then
    match dbCommandAllowed conf w cmd db with
    | (db,true) => (db,none)
    | (db,false) => (db,some (w.pingDevice.getD (notAllowed conf.dbDeviceName cmd db.accessExceptErrors)))
  else (db,none)

def getClassForDevice (w : World) (devname : String) (db : Db) : Db × Except DevErrorList String :=
  match (checkAccess conf w db).devClassCache.lookup devname with
  | some classname => (checkAccess conf w db,.ok classname)
  | none =>
    match dbCommandInout conf w "DbGetClassforDevice" (checkAccess conf w db) with
    | (db,some e) => (db,.error e)
    | (db,none) =>
      match w.getClassForDevice devname with
      | .error e => (db,.error e)
      | .ok classname => ({ db with devClassCache := db.devClassCache.insert devname classname },.ok classname)

def isCommandAllowed (w : World) (devname cmd : String) (db : Db) : Db × Except DevErrorList Bool :=
  if devname = conf.dbDeviceName then
    match dbCommandAllowed conf w cmd db with
    | (db,allowed) => (db,.ok allowed)
  else
    match firstProxy conf w devname db with
    | (db,.inl allowed) => (db,.ok allowed)
    | (db,.inr _) =>
      match getClassForDevice conf w devname db with
      | (db,.error e) => (db,.error e)
      | (db,.ok classname) =>
        match db.accessProxy with
        | some p =>
          ({ db with accessProxy := some (p.isCommandAllowed w classname cmd).1 },
            .ok (p.isCommandAllowed w classname cmd).2)
        -- a null pointer, which is not there: nothing takes the proxy away
        | none => (db,.ok false)

end Database

section Calls

/-- A `DeviceProxy`. -/
structure DevProxy where
  name : String
  access : AccessControlType
  checkAcc : Bool
  connected : Bool

/-- What reaches a device. -/
inductive Sent
  | command (devname cmd : String)
  | write (devname : String)
deriving DecidableEq, Repr

/-- A client: its database, its proxies and what it has sent. -/
structure AccessState where
  db : Db
  proxies : Nat → Option DevProxy
  sent : List Sent

variable (conf : DbConf)

/-- The class that `import_device` enters in the cache, where it is not there yet. -/
def Db.imported (db : Db) (devname : String) (classname : Option String) : Db :=
  match classname,db.devClassCache.lookup devname with
  | some c,none => { db with devClassCache := db.devClassCache.insert devname c }
  | _,_ => db

def notExported (devname : String) : Raised :=
  ⟨thrown "API_DeviceNotExported"
    ("Device " ++ devname ++ " is not exported (hint: try starting the device server)")
    "DeviceProxy::get_corba_name",true⟩

/-- `get_corba_name`: the right is asked for each time. -/
def getCorbaName (w : World) (needCheckAcc : Bool) (db : Db) (p : DevProxy) : Db × DevProxy × Option Raised :=
  match w.importDevice p.name with
  | .error e => (db,p,some e)
  | .ok (false,classname) => (db.imported p.name classname,{ p with connected := false },some (notExported p.name))
  | .ok (true,classname) =>
    if needCheckAcc then
      ((checkAccessControl conf w p.name (db.imported p.name classname)).1,
        { p with access := (checkAccessControl conf w p.name (db.imported p.name classname)).2 },none)
    else (db.imported p.name classname,{ p with checkAcc := false },none)

/-- `reconnect`, of a proxy that is not connected. -/
def reconnect (w : World) (db : Db) (p : DevProxy) : Db × DevProxy × Option Raised :=
  match getCorbaName conf w p.checkAcc db p with
  | (db,p,some e) => (db,p,some e)
  | (db,p,none) =>
    (if p.checkAcc then db else { db with accessExceptErrors := [] },{ p with connected := w.connect.isNone },w.connect)

/-- The constructor of a device proxy. A device that does not answer has a proxy too. -/
def newProxy (w : World) (name : String) (needCheckAcc : Bool) (db : Db) : Db × Option DevProxy :=
  match getCorbaName conf w needCheckAcc db ⟨name,.read,true,false⟩ with
  | (db,p,e) =>
    let reason := firstReason ((e.map Raised.errors).getD [])
    if reason = "DB_DeviceNotDefined" then (db,none)
    else if reason = "API_DeviceNotExported" then (db,some p)
    else
      match reconnect conf w db p with
      | (db,p,none) => (db,some p)
      | (db,p,some e) => (db,if e.connectionFailed then some p else none)

/-- `check_and_reconnect`. -/
def checkAndReconnect (w : World) (db : Db) (p : DevProxy) : Db × DevProxy × Option DevErrorList :=
  if p.connected then (db,p,none)
  else
    match w.tooSoon with
    | some e => (db,p,some e)
    | none =>
      match reconnect conf w db p with
      | (db,p,e) => (db,p,e.map Raised.errors)

/-- The state of a client when a call on a proxy ends that has sent nothing. -/
def AccessState.kept (s : AccessState) (id : Nat) (db : Db) (p : DevProxy) : AccessState :=
  { s with db := db,proxies := Function.update s.proxies id (some p) }

/-- The call is sent. -/
def AccessState.send (s : AccessState) (w : World) (what : Sent) (id : Nat) (db : Db) (p : DevProxy) :
    AccessState × Option DevErrorList :=
  match w.reply with
  | .done => ({ s.kept id db p with sent := s.sent ++ [what] },none)
  | .failed e => ({ s.kept id db p with sent := s.sent ++ [what] },some e)
  | .lost e => ({ s.kept id db { p with connected := false } with sent := s.sent ++ [what] },some e)

/-- The device is asked whether it is there before a call is refused. -/
def AccessState.refuse (s : AccessState) (w : World) (e : DevErrorList) (id : Nat) (db : Db) (p : DevProxy) :
    AccessState × Option DevErrorList :=
  match w.pingDevice with
  | some e' => (s.kept id db { p with connected := false },some e')
  | none => (s.kept id db p,some e)

/-- `command_inout`: one turn of its loop, which is made again after a lost connection. -/
def commandInout (w : World) (id : Nat) (cmd : String) (s : AccessState) : AccessState × Option DevErrorList :=
  match s.proxies id with
  | none => (s,none)
  | some p =>
    match checkAndReconnect conf w s.db p with
    | (db,p,some e) => (s.kept id db p,some e)
    | (db,p,none) =>
      if p.access = .read then
        match isCommandAllowed conf w p.name cmd db with
        | (db,.error e) => (s.kept id db p,some e)
        | (db,.ok false) => s.refuse w (notAllowed p.name cmd db.accessExceptErrors) id db p
        | (db,.ok true) => s.send w (.command p.name cmd) id db p
      else s.send w (.command p.name cmd) id db p

/-- The writing of attributes. -/
def writeAttributes (w : World) (id : Nat) (s : AccessState) : AccessState × Option DevErrorList :=
  match s.proxies id with
  | none => (s,none)
  | some p =>
    match checkAndReconnect conf w s.db p with
    | (db,p,some e) => (s.kept id db p,some e)
    | (db,p,none) =>
      if p.access = .read then
        s.refuse w (thrown "API_ReadOnlyMode" ("Writing attribute(s) on device " ++ p.name ++ " is not authorized")
          "DeviceProxy::write_attribute") id db p
      else s.send w (.write p.name) id db p

/-- A command of the database, as the methods of `Database` send it. -/
def callDbServer (w : World) (cmd : String) (s : AccessState) : AccessState × Option DevErrorList :=
  match dbCommandInout conf w cmd (checkAccess conf w s.db) with
  | (db,some e) => ({ s with db := db },some e)
  | (db,none) => ({ s with db := db,sent := s.sent ++ [.command conf.dbDeviceName cmd] },none)

inductive Act
  | newProxy (id : Nat) (name : String) (needCheckAcc : Bool)
  | commandInout (id : Nat) (cmd : String)
  | writeAttributes (id : Nat)
  | callDbServer (cmd : String)
deriving DecidableEq, Repr

def step (s : AccessState) (call : World × Act) : AccessState :=
  match call.2 with
  | .newProxy id name needCheckAcc =>
    { s with db := (newProxy conf call.1 name needCheckAcc s.db).1,
             proxies := Function.update s.proxies id (newProxy conf call.1 name needCheckAcc s.db).2 }
  | .commandInout id cmd => (commandInout conf call.1 id cmd s).1
  | .writeAttributes id => (writeAttributes conf call.1 id s).1
  | .callDbServer cmd => (callDbServer conf call.1 cmd s).1

/-- A client that has done nothing. -/
def fresh : AccessState := ⟨⟨false,none,false,.read,[],∅⟩,fun _ => none,[]⟩

end Calls

end CppTango.Client.Access
