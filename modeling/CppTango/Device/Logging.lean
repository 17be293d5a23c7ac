import CppTango.Client.Group
import CppTango.Device.Lock
import CppTango.Lib.Steps

namespace CppTango.Device.Logging
open CppTango.Client.Group (tokenize)
open CppTango.Device.Lock (ClientAddr Locking validLock notLocker)

/-- The levels of log4tango, in the order of `Tango::LogLevel`. -/
inductive Level
  | off | fatal | error | warn | info | debug
deriving DecidableEq, Repr

/-- A logging target under its full name; a zombie is one that is not valid any more. -/
structure Appender where
  name : List Char
  valid : Bool
deriving DecidableEq, Repr

structure Logger where
  name : String
  level : Level
  appenders : List Appender
deriving DecidableEq, Repr

structure DeviceClass where
  name : String
  deviceList : List Nat

/-- The classes of a server with their devices, and the device every server has. Device names are different ignoring
case. -/
structure Server where
  clListPtr : List DeviceClass
  dserver : Nat
  name : Nat → String
  classesDiffer : (clListPtr.map (·.name)).Nodup
  notDServer : ∀ c ∈ clListPtr, lowerName c.name ≠ "dserver".toList
  namesDiffer : ((clListPtr.flatMap (·.deviceList) ++ [dserver]).map fun d => lowerName (name d)).Nodup
  dserverName : "dserver/".toList <+: lowerName (name dserver)

/-- What surrounds a command: the database (when there is one, with its aliases), the client, the time, the locks, and
which targets can be opened. -/
structure Env where
  useDb : Bool
  getDeviceAlias : List Char → Option String
  now : Int
  client : ClientAddr
  locking : Nat → Locking
  logPath : List Char
  opens : String → List Char → Bool

/-- What the commands change: the aliases that have been learned, and the loggers. -/
structure State where
  aliasNameLower : Nat → List Char
  logger : Nat → Logger

section Devices
variable (sv : Server) (env : Env) (st : State)

/-- `get_class_list`: the class of the server's own device is the last one. -/
def getClassList : List DeviceClass := sv.clListPtr ++ [⟨"DServer",[sv.dserver]⟩]

def getDeviceListByClass (className : String) : Option (List Nat) :=
  let found := sv.clListPtr.find? (fun c => c.name = className)
  if lowerName className = lowerName "DServer" then some [sv.dserver]
  else found.map (·.deviceList)

/-- The device has the name, or it is stored as its alias. -/
def known (devName : List Char) (d : Nat) : Bool :=
  lowerName (sv.name d) = devName || (st.aliasNameLower d ≠ [] && st.aliasNameLower d = devName)

def findDeviceNameCore (devName : List Char) : Option Nat :=
  let devices := sv.clListPtr.flatMap (fun c => (getDeviceListByClass sv c.name).getD [])
  match devices.find? (known sv st devName) with
  | some d => some d
  | none =>
    if "dserver/".toList <+: devName ∧ lowerName (sv.name sv.dserver) = devName then some sv.dserver else none

/-- The database is asked for an alias that is not stored yet; `none` is the exception. -/
def getDeviceByName (devName : List Char) : Option Nat × State :=
  let devName := devName.map Char.toLower
  match findDeviceNameCore sv st devName with
  | some d => (some d,st)
  | none =>
    let dName := if env.useDb then (env.getDeviceAlias devName).getD "" else ""
    if dName ≠ "" then
      match findDeviceNameCore sv st (lowerName dName) with
      | some d => (some d,{ st with aliasNameLower := Function.update st.aliasNameLower d devName })
      | none => (none,st)
    else (none,st)

/-- The loop of `get_device_list` over the tokens: each one is searched from where the last one starts. -/
def matchTokens (devName : List Char) : Nat → List (List Char) → Bool
  | _,[] => true
  | pos,t :: tokens =>
    match Lib.find t (devName.drop pos) with
    | none => false
    | some i => matchTokens devName (pos + i) tokens

def getDeviceList (pattern : String) : List Nat × State :=
  if '*' ∉ pattern.toList then
    let (dev,st) := getDeviceByName sv env st pattern.toList
    (dev.toList,st)
  else
    let dcl := getClassList sv
    if pattern = "*" then (dcl.flatMap (·.deviceList),st)
    else
      let tokens := tokenize pattern
      (dcl.flatMap fun c => c.deviceList.filter (fun d => matchTokens (lowerName (sv.name d)) 0 tokens),st)

end Devices

section Targets

inductive TargetType
  | console | file | device
deriving DecidableEq, Repr

def sep : List Char := "::".toList

def defaultTargetName : List Char := "default".toList

def defaultConsoleName : List Char := "cout".toList

/-- The type of a target from its text. -/
def targetType (type : List Char) : Option TargetType :=
  if type = "console".toList then some .console
  else if type = "file".toList then some .file
  else if type = "device".toList then some .device
  else none

def getTargetTypeAndName (input : List Char) : List Char × List Char :=
  match Lib.find sep input with
  | none => (input,defaultTargetName)
  | some pos =>
    let name := input.drop (pos + sep.length)
    (input.take pos,if name = [] then defaultTargetName else name)

/-- `replace(pos, 1, '_', 1)` puts as many characters of code 1 as the code of `_` says. -/
def devToFileName (devName : String) : List Char :=
  (lowerName devName).flatMap (fun c => if c = '/' then List.replicate '_'.toNat (Char.ofNat 1) else [c])

def fullFileName (logPath : List Char) (logger : Logger) (name : List Char) : List Char :=
  if name = defaultTargetName then logPath ++ '/' :: devToFileName logger.name ++ ".log".toList
  else if '/' ∈ name then name
  else logPath ++ '/' :: name

/-- Name of the appender for a target. -/
def appenderName (logPath : List Char) (logger : Logger) (type name : List Char) (tgType : TargetType) : List Char :=
  match tgType with
  | .console => type ++ sep ++ defaultConsoleName
  | .file => type ++ sep ++ fullFileName logPath logger name
  | .device => type ++ sep ++ name

def Logger.hasAppender (logger : Logger) (name : List Char) : Bool := logger.appenders.any (·.name = name)

def Logger.addAppender (logger : Logger) (name : List Char) : Logger :=
  { logger with appenders := logger.appenders ++ [⟨name,true⟩] }

def Logger.removeAppender (logger : Logger) (name : List Char) : Logger :=
  { logger with appenders := logger.appenders.filter (·.name ≠ name) }

def attach (env : Env) (logger : Logger) (name : List Char) (failed : DevErrorList) : Except DevErrorList Logger :=
  if logger.hasAppender name then .ok logger
  else if env.opens logger.name name then .ok (logger.addAppender name)
  else .error failed

/-- `add_logging_target` of one logger. -/
def addTarget (env : Env) (inTypeName : String) (logger : Logger) : Except DevErrorList Logger :=
  let (type,name) := getTargetTypeAndName (lowerName inTypeName)
  let origin := "Logging::add_logging_target"
  match targetType type with
  | none => .error (thrown "API_MethodArgument"
      ("Invalid logging target type specified (" ++ String.ofList type ++ ")") origin)
  | some .console =>
    let full := appenderName env.logPath logger type name .console
    .ok (if logger.hasAppender full then logger else logger.addAppender full)
  | some .file =>
    attach env logger (appenderName env.logPath logger type name .file) (thrown "API_CannotOpenFile"
      ("Could not open logging file " ++ String.ofList (fullFileName env.logPath logger name)) origin)
  | some .device =>
    if name = defaultTargetName then
      .error (thrown "API_MethodArgument" "Device target name must be specified (no default value)" origin)
    else
      attach env logger (appenderName env.logPath logger type name .device) (thrown "API_ConnectionFailed"
        ("Could not connect to log consumer " ++ String.ofList name) origin)

/-- What `remove_logging_target` does with one logger. -/
def removeTarget (logPath : List Char) (type name : List Char) (tgType : TargetType) (logger : Logger) : Logger :=
  let name := if tgType = .console then defaultConsoleName else name
  if name = ['*'] then
    { logger with appenders := logger.appenders.filter (fun a => (Lib.find (type ++ sep) a.name).isNone) }
  else logger.removeAppender (appenderName logPath logger type name tgType)

def tangoToLog4tangoLevel (tangoLevel : Int) : Except DevErrorList Level :=
  match tangoLevel with
  | 0 => .ok .off
  | 1 => .ok .fatal
  | 2 => .ok .error
  | 3 => .ok .warn
  | 4 => .ok .info
  | 5 => .ok .debug
  | _ => .error (thrown "API_MethodArgument" "Invalid logging level specified" "Logging::tango_to_log4tango_level")

/-- A level is set as it is; the appenders take no notice of it. -/
def setLevel (tangoLevel : Int) (logger : Logger) : Except DevErrorList Logger :=
  (tangoToLog4tangoLevel tangoLevel).map (fun level => { logger with level := level })

end Targets

section Commands
variable (sv : Server) (env : Env)

def checkLockOwner (cmdName : String) (d : Nat) : Option DevErrorList :=
  let dev := env.locking d
  if dev.deviceLocked ∧ validLock env.now dev then
    if env.client.clientIdent = false ∨ notLocker env.client dev.lockerClient then
      some (thrown "API_DeviceLocked" ("Device " ++ sv.name d ++ " is locked by another client." ++
        " Your request is not allowed while a device is locked.") ("DServer::" ++ cmdName))
    else none
  else none

def Logger.withoutZombies (logger : Logger) : Logger :=
  { logger with appenders := logger.appenders.filter (·.valid) }

/-- Dead targets are taken off all devices. -/
def killZombieAppenders (st : State) : State :=
  let (dl,st) := getDeviceList sv env st "*"
  { st with logger := fun d => if d ∈ dl then (st.logger d).withoutZombies else st.logger d }

/-- What the commands differ in: the check of an argument in front of the search, what is thrown when no device is found,
and the action. -/
structure Command (α : Type) where
  name : String
  check : α → Except DevErrorList Unit
  noDevice : String → Except DevErrorList Unit
  action : α → Except DevErrorList (Logger → Except DevErrorList Logger)

def lowerPattern (pattern : String) : String := String.ofList (lowerName pattern)

/-- One entry of the argument: the devices are looked for, none of them may be locked by another client, and then the
action is done for each. -/
def Command.treat {α : Type} (c : Command α) (x : String × α) (st : State) : Except DevErrorList Unit × State :=
  match c.check x.2 with
  | .error e => (.error e,st)
  | .ok _ =>
    let (dl,st) := getDeviceList sv env st (lowerPattern x.1)
    match if dl = [] then c.noDevice (lowerPattern x.1) else .ok () with
    | .error e => (.error e,st)
    | .ok _ =>
      match dl.findSome? (checkLockOwner sv env c.name) with
      | some e => (.error e,st)
      | none =>
        match c.action x.2 with
        | .error e => (.error e,st)
        | .ok act =>
          let (r,logger) := Lib.forEach (Lib.actAt act) dl st.logger
          (r,{ st with logger := logger })

def notFound (origin pattern : String) : Except DevErrorList Unit :=
  .error (thrown "API_DeviceNotFound" ("No device name matching pattern  <" ++ pattern ++ ">") origin)

def levelCommand : Command Int where
  name := "set_logging_level"
  check level :=
    if level < 0 ∨ level > 5 then
      .error (thrown "API_MethodArgument" "Invalid argument for command, logging level out of range"
        "Logging::set_logging_level")
    else .ok ()
  noDevice _ := .ok ()
  action level := .ok (setLevel level)

def setLoggingLevel (svalue : List String) (lvalue : List Int) (st : State) : Except DevErrorList Unit × State :=
  if svalue.length ≠ lvalue.length then
    (.error (thrown "API_IncompatibleCmdArgumentType"
      "Imcompatible command argument type, long and string arrays must have the same length"
      "Logging::set_logging_level"),st)
  else Lib.forEach (levelCommand.treat sv env) (svalue.zip lvalue) st

/-- Device and target, one pair after the other. -/
def pairs : List String → List (String × String)
  | d :: t :: rest => (d,t) :: pairs rest
  | _ => []

def addCommand : Command String where
  name := "add_logging_target"
  check _ := .ok ()
  noDevice := notFound "Logging::add_logging_target"
  action target := .ok (addTarget env target)

def addLoggingTarget (argin : List String) (st : State) : Except DevErrorList Unit × State :=
  let st := killZombieAppenders sv env st
  if argin.length % 2 ≠ 0 then
    (.error (thrown "API_MethodArgument" "Incorrect number of inout arguments" "Logging::add_logging_target"),st)
  else Lib.forEach ((addCommand env).treat sv env) (pairs argin) st

def removeCommand : Command String where
  name := "remove_logging_target"
  check _ := .ok ()
  noDevice := notFound "Logging::remove_logging_target"
  action target :=
    let (type,name) := getTargetTypeAndName (lowerName target)
    match targetType type with
    | none => .error (thrown "API_MethodArgument"
        ("Logging target type <" ++ String.ofList type ++ "> not supported") "Logging::remove_logging_target")
    | some tgType => .ok (fun logger => .ok (removeTarget env.logPath type name tgType logger))

def removeLoggingTarget (argin : List String) (st : State) : Except DevErrorList Unit × State :=
  let st := killZombieAppenders sv env st
  if argin.length % 2 ≠ 0 then
    (.error (thrown "API_WrongNumberOfArgs" "Incorrect number of inout arguments" "Logging::remove_logging_target"),st)
  else Lib.forEach ((removeCommand env).treat sv env) (pairs argin) st

end Commands

end CppTango.Device.Logging
