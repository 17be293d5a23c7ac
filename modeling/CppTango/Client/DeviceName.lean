import CppTango.Device.MultiAttribute
import CppTango.Lib.Numbers
import CppTango.Lib.Outcome
import CppTango.Lib.Text

namespace CppTango.Client.Names
open CppTango.Device (thrown)
open CppTango.Lib

abbrev Text := List Char

/-- `ApiWrongNameExcept`, or the exception of `substr` for a position behind the end. -/
inductive NameFault
  | wrongName (errors : DevErrorList)
  | outOfRange
deriving DecidableEq, Repr

def protSep : Text := "://".toList
def tangoProtocol : Text := "tango".toList
def dbaseYes : Text := "dbase=yes".toList
def dbaseNo : Text := "dbase=no".toList
def resSep : Text := "->".toList
def fromIor : Text := "IOR".toList
def notUsed : Text := "Unused".toList

/-- A count is `none` for all that is there. -/
def substr (s : Text) (pos : Nat) (n : Option Nat) : Except NameFault Text :=
  if s.length < pos then .error .outOfRange
  else .ok ((s.drop pos).take (n.getD s.length))

/-- The count `a - b`, which wraps to more than any string has when `b` is larger. -/
def countTo (a b : Nat) : Option Nat := if a < b then none else some (a - b)

section Common
variable (origin : String)

/-- A name without the protocol in front of it. -/
def nameWoProt (fullNameLow : Text) : Except NameFault Text :=
  match find protSep fullNameLow with
  | none =>
    if fullNameLow.length > 2 then
      if fullNameLow[0]? = some '/' ∧ fullNameLow[1]? = some '/' then substr fullNameLow 2 none else .ok fullNameLow
    else .ok fullNameLow
  | some pos => do
    let protocol ← substr fullNameLow 0 (some pos)
    if protocol = tangoProtocol then substr fullNameLow (pos + 3) none
    else .error (.wrongName (thrown "API_UnsupportedProtocol"
      (String.ofList protocol ++ " protocol is an unsupported protocol") origin))

/-- A name without the database modifier behind it, and whether the database is used. -/
def nameWoDbMod (name : Text) : Except NameFault (Text × Bool) :=
  match name.idxOf? '#' with
  | none => .ok (name,true)
  | some pos => do
    let mod ← substr name (pos + 1) none
    if mod = dbaseYes then
      let kept ← substr name 0 (some (name.length - (name.length - pos)))
      .ok (kept,true)
    else if mod = dbaseNo then
      let kept ← substr name 0 (some (name.length - (name.length - pos)))
      .ok (kept,false)
    else .error (.wrongName (thrown "API_UnsupportedDBaseModifier"
      (String.ofList mod ++ " modifier is an unsupported db modifier") origin))

end Common

/-- The members of a proxy that `parse_name` reads or sets. -/
structure DeviceProxy where
  host : Text
  port : Text
  portNum : Int
  deviceName : Text
  aliasName : Text
  isAlias : Bool
  dbHost : Text
  dbPort : Text
  dbPortNum : Int
  fromEnvVar : Bool
  dbaseUsed : Bool
  nethostAlias : Bool
  origTangoHost : Text
deriving DecidableEq, Repr

/-- A proxy as its initialisers leave it; the numbers and two of the flags are what the memory held. -/
def DeviceProxy.initialised (portNum dbPortNum : Int) (fromEnvVar dbaseUsed : Bool) : DeviceProxy :=
  ⟨[],[],portNum,[],[],false,[],[],dbPortNum,fromEnvVar,dbaseUsed,false,[]⟩

section ParseName
variable (fullName : Text)

def wrongSyntax (desc : String) : NameFault :=
  .wrongName (thrown "API_WrongDeviceNameSyntax" desc "DeviceProxy::parse_name")

def wrongDevice : NameFault :=
  wrongSyntax ("Wrong device name syntax (domain/family/member) in " ++ String.ofList fullName)

def wrongDeviceNoDb : NameFault :=
  wrongSyntax ("Wrong device name syntax (domain/family/member) in " ++ String.ofList fullName ++
    "\nRem: Alias are forbidden when not using a database")

def wrongHost : NameFault :=
  wrongSyntax ("Host and port not correctly defined in device name " ++ String.ofList fullName)

/-- The second separator is not at once behind the first, and there is no third. -/
def checkFields (wrong : NameFault) (name : Text) (prevSep : Nat) : Except NameFault Unit :=
  match findFrom '/' (prevSep + 1) name with
  | none => .error wrong
  | some pos =>
    if pos = prevSep + 1 then .error wrong
    else match findFrom '/' (pos + 1) name with
      | some _ => .error wrong
      | none => .ok ()

def checkAlias (name : Text) : Except NameFault Unit :=
  match name.idxOf? ':' with
  | some _ => .error (wrongSyntax ("Wrong alias name syntax in " ++ String.ofList fullName ++
      " (: is not allowed in alias name)"))
  | none => match find resSep name with
    | some _ => .error (wrongSyntax ("Wrong alias name syntax in " ++ String.ofList fullName ++
        " (-> is not allowed in alias name)"))
    | none => .ok ()

variable (d : DeviceProxy)

/-- Without a database. -/
def parseNoDbase (name : Text) : Except NameFault DeviceProxy :=
  match name.idxOf? ':' with
  | none => .error (wrongHost fullName)
  | some pos => do
    let host ← substr name 0 (some pos)
    match name.idxOf? '/' with
    | none => .error (wrongHost fullName)
    | some tmp =>
      let port ← substr name (pos + 1) (countTo tmp (pos + 1))
      let deviceName ← substr name (tmp + 1) none
      match deviceName.idxOf? '/' with
      | none => .error (wrongDeviceNoDb fullName)
      | some sep =>
        checkFields (wrongDeviceNoDb fullName) deviceName sep
        .ok { d with
          host, port, portNum := streamInt port, deviceName, dbHost := notUsed, dbPort := notUsed, dbPortNum := 0,
          fromEnvVar := false }

/-- The name behind host and port: an alias or a device name. -/
def parseObject (objectName : Text) : Except NameFault DeviceProxy :=
  match objectName.idxOf? '/' with
  | none => do
    checkAlias fullName objectName
    .ok { d with aliasName := objectName, deviceName := objectName, isAlias := true }
  | some pos => do
    checkFields (wrongDevice fullName) objectName pos
    .ok { d with deviceName := objectName }

variable (getFqdn : Text → Text)

/-- The host of the database with its port, and the host as it was written when it gets a domain. -/
def DeviceProxy.dbHosted (safeTmpHost dbPort : Text) : DeviceProxy :=
  let tmpHost := if '.' ∈ safeTmpHost then safeTmpHost else getFqdn safeTmpHost
  let d := match tmpHost.idxOf? '.' with
    | some pos2 => { d with
        nethostAlias := true
        origTangoHost := if '.' ∈ safeTmpHost then safeTmpHost else safeTmpHost ++ tmpHost.drop pos2 }
    | none => { d with nethostAlias := false }
  { d with dbHost := tmpHost, dbPort, dbPortNum := streamInt dbPort }

/-- The host of the database, its port and the name behind them. -/
def parseDbHost (name befSep : Text) (pos tmp : Nat) : Except NameFault DeviceProxy := do
  let safeTmpHost ← substr befSep 0 (some tmp)
  let dbPort ← substr befSep (tmp + 1) none
  let objectName ← substr name (pos + 1) none
  let d ← parseObject fullName (d.dbHosted getFqdn safeTmpHost dbPort) objectName
  .ok { d with fromEnvVar := false, portNum := 0, port := fromIor, host := fromIor }

/-- With a database. -/
def parseDbase (name : Text) : Except NameFault DeviceProxy :=
  match name.idxOf? '/' with
  | none => do
    checkAlias fullName name
    .ok { d with
      aliasName := name, deviceName := name, isAlias := true, fromEnvVar := true, portNum := 0, host := fromIor,
      port := fromIor }
  | some pos => do
    let befSep ← substr name 0 (some pos)
    match befSep.idxOf? ':' with
    | none =>
      if pos = 0 then .error (wrongDevice fullName)
      else
        checkFields (wrongDevice fullName) name pos
        .ok { d with deviceName := name, fromEnvVar := true, portNum := 0, port := fromIor, host := fromIor }
    | some tmp => parseDbHost fullName d getFqdn name befSep pos tmp

def parseName : Except NameFault DeviceProxy :=
  if fullName = [] then
    .error (wrongSyntax "The given name is an empty string!!! \nDevice name syntax is domain/family/member")
  else do
    let woProt ← nameWoProt "DeviceProxy::parse_name" (fullName.map Char.toLower)
    let (woDbMod,dbaseUsed) ← nameWoDbMod "DeviceProxy::parse_name" woProt
    let d := { d with dbaseUsed }
    if dbaseUsed then parseDbase fullName d getFqdn woDbMod else parseNoDbase fullName d woDbMod

end ParseName
end CppTango.Client.Names
