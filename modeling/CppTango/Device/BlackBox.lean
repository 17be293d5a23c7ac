import CppTango.Device.Lock
import CppTango.Device.Read
import CppTango.Lib.Ring

namespace CppTango.Device.BlackBox

open Lock

section Element

inductive ReqType
  | unknown | operation | attribute
deriving DecidableEq

inductive AttrType
  | unknown | name | description | state | status | admName
deriving DecidableEq

inductive OpType
  | unknown | commandInout | blackBox | ping | info | commandList | command | getAttrConfig | setAttrConfig
  | readAttr | writeAttr | commandInout2 | commandList2 | command2 | getAttrConfig2 | readAttr2
  | commandInoutHistory2 | readAttrHistory2 | readAttr3 | writeAttr3 | readAttrHistory3 | info3
  | getAttrConfig3 | setAttrConfig3 | readAttrHistory4 | commandInoutHistory4 | commandInout4 | writeAttr4
  | readAttr4 | setAttrConfig4 | writeReadAttributes4 | getAttrConfig5 | setAttrConfig5 | readAttr5
  | writeReadAttributes5 | readAttrHistory5 | getPipeConfig5 | setPipeConfig5 | readPipe5 | writePipe5
  | writeReadPipe5 | info6
deriving DecidableEq

/-- A slot of the box; `hostIpStr` is its character buffer. -/
structure BlackBoxElt where
  reqType : ReqType
  attrType : AttrType
  opType : OpType
  cmdName : String
  attrNames : List String
  time : Int
  hostIpStr : List Char
  source : Read.DevSource
  clientIdent : Bool
  clientLang : LockerLanguage
  clientPid : Int
  javaMainClass : String

/-- What the constructor sets; the rest of a new element is as the memory was. -/
structure BlackBoxElt.Fresh (e : BlackBoxElt) : Prop where
  reqType : e.reqType = .unknown
  attrType : e.attrType = .unknown
  opType : e.opType = .unknown
  hostIpStr : e.hostIpStr.head? = some '\x00'
  clientIdent : e.clientIdent = false

/-- `strcpy`: the characters behind the end stay as they were. -/
def strcpy (s : String) (buffer : List Char) : List Char := s.toList ++ '\x00' :: buffer.drop (s.length + 1)

def charAt (buffer : List Char) (i : Nat) : Char := buffer[i]?.getD '\x00'

/-- The text in a buffer. -/
def cString (buffer : List Char) : List Char := buffer.takeWhile (· ≠ '\x00')

end Element

section Clients

/-- A client as the call interceptor makes it: of this process, or a peer with its omniORB address. -/
structure Client where
  addr : ClientAddr
  known : addr.clientIp.toList.take 5 ∈ ["collo".toList,"giop:".toList]
  text : '\x00' ∉ addr.clientIp.toList

/-- Who makes a request: a client, or else a thread of the server. -/
inductive Caller
  | client (c : Client)
  | thread (polling starting : Bool)

inductive ClntIdent
  | cpp (pid : Int)
  | cpp6 (pid : Int)
  | java (mainClass : String) (uuid : UInt64 × UInt64)
  | java6 (mainClass : String) (uuid : UInt64 × UInt64)

/-- The address of a client on the same host is cut at its first space. -/
def cutAddress (ip : String) : String :=
  if ip.toList.tails.any (fun t => ":unix:".toList.isPrefixOf t) then String.ofList (ip.toList.takeWhile (· ≠ ' ')) else ip

def addClIdent (clId : ClntIdent) (a : ClientAddr) : ClientAddr :=
  match clId with
  | .cpp pid => {a with clientIdent := true,clientLang := .cpp,clientPid := pid,clientIp := cutAddress a.clientIp}
  | .cpp6 pid => {a with clientIdent := true,clientLang := .cpp6,clientPid := pid,clientIp := cutAddress a.clientIp}
  | .java mainClass uuid =>
    {a with clientIdent := true,clientLang := .java,javaMainClass := mainClass,javaIdent := uuid}
  | .java6 mainClass uuid =>
    {a with clientIdent := true,clientLang := .java6,javaMainClass := mainClass,javaIdent := uuid}

/-- The text `get_client_host` copies. -/
def Caller.host : Caller → String
  | .client c => c.addr.clientIp
  | .thread true _ => "polling"
  | .thread false true => "init"
  | .thread false false => "user thread"

def getClientHost (caller : Caller) (e : BlackBoxElt) : BlackBoxElt :=
  {e with hostIpStr := strcpy caller.host e.hostIpStr}

def updateClientHost (a : ClientAddr) (e : BlackBoxElt) : BlackBoxElt :=
  {e with clientIdent := true,clientLang := a.clientLang,clientPid := a.clientPid,javaMainClass := a.javaMainClass}

/-- Requests of polling, of user threads and of the init sequence carry no identification. -/
def ofThread (e : BlackBoxElt) : Bool :=
  charAt e.hostIpStr 0 = 'p' || charAt e.hostIpStr 0 = 'u' || charAt e.hostIpStr 0 = 'i'

def identify (clId : ClntIdent) (caller : Caller) (e : BlackBoxElt) : BlackBoxElt :=
  if ofThread e then e
  else
    match caller with
    | .client c => updateClientHost (addClIdent clId c.addr) e
    | .thread _ _ => e

end Clients

section Insert
variable (time : Int) (caller : Caller)

def insertCorbaAttr (attr : AttrType) (e : BlackBoxElt) : BlackBoxElt :=
  getClientHost caller
    {e with reqType := .attribute,attrType := attr,opType := .unknown,clientIdent := false,time := time}

def insertCmdNl (cmd : String) (vers : Int) (sour : Read.DevSource) (e : BlackBoxElt) : BlackBoxElt :=
  let op : OpType := if vers = 1 then .commandInout else if vers ≤ 3 then .commandInout2 else .commandInout4
  getClientHost caller {e with
    reqType := .operation,attrType := .unknown,opType := op,cmdName := cmd,source := sour,clientIdent := false
    time := time}

def insertCmdClIdent (cmd : String) (clId : ClntIdent) (vers : Int) (sour : Read.DevSource) (e : BlackBoxElt) :
    BlackBoxElt :=
  identify clId caller (insertCmdNl time caller cmd vers sour e)

def insertOpNl (op : OpType) (e : BlackBoxElt) : BlackBoxElt :=
  getClientHost caller
    {e with reqType := .operation,attrType := .unknown,opType := op,clientIdent := false,time := time}

/-- The operation of a read without identification: the switch knows four versions. -/
def readOp (vers : Int) (old : OpType) : OpType :=
  if vers = 1 then .readAttr
  else if vers = 2 then .readAttr2
  else if vers = 3 then .readAttr3
  else if vers = 4 then .readAttr4
  else old

def insertAttr (names : List String) (vers : Int) (sour : Read.DevSource) (e : BlackBoxElt) : BlackBoxElt :=
  getClientHost caller {e with
    reqType := .operation,attrType := .unknown,opType := readOp vers e.opType,source := sour,clientIdent := false
    attrNames := names,time := time}

/-- A read with identification, before the client is identified. -/
def insertAttrNl5 (names : List String) (vers : Int) (sour : Read.DevSource) (e : BlackBoxElt) : BlackBoxElt :=
  getClientHost caller {e with
    reqType := .operation,attrType := .unknown,opType := if 5 ≤ vers then .readAttr5 else .readAttr4
    source := sour,clientIdent := false,attrNames := names,time := time}

def insertAttrClIdent (names : List String) (clId : ClntIdent) (vers : Int) (sour : Read.DevSource)
    (e : BlackBoxElt) : BlackBoxElt :=
  identify clId caller (insertAttrNl5 time caller names vers sour e)

/-- The reading or writing of a pipe. -/
def insertPipeNl (op : OpType) (name : String) (e : BlackBoxElt) : BlackBoxElt :=
  getClientHost caller {e with
    reqType := .operation,attrType := .unknown,opType := op,clientIdent := false,attrNames := [name],time := time}

def insertPipe (op : OpType) (name : String) (clId : ClntIdent) (e : BlackBoxElt) : BlackBoxElt :=
  identify clId caller (insertPipeNl time caller op name e)

def insertAttrNl (names : List String) (vers : Int) (e : BlackBoxElt) : BlackBoxElt :=
  let op : OpType := if vers = 1 then .writeAttr else if vers < 4 then .writeAttr3 else .writeAttr4
  getClientHost caller {e with
    reqType := .operation,attrType := .unknown,opType := op,attrNames := names,clientIdent := false,time := time}

/-- `client_ident` is left as it was. -/
def insertAttrNl4 (names : List String) (e : BlackBoxElt) : BlackBoxElt :=
  getClientHost caller
    {e with reqType := .operation,attrType := .unknown,opType := .writeAttr4,attrNames := names,time := time}

def insertAttrWrNl (names rNames : List String) (vers : Int) (e : BlackBoxElt) : BlackBoxElt :=
  let op : OpType := if 5 ≤ vers then .writeReadAttributes5 else .writeReadAttributes4
  getClientHost caller
    {e with reqType := .operation,attrType := .unknown,opType := op,attrNames := names ++ "/" :: rNames,time := time}

end Insert

section Text

/-- What the text of an element takes from outside: local time, name look-up of an address, the own host. -/
structure Env where
  timestampUnixToStr : Int → String
  hostName : List Char → String
  svrHost : String

def commas (names : List String) : String := String.intercalate ", " names

/-- No comma stands around the slash between the names written and the names read. -/
def aroundSlash : List String → String
  | [] => ""
  | [name] => name
  | name::next::rest =>
    name ++ (if name ≠ "/" ∧ next ≠ "/" then ", " else "") ++ aroundSlash (next :: rest)

def addSource : Read.DevSource → String
  | .dev => "device "
  | .cache => "cache "
  | .cacheDevice => "cache_device "

def cmdText (label : String) (e : BlackBoxElt) : String :=
  label ++ " (cmd = " ++ e.cmdName ++ ") from " ++ addSource e.source

def readText (label : String) (e : BlackBoxElt) : String :=
  label ++ " (" ++ commas e.attrNames ++ ") from " ++ addSource e.source

def namesText (label : String) (e : BlackBoxElt) : String := label ++ " (" ++ commas e.attrNames ++ ") "

def opText (e : BlackBoxElt) : String :=
  match e.opType with
  | .commandInout => cmdText "command_inout" e
  | .ping => "ping "
  | .info => "info "
  | .blackBox => "blackbox "
  | .commandList => "command_list_query "
  | .command => "command_query "
  | .getAttrConfig => "get_attribute_config "
  | .setAttrConfig => "set_attribute_config "
  | .readAttr => readText "read_attributes" e
  | .writeAttr => namesText "write_attributes" e
  | .writeAttr3 => namesText "write_attributes_3" e
  | .commandInout2 => cmdText "command_inout_2" e
  | .commandList2 => "command_list_query_2 "
  | .command2 => "command_query_2 "
  | .getAttrConfig2 => "get_attribute_config_2 "
  | .readAttr2 => readText "read_attributes_2" e
  | .readAttr3 => readText "read_attributes_3" e
  | .commandInoutHistory2 => "command_inout_history_2 "
  | .readAttrHistory2 => "read_attribute_history_2 "
  | .readAttrHistory3 => "read_attribute_history_3 "
  | .info3 => "info_3 "
  | .getAttrConfig3 => "get_attribute_config_3 "
  | .setAttrConfig3 => "set_attribute_config_3 "
  | .readAttrHistory4 => "read_attribute_history_4 "
  | .commandInoutHistory4 => "command_inout_history_4 "
  | .commandInout4 => cmdText "command_inout_4" e
  | .readAttr4 => readText "read_attributes_4" e
  | .writeAttr4 => namesText "write_attributes_4" e
  | .setAttrConfig4 => "set_attribute_config_4 "
  | .writeReadAttributes4 => namesText "write_read_attributes_4" e
  | .getAttrConfig5 => "get_attribute_config_5 "
  | .setAttrConfig5 => "set_attribute_config_5 "
  | .readAttr5 => readText "read_attributes_5" e
  | .writeReadAttributes5 => "write_read_attributes_5 (" ++ aroundSlash e.attrNames ++ ") "
  | .readAttrHistory5 => "read_attribute_history_5 "
  | .getPipeConfig5 => "get_pipe_config_5 "
  | .setPipeConfig5 => "set_pipe_config_5 "
  | .readPipe5 => namesText "read_pipe_5" e
  | .writePipe5 => namesText "write_pipe_5" e
  | .writeReadPipe5 => namesText "write_read_pipe_5" e
  | .info6 => "info_6 "
  | .unknown => "unknown operation !!!!!"

def attrText : AttrType → String
  | .name => "name "
  | .description => "description "
  | .status => "status "
  | .state => "state "
  | .admName => "adm_name "
  | .unknown => "unknown attribute !!!!!"

/-- What follows the first such character. -/
def after (c : Char) (s : List Char) : Option (List Char) :=
  if c ∈ s then some ((s.dropWhile (· ≠ c)).drop 1) else none

def before (c : Char) (s : List Char) : Option (List Char) :=
  if c ∈ s then some (s.takeWhile (· ≠ c)) else none

/-- The IP numbers in an omniORB address. -/
def ipOf (omniAddr : List Char) : Option (List Char) := do
  let ip ← after ':' (← after ':' omniAddr)
  let full ← if ip.head? = some '[' then before ']' (← after ':' (← after ':' (← after ':' ip))) else before ':' ip
  let _ ← after '.' (← after '.' (← after '.' full))
  some full

def identText (e : BlackBoxElt) : String :=
  if e.clientIdent then
    if e.clientLang = .cpp ∨ e.clientLang = .cpp6 then
      " (CPP/Python client with PID " ++ toString e.clientPid ++ ")"
    else " (Java client with main class " ++ e.javaMainClass ++ ")"
  else ""

def requestedFrom (env : Env) (e : BlackBoxElt) : String :=
  let c := charAt e.hostIpStr 0
  if c ≠ '\x00' ∧ c ≠ 'p' ∧ charAt e.hostIpStr 5 ≠ 'u' ∧ c ≠ 'i' ∧ c ≠ 'u' ∧ c ≠ 'c' then
    match ipOf (cString e.hostIpStr) with
    | none => ""
    | some ip => "requested from " ++ env.hostName ip ++ identText e
  else if charAt e.hostIpStr 5 = 'u' then "requested from " ++ env.svrHost ++ identText e
  else if c = 'p' then "requested from polling"
  else if c = 'i' then "requested during device server process init sequence"
  else if c = 'u' then "requested from user thread"
  else if c = 'c' then "requested from a collocated client"
  else ""

def buildInfoAsStr (env : Env) (e : BlackBoxElt) : String :=
  env.timestampUnixToStr e.time ++ " : " ++
    match e.reqType with
    | .operation => "Operation " ++ opText e ++ (if e.opType = .unknown then "" else requestedFrom env e)
    | .attribute => "Attribute " ++ attrText e.attrType ++ (if e.attrType = .unknown then "" else requestedFrom env e)
    | .unknown => "Unknown CORBA request type !!!!!"

end Text

section Box

def blackBoxArgument : DevErrorList :=
  [⟨"API_BlackBoxArgument",.err,"Argument to read black box out of range","BlackBox::read"⟩]

def blackBoxEmpty : DevErrorList :=
  [⟨"API_BlackBoxEmpty",.err,"Nothing stored yet in black-box","BlackBox::read"⟩]

/-- `BlackBox::read` -/
def read (env : Env) (wantedElt : Int) (b : Lib.Ring BlackBoxElt) : Except DevErrorList (List String) :=
  if wantedElt ≤ 0 then .error blackBoxArgument
  else if b.nbElt = 0 then .error blackBoxEmpty
  else .ok ((b.recent (min (min wantedElt.toNat b.cells.length) b.nbElt)).map (buildInfoAsStr env))

/-- An operation that is recorded with no more than its name. -/
def OpType.bare : OpType → Bool
  | .commandInout | .commandInout2 | .commandInout4 | .readAttr | .readAttr2 | .readAttr3 | .readAttr4 | .readAttr5
  | .writeAttr | .writeAttr3 | .writeAttr4 | .writeReadAttributes4 | .writeReadAttributes5 | .readPipe5 | .writePipe5
  | .writeReadPipe5 => false
  | _ => true

/-- The call of an insertion method, with its arguments. -/
inductive Call
  | corbaAttr (attr : AttrType)
  | cmd (cmd : String) (vers : Int) (sour : Read.DevSource)
  | cmdClIdent (cmd : String) (clId : ClntIdent) (vers : Int) (sour : Read.DevSource)
  | op (op : OpType) (bare : op.bare = true)
  | opClIdent (op : OpType) (bare : op.bare = true) (clId : ClntIdent)
  | attr (names : List String) (vers : Int) (sour : Read.DevSource)
  | attrClIdent (names : List String) (clId : ClntIdent) (vers : Int) (sour : Read.DevSource)
  | readPipe (name : String) (clId : ClntIdent)
  | writePipe (name : String) (clId : ClntIdent) (vers : Int)
  | writeAttr (names : List String) (vers : Int)
  | writeAttr4 (names : List String) (clId : ClntIdent)
  | wrAttr (names rNames : List String) (clId : ClntIdent) (vers : Int)

/-- A request: what is recorded of it, when, and who makes it. -/
structure Request where
  call : Call
  time : Int
  caller : Caller

def Request.insert (r : Request) : BlackBoxElt → BlackBoxElt :=
  match r.call with
  | .corbaAttr attr => insertCorbaAttr r.time r.caller attr
  | .cmd cmd vers sour => insertCmdNl r.time r.caller cmd vers sour
  | .cmdClIdent cmd clId vers sour => insertCmdClIdent r.time r.caller cmd clId vers sour
  | .op op _ => insertOpNl r.time r.caller op
  | .opClIdent op _ clId => identify clId r.caller ∘ insertOpNl r.time r.caller op
  | .attr names vers sour => insertAttr r.time r.caller names vers sour
  | .attrClIdent names clId vers sour => insertAttrClIdent r.time r.caller names clId vers sour
  | .readPipe name clId => insertPipe r.time r.caller .readPipe5 name clId
  | .writePipe name clId vers =>
    insertPipe r.time r.caller (if vers = 0 then .writePipe5 else .writeReadPipe5) name clId
  | .writeAttr names vers => insertAttrNl r.time r.caller names vers
  | .writeAttr4 names clId => identify clId r.caller ∘ insertAttrNl4 r.time r.caller names
  | .wrAttr names rNames clId vers => identify clId r.caller ∘ insertAttrWrNl r.time r.caller names rNames vers

/-- A new box: as many elements as its depth, with nothing in it. -/
structure NewBox (b : Lib.Ring BlackBoxElt) : Prop where
  insertElt : b.insertElt = 0
  nbElt : b.nbElt = 0
  fresh : ∀ e ∈ b.cells, e.Fresh

/-- The box after some requests, oldest first. -/
def recorded (b : Lib.Ring BlackBoxElt) (log : List Request) : Lib.Ring BlackBoxElt := Lib.Ring.run Request.insert b log

end Box

end CppTango.Device.BlackBox
