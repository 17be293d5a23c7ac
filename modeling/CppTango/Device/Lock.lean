import CppTango.Data
import CppTango.Device.MultiAttribute

namespace CppTango.Device.Lock

inductive LockerLanguage
  | cpp | java | cpp6 | java6
deriving DecidableEq, Repr

structure ClientAddr where
  clientIdent : Bool
  clientIp : String
  clientLang : LockerLanguage
  clientPid : Int
  javaMainClass : String
  javaIdent : UInt64 × UInt64
deriving DecidableEq, Repr

/-- `client_addr::operator==` -/
def ClientAddr.eq (c rhs : ClientAddr) : Bool :=
  if c.clientIdent ≠ rhs.clientIdent then false
  else if c.clientLang ≠ rhs.clientLang then false
  else if c.clientLang = .cpp ∨ c.clientLang = .cpp6 then
    if c.clientPid ≠ rhs.clientPid then false
    else if c.clientIp.length ≠ rhs.clientIp.length then false
    else if c.clientIp ≠ rhs.clientIp then false
    else true
  else if c.javaIdent.1 ≠ rhs.javaIdent.1 then false
  else if c.javaIdent.2 ≠ rhs.javaIdent.2 then false
  else true

/-- `client_addr::operator!=` -/
def ClientAddr.ne (c rhs : ClientAddr) : Bool :=
  if c.clientIdent ≠ rhs.clientIdent then true
  else if c.clientLang ≠ rhs.clientLang then true
  else if c.clientLang = .cpp ∨ c.clientLang = .cpp6 then
    if c.clientPid ≠ rhs.clientPid then true
    else if c.clientIp.length ≠ rhs.clientIp.length then true
    else if c.clientIp ≠ rhs.clientIp then true
    else false
  else if c.javaIdent.1 ≠ rhs.javaIdent.1 then true
  else if c.javaIdent.2 ≠ rhs.javaIdent.2 then true
  else false

/-- The device and its class, as far as locking reads them; `hostName` is the resolver behind
`client_ip_2_client_name`. -/
structure Dev where
  name : String
  allowedCmds : List String
  hostName : String → Option String

def Dev.isCommandAllowed (dev : Dev) (cmd : String) : Bool :=
  dev.allowedCmds.any (fun c => c.toList = lowerName cmd)

/-- The locking members of `DeviceImpl`. -/
structure Locking where
  deviceLocked : Bool
  lockerClient : Option ClientAddr
  oldLockerClient : Option ClientAddr
  lockValidity : Int
  lockingDate : Int
  lockCtr : Int
deriving DecidableEq, Repr

/-- A device that is not locked; validity and date are set by the first lock. -/
def unlocked : Locking := ⟨false,none,none,0,0,0⟩

/-- A `DevLong` has 32 bits and wraps. -/
def devLong (x : Int) : Int := Int.bmod x 4294967296

def maxDevLong : Int := 2147483647

def validLock (now : Int) (st : Locking) : Bool := now ≤ st.lockingDate + st.lockValidity

/-- `*cl != *(locker_client)`. A locked device has a locker. -/
def notLocker (cl : ClientAddr) : Option ClientAddr → Bool
  | some locker => cl.ne locker
  | none => true

def basicUnlock (forced : Bool) (st : Locking) : Locking :=
  { st with
    deviceLocked := false
    oldLockerClient := if forced then st.lockerClient else st.oldLockerClient
    lockerClient := none
    lockCtr := 0 }

/-- The end of `lock`, once it is known that the client may have the device. -/
def takeLock (now : Int) (cl : ClientAddr) (validity : Int) (st : Locking) : Locking :=
  { st with
    deviceLocked := true
    lockerClient := some (st.lockerClient.getD cl)
    lockingDate := now
    lockValidity := validity
    lockCtr := devLong (st.lockCtr + 1) }

section Operations
variable (dev : Dev) (now : Int)

def lock (cl : ClientAddr) (validity : Int) (st : Locking) : Except DevErrorList Unit × Locking :=
  if st.deviceLocked then
    if validLock now st then
      if notLocker cl st.lockerClient then
        (.error (thrown "API_DeviceLocked"
          ("Device " ++ dev.name ++ " is already locked by another client") "DeviceImpl::lock"),st)
      else (.ok (),takeLock now cl validity st)
    else (.ok (),takeLock now cl validity (basicUnlock false st))
  else (.ok (),takeLock now cl validity st)

def notLockedError : DevErrorList :=
  thrown "API_DeviceNotLocked"
    (dev.name ++ ": Device " ++ dev.name ++ " is not locked. Can't re-lock it")
    "DeviceImpl::relock"

def relock (cl : ClientAddr) (st : Locking) : Except DevErrorList Unit × Locking :=
  if st.deviceLocked then
    if validLock now st then
      if notLocker cl st.lockerClient then
        (.error (thrown "API_DeviceLocked"
          (dev.name ++ ": Device " ++ dev.name ++ " is already locked by another client")
          "DeviceImpl::relock"),st)
      else (.ok (),{ st with deviceLocked := true, lockingDate := now })
    else (.error (notLockedError dev),st)
  else (.error (notLockedError dev),st)

def decremented (st : Locking) : Locking :=
  { st with lockCtr := if 0 < st.lockCtr then st.lockCtr - 1 else st.lockCtr }

/-- The end of `unlock`: a lock that is not valid any more is counted down by any client. -/
def countDown (forced : Bool) (st : Locking) : Locking :=
  if (decremented st).lockCtr ≤ 0 ∨ forced then basicUnlock forced (decremented st)
  else decremented st

def unlock (cl : ClientAddr) (forced : Bool) (st : Locking) : Except DevErrorList Int × Locking :=
  if st.deviceLocked ∧ validLock now st ∧ ¬ forced ∧ notLocker cl st.lockerClient then
    (.error (thrown "API_DeviceLocked"
      ("Device " ++ dev.name ++ " is locked by another client, can't unlock it")
      "DeviceImpl::unlock"),st)
  else (.ok (countDown forced st).lockCtr,countDown forced st)

/-- A client as `operator<<` prints it. -/
def clientText (ca : ClientAddr) : String :=
  if ca.clientIdent = false then "Client identification not available"
  else
    let host := (dev.hostName ca.clientIp).getD ca.clientIp
    if ca.clientLang = .cpp ∨ ca.clientLang = .cpp6 then
      "CPP or Python client with PID " ++ toString ca.clientPid ++ " from host " ++ host
    else "JAVA client class " ++ ca.javaMainClass ++ " from host " ++ host

structure DevVarLongStringArray where
  lvalue : List Int
  svalue : List String
deriving DecidableEq, Repr

def highLong (x : UInt64) : Int := devLong (x.toNat / 4294967296)

def lowLong (x : UInt64) : Int := devLong (x.toNat % 4294967296)

def uuidLongs (ident : UInt64 × UInt64) : List Int :=
  [highLong ident.1,lowLong ident.1,highLong ident.2,lowLong ident.2]

def lockedStatus (ca : ClientAddr) : DevVarLongStringArray :=
  let stat := "Device " ++ dev.name ++ " is locked by " ++ clientText dev ca
  if ca.clientLang = .java then
    ⟨[1,ca.clientPid] ++ uuidLongs ca.javaIdent,[stat,ca.clientIp,ca.javaMainClass]⟩
  else ⟨[1,ca.clientPid,0,0,0,0],[stat,ca.clientIp,"Not defined"]⟩

def freeStatus : DevVarLongStringArray :=
  ⟨[0,0,0,0,0,0],["Device " ++ dev.name ++ " is not locked","Not defined","Not defined"]⟩

def lockStatus (st : Locking) : DevVarLongStringArray × Locking :=
  if st.deviceLocked then
    if validLock now st then
      match st.lockerClient with
      | some ca => (lockedStatus dev ca,st)
      | none => (freeStatus dev,st)
    else (freeStatus dev,basicUnlock false st)
  else (freeStatus dev,st)

/-- Whether the operation is a command that is allowed on a locked device. -/
def allowed (cmd : Option String) : Bool :=
  match cmd with
  | some c => dev.isCommandAllowed c
  | none => false

def lockedException (meth : String) : DevErrorList :=
  thrown "API_DeviceLocked" ("Device " ++ dev.name ++ " is locked by another client")
    ("Device_Impl::" ++ meth)

def checkLock (cl : ClientAddr) (meth : String) (cmd : Option String) (st : Locking) :
    Except DevErrorList Unit × Locking :=
  if st.deviceLocked then
    if validLock now st then
      if cl.clientIdent = false ∧ allowed dev cmd = false then (.error (lockedException dev meth),st)
      else if notLocker cl st.lockerClient ∧ allowed dev cmd = false then
        (.error (lockedException dev meth),st)
      else (.ok (),st)
    else (.ok (),basicUnlock false st)
  else
    match st.oldLockerClient with
    | some old =>
      if cl.eq old then
        (.error (thrown "API_DeviceUnlocked"
          ("Device " ++ dev.name ++ " has been unlocked by an administrative client!!!")
          ("Device_Impl::" ++ meth)),st)
      else (.ok (),{ st with oldLockerClient := none })
    | none => (.ok (),st)

end Operations

inductive Call
  | lock (cl : ClientAddr) (validity : Int)
  | relock (cl : ClientAddr)
  | unlock (cl : ClientAddr) (forced : Bool)
  | lockStatus
  | checkLock (cl : ClientAddr) (meth : String) (cmd : Option String)
deriving DecidableEq, Repr

structure Timed where
  now : Int
  call : Call
deriving DecidableEq, Repr

section Runs
variable (dev : Dev)

/-- What a call leaves of the locking state, whether it throws or not. -/
def step (st : Locking) (c : Timed) : Locking :=
  match c.call with
  | .lock cl validity => (lock dev c.now cl validity st).2
  | .relock cl => (relock dev c.now cl st).2
  | .unlock cl forced => (unlock dev c.now cl forced st).2
  | .lockStatus => (lockStatus dev c.now st).2
  | .checkLock cl meth cmd => (checkLock dev c.now cl meth cmd st).2

def run (st : Locking) (calls : List Timed) : Locking := calls.foldl (step dev) st

end Runs

end CppTango.Device.Lock
