import CppTango.Db.Client
import CppTango.Device.MultiAttribute
import CppTango.Lib.Text

namespace CppTango.Db

open CppTango.Lib CppTango.Device

section Indexes

structure EltIdx where
  firstIdx : Nat
  lastIdx : Nat
deriving DecidableEq, Repr

/-- For each property the index of its name and the number of its values. -/
structure PropEltIdx where
  firstIdx : Nat
  lastIdx : Nat
  propNb : Nat
  propsIdx : List (Nat × Nat)
deriving DecidableEq, Repr

/-- For each attribute, or pipe, the index of its name. -/
structure AttPropEltIdx where
  firstIdx : Nat
  lastIdx : Nat
  attNb : Nat
  attsIdx : List Nat
deriving DecidableEq, Repr

structure DevEltIdx where
  devProp : PropEltIdx
  devAttProp : AttPropEltIdx
  devPipeProp : Option AttPropEltIdx
deriving DecidableEq, Repr

structure ClassEltIdx where
  classProp : PropEltIdx
  classAttProp : AttPropEltIdx
  classPipeProp : Option AttPropEltIdx
  devList : EltIdx
  devNb : Nat
  devsIdx : List DevEltIdx
deriving DecidableEq, Repr

/-- The array of strings and the indexes of its parts. A part without indexes is one whose first
index is -1. -/
structure DbServerCache where
  dataList : List String
  procRelease : Int
  impAdm : EltIdx
  impNotifdEvent : Option EltIdx
  impAdmEvent : Option EltIdx
  dServerClassProp : Option PropEltIdx
  defaultProp : Option PropEltIdx
  admDevProp : Option PropEltIdx
  classesIdx : List ClassEltIdx
  ctrlServProp : Option PropEltIdx
  impTac : Option EltIdx
deriving DecidableEq, Repr

/-- A text that is no number, or one too large, is 0 here. -/
def atoi (s : String) : Int := (readSigned 32 s.toList).getD 0

def atoiNat (s : String) : Nat := (atoi s).toNat

/-- The number of the stored procedure release in the first string, 0 when there is none. A string
that is too short has no eighth character and makes the constructor throw. -/
def releaseNumber (procRel : String) : Option Int :=
  if (find "release".toList procRel.toList).isSome then
    if procRel.toList.length < 8 then none
    else
      let rel := procRel.toList.drop 8
      match rel.idxOf? '.' with
      | none => some 0
      | some pos =>
        some (atoi (String.ofList (rel.take pos)) * 100 + atoi (String.ofList (rel.drop (pos + 1))))
  else some 0

variable (list : List String)

/-- The loop of `prop_indexes`; an access outside the array has no meaning. -/
def propLoop : Nat → Nat → Option (List (Nat × Nat) × Nat)
  | 0,stop => some ([],stop)
  | n + 1,stop =>
    match list[stop + 2]? with
    | none => none
    | some s => (propLoop n (stop + atoiNat s + 2)).map (fun (idx,last) => ((stop + 1,atoiNat s) :: idx,last))

/-- `prop_indexes`: the part that starts behind `stop`, whose last index is the new `stop`. -/
def propIndexes (stop : Nat) : Option PropEltIdx :=
  let start := stop + 1
  match list[start + 1]? with
  | none => none
  | some s =>
    if atoiNat s = 0 then some ⟨start,start + 1,0,[]⟩
    else (propLoop list (atoiNat s) (stop + 2)).map (fun (idx,last) => ⟨start,last,atoiNat s,idx⟩)

/-- Over the properties of one attribute. -/
def attPropLoop : Nat → Nat → Option Nat
  | 0,stop => some stop
  | n + 1,stop =>
    match list[stop + 1]? with
    | none => none
    | some s => attPropLoop n (stop + atoiNat s + 2)

/-- Over the attributes: behind the last one the index is moved back by one. -/
def attLoop : Nat → Nat → Option (List Nat × Nat)
  | 0,stop => some ([],stop)
  | n + 1,stop =>
    match list[stop + 1]? with
    | none => none
    | some s =>
      match attPropLoop list (atoiNat s) (stop + 2) with
      | none => none
      | some next =>
        let next := if n = 0 then next - 1 else next
        (attLoop n next).map (fun (idx,last) => (stop :: idx,last))

/-- `prop_att_indexes` and `prop_pipe_indexes`. -/
def propAttIndexes (stop : Nat) : Option AttPropEltIdx :=
  let start := stop + 1
  match list[start + 1]? with
  | none => none
  | some s =>
    if atoiNat s = 0 then some ⟨start,start + 1,0,[]⟩
    else (attLoop list (atoiNat s) (start + 2)).map (fun (idx,last) => ⟨start,last,atoiNat s,idx⟩)

/-- The pipes of a class or of a device, for a release that has them. -/
def pipeIndexes (procRelease : Int) (stop : Nat) : Option (Option AttPropEltIdx × Nat) :=
  if 109 ≤ procRelease then (propAttIndexes list stop).map (fun obj => (some obj,obj.lastIdx))
  else some (none,stop)

def devLoop (procRelease : Int) : Nat → Nat → Option (List DevEltIdx × Nat)
  | 0,stop => some ([],stop)
  | n + 1,stop => do
    let devProp ← propIndexes list stop
    let devAttProp ← propAttIndexes list devProp.lastIdx
    let (devPipeProp,stop) ← pipeIndexes list procRelease devAttProp.lastIdx
    let (devs,stop) ← devLoop procRelease n stop
    pure (⟨devProp,devAttProp,devPipeProp⟩ :: devs,stop)

def classLoop (procRelease : Int) : Nat → Nat → Option (List ClassEltIdx × Nat)
  | 0,stop => some ([],stop)
  | n + 1,stop => do
    let classProp ← propIndexes list stop
    let classAttProp ← propAttIndexes list classProp.lastIdx
    let (classPipeProp,stop) ← pipeIndexes list procRelease classAttProp.lastIdx
    let nbDev ← (list[stop + 2]?).map atoiNat
    let devList : EltIdx := ⟨stop + 1,stop + nbDev + 2⟩
    let (devsIdx,stop) ← devLoop list procRelease nbDev devList.lastIdx
    let (classes,stop) ← classLoop procRelease n stop
    pure (⟨classProp,classAttProp,classPipeProp,devList,nbDev,devsIdx⟩ :: classes,stop)

/-- An event channel: two strings when it is not found, six otherwise. -/
def eventIndexes (stop : Nat) : Option EltIdx :=
  (list[stop + 2]?).map (fun s => ⟨stop + 1,if s = "Not Found" then stop + 2 else stop + 6⟩)

/-- The constructor of `DbServerCache`. -/
def dbServerCache : Option DbServerCache := do
  let procRelease ← (list[0]?).bind releaseNumber
  let start := if procRelease = 0 then 0 else 1
  if list.length = 2 ∨ list.length = 3 then
    pure ⟨list,procRelease,⟨start,start + 1⟩,none,none,none,none,none,[],none,none⟩
  else
    let impAdm : EltIdx := ⟨start,start + 7⟩
    let impNotifdEvent ← eventIndexes list impAdm.lastIdx
    let impAdmEvent ← eventIndexes list impNotifdEvent.lastIdx
    let dServer ← propIndexes list impAdmEvent.lastIdx
    let default ← propIndexes list dServer.lastIdx
    let admDev ← propIndexes list default.lastIdx
    let classNb ← (list[admDev.lastIdx + 2]?).map atoiNat
    let (classesIdx,stop) ← classLoop list procRelease classNb (admDev.lastIdx + 2)
    let ctrlServ ← propIndexes list stop
    let impTac := if ctrlServ.lastIdx = list.length then none
      else some (⟨ctrlServ.lastIdx + 1,list.length⟩ : EltIdx)
    pure ⟨list,procRelease,impAdm,some impNotifdEvent,some impAdmEvent,some dServer,some default,
      some admDev,classesIdx,some ctrlServ,impTac⟩

end Indexes

section Replies

/-- `TG_strcasecmp` and the first characters only. -/
def strcasecmp (a b : String) : Bool := lowerName a = lowerName b

def isAdminName (name : String) : Bool := (lowerName name).take 8 = lowerName "dserver/"

variable (c : DbServerCache)

def DbServerCache.str (i : Nat) : String := c.dataList.getD i ""

/-- The strings from one index on. -/
def DbServerCache.strs (i n : Nat) : List String := (c.dataList.drop i).take n

/-- One wanted property. -/
def DbServerCache.objProp (obj : PropEltIdx) (devProp : Bool) (name : String) : List String :=
  match obj.propsIdx.find? (fun (i,_) => strcasecmp name (c.str i)) with
  | some (i,nbElt) => name :: c.str (i + 1) :: c.strs (i + 2) nbElt
  | none => if devProp then [name,"0"," "] else [name,"0"]

/-- `get_obj_prop`, with the name of the object in front. -/
def DbServerCache.getObjProp (owner : String) (obj : PropEltIdx) (devProp : Bool) (names : List String) :
    List String :=
  owner :: numText names.length :: names.flatMap (c.objProp obj devProp)

def classNotFound (name origin : String) : DevErrorList :=
  thrown "DB_ClassNotFoundInCache" ("Class " ++ name ++ " not found in DB cache") origin

def deviceNotFound (what name origin : String) : DevErrorList :=
  thrown "DB_DeviceNotFoundInCache" (what ++ name ++ " not found in DB cache") origin

def DbServerCache.findClass (name : String) : Option ClassEltIdx :=
  c.classesIdx.find? (fun cl => strcasecmp (c.str cl.classProp.firstIdx) name)

/-- The devices of one class with their names. -/
def DbServerCache.devsOf (cl : ClassEltIdx) : List (String × DevEltIdx) :=
  (c.strs (cl.devList.firstIdx + 2) cl.devNb).zip cl.devsIdx

/-- `find_dev_att`. -/
def DbServerCache.findDevAtt (name : String) : Option DevEltIdx :=
  ((c.classesIdx.flatMap c.devsOf).find? (fun x => strcasecmp x.1 name)).map Prod.snd

/-- The result of a call; a part that has no indexes gives none that has a meaning. -/
abbrev Reply := Option (Except DevErrorList (List String))

def DbServerCache.getClassProperty (cl : String) (names : List String) : Reply :=
  if strcasecmp cl "DServer" then c.dServerClassProp.map (fun obj => .ok (c.getObjProp "DServer" obj false names))
  else if strcasecmp cl "Default" then
    c.defaultProp.map (fun obj => .ok (c.getObjProp "Default" obj false names))
  else
    match c.findClass cl with
    | some x => some (.ok (c.getObjProp cl x.classProp false names))
    | none => some (.error (classNotFound cl "DbServerCache::get_class_property"))

def DbServerCache.getDevProperty (dev : String) (names : List String) : Reply :=
  if isAdminName dev then
    match c.admDevProp with
    | none => some (.error (deviceNotFound "Device " dev "DbServerCache::get_dev_property"))
    | some obj => some (.ok (c.getObjProp dev obj true names))
  else
    match c.findDevAtt dev with
    | some x => some (.ok (c.getObjProp dev x.devProp true names))
    | none => some (.error (deviceNotFound "Device " dev "DbServerCache::get_dev_property"))

/-- `find_obj` and `get_obj_property`. -/
def DbServerCache.getObjProperty (obj : String) (names : List String) : Reply :=
  match c.ctrlServProp with
  | some x => if strcasecmp (c.str x.firstIdx) obj then some (.ok (c.getObjProp obj x true names))
    else some (.error (deviceNotFound "Object " obj "DbServerCache::get_obj_property"))
  | none => some (.error (deviceNotFound "Object " obj "DbServerCache::get_obj_property"))

def DbServerCache.getDevList (cl : String) : List String :=
  match c.findClass cl with
  | some x => c.strs (x.devList.firstIdx + 2) x.devNb
  | none => []

/-- The number of strings of the properties from an index on. -/
def DbServerCache.propSpan : Nat → Nat → Nat
  | 0,_ => 0
  | n + 1,i => 2 + atoiNat (c.str (i + 1)) + DbServerCache.propSpan n (i + atoiNat (c.str (i + 1)) + 2)

/-- One wanted attribute or pipe, copied with all its properties. -/
def DbServerCache.attStrings (obj : AttPropEltIdx) (name : String) : List String :=
  match obj.attsIdx.find? (fun i => strcasecmp name (c.str i)) with
  | some i => c.strs i (2 + c.propSpan (atoiNat (c.str (i + 1))) (i + 2))
  | none => [name,"0"]

def DbServerCache.attReply (owner : String) (obj : AttPropEltIdx) (names : List String) : List String :=
  owner :: numText names.length :: names.flatMap (c.attStrings obj)

def DbServerCache.getClassAttProperty (cl : String) (names : List String) : Reply :=
  match c.findClass cl with
  | some x => some (.ok (c.attReply cl x.classAttProp names))
  | none => some (.error (classNotFound cl "DbServerCache::get_class_att_property"))

/-- For the admin device no attribute is returned. -/
def DbServerCache.getDevAttProperty (dev : String) (names : List String) : Reply :=
  match c.findDevAtt dev with
  | some x => some (.ok (c.attReply dev x.devAttProp names))
  | none =>
    if isAdminName dev then some (.ok [dev,numText 0])
    else some (.error (deviceNotFound "Device " dev "DbServerCache::get_dev_att_property"))

def tooOldStoredProc (origin : String) : DevErrorList :=
  thrown "DB_TooOldStoredProc" ("Your database stored procedure is too old to support pipe. " ++
    "Please update to stored procedure release 1.9 or more") origin

def DbServerCache.getClassPipeProperty (cl : String) (names : List String) : Reply :=
  if c.procRelease < 109 then some (.error (tooOldStoredProc "DbServerCache::get_class_pipe_property"))
  else
    match c.findClass cl with
    | some x => x.classPipeProp.map (fun obj => .ok (c.attReply cl obj names))
    | none => some (.error (classNotFound cl "DbServerCache::get_class_pipe_property"))

def DbServerCache.getDevPipeProperty (dev : String) (names : List String) : Reply :=
  if c.procRelease < 109 then some (.error (tooOldStoredProc "DbServerCache::get_dev_pipe_property"))
  else
    match c.findDevAtt dev with
    | some x => x.devPipeProp.map (fun obj => .ok (c.attReply dev obj names))
    | none =>
      if isAdminName dev then some (.ok [dev,numText 0])
      else some (.error (deviceNotFound "Device " dev "DbServerCache::get_dev_pipe_property"))

end Replies

end CppTango.Db
