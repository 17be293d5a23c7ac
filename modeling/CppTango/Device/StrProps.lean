import CppTango.Device.MultiAttribute
import CppTango.Lib.Keyed

namespace CppTango.Device.StrProps

open CppTango.Lib

/-- The data types of attributes. -/
inductive AttrType
  | devShort | devLong | devLong64 | devUChar | devUShort | devULong | devULong64
  | devString | devEnum | devState | devEncoded | devBoolean | devFloat | devDouble
deriving DecidableEq, Repr

def AttrType.formatNotSpec : AttrType → String
  | .devShort | .devLong | .devLong64 | .devUChar | .devUShort | .devULong | .devULong64 => "%d"
  | .devString | .devEnum => "%s"
  | .devState | .devEncoded | .devBoolean => "Not specified"
  | .devFloat | .devDouble => "%6.2f"

inductive StrProp
  | description | label | unit | standardUnit | displayUnit | format
deriving DecidableEq, Repr

def StrProp.name : StrProp → String
  | .description => "description"
  | .label => "label"
  | .unit => "unit"
  | .standardUnit => "standard_unit"
  | .displayUnit => "display_unit"
  | .format => "format"

structure AttrProperty where
  name : String
  value : String
deriving DecidableEq, Repr

/-- An attribute with its defaults at class level and those given by the user in the code. -/
structure Attr where
  name : String
  dataType : AttrType
  classProperties : List AttrProperty
  userDefaultProperties : List AttrProperty
deriving DecidableEq, Repr

def propInList (name : String) (list : List AttrProperty) : Option String :=
  (atKey AttrProperty.name name list).map AttrProperty.value

/-- `TG_strcasecmp` of two strings is 0. -/
def sameNoCase (a b : String) : Prop := lowerName a = lowerName b

instance (a b : String) : Decidable (sameNoCase a b) :=
  inferInstanceAs (Decidable (_ = _))

section Set
variable (attr : Attr) (p : StrProp)

/-- The library default that is handed to `set_one_str_prop`. -/
def libDef : String :=
  match p with
  | .description => "No description"
  | .label => attr.name
  | .unit => ""
  | .standardUnit => "No standard unit"
  | .displayUnit => "No display unit"
  | .format => "%6.2f"

def Attr.userDef : Option String := propInList p.name attr.userDefaultProperties

def Attr.classDef : Option String := propInList p.name attr.classProperties

/-- The value when nothing is specified; `set_format_notspec` for the format. -/
def notSpec : String :=
  if p = .format then attr.dataType.formatNotSpec else libDef attr p

def isFormatNotspec (format : String) : Prop := sameNoCase format attr.dataType.formatNotSpec

instance (format : String) : Decidable (isFormatNotspec attr format) :=
  inferInstanceAs (Decidable (sameNoCase _ _))

inductive DbAction
  | upd (dbValue : String)
  | del
deriving DecidableEq, Repr

/-- What is done in the database for a value that is none of the keywords. -/
def setAction (attConf : String) : DbAction :=
  if attr.userDef p = some attConf then
    if (attr.classDef p).isSome then .upd attConf else .del
  else if attr.classDef p = some attConf then .del
  else if attr.classDef p = none ∧ sameNoCase attConf (libDef attr p) then .del
  else if attr.classDef p = none ∧ p = .label then
    if sameNoCase attConf "No label" then .del else .upd attConf
  else if attr.classDef p = none ∧ p = .format then
    if isFormatNotspec attr attConf then .del else .upd attConf
  else .upd attConf

/-- The new value of the property and what `set_one_str_prop` adds to the database work; only
a value that changes does. -/
def setOneStrProp (confVal attConf : String) : String × Option DbAction :=
  if sameNoCase confVal "Not specified" then
    let v := notSpec attr p
    (v,if attConf ≠ v then
        some (if (attr.userDef p).isSome ∨ (attr.classDef p).isSome then .upd v else .del)
      else none)
  else if confVal = "" then
    let v := (attr.userDef p).getD (notSpec attr p)
    (v,if attConf ≠ v then some (if (attr.classDef p).isSome then .upd v else .del) else none)
  else if sameNoCase confVal "NaN" then
    let v := (attr.classDef p).getD ((attr.userDef p).getD (notSpec attr p))
    (v,if attConf ≠ v then some .del else none)
  else (confVal,if attConf ≠ confVal then some (setAction attr p confVal) else none)

end Set

structure AttPropDb where
  name : String
  dba : DbAction
deriving DecidableEq, Repr

abbrev Values := StrProp → String

/-- The order in which `set_properties` goes through the string properties. -/
def strProps : List StrProp := [.description,.label,.unit,.standardUnit,.displayUnit,.format]

section Requests
variable (attr : Attr)

def isState : Prop := lowerName attr.name = "state".toList ∨ lowerName attr.name = "status".toList

instance : Decidable (isState attr) := inferInstanceAs (Decidable (_ ∨ _))

def setProperties (conf mem : Values) : Values × List AttPropDb :=
  if isState attr then (mem,[])
  else
    (fun p => (setOneStrProp attr p (conf p) (mem p)).1,
      strProps.filterMap (fun p =>
        (setOneStrProp attr p (conf p) (mem p)).2.map (fun dba => ⟨p.name,dba⟩)))

/-- `put_device_attribute_property` for one property. -/
def putProperty (db : List AttrProperty) (name value : String) : List AttrProperty :=
  without AttrProperty.name name db ++ [⟨name,value⟩]

def updateOne (db : List AttrProperty) (a : AttPropDb) : List AttrProperty :=
  match a.dba with
  | .upd v => putProperty db a.name v
  | .del => db

def deleteOne (db : List AttrProperty) (a : AttPropDb) : List AttrProperty :=
  match a.dba with
  | .upd _ => db
  | .del => without AttrProperty.name a.name db

/-- All updates are sent, then all deletions. -/
def updDatabase (vDb : List AttPropDb) (db : List AttrProperty) : List AttrProperty :=
  vDb.foldl deleteOne (vDb.foldl updateOne db)

/-- The values in memory and the properties of the attribute in the database. -/
structure State where
  mem : Values
  db : List AttrProperty

def setAttributeConfig (s : State) (conf : Values) : State :=
  let r := setProperties attr conf s.mem
  ⟨r.1,updDatabase r.2 s.db⟩

def run (s : State) (confs : List Values) : State := confs.foldl (setAttributeConfig attr) s

end Requests

section Restart
variable (attr : Attr)

def concat (devProp classProp : List AttrProperty) : List AttrProperty :=
  overlay AttrProperty.name devProp classProp

def addUserDefault (propList userDefault : List AttrProperty) : List AttrProperty :=
  addMissing AttrProperty.name propList userDefault

/-- The string properties in the table of optional properties, with the label and the format
overwritten. -/
def optAttrProp : List AttrProperty :=
  [⟨"label",attr.name⟩,⟨"description","No description"⟩,⟨"unit",""⟩,
    ⟨"standard_unit","No standard unit"⟩,⟨"display_unit","No display unit"⟩,
    ⟨"format",attr.dataType.formatNotSpec⟩]

def addDefault (propList : List AttrProperty) : List AttrProperty :=
  addMissing AttrProperty.name propList (optAttrProp attr)

/-- The value a restart gives to a property. -/
def restarted (db : List AttrProperty) (p : StrProp) : Option String :=
  propInList p.name
    (addDefault attr
      (addUserDefault (concat db attr.classProperties) attr.userDefaultProperties))

end Restart

end CppTango.Device.StrProps
