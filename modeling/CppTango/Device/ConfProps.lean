import CppTango.Device.ConfValues
import CppTango.Lib.Setters
import Mathlib.Logic.Function.Basic

namespace CppTango.Device.Conf

open CppTango.Lib StrProps

inductive RangeProp
  | minValue | maxValue | minAlarm | maxAlarm | minWarning | maxWarning
deriving DecidableEq, Repr

def RangeProp.name : RangeProp → String
  | .minValue => "min_value"
  | .maxValue => "max_value"
  | .minAlarm => "min_alarm"
  | .maxAlarm => "max_alarm"
  | .minWarning => "min_warning"
  | .maxWarning => "max_warning"

inductive ChangeProp
  | relChange | absChange | archiveRelChange | archiveAbsChange
deriving DecidableEq, Repr

def ChangeProp.name : ChangeProp → String
  | .relChange => "rel_change"
  | .absChange => "abs_change"
  | .archiveRelChange => "archive_rel_change"
  | .archiveAbsChange => "archive_abs_change"

inductive PeriodProp
  | eventPeriod | archivePeriod
deriving DecidableEq, Repr

def PeriodProp.name : PeriodProp → String
  | .eventPeriod => "event_period"
  | .archivePeriod => "archive_period"

def intMax : Int := 2147483647

/-- The library default that is handed to `set_one_event_period`. -/
def PeriodProp.default : PeriodProp → Int32
  | .eventPeriod => 1000
  | .archivePeriod => Int32.ofInt intMax

inductive DispLevel
  | operator | expert
deriving DecidableEq, Repr

/-- An attribute with the data that cannot be changed at run time. -/
structure AttrDesc extends Attr where
  dName : String
  dataFormat : AttrDataFormat
  writable : AttrWriteType
  maxX : Int
  maxY : Int
  writableAttrName : String
  dispLevel : DispLevel
deriving DecidableEq, Repr

section Errors
variable (attr : AttrDesc)

def AttrDesc.place : String := "Device " ++ attr.dName ++ "-> Attribute : " ++ attr.name

def throwErrDataType (propName origin : String) : DevErrorList :=
  thrown "API_AttrOptProp"
    (attr.place ++ "\nThe property " ++ propName ++ " is not settable for the attribute data type") origin

def throwErrFormat (propName origin : String) : DevErrorList :=
  thrown "API_AttrOptProp"
    (attr.place ++ "\nThe property " ++ propName ++ " is defined in an unsupported format") origin

def throwIncoherentValErr (minProp maxProp : String) : DevErrorList :=
  thrown "API_IncoherentValues"
    (attr.place ++ "\nValue of " ++ minProp ++ " is greater than or equal to " ++ maxProp)
    "Attribute::set_upd_properties()"

def throwHardCodedProp (propName : String) : DevErrorList :=
  thrown "API_AttrNotAllowed" ("Attribute property " ++ propName ++ " is not changeable at run time")
    "Attribute::throw_hard_coded_prop"

def throwMinMaxValue (memorizedValue below : String) : DevErrorList :=
  thrown "API_AttrOptProp"
    (attr.place ++ "\nThis attribute is memorized and the memorized value (" ++ memorizedValue ++
      ") is " ++ below ++ " the new limit!!") "Attribute::throw_min_max_value"

end Errors

/-- What a property that is given by a text has become in memory: `att_conf_str`, `att_conf` and
`check_it`. -/
structure RangeConf (D : Doubles) where
  str : String
  val : CheckVal D
  checkIt : Bool

/-- The memorized side of a writable attribute: the values the new limits are compared with, each
with the text an exception shows for it. They are the last written ones, or the memorized one while
the server starts. -/
structure Memorized (D : Doubles) where
  isMemorized : Bool
  used : Bool
  values : List (CheckVal D × String)

section Alarm
variable {D : Doubles} (attr : AttrDesc) (p : RangeProp)

def RangeProp.userDef : Option String := propInList p.name attr.userDefaultProperties

def RangeProp.classDef : Option String := propInList p.name attr.classProperties

/-- What is to be written in the database: `avns`, `user_val` and `conf_val` of
`set_one_alarm_prop`. -/
inductive Store
  | nothing | notSpecified | userDefault | confVal | delete
deriving DecidableEq, Repr

/-- The text that is chosen, the database work, and which of the two doubles of the defaults have
been read. -/
structure Chosen where
  str : String
  store : Store
  classRead : Bool
  userRead : Bool

variable (D) in
/-- The number is the one of the default, once cast to the type of the attribute. -/
def equalDef (t : AttrType) (conf : String) (dflt : Option String) : Bool :=
  match dflt with
  | none => false
  | some d =>
    (D.read conf).2 &&
      match t with
      | .devFloat | .devDouble => D.eq (D.read conf).1 (D.read d).1
      | .devString | .devBoolean | .devState => false
      | _ => D.eq (D.ofInt (D.cast t (D.read conf).1)) (D.read d).1

variable (D) in
def chooseAlarm (conf old : String) : Chosen :=
  let user := p.userDef attr
  let cls := p.classDef attr
  if sameNoCase conf "Not specified" then
    ⟨"Not specified",
      if old ≠ "Not specified" then
        if user.isSome ∨ cls.isSome then .notSpecified else .delete
      else .nothing,false,false⟩
  else if conf = "" then
    let str := user.getD "Not specified"
    ⟨str,
      if old ≠ str then
        if cls.isSome then (if user.isSome then .userDefault else .notSpecified) else .delete
      else .nothing,false,user.isSome⟩
  else if sameNoCase conf "NaN" then
    let str := cls.getD (user.getD "Not specified")
    ⟨str,if old ≠ str then .delete else .nothing,cls.isSome,cls.isNone && user.isSome⟩
  else
    ⟨conf,
      if old ≠ conf then
        if equalDef D attr.dataType conf user then (if cls.isSome then .userDefault else .delete)
        else if equalDef D attr.dataType conf cls then .delete
        else .confVal
      else .nothing,old ≠ conf && cls.isSome,old ≠ conf && user.isSome⟩

/-- `mem_value_below_above`, with what is thrown then. -/
def checkMemorized (mem : Memorized D) (v : CheckVal D) : Option DevErrorList :=
  if (attr.writable = .readWrite ∨ attr.writable = .write) ∧ mem.isMemorized ∧ mem.used ∧
      (p = .minValue ∨ p = .maxValue) then
    if noNumber attr.dataType ∨ attr.dataType = .devEnum then
      some (thrown "API_NotSupportedFeature" "This is a not supported call in case of attribute"
        "WAttribute::mem_value_below_above")
    else
      let outside : CheckVal D × String → Bool :=
        if p = .minValue then fun w => w.1.less v else fun w => v.less w.1
      (mem.values.find? outside).map (fun w =>
        throwMinMaxValue attr w.2 (if p = .minValue then "below" else "above"))
  else none

/-- For the string representation the default with the same number is taken. A double that has not
been read in this call is the one the stack holds. -/
def shownText (cls user : Option String) (c : Chosen) (stack : D.Dbl × D.Dbl) (text : String) : String :=
  let same (d : String) (x : D.Dbl) : String :=
    if text ≠ "Not specified" ∧ (D.read text).2 ∧ D.eq (D.read text).1 x then d else text
  match cls,user with
  | some d,_ => same d (if c.classRead then (D.read d).1 else stack.1)
  | none,some d => same d (if c.userRead then (D.read d).1 else stack.2)
  | none,none => text

variable (D) in
/-- The text of a number for the database; there is no case for `DEV_ENCODED`. -/
def dbText (t : AttrType) (conf : String) : String :=
  match t with
  | .devFloat | .devDouble => conf
  | .devEncoded | .devString | .devBoolean | .devState => ""
  | _ => typedText D t conf (D.read conf).1

variable (D) in
def storeInDb (conf : String) (store : Store) : Except DevErrorList (List DbAction) :=
  match store with
  | .nothing => .ok []
  | .notSpecified => .ok [.upd "Not specified"]
  | .userDefault => .ok [.upd ((p.userDef attr).getD "")]
  | .confVal =>
    if (D.read conf).2 then .ok [.upd (dbText D attr.dataType conf)]
    else .error (throwErrFormat attr p.name "Attribute::set_one_alarm_prop()")
  | .delete => .ok [.del]

/-- `stack` are the doubles that are left where the two doubles of the defaults lie. -/
def setOneAlarmProp (mem : Memorized D) (stack : D.Dbl × D.Dbl) (conf : String) (s : RangeConf D) :
    RangeConf D × Except DevErrorList (List DbAction) :=
  if (noNumber attr.dataType ∨ attr.dataType = .devEnum) ∧ ¬ isKeyword conf then
    (s,.error (throwErrDataType attr p.name "Attribute::set_one_alarm_prop()"))
  else
    let c := chooseAlarm D attr p conf s.str
    if c.str = "Not specified" then
      (⟨"Not specified",s.val,false⟩,storeInDb D attr p conf c.store)
    else
      match convertPropValue D attr.dataType c.str with
      | .errFormat v =>
        (⟨c.str,v,s.checkIt⟩,.error (throwErrFormat attr p.name "Attribute::convert_prop_value()"))
      | .done text v =>
        match checkMemorized attr p mem v with
        | some e => (⟨text,v,true⟩,.error e)
        | none =>
          (⟨shownText (p.classDef attr) (p.userDef attr) c stack text,v,true⟩,
            storeInDb D attr p conf c.store)

end Alarm

end CppTango.Device.Conf
