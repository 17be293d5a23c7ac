import CppTango.Device.ConfEvents

namespace CppTango.Device.Conf

open CppTango.Lib StrProps

variable {D : Doubles}

/-- The configuration of an attribute as a client sends it; `none` where it holds no known
enumerator. -/
structure AttributeConfig where
  name : String
  writable : Option AttrWriteType
  dataFormat : Option AttrDataFormat
  dataType : Option AttrType
  maxDimX : Int
  maxDimY : Int
  writableAttrName : String
  level : Option DispLevel
  str : StrProp → String
  range : RangeProp → String
  rds : RdsTexts
  change : ChangeProp → String
  period : PeriodProp → String

/-- The part of an attribute object that its configuration changes. -/
structure AttrState (D : Doubles) where
  str : StrProp → String
  range : RangeProp → RangeConf D
  rds : RdsConf D
  change : ChangeProp → D.Dbl × D.Dbl
  period : PeriodProp → Int32

section Get

def changeText (v : D.Dbl × D.Dbl) : String :=
  let one (x : D.Dbl) : String := if D.eq x (D.ofInt intMax) then "Not specified" else D.print (D.fabs x)
  if D.eq (D.fabs v.1) (D.fabs v.2) then
    if D.eq v.1 (D.ofInt intMax) then "Not specified" else D.print (D.fabs v.2)
  else one v.1 ++ "," ++ one v.2

def periodText (p : PeriodProp) (n : Int32) : String :=
  if n.toInt = intMax then
    match p with
    | .eventPeriod => "1000"
    | .archivePeriod => "Not specified"
  else intString n.toInt

def rdsTexts (s : RdsConf D) : RdsTexts :=
  ⟨s.deltaValStr,if s.deltaT = 0 then "Not specified" else s.deltaTStr⟩

def getProperties (attr : AttrDesc) (s : AttrState D) : AttributeConfig where
  name := attr.name
  writable := attr.writable
  dataFormat := attr.dataFormat
  dataType := attr.dataType
  maxDimX := attr.maxX
  maxDimY := attr.maxY
  writableAttrName := attr.writableAttrName
  level := attr.dispLevel
  str := s.str
  range p := (s.range p).str
  rds := rdsTexts s.rds
  change p := changeText (s.change p)
  period p := periodText p (s.period p)

/-- The flags of `alarm_conf`, in their order. -/
def alarmConf (s : AttrState D) : List Bool :=
  [(s.range .minAlarm).checkIt,(s.range .maxAlarm).checkIt,s.rds.rds,(s.range .minWarning).checkIt,
    (s.range .maxWarning).checkIt]

end Get

section Set
variable (attr : AttrDesc)

/-- Everything `set_properties` treats, in its turn. -/
inductive Item
  | hardCoded | str (p : StrProp) | range (p : RangeProp) | hardCodedAgain | level | rds
  | change (p : ChangeProp) | period (p : PeriodProp)
deriving DecidableEq, Repr

def checkHardCodedProperties (conf : AttributeConfig) : Option DevErrorList :=
  if lowerName conf.name ≠ lowerName attr.name then some (throwHardCodedProp "name")
  else if conf.dataType ≠ some attr.dataType then some (throwHardCodedProp "data_type")
  else if conf.dataFormat ≠ some attr.dataFormat then some (throwHardCodedProp "data_format")
  else if conf.writable ≠ some attr.writable then some (throwHardCodedProp "writable")
  else if conf.maxDimX ≠ attr.maxX then some (throwHardCodedProp "max_dim_x")
  else if conf.maxDimY ≠ attr.maxY then some (throwHardCodedProp "max_dim_y")
  else if lowerName conf.writableAttrName ≠ lowerName attr.writableAttrName then
    some (throwHardCodedProp "writable_attr_name")
  else none

abbrev PropSetter (D : Doubles) := Setter (AttrState D) (AttPropDb D) DevErrorList

def checkOnly (err : Option DevErrorList) : PropSetter D := fun s =>
  match err with
  | some e => (s,.error e)
  | none => (s,.ok [])

def dbaOf (D : Doubles) : DbAction → PropDba D
  | .upd v => .upd v
  | .del => .del

def setStr (p : StrProp) (conf : String) : PropSetter D := fun s =>
  let r := setOneStrProp attr.toAttr p conf (s.str p)
  ({ s with str := Function.update s.str p r.1 },
    .ok (r.2.toList.map (fun dba => ⟨p.name,dbaOf D dba⟩)))

def setRange (mem : Memorized D) (stack : RangeProp → D.Dbl × D.Dbl) (p : RangeProp) (conf : String) :
    PropSetter D := fun s =>
  let r := setOneAlarmProp attr p mem (stack p) conf (s.range p)
  ({ s with range := Function.update s.range p r.1 },
    r.2.map (fun dbas => dbas.map (fun dba => ⟨p.name,dbaOf D dba⟩)))

def setRds (conf : RdsTexts) : PropSetter D := fun s =>
  let r := setRdsProp attr conf s.rds
  ({ s with rds := r.1 },r.2)

def setChange (p : ChangeProp) (conf : String) : PropSetter D := fun s =>
  let r := setOneEventProp attr p conf (s.change p)
  ({ s with change := Function.update s.change p r.1 },r.2)

def setPeriod (p : PeriodProp) (conf : String) : PropSetter D := fun s =>
  let r := setOneEventPeriod D attr p conf (s.period p)
  ({ s with period := Function.update s.period p r.1 },r.2)

/-- The setter of an item for the text the configuration has for it. -/
def itemSetter (mem : Memorized D) (stack : RangeProp → D.Dbl × D.Dbl) (conf : AttributeConfig) :
    Item → PropSetter D
  | .hardCoded | .hardCodedAgain => checkOnly (checkHardCodedProperties attr conf)
  | .level => checkOnly (if conf.level ≠ some attr.dispLevel then some (throwHardCodedProp "level") else none)
  | .str p => setStr attr p (conf.str p)
  | .range p => setRange attr mem stack p (conf.range p)
  | .rds => setRds attr conf.rds
  | .change p => setChange attr p (conf.change p)
  | .period p => setPeriod attr p (conf.period p)

/-- What the `set_properties` of the oldest configuration goes through. -/
def oldItems : List Item :=
  if isState attr.toAttr then []
  else
    [.hardCoded,.str .description,.str .label,.str .unit,.str .standardUnit,.str .displayUnit,
      .str .format,.range .minValue,.range .maxValue,.range .minAlarm,.range .maxAlarm]

def items : List Item :=
  oldItems attr ++ [.hardCodedAgain,.level] ++
    (if isState attr.toAttr ∨ noNumber attr.dataType then []
    else
      [.range .minWarning,.range .maxWarning,.rds,.change .relChange,.change .absChange,
        .change .archiveRelChange,.change .archiveAbsChange]) ++
    [.period .eventPeriod,.period .archivePeriod]

def setProperties (mem : Memorized D) (stack : RangeProp → D.Dbl × D.Dbl) (conf : AttributeConfig) :
    PropSetter D :=
  setAll ((items attr).map (fun i => ⟨i,itemSetter attr mem stack conf i⟩))

end Set

section Update
variable (attr : AttrDesc)

/-- The types without a check of coherency: an exception is thrown in its place. -/
def noRange (t : AttrType) : Prop := noNumber t ∨ t = .devEnum

instance (t : AttrType) : Decidable (noRange t) := inferInstanceAs (Decidable (_ ∨ _))

def checkPair (s : AttrState D) (lo hi : RangeProp) (check : Bool) : Option DevErrorList :=
  if check then
    if noRange attr.dataType then
      some (throwErrDataType attr lo.name "Attribute::set_upd_properties()")
    else if (s.range lo).val.atLeast (s.range hi).val then
      some (throwIncoherentValErr attr lo.name hi.name)
    else none
  else none

/-- The two flags for the value are handed over by value; those of the alarms are read here. -/
def checkRangeCoherency (s : AttrState D) (checkMinValue checkMaxValue : Bool) : Option DevErrorList :=
  (checkPair attr s .minValue .maxValue (checkMinValue && checkMaxValue)).or
    ((checkPair attr s .minAlarm .maxAlarm ((s.range .minAlarm).checkIt && (s.range .maxAlarm).checkIt)).or
      (checkPair attr s .minWarning .maxWarning
        ((s.range .minWarning).checkIt && (s.range .maxWarning).checkIt)))

/-- What a call finds outside the configuration: the memorized side of the attribute, what lies on
the stack in each pass over the properties, and the database: the exception of the first update and
whether the one that puts the old values back fails. -/
structure Call (D : Doubles) where
  mem : Memorized D
  stack : RangeProp → D.Dbl × D.Dbl
  stackDb : RangeProp → D.Dbl × D.Dbl
  stackBack : RangeProp → D.Dbl × D.Dbl
  useDb : Bool
  updError : List (AttPropDb D) → Option DevErrorList
  backFails : List (AttPropDb D) → Bool

/-- The outermost handler: the old configuration is set again, and the exception is handed on
unless that throws itself. -/
def rollBack (c : Call D) (old : AttributeConfig) (s : AttrState D) (e : DevErrorList) :
    AttrState D × Option DevErrorList :=
  let r := setProperties attr c.mem c.stackBack old s
  (r.1,some (match r.2 with
    | .error e' => e'
    | .ok _ => e))

def corruptedDatabase : DevErrorList :=
  thrown "API_CorruptedDatabase"
    ("Device " ++ attr.dName ++ "-> Attribute : " ++ attr.name ++
      "\nDatabase error occurred whilst setting attribute properties. The database may be corrupted.")
    "set_upd_properties"

/-- The handler of a failed database update. -/
def restoreDatabase (c : Call D) (old : AttributeConfig) (s : AttrState D) (e : DevErrorList) :
    AttrState D × DevErrorList :=
  let r := setProperties attr c.mem c.stackDb old s
  (r.1,match r.2 with
    | .error _ => corruptedDatabase attr
    | .ok vDb => if c.backFails vDb then corruptedDatabase attr else e)

/-- `set_upd_properties` of an attribute that is not forwarded and has no start-up exception. -/
def setUpdProperties (c : Call D) (conf : AttributeConfig) (s : AttrState D) :
    AttrState D × Option DevErrorList :=
  let old := getProperties attr s
  match setProperties attr c.mem c.stack conf s with
  | (s1,.error e) => rollBack attr c old s1 e
  | (s1,.ok vDb) =>
    match checkRangeCoherency attr s1 (s.range .minValue).checkIt (s.range .maxValue).checkIt with
    | some e => rollBack attr c old s1 e
    | none =>
      match if c.useDb then c.updError vDb else none with
      | none => (s1,none)
      | some e =>
        let r := restoreDatabase attr c old s1 e
        rollBack attr c old r.1 r.2

end Update

end CppTango.Device.Conf
