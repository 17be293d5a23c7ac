import CppTango.Device.ConfRefused
import CppTango.Device.Creation

namespace CppTango.Device.Conf

open CppTango.Lib StrProps

variable {D : Doubles}

section Config

/-- `AttributeConfig_5`, with what it has besides. -/
structure AttributeConfig5 extends AttributeConfig where
  memorized : Bool
  memInit : Bool
  enumLabels : List String

/-- The part of an attribute object that `AttributeConfig_5` changes. -/
structure EnumState (D : Doubles) extends AttrState D where
  enumLabels : List String

/-- A call with an `AttributeConfig_5`: `is_memorized_init`, and whether it comes from the code of the
device. -/
structure EnumCall (D : Doubles) extends Call D where
  memInit : Bool
  fromDs : Bool

variable (attr : AttrDesc) (c : EnumCall D)

def isWritten (w : AttrWriteType) : Bool := w = .write || w = .readWrite

/-- `get_properties` with `add_config_5_specific`. -/
def getProperties5 (s : EnumState D) : AttributeConfig5 where
  toAttributeConfig := getProperties attr s.toAttrState
  memorized := isWritten attr.writable && c.mem.isMemorized
  memInit := isWritten attr.writable && c.memInit
  enumLabels := s.enumLabels

def checkHardCoded (conf : AttributeConfig5) : Option DevErrorList :=
  if isWritten attr.writable then
    if c.mem.isMemorized ≠ conf.memorized then some (throwHardCodedProp "memorized")
    else if c.mem.isMemorized ∧ c.memInit ≠ conf.memInit then some (throwHardCodedProp "memorized")
    else none
  else none

end Config

section Labels
variable (attr : AttrDesc)

def AttrDesc.labelsUserDef : Option String := propInList "enum_labels" attr.userDefaultProperties

def AttrDesc.labelsClassDef : Option String := propInList "enum_labels" attr.classProperties

def labelsRefused (reason text : String) : DevErrorList := thrown reason text "Attribute::set_prop_5_specific"

def noLabelsDefault : DevErrorList :=
  labelsRefused "API_AttrOptProp"
    (attr.place ++
      "\nNo enumeration labels default library value for attribute of the Tango::DEV_ENUM data type")

variable (D) in
/-- The labels of a text, with the work for the database when they change. -/
def changeLabels (labs : String) (dba : PropDba D) (oldLabels : List String) :
    List String × Except DevErrorList (List (AttPropDb D)) :=
  match buildCheckEnumLabels attr labs with
  | (labels,some e) => (labels,.error e)
  | (labels,none) => (labels,.ok (if labels ≠ oldLabels then [⟨"enum_labels",dba⟩] else []))

variable (D) in
/-- What is done in the database for a list of labels. -/
def labelsDba (labs : String) : PropDba D :=
  if attr.labelsUserDef = some labs then
    if attr.labelsClassDef.isSome then .updFromVectStr (splitLabels labs) else .del
  else if attr.labelsClassDef = some labs then .del
  else .updFromVectStr (splitLabels labs)

/-- The list is none of the keywords alone. -/
def isExplicit (conf : List String) : Prop :=
  match conf with
  | [label] => ¬ isKeyword label
  | _ => True

instance (conf : List String) : Decidable (isExplicit conf) := by
  unfold isExplicit
  split <;> infer_instance

variable (D) in
def setProp5Specific (conf : List String) (fromDs : Bool) (oldLabels : List String) :
    List String × Except DevErrorList (List (AttPropDb D)) :=
  if attr.dataType ≠ .devEnum then (oldLabels,.ok [])
  else
    match conf with
    | [] =>
      (oldLabels,.error (labelsRefused "API_AttrOptProp"
        ("Device " ++ attr.dName ++ "- Attribute : " ++ attr.name ++
          "- No value defined for the property enum_labels")))
    | first::rest =>
      if fromDs = false ∧ isExplicit (first::rest) ∧ (first::rest).length ≠ oldLabels.length then
        (oldLabels,.error (labelsRefused "API_NotSupportedFeature"
          (attr.place ++
            "\nIt's not supported to change enumeration labels number from outside the Tango device class code")))
      else if sameNoCase first "Not specified" then
        (oldLabels,.error (labelsRefused "API_AttrOptProp"
          (attr.place ++
            "\nNo enumeration label(s) default library value for attribute of the Tango::DEV_ENUM data type")))
      else if first = "" then
        match attr.labelsUserDef with
        | none => (oldLabels,.error (noLabelsDefault attr))
        | some dflt => changeLabels D attr dflt .del oldLabels
      else if sameNoCase first "NaN" then
        match attr.labelsClassDef.or attr.labelsUserDef with
        | none => (oldLabels,.error (noLabelsDefault attr))
        | some dflt => changeLabels D attr dflt .del oldLabels
      else
        changeLabels D attr (joined (first::rest)) (labelsDba D attr (joined (first::rest))) oldLabels

end Labels

section Update
variable (attr : AttrDesc) (c : EnumCall D)

def setProperties5 (stack : RangeProp → D.Dbl × D.Dbl) (conf : AttributeConfig5) (fromDs : Bool)
    (s : EnumState D) : EnumState D × Except DevErrorList (List (AttPropDb D)) :=
  match checkHardCoded attr c conf with
  | some e => (s,.error e)
  | none =>
    match setProperties attr c.mem stack conf.toAttributeConfig s.toAttrState with
    | (s1,.error e) => (⟨s1,s.enumLabels⟩,.error e)
    | (s1,.ok vDb) =>
      let r := setProp5Specific D attr conf.enumLabels fromDs s.enumLabels
      (⟨s1,r.1⟩,r.2.map (vDb ++ ·))

/-- The outermost handler; the old configuration is set as if the code of the device did it. -/
def rollBack5 (old : AttributeConfig5) (s : EnumState D) (e : DevErrorList) :
    EnumState D × Except DevErrorList (List (AttPropDb D)) :=
  let r := setProperties5 attr c c.stackBack old true s
  (r.1,.error (match r.2 with
    | .error e' => e'
    | .ok _ => e))

/-- The handler of a failed database update. -/
def restoreDatabase5 (old : AttributeConfig5) (s : EnumState D) (e : DevErrorList) :
    EnumState D × DevErrorList :=
  let r := setProperties5 attr c c.stackDb old c.fromDs s
  (r.1,match r.2 with
    | .error _ => corruptedDatabase attr
    | .ok vDb => if c.backFails vDb then corruptedDatabase attr else e)

/-- `set_upd_properties` with an `AttributeConfig_5`, for an attribute that is not forwarded and has no
start-up exception; when it succeeds, with the work the database has done. -/
def setUpdProperties5 (conf : AttributeConfig5) (s : EnumState D) :
    EnumState D × Except DevErrorList (List (AttPropDb D)) :=
  let old := getProperties5 attr c s
  match setProperties5 attr c c.stack conf c.fromDs s with
  | (s1,.error e) => rollBack5 attr c old s1 e
  | (s1,.ok vDb) =>
    match checkRangeCoherency attr s1.toAttrState (s.range .minValue).checkIt (s.range .maxValue).checkIt with
    | some e => rollBack5 attr c old s1 e
    | none =>
      match if c.useDb then c.updError vDb else none with
      | none => (s1,.ok (if c.useDb then vDb else []))
      | some e =>
        let r := restoreDatabase5 attr c old s1 e
        rollBack5 attr c old r.1 r.2

end Update

section Requests
variable (attr : AttrDesc)

/-- The attribute object and the properties of the attribute in the database. -/
structure LabelState (D : Doubles) where
  att : EnumState D
  db : List AttrProperty

/-- A request that differs from the current configuration in the labels only. -/
structure LabelRequest (D : Doubles) where
  call : EnumCall D
  labels : List String

def LabelRequest.conf (r : LabelRequest D) (s : LabelState D) : AttributeConfig5 :=
  { getProperties5 attr r.call s.att with enumLabels := r.labels }

def changeLabelsOf (s : LabelState D) (r : LabelRequest D) : EnumState D × Except DevErrorList (List (AttPropDb D)) :=
  setUpdProperties5 attr r.call (r.conf attr s) s.att

/-- A request, with its work in the database when it succeeds. -/
def labelStep (s : LabelState D) (r : LabelRequest D) : LabelState D :=
  match changeLabelsOf attr s r with
  | (a,.ok vDb) => ⟨a,updAttDatabase vDb s.db⟩
  | (a,.error _) => ⟨a,s.db⟩

/-- The labels of a start. -/
def startLabels (db : List AttrProperty) : List String × Option DevErrorList :=
  initEnumProp attr (addUserDefault (concat db attr.classProperties) attr.userDefaultProperties)

end Requests

section Statements
variable (attr : AttrDesc)

def BeginsWithKeyword (labels : List String) : Prop := ∃ label ∈ labels.head?, isKeyword label

instance (labels : List String) : Decidable (BeginsWithKeyword labels) :=
  inferInstanceAs (Decidable (∃ label ∈ labels.head?, isKeyword label))

/-- The text the labels of a request are made from; there is none when the request is refused at once. -/
def labelsText (conf : List String) (fromDs : Bool) (oldLabels : List String) : Option String :=
  match conf with
  | [] => none
  | first::rest =>
    if fromDs = false ∧ isExplicit (first::rest) ∧ (first::rest).length ≠ oldLabels.length then none
    else if sameNoCase first "Not specified" then none
    else if first = "" then attr.labelsUserDef
    else if sameNoCase first "NaN" then attr.labelsClassDef.or attr.labelsUserDef
    else some (joined (first::rest))

/-- A request is refused: for the rest of the configuration, for the text of the labels or because two of them
are the same. -/
def LabelsRefused (s : LabelState D) (r : LabelRequest D) : Prop :=
  refused attr r.call.toCall (getProperties attr s.att.toAttrState) s.att.toAttrState = true ∨
    ∀ labs, labelsText attr r.labels r.call.fromDs s.att.enumLabels = some labs → ¬ (splitLabels labs).Nodup

/-- No label holds a comma, and a list that begins with a keyword gets a default with as many labels. -/
def KeepsNumber (s : LabelState D) (r : LabelRequest D) : Prop :=
  (BeginsWithKeyword r.labels →
      ∀ labs, labelsText attr r.labels r.call.fromDs s.att.enumLabels = some labs →
        (splitLabels labs).length = s.att.enumLabels.length) ∧
    (¬ BeginsWithKeyword r.labels → ∀ label ∈ r.labels, ',' ∉ label.toList)

/-- The user default is asked for where there is no other class default, or is there already. -/
def KeepsDefault (s : LabelState D) (r : LabelRequest D) : Prop :=
  r.labels.head? = some "" → ∀ cls usr, attr.labelsClassDef = some cls → attr.labelsUserDef = some usr →
    cls = usr ∨ splitLabels usr = s.att.enumLabels

/-- A refused request finds labels that are read back as they are. -/
structure KeepsLabels (s : LabelState D) (r : LabelRequest D) : Prop where
  back : LabelsRefused attr s r → ¬ BeginsWithKeyword s.att.enumLabels
  number : ¬ LabelsRefused attr s r → r.call.fromDs = false → isExplicit r.labels → KeepsNumber attr s r
  default : ¬ LabelsRefused attr s r → KeepsDefault attr s r

/-- The database takes every request. -/
def DatabaseWorks (c : EnumCall D) : Prop := c.useDb = true ∧ ∀ vDb, c.updError vDb = none

/-- The labels in memory are different from each other and those of a start. -/
structure LabelsRight (s : LabelState D) : Prop where
  distinct : s.att.enumLabels.Nodup
  mirrored : startLabels attr s.db = (s.att.enumLabels,none)

/-- What is to hold of a request. -/
structure RequestRight (s : LabelState D) (r : LabelRequest D) : Prop where
  after : LabelsRight attr (labelStep attr s r)
  kept : (∃ e, (changeLabelsOf attr s r).2 = .error e) → (labelStep attr s r).att.enumLabels = s.att.enumLabels
  number : r.call.fromDs = false → isExplicit r.labels →
    (labelStep attr s r).att.enumLabels.length = s.att.enumLabels.length

end Statements

end CppTango.Device.Conf
