import CppTango.Device.ConfRestart
import CppTango.Lib.Lists
import CppTango.Lib.Text
import Mathlib.Data.Char
import Mathlib.Data.List.Lex

namespace CppTango.Device.Conf

open CppTango.Lib StrProps

section Labels
variable {l : List String}

/-- The labels of a comma-separated text. -/
def splitLabels (labs : String) : List String := (labs.toList.splitOn ',').map String.ofList

/-- The first label that is the same as the one behind it. -/
def equalNeighbours : List String → Option String
  | a::b::l => if a = b then some a else equalNeighbours (b::l)
  | _ => none

/-- `enum_labels` afterwards, which is filled also when two labels are the same, and the exception. -/
def buildCheckEnumLabels (attr : AttrDesc) (labs : String) : List String × Option DevErrorList :=
  let labels := splitLabels labs
  (labels,(equalNeighbours (sortBy String.toList labels)).map fun label =>
    thrown "API_AttrOptProp"
      ("Enumeration for attribute " ++ attr.name ++ " has two similar labels (" ++ label ++ ", " ++ label ++ ")")
      "Attribute::build_check_enum_labels")

def propertyMissing (attr : AttrDesc) (propName : String) : DevErrorList :=
  thrown "API_AttrOptProp" ("Property " ++ propName ++ " is missing for attribute " ++ attr.name)
    "Attribute::get_attr_value"

/-- The handler of `init_enum_prop`. -/
def enumException (attr : AttrDesc) (e : DevErrorList) : DevErrorList :=
  match e with
  | [] => []
  | e::es =>
    if "Property enum_labels is missing".toList <:+: e.desc.toList then
      { e with
        desc := "The attribute " ++ attr.name ++
          " has the DEV_ENUM data type but there is no enumeration label(s) defined" }::es
    else e::es

/-- The labels of a new attribute object and its start-up exception for them. -/
def initEnumProp (attr : AttrDesc) (propList : List AttrProperty) : List String × Option DevErrorList :=
  match propInList "enum_labels" propList with
  | none => ([],some (enumException attr (propertyMissing attr "enum_labels")))
  | some labs =>
    let r := buildCheckEnumLabels attr labs
    (r.1,r.2.map (enumException attr))

theorem joined_toList (v : String) (vs : List String) :
    (joined (v::vs)).toList = [','].intercalate ((v::vs).map String.toList) := by
  induction vs generalizing v with
  | nil => simp [joined,List.intercalate]
  | cons w vs ih =>
    have hstep : joined (v::w::vs) = joined ((v ++ "," ++ w)::vs) := rfl
    rw [hstep,ih]
    cases vs <;> simp [List.intercalate]

theorem splitLabels_ne_nil (labs : String) : splitLabels labs ≠ [] := by
  unfold splitLabels
  rw [ne_eq,List.map_eq_nil_iff]
  exact List.splitOn_ne_nil _ _

theorem no_comma {labs label : String} (h : label ∈ splitLabels labs) : ',' ∉ label.toList := by
  obtain ⟨e,he,rfl⟩ := List.mem_map.mp h
  rw [String.toList_ofList]
  exact not_mem_of_mem_splitOn he

/-- Labels without a comma are read back from the text they are joined in. -/
theorem splitLabels_joined (h : ∀ label ∈ l, ',' ∉ label.toList) (hne : l ≠ []) : splitLabels (joined l) = l := by
  cases l with
  | nil => exact absurd rfl hne
  | cons v vs =>
    unfold splitLabels
    rw [joined_toList,List.splitOn_intercalate ',' (by simpa using h) (by simp),List.map_map]
    exact (List.map_congr_left fun x _ => String.ofList_toList).trans (List.map_id _)

/-- The labels hold the whole text. -/
theorem splitLabels_inj {a b : String} (h : splitLabels a = splitLabels b) : a = b := by
  have hl : a.toList.splitOn ',' = b.toList.splitOn ',' :=
    List.map_injective_iff.mpr (fun _ _ h => String.ofList_inj.mp h) h
  have hj := congrArg (List.intercalate [',']) hl
  rw [List.intercalate_splitOn,List.intercalate_splitOn] at hj
  exact String.toList_inj.mp hj

theorem joined_splitLabels (labs : String) : joined (splitLabels labs) = labs :=
  splitLabels_inj (splitLabels_joined (fun _ h => no_comma h) (splitLabels_ne_nil labs))

section Distinct

/-- Equal neighbours in a list in order are equal labels. -/
theorem equalNeighbours_none (h : l.Pairwise (fun a b => a.toList ≤ b.toList)) :
    equalNeighbours l = none ↔ l.Nodup := by
  induction l with
  | nil => simp [equalNeighbours]
  | cons a l ih =>
    obtain ⟨ha,hl⟩ := List.pairwise_cons.mp h
    cases l with
    | nil => simp [equalNeighbours]
    | cons b l =>
      unfold equalNeighbours
      rw [List.nodup_cons]
      by_cases hab : a = b
      · rw [if_pos hab]
        simp [hab]
      · rw [if_neg hab,ih hl]
        -- the list is in order: `a` is below all that stands behind `b`
        have hlt : a.toList < b.toList :=
          lt_of_le_of_ne (ha b List.mem_cons_self) (fun h => hab (String.toList_inj.mp h))
        have hna : a ∉ b::l := by
          intro hm
          rcases List.mem_cons.mp hm with rfl | hm
          · exact hab rfl
          · exact absurd ((List.pairwise_cons.mp hl).1 a hm) (not_le.mpr hlt)
        simp [hna]

theorem buildCheckEnumLabels_ok (attr : AttrDesc) {labs : String} :
    (buildCheckEnumLabels attr labs).2 = none ↔ (splitLabels labs).Nodup := by
  unfold buildCheckEnumLabels
  rw [Option.map_eq_none_iff,equalNeighbours_none (sortBy_le String.toList (splitLabels labs))]
  exact (sortBy_perm _ _).nodup_iff

end Distinct

end Labels

section Created
variable {D : Doubles}

section Lists

/-- A property as the database has it: one string or more. -/
structure DbProperty where
  name : String
  first : String
  rest : List String
deriving DecidableEq, Repr

/-- All strings of a property in one. -/
def DbProperty.together (sep : String) (q : DbProperty) : AttrProperty :=
  ⟨q.name,q.rest.foldl (fun tmp v => tmp ++ sep ++ v) q.first⟩

/-- The properties at class level, as `init_class_attribute` puts them into the `Attr`. -/
def initClassAttribute (attr : AttrDesc) (cls : List DbProperty) : AttrDesc :=
  { attr with classProperties := cls.map (DbProperty.together " ") }

/-- A device that is created, with the properties of the attribute at device level. -/
structure NewDevice where
  name : String
  props : List DbProperty
deriving DecidableEq, Repr

def devProp (d : NewDevice) : List AttrProperty := d.props.map (DbProperty.together ",")

end Lists

section Construct

/-- What `validate_change_properties` leaves of a default: `erase` takes what stands before the comma. -/
def erased (text : String) : String := (splitComma text).2.getD text

/-- The same for the first default of a name. -/
def eraseDefault (name : String) : List AttrProperty → List AttrProperty
  | [] => []
  | q::l => if q.name = name then ⟨q.name,erased q.value⟩::l else q::eraseDefault name l

/-- The thresholds of a new attribute object and its start-up exception for them. -/
structure ChangeInit (D : Doubles) where
  prop : D.Dbl × D.Dbl
  startupException : Option DevErrorList

variable (D) in
/-- One property in `init_event_prop`, with the user defaults afterwards. -/
def initChangeProp (attr : AttrDesc) (propList defUserProp : List AttrProperty) (p : ChangeProp) :
    ChangeInit D × List AttrProperty :=
  let unset := (D.ofInt intMax,D.ofInt intMax)
  match propInList p.name propList with
  | none => (⟨unset,none⟩,defUserProp)
  | some text =>
    if noNumber attr.dataType then
      (⟨unset,some (throwErrDataType attr p.name "Attribute::init_event_prop()")⟩,defUserProp)
    else
      match validateChangeProperties D attr p.name text with
      | .error e => (⟨unset,some e⟩,defUserProp)
      | .ok v =>
        if v.bringUsrDef.1 || v.bringUsrDef.2 then
          match validateDefault D attr p.name defUserProp with
          | .ok none => (⟨v.prop,none⟩,defUserProp)
          -- the default is handed over by reference
          | .error e => (⟨v.prop,some e⟩,eraseDefault p.name defUserProp)
          | .ok (some usr) =>
            (⟨(if v.bringUsrDef.1 then usr.1 else v.prop.1,if v.bringUsrDef.2 then usr.2 else v.prop.2),none⟩,
              eraseDefault p.name defUserProp)
        else (⟨v.prop,none⟩,defUserProp)

variable (D) in
def initEventProp (attr : AttrDesc) (propList : List AttrProperty) :
    (ChangeProp → ChangeInit D) × List AttrProperty :=
  let rel := initChangeProp D attr propList attr.userDefaultProperties .relChange
  let abs := initChangeProp D attr propList rel.2 .absChange
  let archiveRel := initChangeProp D attr propList abs.2 .archiveRelChange
  let archiveAbs := initChangeProp D attr propList archiveRel.2 .archiveAbsChange
  (fun
    | .relChange => rel.1
    | .absChange => abs.1
    | .archiveRelChange => archiveRel.1
    | .archiveAbsChange => archiveAbs.1,
    archiveAbs.2)

/-- The part of a new attribute object that is looked at. -/
structure Made (D : Doubles) where
  change : ChangeProp → ChangeInit D
  labels : List String × Option DevErrorList

variable (D) in
/-- The attribute of a new device, and the user defaults, which all devices of the class share. -/
def construct (attr : AttrDesc) (d : NewDevice) : Made D × List AttrProperty :=
  let propList := addUserDefault (concat (devProp d) attr.classProperties) attr.userDefaultProperties
  let own := { attr with dName := d.name }
  let r := initEventProp D own propList
  (⟨r.1,if attr.dataType = .devEnum then initEnumProp own propList else ([],none)⟩,r.2)

variable (D) in
def create (attr : AttrDesc) (d : NewDevice) : AttrDesc :=
  { attr with userDefaultProperties := (construct D attr d).2 }

variable (D) in
/-- The attribute of a class after the creation of some devices. -/
def createAll (attr : AttrDesc) (ds : List NewDevice) : AttrDesc := ds.foldl (create D) attr

end Construct

section Statements

variable (D) in
/-- A part of a change property that can be read. -/
def Readable (part : String) : Prop := isKeyword part ∨ (D.read part).2 = true

variable (D) in
/-- A text that can be read and asks for a user default. -/
def AsksUserDefault (text : String) : Prop :=
  let c := splitComma text
  Readable D c.1 ∧ (∀ b, c.2 = some b → Readable D b) ∧ (sameNoCase c.1 "NaN" ∨ c.1 = "" ∨ c.2 = some "")

variable (D) in
/-- The device asks for a user default that is a pair. -/
def CutsDefault (attr : AttrDesc) (d : NewDevice) : Prop :=
  ¬ noNumber attr.dataType ∧ ∃ p : ChangeProp, ∃ text dflt,
    startProp attr p.name (devProp d) = some text ∧ AsksUserDefault D text ∧
      propInList p.name attr.userDefaultProperties = some dflt ∧ ',' ∈ dflt.toList

variable (D) in
/-- Every device gets what it gets when it is created first, and the user defaults stay. -/
def Alone (attr : AttrDesc) (creations : List NewDevice) : Prop :=
  ∀ l d, l ++ [d] <+: creations →
    (construct D (createAll D attr l) d).1 = (construct D attr d).1 ∧
      (createAll D attr (l ++ [d])).userDefaultProperties = attr.userDefaultProperties

variable (D) in
/-- A list at class level has the effect it has at device level. -/
def AtBothLevels (attr : AttrDesc) (cls : List DbProperty) (q : DbProperty) (d : NewDevice) : Prop :=
  construct D (initClassAttribute attr (q::cls)) d =
    construct D (initClassAttribute attr cls) { d with props := q::d.props }

end Statements

end Created

end CppTango.Device.Conf
