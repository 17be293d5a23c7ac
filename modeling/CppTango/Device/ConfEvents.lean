import CppTango.Device.ConfProps

namespace CppTango.Device.Conf

open CppTango.Lib StrProps

variable {D : Doubles}

/-- A work item for the database: `UPD`, `UPD_FROM_DB`, `UPD_FROM_VECT_STR` or `DEL`. -/
inductive PropDba (D : Doubles)
  | upd (dbValue : String)
  | updFromDb (dbValueDb : List D.Dbl)
  | updFromVectStr (dbValueVStr : List String)
  | del

structure AttPropDb (D : Doubles) where
  name : String
  dba : PropDba D

section Rds
variable (attr : AttrDesc)

structure RdsConf (D : Doubles) where
  deltaValStr : String
  deltaVal : CheckVal D
  deltaTStr : String
  deltaT : Int
  rds : Bool

/-- The two texts of `AttributeAlarm` the RDS alarm is made of. -/
structure RdsTexts where
  deltaVal : String
  deltaT : String
deriving DecidableEq, Repr

/-- The text that is chosen, and the default it is taken from. -/
def chooseRds (name library conf : String) (isLibrary : Prop) [Decidable isLibrary] :
    String × Option String :=
  let user := propInList name attr.userDefaultProperties
  let cls := propInList name attr.classProperties
  if isLibrary then (library,none)
  else if sameNoCase conf "NaN" then ((cls.or user).getD library,cls.or user)
  else if conf = "" then (user.getD library,user)
  else (conf,none)

variable (D) in
/-- The default itself when the number is the one of the default. -/
def shownDefault (dflt : Option String) (text : String) : String :=
  match dflt with
  | none => text
  | some d =>
    if text ≠ "Not specified" ∧ (D.read text).2 ∧ D.eq (D.read text).1 (D.read d).1 then d else text

/-- The first half of `set_rds_prop_val`, with whether the value is defined now. -/
def setDeltaVal (conf : String) (s : RdsConf D) : RdsConf D × Except DevErrorList Bool :=
  let c := chooseRds attr "delta_val" "Not specified" conf (sameNoCase conf "Not specified")
  if c.1 = "Not specified" then ({ s with deltaValStr := c.1 },.ok false)
  else if noNumber attr.dataType then
    ({ s with deltaValStr := c.1 },
      .error (throwErrDataType attr "delta_val" "Attribute::set_rds_prop_val()"))
  else
    match convertPropValue D attr.dataType c.1 with
    | .errFormat v =>
      ({ s with deltaValStr := c.1,deltaVal := v },
        .error (throwErrFormat attr "delta_val" "Attribute::convert_prop_value()"))
    | .done text v => ({ s with deltaValStr := shownDefault D c.2 text,deltaVal := v },.ok true)

/-- The second half, for `delta_t`. -/
def setDeltaT (conf : String) (s : RdsConf D) : RdsConf D × Except DevErrorList Bool :=
  let c := chooseRds attr "delta_t" "0" conf
    (sameNoCase conf "Not specified" ∨ sameNoCase conf "0" ∨ sameNoCase conf "0.0")
  if c.1 = "0" then ({ s with deltaTStr := shownDefault D c.2 c.1,deltaT := 0 },.ok false)
  else if noNumber attr.dataType then
    ({ s with deltaTStr := c.1 },
      .error (throwErrDataType attr "delta_t" "Attribute::set_rds_prop_val"))
  else if (D.read c.1).2 then
    let n := D.cast .devLong64 (D.read c.1).1
    ({ s with deltaTStr := shownDefault D c.2 (intString n),deltaT := n },.ok true)
  else
    ({ s with deltaTStr := c.1 },
      .error (throwErrFormat attr "delta_t" "Attribute::set_rds_prop_val"))

def setRdsPropVal (conf : RdsTexts) (s : RdsConf D) : RdsConf D × Except DevErrorList Unit :=
  match setDeltaVal attr conf.deltaVal s with
  | (s1,.error e) => (s1,.error e)
  | (s1,.ok valDefined) =>
    match setDeltaT attr conf.deltaT s1 with
    | (s2,.error e) => (s2,.error e)
    | (s2,.ok tDefined) => ({ s2 with rds := tDefined && valDefined },.ok ())

variable (D) in
def deltaValDb (conf : String) : Except DevErrorList String :=
  let user := propInList "delta_val" attr.userDefaultProperties
  let number : Except DevErrorList String :=
    if noNumber attr.dataType ∨ attr.dataType = .devEnum then
      .error (throwErrDataType attr "delta_val" "Attribute::set_rds_prop_db()")
    else if (D.read conf).2 then .ok (typedText D attr.dataType conf (D.read conf).1)
    else .error (throwErrFormat attr "delta_val" "Attribute::set_rds_prop_db)")
  match propInList "delta_val" attr.classProperties,user with
  | some cls,_ =>
    if sameNoCase conf "NaN" ∨ conf = cls then .ok cls
    else if conf = "" then .ok (user.getD "Not specified")
    else if sameNoCase conf "Not specified" then .ok "Not specified"
    else number
  | none,some user =>
    if sameNoCase conf "NaN" ∨ conf = user ∨ conf = "" then .ok user
    else if sameNoCase conf "Not specified" then .ok "Not specified"
    else number
  | none,none =>
    if isKeyword conf then .ok "Not specified" else number

variable (D) in
/-- The text is compared with the class default of `delta_val` here. -/
def deltaTDb (conf : String) : Except DevErrorList String :=
  let user := propInList "delta_t" attr.userDefaultProperties
  let number : Except DevErrorList String :=
    if noNumber attr.dataType then
      .error (throwErrDataType attr "delta_t" "Attribute::set_rds_prop_db()")
    else if (D.read conf).2 then .ok (intString (D.cast .devLong64 (D.read conf).1))
    else .error (throwErrFormat attr "delta_t" "Attribute::set_rds_prop_db()")
  match propInList "delta_t" attr.classProperties,user with
  | some cls,_ =>
    if sameNoCase conf "NaN" ∨ conf = (propInList "delta_val" attr.classProperties).getD "" then .ok cls
    else if conf = "" then .ok (user.getD "0")
    else if sameNoCase conf "Not specified" then .ok "0"
    else number
  | none,some user =>
    if sameNoCase conf "NaN" ∨ conf = user ∨ conf = "" then .ok user
    else if sameNoCase conf "Not specified" ∨ sameNoCase conf "0" ∨ sameNoCase conf "0.0" then .ok "0"
    else number
  | none,none =>
    if isKeyword conf ∨ sameNoCase conf "0" ∨ sameNoCase conf "0.0" then .ok "0" else number

variable (D) in
/-- Both properties are stored, or both deleted, or nothing is done. -/
def setRdsPropDb (conf : RdsTexts) : Except DevErrorList (List (AttPropDb D)) :=
  match deltaValDb D attr conf.deltaVal with
  | .error e => .error e
  | .ok v =>
    match deltaTDb D attr conf.deltaT with
    | .error e => .error e
    | .ok t =>
      let isCls := (propInList "delta_val" attr.classProperties).isSome ∨
        (propInList "delta_t" attr.classProperties).isSome
      let isUser := (propInList "delta_val" attr.userDefaultProperties).isSome ∨
        (propInList "delta_t" attr.userDefaultProperties).isSome
      let isDefault (defaults : List AttrProperty) : Prop :=
        sameNoCase v ((propInList "delta_val" defaults).getD "") ∧
          sameNoCase t ((propInList "delta_t" defaults).getD "")
      let neither : Prop := sameNoCase v "Not specified" ∧ sameNoCase t "0"
      let both : Prop := ¬ sameNoCase v "Not specified" ∧ ¬ sameNoCase t "0"
      let storeBoth := [⟨"delta_val",.upd v⟩,⟨"delta_t",.upd t⟩]
      let deleteBoth := [⟨"delta_val",.del⟩,⟨"delta_t",.del⟩]
      if isCls ∨ isUser then
        if isDefault (if isCls then attr.classProperties else attr.userDefaultProperties) then
          .ok deleteBoth
        else if neither ∨ both then .ok storeBoth
        else .ok []
      else if both then .ok storeBoth
      else if neither then .ok deleteBoth
      else .ok []

/-- `delta_val` of an enumeration or of encoded data is not looked at here. -/
def rdsChanged (t : AttrType) (old new : RdsConf D) : Prop :=
  old.deltaT ≠ new.deltaT ∨
    t ≠ .devEnum ∧ t ≠ .devEncoded ∧ ¬ noNumber t ∧ old.deltaVal.differs new.deltaVal = true

instance (t : AttrType) (old new : RdsConf D) : Decidable (rdsChanged t old new) :=
  inferInstanceAs (Decidable (_ ∨ _))

def setRdsProp (conf : RdsTexts) (s : RdsConf D) : RdsConf D × Except DevErrorList (List (AttPropDb D)) :=
  match setRdsPropVal attr conf s with
  | (s1,.error e) => (s1,.error e)
  | (s1,.ok ()) => (s1,if rdsChanged attr.dataType s s1 then setRdsPropDb D attr conf else .ok [])

end Rds

section Change
variable (attr : AttrDesc)

/-- The two thresholds of a change property, with the requests for the defaults. -/
structure Validated (D : Doubles) where
  prop : D.Dbl × D.Dbl
  bringUsrDef : Bool × Bool
  bringClassDef : Bool × Bool

variable (D) in
/-- One threshold: its magnitude when it is a number other than 0 and the sentinel. -/
def readChange (propName text : String) : Except DevErrorList (Option D.Dbl) :=
  if (D.read text).2 then
    if D.lt (D.ofInt 0) (D.fabs (D.read text).1) ∧ D.eq (D.read text).1 (D.ofInt intMax) = false then
      if noNumber attr.dataType then
        .error (throwErrDataType attr propName "Attribute::validate_change_properties()")
      else .ok (some (D.fabs (D.read text).1))
    else .ok none
  else .error (throwErrFormat attr propName "Attribute::validate_change_properties()")

/-- Text before the first comma and text behind it. -/
def splitComma (text : String) : String × Option String :=
  (String.ofList (text.toList.takeWhile (fun c => c ≠ ',')),
    if ',' ∈ text.toList then
      some (String.ofList ((text.toList.dropWhile (fun c => c ≠ ',')).drop 1))
    else none)

variable (D) in
def validateMin (propName text : String) : Except DevErrorList (Validated D) :=
  let unset := (D.ofInt intMax,D.ofInt intMax)
  if sameNoCase text "Not specified" then .ok ⟨unset,(false,false),(false,false)⟩
  else if sameNoCase text "NaN" then .ok ⟨unset,(true,true),(true,true)⟩
  else if text = "" then .ok ⟨unset,(true,true),(false,false)⟩
  else
    (readChange D attr propName text).map (fun r =>
      ⟨(r.map (fun x => (D.neg x,x))).getD unset,(false,false),(false,false)⟩)

variable (D) in
def validateMax (propName text : String) (v : Validated D) : Except DevErrorList (Validated D) :=
  let unset : Validated D :=
    ⟨(v.prop.1,D.ofInt intMax),(v.bringUsrDef.1,false),(v.bringClassDef.1,false)⟩
  if sameNoCase text "Not specified" then .ok unset
  else if sameNoCase text "NaN" then .ok { unset with bringClassDef := (v.bringClassDef.1,true) }
  else if text = "" then .ok { unset with bringUsrDef := (v.bringUsrDef.1,true) }
  else
    (readChange D attr propName text).map (fun r =>
      { unset with prop := (v.prop.1,r.getD (D.ofInt intMax)) })

variable (D) in
def validateChangeProperties (propName text : String) : Except DevErrorList (Validated D) :=
  match validateMin D attr propName (splitComma text).1 with
  | .error e => .error e
  | .ok v =>
    match (splitComma text).2 with
    | none => .ok v
    | some propMax => validateMax D attr propName propMax v

variable (D) in
/-- The thresholds of a default, when there is one. -/
def validateDefault (propName : String) (defaults : List AttrProperty) :
    Except DevErrorList (Option (D.Dbl × D.Dbl)) :=
  match propInList propName defaults with
  | none => .ok none
  | some d => (validateChangeProperties D attr propName d).map (fun v => some v.prop)

/-- One of the two thresholds, from the text or from a default it asks for. -/
def selectValue (cls usr : Option D.Dbl) (bringClassDef bringUsrDef : Bool) (x : D.Dbl) : D.Dbl :=
  match cls,usr with
  | some c,none => if bringClassDef then c else x
  | some c,some u => if bringClassDef then c else if bringUsrDef then u else x
  | none,some u => if bringClassDef || bringUsrDef then u else x
  | none,none => x

def eventPropDb (prop dflt : D.Dbl × D.Dbl) : PropDba D :=
  match D.eq prop.1 dflt.1,D.eq prop.2 dflt.2 with
  | true,true => .del
  | false,false => .updFromDb [prop.1,prop.2]
  | true,false => .updFromVectStr ["NaN",D.print prop.2]
  | false,true => .updFromVectStr [D.print prop.1,"NaN"]

/-- The database work for thresholds that have changed. -/
def changeDb (cls usr : Option (D.Dbl × D.Dbl)) (prop : D.Dbl × D.Dbl) : PropDba D :=
  if D.eq prop.1 prop.2 then
    if D.eq prop.1 (D.ofInt intMax) then
      if usr.isSome ∨ cls.isSome then .updFromDb [prop.1] else .del
    else if usr.any (fun u => D.eq prop.1 (D.fabs u.1)) then
      if cls.isSome then .updFromDb [prop.1] else .del
    else if cls.any (fun c => D.eq prop.1 (D.fabs c.1)) then .del
    else .updFromDb [prop.1]
  else
    match cls,usr with
    | some c,_ => eventPropDb prop c
    | none,some u => eventPropDb prop u
    | none,none => .updFromDb [prop.1,prop.2]

def setOneEventProp (p : ChangeProp) (conf : String) (old : D.Dbl × D.Dbl) :
    (D.Dbl × D.Dbl) × Except DevErrorList (List (AttPropDb D)) :=
  match validateDefault D attr p.name attr.userDefaultProperties with
  | .error e => (old,.error e)
  | .ok usr =>
    match validateDefault D attr p.name attr.classProperties with
    | .error e => (old,.error e)
    | .ok cls =>
      match validateChangeProperties D attr p.name conf with
      | .error e => (old,.error e)
      | .ok v =>
        let new := (selectValue (cls.map Prod.fst) (usr.map Prod.fst) v.bringClassDef.1 v.bringUsrDef.1 v.prop.1,
          selectValue (cls.map Prod.snd) (usr.map Prod.snd) v.bringClassDef.2 v.bringUsrDef.2 v.prop.2)
        (new,.ok (if D.eq old.1 new.1 && D.eq old.2 new.2 then [] else [⟨p.name,changeDb cls usr new⟩]))

end Change

section Period
variable (attr : AttrDesc) (p : PeriodProp)

variable (D) in
def readPeriod (text : String) : Except DevErrorList Int32 :=
  if (D.read text).2 then .ok (Int32.ofInt (D.cast .devLong (D.read text).1))
  else .error (throwErrFormat attr p.name "Attribute::set_one_event_period()")

/-- State and status have no defaults here. -/
def AttrDesc.periodDefault (defaults : List AttrProperty) : Option String :=
  if isState attr.toAttr then none else propInList p.name defaults

def PeriodProp.isLibrary (conf : String) : Prop :=
  sameNoCase conf "Not specified" ∨ sameNoCase conf (intString p.default.toInt)

instance (conf : String) : Decidable (p.isLibrary conf) := inferInstanceAs (Decidable (_ ∨ _))

variable (D) in
def periodVal (conf : String) : Except DevErrorList Int32 :=
  let user := attr.periodDefault p attr.userDefaultProperties
  let cls := attr.periodDefault p attr.classProperties
  if p.isLibrary conf then .ok p.default
  else if sameNoCase conf "NaN" then
    match cls.or user with
    | none => .ok p.default
    | some d => readPeriod D attr p d
  else if conf = "" then
    match user with
    | none => .ok p.default
    | some d => readPeriod D attr p d
  else readPeriod D attr p conf

variable (D) in
/-- The integer an integer stream reads from a default; 0 when there is none. -/
def inputEqualDef (conf dflt : String) : Bool :=
  (D.read conf).2 && D.cast .devLong (D.read conf).1 = (readSigned 32 dflt.toList).getD 0

variable (D) in
/-- Whether a period that has changed goes into the database; else it is deleted there. -/
def storePeriod (conf : String) : Bool :=
  match attr.periodDefault p attr.classProperties,attr.periodDefault p attr.userDefaultProperties with
  | some cls,_ =>
    let d := if isKeyword cls then intString p.default.toInt else cls
    !(sameNoCase conf "NaN" || conf = d || inputEqualDef D conf d)
  | none,some user => !(sameNoCase conf "NaN" || conf = user || conf = "" || inputEqualDef D conf user)
  | none,none =>
    !(p.isLibrary conf || sameNoCase conf "NaN" || conf = "" ||
      (D.read conf).2 && D.cast .devLong (D.read conf).1 = p.default.toInt)

variable (D) in
def periodDb (conf : String) : Except DevErrorList (List (AttPropDb D)) :=
  if storePeriod D attr p conf then
    if sameNoCase conf "Not specified" then .ok [⟨p.name,.upd (intString p.default.toInt)⟩]
    else if conf = "" then
      match attr.periodDefault p attr.classProperties,attr.periodDefault p attr.userDefaultProperties with
      | some _,some user => .ok [⟨p.name,.upd user⟩]
      | _,_ => .ok [⟨p.name,.upd (intString p.default.toInt)⟩]
    else
      (readPeriod D attr p conf).map (fun n => [⟨p.name,.upd (intString n.toInt)⟩])
  else .ok [⟨p.name,.del⟩]

variable (D) in
def setOneEventPeriod (conf : String) (old : Int32) : Int32 × Except DevErrorList (List (AttPropDb D)) :=
  match periodVal D attr p conf with
  | .error e => (old,.error e)
  | .ok n => (n,if n = old then .ok [] else periodDb D attr p conf)

end Period

end CppTango.Device.Conf
